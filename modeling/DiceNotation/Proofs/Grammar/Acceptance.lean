import DiceNotation.Proofs.Grammar.Reading

/-!
# The texts that compile

A text compiles exactly when its lexemes are the yield of a derivation tree that is admitted at the top
of the text. `Admissible` says so in terms of the lexemes alone, and `compile_iff_admissible` adds that
the tree is the only one with these lexemes and that the program is its postfix form.
-/

namespace DiceNotation

open Paren

/-! ## Expressions and their trees -/

namespace Derivation

variable {s : Nonterminal}

/-- No junk stands in a tree. -/
theorem token_ne_junk (t : Derivation s) : ∀ l ∈ t.yield, l.token ≠ .junk := by
  induction t with
  | number ds => exact List.forall_mem_singleton.2 (by simp)
  | paren b ih =>
    exact List.forall_mem_cons.2 ⟨by decide, List.forall_mem_append.2
      ⟨ih, List.forall_mem_singleton.2 (by decide)⟩⟩
  | bare p ih => exact ih
  | die p ih => exact List.forall_mem_cons.2 ⟨by decide, ih⟩
  | dice p q ihp ihq =>
    exact List.forall_mem_append.2 ⟨ihp, List.forall_mem_cons.2 ⟨by decide, ihq⟩⟩
  | plain b ih => exact ih
  | negated b ih => exact List.forall_mem_cons.2 ⟨by decide, ih⟩
  | single x ih => exact ih
  | joined x op _ y ihx ihy =>
    have hop : op.token ≠ .junk := by cases op <;> decide
    exact List.forall_mem_append.2 ⟨ihx, List.forall_mem_cons.2 ⟨hop, ihy⟩⟩

end Derivation

/-- Nothing follows at the end of a text. -/
theorem Nonterminal.stops_nil (s : Nonterminal) : s.Stops [] :=
  ⟨fun _ h => absurd h (by simp), fun _ h => absurd h (by simp)⟩

/-- The lexemes of a text are read as an expression when they are the yield of an admitted tree of
it. -/
theorem parseLexemes_eq_ok_iff {ls : List Lexeme} (hg : ∀ l ∈ ls, l.Genuine) {e : Expr} :
    parseLexemes ls = .ok e ↔
      ∃ t : Derivation (.chain .sum), t.yield = ls ∧ t.Admitted 0 ∧ e = t.expr := by
  have hreads := Parser.reads_expression (maxNesting + 1) 0 rfl (Nat.zero_le _)
  unfold parseLexemes
  constructor
  · intro h
    obtain ⟨c, hclean, hread⟩ := bind_eq_ok_iff.1 h
    obtain ⟨⟨e', c'⟩, hread, hend⟩ := bind_eq_ok_iff.1 hread
    obtain ⟨rfl, -⟩ := Cursor.clean_eq_ok_iff.1 hclean
    obtain ⟨t, r, ha, rfl, rfl, rfl⟩ := hreads.sound ls e' c' hg hread
    -- An expression that ends before the text does is refused.
    cases r with
    | nil =>
      cases hend
      exact ⟨t, (List.append_nil _).symm, ha, rfl⟩
    | cons l r => cases hend
  · rintro ⟨t, rfl, ha, rfl⟩
    have hahead := t.noJunkAhead_yield []
    have hread := hreads.complete t [] ha (Nonterminal.stops_nil _)
    rw [List.append_nil] at hahead hread
    rw [Cursor.clean_eq_ok_iff.2 ⟨rfl, hahead⟩, ok_bind, hread]
    rfl

/-- A text compiles to the program of the expression that it spells. -/
theorem compile_eq_ok_iff {text : String} {p : Program} :
    compile text = .ok p ↔ ∃ e, parse text = .ok e ∧ p = e.program := by
  unfold compile
  rw [bind_eq_ok_iff]
  exact exists_congr fun e => and_congr_right fun _ => ⟨fun h => by cases h; rfl, fun h => by rw [h]; rfl⟩

/-! ## Admissible lexemes -/

/-- What lexemes have to be for their text to compile. -/
structure Admissible (ls : List Lexeme) : Prop where
  /-- All of the text is of the notation. -/
  noJunk : ∀ l ∈ ls, l.token ≠ .junk
  /-- The lexemes derive from the grammar. -/
  derives : ∃ t : Derivation (.chain .sum), t.yield = ls
  /-- No number is greater than the greatest literal. -/
  literals : ∀ l ∈ ls, l.token = .number → digitsValue l.chars ≤ 2 ^ 63 - 1
  /-- Each run of parentheses that open closes in one piece. -/
  runsClose : RunsClose (ls.map Lexeme.token)
  /-- No run of parentheses stands inside 64 others. -/
  runsNest : RunsNestBelow 64 (ls.map Lexeme.token)

/-- A tree of genuine lexemes is admitted at the top of a text when its yield is admissible. -/
theorem Derivation.admitted_zero_iff (t : Derivation (.chain .sum)) (hg : ∀ l ∈ t.yield, l.Genuine) :
    t.Admitted 0 ↔ Admissible t.yield := by
  constructor
  · rintro ⟨hfits, hclosed, hnesting⟩
    refine ⟨t.token_ne_junk, ⟨t, rfl⟩, fun l hl hn => (hfits l hl hn).2, ?_, ?_⟩
    · exact t.runsClose_tokens_iff.2 hclosed
    · rw [Nat.zero_add] at hnesting
      exact (t.runsNestBelow_tokens_iff hclosed 64).2 hnesting
  · intro h
    have hclosed := t.runsClose_tokens_iff.1 h.runsClose
    refine ⟨fun l hl hn => ⟨(hg l hl).isDigit_of_mem hn, h.literals l hl hn⟩, hclosed, ?_⟩
    rw [Nat.zero_add]
    exact (t.runsNestBelow_tokens_iff hclosed 64).1 h.runsNest

/-- A text spells an expression when its lexemes are admissible and it is that of their tree. -/
theorem parse_eq_ok_iff {text : String} {e : Expr} :
    parse text = .ok e ↔ Admissible (lexemes text.toList) ∧
      ∃ t : Derivation (.chain .sum), t.yield = lexemes text.toList ∧ e = t.expr := by
  have hg : ∀ l ∈ lexemes text.toList, l.Genuine := fun l hl => Lexeme.genuine_of_mem_lexemes hl
  rw [parse, parseLexemes_eq_ok_iff hg]
  constructor
  · rintro ⟨t, hy, ha, he⟩
    rw [← hy] at hg
    exact ⟨hy ▸ (t.admitted_zero_iff hg).1 ha, t, hy, he⟩
  · rintro ⟨ha, t, hy, he⟩
    rw [← hy] at hg ha
    exact ⟨t, hy, (t.admitted_zero_iff hg).2 ha, he⟩

/-- Admissible lexemes have one tree: what they are read as is the expression of each of their trees,
and with the yield it determines the tree. -/
theorem Admissible.unique {text : String} (h : Admissible (lexemes text.toList))
    {t t' : Derivation (.chain .sum)} (ht : t.yield = lexemes text.toList)
    (ht' : t'.yield = lexemes text.toList) : t = t' := by
  have hparse := parse_eq_ok_iff.2 ⟨h, t, ht, rfl⟩
  have hparse' := parse_eq_ok_iff.2 ⟨h, t', ht', rfl⟩
  rw [hparse'] at hparse
  exact Derivation.ext_yield_expr (ht.trans ht'.symm) (Except.ok.inj hparse).symm

/-- A text compiles exactly when its lexemes are admissible, and then to the postfix form of their only
derivation tree. -/
theorem compile_iff_admissible (text : String) :
    ((∃ p, compile text = .ok p) ↔ Admissible (lexemes text.toList)) ∧
      ∀ p, compile text = .ok p → ∃ t : Derivation (.chain .sum), t.yield = lexemes text.toList ∧
        (∀ t' : Derivation (.chain .sum), t'.yield = lexemes text.toList → t' = t) ∧
        p.ops = t.code := by
  refine ⟨⟨?_, fun h => ?_⟩, fun p hp => ?_⟩
  · rintro ⟨p, hp⟩
    obtain ⟨e, he, -⟩ := compile_eq_ok_iff.1 hp
    exact (parse_eq_ok_iff.1 he).1
  · obtain ⟨t, ht⟩ := h.derives
    exact ⟨t.expr.program, compile_eq_ok_iff.2 ⟨t.expr, parse_eq_ok_iff.2 ⟨h, t, ht, rfl⟩, rfl⟩⟩
  · obtain ⟨e, he, rfl⟩ := compile_eq_ok_iff.1 hp
    obtain ⟨h, t, ht, rfl⟩ := parse_eq_ok_iff.1 he
    exact ⟨t, ht, fun t' ht' => h.unique ht' ht, t.code_expr⟩

/-- The runs of `((2))d(1+6)` close in one piece, so it compiles. -/
theorem compile_runs_admissible :
    Admissible (lexemes "((2))d(1+6)".toList) ∧
      ∃ t : Derivation (.chain .sum), t.yield = lexemes "((2))d(1+6)".toList ∧
        (∀ t' : Derivation (.chain .sum), t'.yield = lexemes "((2))d(1+6)".toList → t' = t) ∧
        [.num 2, .num 1, .num 6, .arith .add, .dice] = t.code := by
  have hcompile : compile "((2))d(1+6)" =
      .ok ⟨[.num 2, .num 1, .num 6, .arith .add, .dice], 3⟩ := by with_unfolding_all rfl
  have h := compile_iff_admissible "((2))d(1+6)"
  exact ⟨h.1.1 ⟨_, hcompile⟩, h.2 _ hcompile⟩

end DiceNotation
