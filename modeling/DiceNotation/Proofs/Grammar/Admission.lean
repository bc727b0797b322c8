import DiceNotation.Proofs.Grammar.Cursor
import DiceNotation.Proofs.Grammar.Literal
import DiceNotation.Proofs.Grammar.Runs

/-!
# The trees that may be read

Two conditions on derivation trees that the parsers depend on. The one is about what follows: a parser
goes on as long as it can, so it stops behind a tree only where the next token would not make the tree
longer (`Nonterminal.Stops`). The other is about the tree: its literals must not be too large, its runs
of parentheses have to close in one piece, and its groups must not nest too deep
(`Derivation.Admitted`). An admitted tree of a group is a run of parentheses around a body that starts
with none (`Derivation.exists_body_of_group`), which is the form in which a group is read.
-/

namespace DiceNotation

/-! ## First and following tokens -/

/-- The operator of a level that a token spells. -/
def Level.join? : Level → Token → Option Arith
  | .sum => additive?
  | .product => multiplicative?

/-- The tokens that join at a level are those of its operators. -/
theorem Level.join?_eq_some_iff {l : Level} {t : Token} {op : Arith} :
    l.join? t = some op ↔ op.level = l ∧ t = op.token := by
  cases l <;> cases op <;> cases t <;>
    simp [Level.join?, additive?, multiplicative?, Arith.level, Arith.token]

/-- The tokens that a tree of a nonterminal can start with. -/
def Nonterminal.starts : Nonterminal → Token → Prop
  | primary, t => t = .number ∨ t = .openParen
  | dice, t => t = .number ∨ t = .openParen ∨ t = .dice
  | signed, t => t = .number ∨ t = .openParen ∨ t = .dice ∨ t = .minus
  | chain _, t => t = .number ∨ t = .openParen ∨ t = .dice ∨ t = .minus

/-- The tokens that can make a tree of a nonterminal longer. -/
def Nonterminal.continues : Nonterminal → Token → Prop
  | primary, _ => False
  | dice, t => t = .dice
  | signed, t => t = .dice
  | chain .product, t => t = .dice ∨ (multiplicative? t).isSome
  | chain .sum, t => t = .dice ∨ (multiplicative? t).isSome ∨ (additive? t).isSome

/-- Nothing that follows makes a tree of a nonterminal longer, and no junk stops the cursor there. -/
def Nonterminal.Stops (s : Nonterminal) (ls : List Lexeme) : Prop :=
  NoJunkAhead ls ∧ ∀ l ∈ ls.head?, ¬ s.continues l.token

/-- Nothing makes a primary longer. -/
theorem stops_primary {ls : List Lexeme} (h : NoJunkAhead ls) : Nonterminal.primary.Stops ls :=
  ⟨h, fun _ _ hc => hc⟩

/-- What stops a chain stops its last operand. -/
theorem Level.stops_operand {l : Level} {ls : List Lexeme} (h : (Nonterminal.chain l).Stops ls) :
    l.operand.Stops ls := by
  refine ⟨h.1, fun x hx hc => h.2 x hx ?_⟩
  cases l with
  | sum => exact hc.imp_right .inl
  | product => exact .inl hc

/-- Behind a chain that has stopped no operator of its level follows. -/
theorem Level.join?_eq_none {l : Level} {ls : List Lexeme} (n : Nat)
    (h : (Nonterminal.chain l).Stops ls) : l.join? (Cursor.token ⟨ls, n⟩) = none := by
  cases ls with
  | nil => cases l <;> rfl
  | cons x ls =>
    have hx := h.2 x rfl
    cases l with
    | sum =>
      have hnot : ¬ (additive? x.token).isSome := fun hs => hx (.inr (.inr hs))
      simpa [Level.join?] using hnot
    | product =>
      have hnot : ¬ (multiplicative? x.token).isSome := fun hs => hx (.inr hs)
      simpa [Level.join?] using hnot

/-- An operator stops the operand on its left. -/
theorem Arith.stops_operand (op : Arith) {l : Level} (h : op.level = l) (ls : List Lexeme) :
    l.operand.Stops (.of op.token :: ls) := by
  subst h
  refine ⟨noJunkAhead_cons (by cases op <;> decide), fun x hx hc => ?_⟩
  cases hx
  cases op <;> simp [Arith.level, Level.operand, Nonterminal.continues, Arith.token,
    multiplicative?] at hc

namespace Derivation

variable {s : Nonterminal}

/-- The first lexeme of a tree is one that its nonterminal starts with. -/
theorem exists_yield_cons (t : Derivation s) : ∃ l ls, t.yield = l :: ls ∧ s.starts l.token := by
  induction t with
  | number ds => exact ⟨_, _, rfl, .inl rfl⟩
  | paren b ih => exact ⟨_, _, rfl, .inr rfl⟩
  | bare p ih =>
    obtain ⟨l, ls, hy, hs⟩ := ih
    exact ⟨l, ls, hy, hs.imp_right .inl⟩
  | die p ih => exact ⟨_, _, rfl, .inr (.inr rfl)⟩
  | dice p q ihp ihq =>
    obtain ⟨l, ls, hy, hs⟩ := ihp
    exact ⟨l, ls ++ .of .dice :: q.yield, by rw [yield, hy]; rfl, hs.imp_right .inl⟩
  | plain b ih =>
    obtain ⟨l, ls, hy, hs⟩ := ih
    exact ⟨l, ls, hy, hs.imp_right fun h => h.imp_right .inl⟩
  | negated b ih => exact ⟨_, _, rfl, .inr (.inr (.inr rfl))⟩
  | @single l x ih =>
    obtain ⟨y, ys, hy, hs⟩ := ih
    cases l <;> exact ⟨y, ys, hy, hs⟩
  | joined x op h y ihx ihy =>
    obtain ⟨l, ls, hy, hs⟩ := ihx
    exact ⟨l, ls ++ .of op.token :: y.yield, by rw [yield, hy]; rfl, hs⟩

/-- A tree does not start with junk. -/
theorem noJunkAhead_yield (t : Derivation s) (ls : List Lexeme) : NoJunkAhead (t.yield ++ ls) := by
  obtain ⟨l, r, hy, hs⟩ := t.exists_yield_cons
  rw [hy, List.cons_append]
  refine noJunkAhead_cons fun hj => ?_
  rw [hj] at hs
  cases s <;> simp [Nonterminal.starts] at hs

/-- The token at a cursor before a tree is one that its nonterminal starts with. -/
theorem starts_token (t : Derivation s) (ls : List Lexeme) (n : Nat) :
    s.starts (Cursor.token ⟨t.yield ++ ls, n⟩) := by
  obtain ⟨l, r, hy, hs⟩ := t.exists_yield_cons
  rw [hy]
  exact hs

end Derivation

/-! ## Trees that may be read -/

/-- A lexeme that is no number, or one whose value is a literal's. -/
def Lexeme.Fits (l : Lexeme) : Prop :=
  l.token = .number → (∀ c ∈ l.chars, isDigit c = true) ∧ digitsValue l.chars ≤ maxLiteral

/-- The lexeme of a token besides numbers has no value that could be too large. -/
theorem Lexeme.fits_of {t : Token} (h : t ≠ .number) : (Lexeme.of t).Fits :=
  fun ht => absurd ht h

namespace Derivation

variable {s : Nonterminal}

/-- A tree that may stand inside of `n` groups: its literals are not too large, its runs of
parentheses close in one piece, and with the groups around it it is not nested too deep. -/
def Admitted (n : Nat) (t : Derivation s) : Prop :=
  (∀ l ∈ t.yield, l.Fits) ∧ t.RunsClosed ∧ n + t.expr.nesting ≤ maxNesting

/-- One die is admitted as its sides are. -/
theorem admitted_die {n : Nat} {p : Derivation .primary} : (die p).Admitted n ↔ p.Admitted n := by
  rw [Admitted, yield, List.forall_mem_cons, and_iff_right (Lexeme.fits_of (by decide))]
  rfl

/-- A negation is admitted as its operand is. -/
theorem admitted_negated {n : Nat} {b : Derivation .dice} :
    (negated b).Admitted n ↔ b.Admitted n := by
  rw [Admitted, yield, List.forall_mem_cons, and_iff_right (Lexeme.fits_of (by decide))]
  rfl

/-- Dice are admitted as their operands are. -/
theorem admitted_dice {n : Nat} {p q : Derivation .primary} :
    (dice p q).Admitted n ↔ p.Admitted n ∧ q.Admitted n := by
  simp only [Admitted, yield, List.forall_mem_append, List.forall_mem_cons, RunsClosed, expr,
    Expr.nesting, and_iff_right (Lexeme.fits_of (show Token.dice ≠ .number by decide))]
  constructor
  · rintro ⟨⟨hfp, hfq⟩, ⟨hrp, hrq⟩, hn⟩
    exact ⟨⟨hfp, hrp, by omega⟩, hfq, hrq, by omega⟩
  · rintro ⟨⟨hfp, hrp, hnp⟩, hfq, hrq, hnq⟩
    exact ⟨⟨hfp, hfq⟩, ⟨hrp, hrq⟩, by omega⟩

/-- A chain is admitted as its operands are. -/
theorem admitted_joined {n : Nat} {l : Level} {x : Derivation (.chain l)} {op : Arith}
    {h : op.level = l} {y : Derivation l.operand} :
    (joined x op h y).Admitted n ↔ x.Admitted n ∧ y.Admitted n := by
  have hop : op.token ≠ .number := by cases op <;> decide
  simp only [Admitted, yield, List.forall_mem_append, List.forall_mem_cons, RunsClosed, expr,
    Expr.nesting, and_iff_right (Lexeme.fits_of hop)]
  constructor
  · rintro ⟨⟨hfx, hfy⟩, ⟨hrx, hry⟩, hn⟩
    exact ⟨⟨hfx, hrx, by omega⟩, hfy, hry, by omega⟩
  · rintro ⟨⟨hfx, hrx, hnx⟩, hfy, hry, hny⟩
    exact ⟨⟨hfx, hfy⟩, ⟨hrx, hry⟩, by omega⟩

/-- A body in so many pairs of parentheses more than one. -/
def parens (b : Derivation (.chain .sum)) : Nat → Derivation .primary
  | 0 => paren b
  | d + 1 => paren (single (l := .sum) (single (l := .product) (plain (bare (parens b d)))))

/-- The parentheses of a run stand on either side of the body. -/
theorem yield_parens (b : Derivation (.chain .sum)) (d : Nat) :
    (parens b d).yield = List.replicate (d + 1) (.of .openParen) ++
      (b.yield ++ List.replicate (d + 1) (.of .closeParen)) := by
  induction d with
  | zero => rfl
  | succ d ih =>
    show .of .openParen :: ((parens b d).yield ++ [.of .closeParen]) = _
    rw [ih, List.replicate_succ (n := d + 1), List.replicate_succ' (n := d + 1)]
    simp only [List.cons_append, List.append_assoc]

/-- The parentheses of a run are one group. -/
theorem expr_parens {b : Derivation (.chain .sum)} (hb : ¬ b.expr.IsGroup) (d : Nat) :
    (parens b d).expr = .group d b.expr := by
  induction d with
  | zero =>
    rcases b.expr.wrap_cases with ⟨n, e, he, -⟩ | ⟨-, he⟩
    · exact absurd ⟨n, e, he⟩ hb
    · exact he
  | succ d ih =>
    show (parens b d).expr.wrap = _
    rw [ih]
    rfl

/-- The parentheses of a run close in one piece. -/
theorem runsClosed_parens {b : Derivation (.chain .sum)} (hb : ¬ b.expr.IsGroup)
    (ho : b.tokens[0]? ≠ some .openParen) (hr : b.RunsClosed) (d : Nat) :
    (parens b d).RunsClosed := by
  induction d with
  | zero => exact ⟨hr, fun h => absurd h ho⟩
  | succ d ih => exact ⟨ih, fun _ => ⟨d, b.expr, expr_parens hb d⟩⟩

/-- A tree that starts with no parenthesis is no group. -/
theorem not_isGroup_of_not_open (t : Derivation s) (ho : t.tokens[0]? ≠ some .openParen) :
    ¬ t.expr.IsGroup := by
  intro hg
  obtain ⟨j, hm, -⟩ := t.exists_matches_of_isGroup hg
  exact ho hm.opens

/-- A run of parentheses around a body that starts with none is admitted where the body is inside of it. -/
theorem admitted_parens {b : Derivation (.chain .sum)} {n : Nat} (hb : b.Admitted (n + 1))
    (ho : b.tokens[0]? ≠ some .openParen) (d : Nat) : (parens b d).Admitted n := by
  obtain ⟨hfits, hclosed, hnesting⟩ := hb
  have hgroup := b.not_isGroup_of_not_open ho
  have hrun : ∀ {t : Token}, t ≠ .number → ∀ l ∈ List.replicate (d + 1) (Lexeme.of t), l.Fits := by
    intro t ht l hl
    rw [List.eq_of_mem_replicate hl]
    exact Lexeme.fits_of ht
  refine ⟨?_, runsClosed_parens hgroup ho hclosed d, ?_⟩
  · rw [yield_parens, List.forall_mem_append, List.forall_mem_append]
    exact ⟨hrun (by decide), hfits, hrun (by decide)⟩
  · rw [expr_parens hgroup, Expr.nesting]
    omega

/-- A tree of a group is a run of parentheses around a body that starts with none. The induction goes
down through the pairs of the run, and each of them has to be of a group for its runs to close in one
piece. -/
theorem exists_body_of_group (t : Derivation s) (hr : t.RunsClosed) {d : Nat} {e : Expr}
    (he : t.expr = .group d e) :
    ∃ b : Derivation (.chain .sum), b.expr = e ∧ b.RunsClosed ∧ b.tokens[0]? ≠ some .openParen ∧
      t.yield = List.replicate (d + 1) (.of .openParen) ++
        (b.yield ++ List.replicate (d + 1) (.of .closeParen)) := by
  induction t generalizing d e with
  | number ds => cases he
  | paren b ih =>
    rw [expr] at he
    rcases b.expr.wrap_cases with ⟨n, body, hb, hw⟩ | ⟨hb, hw⟩
    · -- The pair is the outermost one of a longer run, and the body is that of the shorter run.
      rw [hw] at he
      obtain ⟨rfl, rfl⟩ := Expr.group.inj he
      obtain ⟨b', hb', hr', ho', hy'⟩ := ih hr.1 hb
      refine ⟨b', hb', hr', ho', ?_⟩
      rw [yield, hy', List.replicate_succ (n := n + 1), List.replicate_succ' (n := n + 1)]
      simp only [List.cons_append, List.append_assoc]
    · -- The pair is the innermost one: what starts with a parenthesis would be a group.
      rw [hw] at he
      obtain ⟨rfl, rfl⟩ := Expr.group.inj he
      exact ⟨b, rfl, hr.1, fun ho => hb (hr.2 ho), rfl⟩
  | bare p ih => exact ih hr he
  | die p ih => cases he
  | dice p q ihp ihq => cases he
  | plain b ih => exact ih hr he
  | negated b ih => cases he
  | single x ih => exact ih hr he
  | joined x op _ y ihx ihy => cases he

end Derivation

end DiceNotation
