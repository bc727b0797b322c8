import DiceNotation.Proofs.Grammar.Acceptance
import DiceNotation.Proofs.Grammar.Refusal

/-!
# The parsers report the first refusal

`Parser.Refuses p s n` says that the parser `p`, with `n` groups open around it, fails only with the
error that the acceptor refuses the text with, wherever the nonterminal `s` may start there, and that
where it succeeds it has gone on as long as it could.

Each parser of the grammar gets its `Refuses` from those of the parsers that it calls, which is the same
way as that to `Parser.Reads`. What a parser has read before it fails is a tree, and the acceptor passes
that (`Parser.Reads.refusal_eq`). For all of a text, `parseLexemes_eq_error_iff` says that the error is
the refusal of the acceptor from its start.
-/

namespace DiceNotation

open Acceptor Cursor

/-! ## Where a parser starts and stops -/

/-- The trees of a nonterminal may start at a phase, and are the only ones that may start there with
the token `t`. -/
structure Nonterminal.EntersAt (s : Nonterminal) (p : Phase) (t : Token) : Prop where
  /-- The nonterminal may start at the phase. -/
  enters : s.Enters p
  /-- A parenthesis would belong to the run that has started. -/
  first : p = .opened → t ≠ .openParen
  /-- What may stand here at all is a start of the nonterminal. -/
  starts : ∀ (runs : List OpenRun) (q : Acceptor), TokenStep ⟨p, runs⟩ t q → s.starts t

/-- A nonterminal has ended before a token that does not make its tree longer. The letter of dice does
so unless the tree is not to be rolled. -/
def Nonterminal.Ends : Nonterminal → Bool → Token → Prop
  | primary, _, _ => True
  | dice, b, t => t = .dice → b = false
  | signed, b, t => t = .dice → b = false
  | chain .product, b, t => (t = .dice → b = false) ∧ multiplicative? t = none
  | chain .sum, b, t => ((t = .dice → b = false) ∧ multiplicative? t = none) ∧ additive? t = none

/-- A chain has ended when its last operand has and no operator of its level follows. -/
theorem Level.ends_chain_iff {l : Level} {b : Bool} {t : Token} :
    (Nonterminal.chain l).Ends b t ↔ l.operand.Ends b t ∧ l.join? t = none := by
  cases l <;> exact Iff.rfl

/-- Where operands of a sum may start, each token with a step starts one. -/
theorem Phase.Starts.starts {p : Phase} (h : p.Starts) {runs : List OpenRun} {t : Token}
    {q : Acceptor} (hstep : TokenStep ⟨p, runs⟩ t q) :
    t = .number ∨ t = .openParen ∨ t = .dice ∨ t = .minus := by
  cases hstep with
  | number => exact .inl rfl
  | opens => exact .inr (.inl rfl)
  | opensMore => exact .inr (.inl rfl)
  | die => exact .inr (.inr (.inl rfl))
  | minus => exact .inr (.inr (.inr rfl))
  | roll => exact absurd h id
  | operator => exact absurd h id
  | closes => exact absurd h id
  | closesMore => exact absurd h id

/-- A chain may start where a minus sign may, besides with a parenthesis of the run before it. -/
theorem Phase.Starts.entersAt_chain {p : Phase} {t : Token} (hp : p.Starts)
    (hfirst : p = .opened → t ≠ .openParen) (l : Level) : (Nonterminal.chain l).EntersAt p t :=
  ⟨hp, hfirst, fun _ _ hstep => hp.starts hstep⟩

/-- What starts a chain is what starts its first operand. -/
theorem Level.entersAt_operand {l : Level} {p : Phase} {t : Token}
    (h : (Nonterminal.chain l).EntersAt p t) : l.operand.EntersAt p t :=
  ⟨Level.enters_operand h.enters, h.first, fun runs q hstep => by
    have hstarts := h.starts runs q hstep
    cases l <;> exact hstarts⟩

/-- An operand may start behind its operator. -/
theorem Level.entersAt_operand_behind (l : Level) (t : Token) : l.operand.EntersAt .operand t := by
  have hstarts : Phase.operand.Starts := trivial
  exact Level.entersAt_operand (hstarts.entersAt_chain nofun l)

/-- Sides may start behind the letter of dice. -/
theorem Nonterminal.entersAt_sides (t : Token) : primary.EntersAt .sides t := by
  refine ⟨trivial, nofun, fun runs q hstep => ?_⟩
  cases hstep with
  | number => exact .inl rfl
  | opens => exact .inr rfl
  | die hp hfirst => exact absurd rfl hfirst
  | minus hp => exact absurd hp id

/-- Dice may start behind a minus sign. -/
theorem Nonterminal.entersAt_signed_dice (t : Token) : dice.EntersAt .signed t := by
  refine ⟨⟨trivial, by decide⟩, nofun, fun runs q hstep => ?_⟩
  cases hstep with
  | number => exact .inl rfl
  | opens => exact .inr (.inl rfl)
  | die => exact .inr (.inr rfl)
  | minus hp => exact absurd hp id

/-- A parser fails with the refusal of the acceptor, and stops behind a whole tree. -/
structure Parser.Refuses (p : Parser) (s : Nonterminal) (n : Nat) : Prop where
  /-- It goes on as long as the text does. -/
  ends : ∀ (ls : List Lexeme) (e : Expr) (c : Cursor), (∀ l ∈ ls, l.Genuine) →
    p ⟨ls, n⟩ = .ok (e, c) → NoJunkAhead c.rest ∧ s.Ends e.rollable c.token
  /-- Its errors are the acceptor's. -/
  refuses : ∀ (ph : Phase) (runs : List OpenRun) (ls : List Lexeme) (e : SyntaxError),
    (∀ l ∈ ls, l.Genuine) → s.EntersAt ph (token ⟨ls, n⟩) → runs.length = n →
    p ⟨ls, n⟩ = .error e → refusal ⟨ph, runs⟩ ls = some e

namespace Parser

variable {inner p : Parser} {s : Nonterminal} {n : Nat} {ls : List Lexeme}

/-- What a parser leaves is the end of what it was given, with the same groups around it. -/
theorem Reads.exists_rest (h : p.Reads s n) {e : Expr} {c : Cursor} (hg : ∀ l ∈ ls, l.Genuine)
    (hp : p ⟨ls, n⟩ = .ok (e, c)) :
    ∃ r : List Lexeme, c = ⟨r, n⟩ ∧ r.length ≤ ls.length ∧ ∀ l ∈ r, l.Genuine := by
  obtain ⟨t, r, -, -, rfl, rfl⟩ := h.sound ls e c hg hp
  refine ⟨r, rfl, ?_, fun l hl => hg l (List.mem_append_right _ hl)⟩
  rw [List.length_append]
  exact Nat.le_add_left _ _

/-- What is wrong with a text behind what a parser has read is wrong with it before. -/
theorem Reads.refusal_eq (h : p.Reads s n) {ph : Phase} {runs : List OpenRun} {e : Expr}
    {r : List Lexeme} (hg : ∀ l ∈ ls, l.Genuine) (hph : s.EntersAt ph (token ⟨ls, n⟩))
    (hruns : runs.length = n) (hp : p ⟨ls, n⟩ = .ok (e, ⟨r, n⟩)) :
    refusal ⟨ph, runs⟩ ls = refusal ⟨.complete 0 (ph.rollable && e.rollable), runs⟩ r := by
  obtain ⟨t, r', ⟨hfits, hclosed, hroom⟩, rfl, rfl, hr⟩ := h.sound ls e _ hg hp
  cases hr
  have hopen : ph = .opened → t.tokens[0]? ≠ some .openParen := by
    intro hopened
    obtain ⟨l, ls, hy, -⟩ := t.exists_yield_cons
    have hfirst := hph.first hopened
    rw [hy] at hfirst
    rw [Derivation.tokens, hy]
    exact fun heq => hfirst (Option.some.inj heq)
  rw [← hruns] at hroom
  have hpasses := (t.passedBy hclosed).operand ph runs maxNesting hph.enters hopen hroom
  exact refusal_append r hpasses hfits

/-- What goes wrong behind a token with a step, of another kind than numbers and parentheses that open, is
refused, or it goes wrong behind the tree that stands there. -/
theorem Refuses.refusal_of_next (h : p.Refuses s n) {α : Type} {q : Acceptor} {ph : Phase}
    {runs : List OpenRun} {t : Token} {f : Expr × Cursor → Except SyntaxError α} {e : SyntaxError}
    (hstep : TokenStep q t ⟨ph, runs⟩) (hnumber : t ≠ .number) (hopen : t ≠ .openParen)
    (hg : ∀ l ∈ ls, l.Genuine) (hph : s.EntersAt ph (token ⟨ls, n⟩)) (hruns : runs.length = n)
    (hp : (next ⟨.of t :: ls, n⟩ >>= fun c => p c >>= f) = .error e) :
    refusal q (.of t :: ls) = some e ∨
      ∃ x, p ⟨ls, n⟩ = .ok x ∧ f x = .error e ∧ refusal q (.of t :: ls) = refusal ⟨ph, runs⟩ ls := by
  rcases refusal_of_next_bind hstep hnumber hopen hp with hjunk | ⟨-, htree, heq⟩
  · exact .inl hjunk
  · rcases bind_eq_error_iff.1 htree with htree | ⟨x, htree, hrest⟩
    · exact .inl (heq.trans (h.refuses ph runs ls e hg hph hruns htree))
    · exact .inr ⟨x, htree, hrest, heq⟩

/-! ## Primaries -/

/-- What is wrong with a number is refused. -/
theorem refusal_number {ph : Phase} {runs : List OpenRun} {ds : List Char} {e : SyntaxError}
    (hg : ∀ l ∈ (⟨.number, ds⟩ : Lexeme) :: ls, l.Genuine) (hp : ph.Awaits)
    (h : primary inner ⟨⟨.number, ds⟩ :: ls, n⟩ = .error e) :
    refusal ⟨ph, runs⟩ (⟨.number, ds⟩ :: ls) = some e := by
  rw [primary_number] at h
  have hstep : TokenStep ⟨ph, runs⟩ (⟨.number, ds⟩ : Lexeme).token ⟨.complete 0 ph.rollable, runs⟩ :=
    .number hp
  rcases bind_eq_error_iff.1 h with hnext | ⟨c, hnext, h⟩
  · exact refusal_of_next hstep hnext
  · obtain ⟨rfl, hahead⟩ := next_cons_eq_ok_iff.1 hnext
    have hdigits := (hg _ List.mem_cons_self).isDigit_of_mem rfl
    rw [literalValue_eq hdigits] at h
    split at h
    · cases h
    · next hmax =>
      cases h
      have hlarge : (⟨.number, ds⟩ : Lexeme).TooLarge := ⟨rfl, Nat.not_le.1 hmax⟩
      rw [refusal_tooLarge hstep hlarge, junkOr_of_noJunkAhead hahead]
      rfl

/-- Behind a sum that has ended, only a parenthesis has a step. -/
theorem eq_close_of_ends {b : Bool} {runs : List OpenRun} {t : Token} {q : Acceptor}
    (hends : (Nonterminal.chain .sum).Ends b t) (hstep : TokenStep ⟨.complete 0 b, runs⟩ t q) :
    t = .closeParen ∧ runs ≠ [] := by
  obtain ⟨⟨hdice, hproduct⟩, hsum⟩ := hends
  rcases hstep.complete_cases with ⟨rfl, rfl⟩ | ⟨op, rfl⟩ | hclose
  · cases hdice rfl
  · cases op <;> simp [Arith.token, additive?, multiplicative?] at hproduct hsum
  · exact hclose

/-- Where a run does not close behind the sum in it, that is refused. -/
theorem refusal_of_close {b : Bool} {r : OpenRun} {runs : List OpenRun} {e : SyntaxError}
    (hg : ∀ l ∈ ls, l.Genuine) (hahead : NoJunkAhead ls)
    (hends : (Nonterminal.chain .sum).Ends b (token ⟨ls, n⟩))
    (h : closeRun (r.extra + 1) ⟨ls, n⟩ = .error e) :
    refusal ⟨.complete 0 b, r :: runs⟩ ls = some e := by
  rw [closeRun] at h
  unfold expect at h
  by_cases hclose : token ⟨ls, n⟩ = .closeParen
  · rw [if_pos hclose] at h
    obtain ⟨ls, rfl⟩ := exists_of_token_genuine hg hclose (by decide) (by decide) (by decide)
    rcases refusal_of_next_bind .closes (by decide) (by decide) h with hjunk | ⟨hahead', hrest, heq⟩
    · exact hjunk
    · rw [heq]
      exact refusal_of_closeRun (fun l hl => hg l (List.mem_cons_of_mem _ hl)) hahead' hrest
  · rw [if_neg hclose] at h
    cases h
    exact refusal_of_not_close (n := n) id (List.cons_ne_nil _ _) hahead fun q' hstep =>
      hclose (eq_close_of_ends hends hstep).1

/-- What is wrong with a group is refused. -/
theorem refusal_group (hreads : n < maxNesting → inner.Reads (.chain .sum) (n + 1))
    (hinner : n < maxNesting → inner.Refuses (.chain .sum) (n + 1)) {ph : Phase}
    {runs : List OpenRun} {e : SyntaxError} (hg : ∀ l ∈ ls, l.Genuine) (hp : ph.Awaits)
    (hfirst : ph ≠ .opened) (hruns : runs.length = n)
    (h : primary inner ⟨.of .openParen :: ls, n⟩ = .error e) :
    refusal ⟨ph, runs⟩ (.of .openParen :: ls) = some e := by
  have hstep : TokenStep ⟨ph, runs⟩ (Lexeme.of .openParen).token
      ⟨.opened, ⟨0, ph.rollable⟩ :: runs⟩ := .opens hp hfirst
  have hlarge : ¬ (Lexeme.of .openParen).TooLarge := (Lexeme.fits_of (by decide)).not_tooLarge
  rcases bind_eq_error_iff.1 h with hnext | ⟨c, hnext, hrest⟩
  · exact refusal_of_next hstep hnext
  obtain ⟨rfl, hahead⟩ := next_cons_eq_ok_iff.1 hnext
  rcases Nat.lt_or_ge n maxNesting with hn | hn
  · have hdeep : ¬ TooDeep ⟨ph, runs⟩ (Lexeme.of .openParen).token :=
      fun h => absurd h.2.2 (by dsimp only; omega)
    rw [refusal_step hstep hlarge hdeep]
    rw [primary_open inner hahead hn] at h
    rcases bind_eq_error_iff.1 h with hrun | ⟨⟨m, c₁⟩, hrun, hgroup⟩
    · exact refusal_of_openRun _ runs hg hrun
    obtain ⟨d, r, rfl, rfl, rfl, hopen⟩ := openRun_eq_ok hg (le_refl _) hrun
    have hg₁ : ∀ l ∈ r, l.Genuine := fun l hl => hg l (List.mem_append_right _ hl)
    -- The body stands in the run, which is one more group around it.
    have hlength : (⟨0 + d, ph.rollable⟩ :: runs : List OpenRun).length = n + 1 := by
      rw [List.length_cons, hruns]
    have hstarts : Phase.opened.Starts := trivial
    have henters : (Nonterminal.chain .sum).EntersAt .opened (token ⟨r, n + 1⟩) :=
      hstarts.entersAt_chain (fun _ => hopen) .sum
    -- The parentheses behind the first one belong to its run.
    rw [refusal_replicate_open]
    rcases bind_eq_error_iff.1 hgroup with hbody | ⟨⟨body, c₂⟩, hbody, hrest⟩
    · exact (hinner hn).refuses .opened _ r e hg₁ henters hlength hbody
    obtain ⟨r₂, rfl, -, hg₂⟩ := (hreads hn).exists_rest hg₁ hbody
    obtain ⟨hahead₂, hends⟩ := (hinner hn).ends _ _ _ hg₁ hbody
    rw [(hreads hn).refusal_eq hg₁ henters hlength hbody]
    rcases bind_eq_error_iff.1 hrest with hclose | ⟨c₃, hclose, hend⟩
    · exact refusal_of_close (r := ⟨0 + d, ph.rollable⟩) hg₂ hahead₂ hends hclose
    · cases hend
  · have hdeep : TooDeep ⟨ph, runs⟩ (Lexeme.of .openParen).token :=
      ⟨rfl, hfirst, by dsimp only; omega⟩
    dsimp only at hrest
    rw [if_pos hn] at hrest
    cases hrest
    rw [refusal_tooDeep hstep hlarge hdeep, junkOr_of_noJunkAhead hahead]
    rfl

/-- What a primary does not start with is refused where one is awaited. -/
theorem refusal_of_no_start {ph : Phase} {runs : List OpenRun} {l : Lexeme} {e : SyntaxError}
    (hp : ph.Awaits) (hnumber : l.token ≠ .number) (hopen : l.token ≠ .openParen)
    (hstarts : ∀ q, TokenStep ⟨ph, runs⟩ l.token q → Nonterminal.primary.starts l.token)
    (h : primary inner ⟨l :: ls, n⟩ = .error e) : refusal ⟨ph, runs⟩ (l :: ls) = some e := by
  obtain rfl : e = .unexpectedInput l.text := by
    unfold primary at h
    dsimp only at h
    split at h
    · next ht => exact absurd ht hnumber
    · next ht => exact absurd ht hopen
    · exact (Except.error.inj h).symm
  by_cases hjunk : l.token = .junk
  · exact refusal_junk hjunk
  · have hstep : ∀ q, ¬ TokenStep ⟨ph, runs⟩ l.token q := fun q hstep =>
      (hstarts q hstep).elim hnumber hopen
    rw [refusal_of_no_step hjunk hstep]
    unfold misplaced
    rw [if_pos hp]

/-- A primary is read past its end, so no junk is next. -/
theorem noJunkAhead_of_primary {e : Expr} {c : Cursor} (h : primary inner ⟨ls, n⟩ = .ok (e, c)) :
    NoJunkAhead c.rest := by
  unfold primary at h
  dsimp only at h
  split at h
  · cases h
  · split at h
    · obtain ⟨c₁, hnext, hrest⟩ := bind_eq_ok_iff.1 h
      obtain ⟨v, -, hend⟩ := bind_eq_ok_iff.1 hrest
      cases hend
      obtain ⟨rfl, hahead⟩ := next_eq_ok_iff.1 hnext
      exact hahead
    · obtain ⟨c₁, -, hrest⟩ := bind_eq_ok_iff.1 h
      split at hrest
      · cases hrest
      · obtain ⟨⟨d, c₂⟩, -, hrest⟩ := bind_eq_ok_iff.1 hrest
        obtain ⟨⟨body, c₃⟩, -, hrest⟩ := bind_eq_ok_iff.1 hrest
        obtain ⟨c₄, hclose, hend⟩ := bind_eq_ok_iff.1 hrest
        cases hend
        have hahead := noJunkAhead_of_closeRun hclose
        exact hahead
    · cases h

/-- A primary fails with the refusal of the acceptor if what stands in a group does. -/
theorem refuses_primary (hreads : n < maxNesting → inner.Reads (.chain .sum) (n + 1))
    (hinner : n < maxNesting → inner.Refuses (.chain .sum) (n + 1)) :
    (primary inner).Refuses .primary n where
  ends ls e c _ h := ⟨noJunkAhead_of_primary h, trivial⟩
  refuses ph runs ls e hg hph hruns h := by
    have hp : ph.Awaits := hph.enters
    cases ls with
    | nil =>
      cases h
      have hmayEnd : ¬ MayEnd ⟨ph, runs⟩ := by
        rintro ⟨-, b, rfl⟩
        exact hp
      rw [refusal, if_neg hmayEnd]
      unfold misplaced
      rw [if_pos hp]
    | cons l ls =>
      have hl : l.Genuine := hg l List.mem_cons_self
      by_cases hnumber : l.token = .number
      · obtain ⟨t, ds⟩ := l
        cases hnumber
        exact refusal_number hg hp h
      · by_cases hopen : l.token = .openParen
        · cases hl.eq_of hopen (by decide) (by decide)
          exact refusal_group hreads hinner (fun l hl => hg l (List.mem_cons_of_mem _ hl)) hp
            (fun hopened => hph.first hopened rfl) hruns h
        · exact refusal_of_no_start hp hnumber hopen (fun q hstep => hph.starts runs q hstep) h

/-! ## Dice and signs -/

/-- Dice fail with the refusal of the acceptor if primaries do. -/
theorem refuses_die (hreads : (primary inner).Reads .primary n)
    (hp : (primary inner).Refuses .primary n) : (die inner).Refuses .dice n where
  ends ls e c hg h := by
    rcases die_eq_ok hreads hg h with
      ⟨r, sides, rfl, rfl, hsides⟩ | ⟨r, times, sides, hg₁, rfl, -, hsides⟩ | ⟨hdice, hprimary⟩
    · exact ⟨(hp.ends _ _ _ (fun l hl => hg l (List.mem_cons_of_mem _ hl)) hsides).1, fun _ => rfl⟩
    · exact ⟨(hp.ends _ _ _ hg₁ hsides).1, fun _ => rfl⟩
    · exact ⟨(hp.ends _ _ _ hg hprimary).1, fun ht => absurd ht hdice⟩
  refuses ph runs ls e hg hph hruns h := by
    obtain ⟨hawaits, hsides⟩ : ph.Awaits ∧ ph ≠ .sides := hph.enters
    unfold die at h
    split at h
    · next ht =>
      obtain ⟨ls, rfl⟩ := exists_of_token_genuine hg ht (by decide) (by decide) (by decide)
      have hg₁ : ∀ l ∈ ls, l.Genuine := fun l hl => hg l (List.mem_cons_of_mem _ hl)
      rcases hp.refusal_of_next (.die hawaits hsides) (by decide) (by decide) hg₁
        (Nonterminal.entersAt_sides _) hruns h with hrefused | ⟨_, -, hend, -⟩
      · exact hrefused
      · cases hend
    · next ht =>
      -- What starts dice here and is not their letter starts a primary.
      have henters : Nonterminal.primary.EntersAt ph (token ⟨ls, n⟩) := by
        refine ⟨hawaits, hph.first, fun runs q hstep => ?_⟩
        rcases hph.starts runs q hstep with hnumber | hopen | hdice
        · exact .inl hnumber
        · exact .inr hopen
        · exact absurd hdice ht
      rcases bind_eq_error_iff.1 h with htimes | ⟨⟨times, c₁⟩, htimes, hrest⟩
      · exact hp.refuses ph runs ls e hg henters hruns htimes
      obtain ⟨r, rfl, -, hg₁⟩ := hreads.exists_rest hg htimes
      have heq := hreads.refusal_eq hg henters hruns htimes
      dsimp only at hrest
      split at hrest
      · next hdice =>
        -- What stands before the letter of dice is a primary, which can be rolled here.
        have hroll : (ph.rollable && times.rollable) = true := by
          obtain ⟨t, r', -, rfl, -⟩ := hreads.sound ls times _ hg htimes
          rw [Phase.rollable_of_ne_sides hsides, t.rollable_primary]
          rfl
        rw [heq, hroll]
        obtain ⟨r, rfl⟩ := exists_of_token_genuine hg₁ hdice (by decide) (by decide) (by decide)
        have hg₂ : ∀ l ∈ r, l.Genuine := fun l hl => hg₁ l (List.mem_cons_of_mem _ hl)
        rcases hp.refusal_of_next .roll (by decide) (by decide) hg₂ (Nonterminal.entersAt_sides _) hruns
          hrest with hrefused | ⟨_, -, hend, -⟩
        · exact hrefused
        · cases hend
      · cases hrest

/-- Signed dice fail with the refusal of the acceptor if dice do. -/
theorem refuses_signed (hd : (die inner).Refuses .dice n) : (signed inner).Refuses .signed n where
  ends ls e c hg h := by
    unfold signed at h
    split at h
    · next ht =>
      obtain ⟨ls, rfl⟩ := exists_of_token_genuine hg ht (by decide) (by decide) (by decide)
      obtain ⟨c₁, hnext, hrest⟩ := bind_eq_ok_iff.1 h
      obtain ⟨⟨e₁, c₂⟩, hbody, hend⟩ := bind_eq_ok_iff.1 hrest
      obtain ⟨rfl, -⟩ := next_cons_eq_ok_iff.1 hnext
      cases hend
      have hends := hd.ends _ _ _ (fun l hl => hg l (List.mem_cons_of_mem _ hl)) hbody
      exact hends
    · exact hd.ends _ _ _ hg h
  refuses ph runs ls e hg hph hruns h := by
    have hstarts : ph.Starts := hph.enters
    unfold signed at h
    split at h
    · next ht =>
      obtain ⟨ls, rfl⟩ := exists_of_token_genuine hg ht (by decide) (by decide) (by decide)
      have hg₁ : ∀ l ∈ ls, l.Genuine := fun l hl => hg l (List.mem_cons_of_mem _ hl)
      rcases hd.refusal_of_next (.minus hstarts) (by decide) (by decide) hg₁
        (Nonterminal.entersAt_signed_dice _) hruns h with hrefused | ⟨_, -, hend, -⟩
      · exact hrefused
      · cases hend
    · next ht =>
      -- What starts signed dice here and is not the sign starts dice.
      have henters : Nonterminal.dice.EntersAt ph (token ⟨ls, n⟩) := by
        refine ⟨⟨hstarts.awaits, hstarts.ne_sides⟩, hph.first, fun runs q hstep => ?_⟩
        rcases hph.starts runs q hstep with hnumber | hopen | hdice | hminus
        · exact .inl hnumber
        · exact .inr (.inl hopen)
        · exact .inr (.inr hdice)
        · exact absurd hminus ht
      exact hd.refuses ph runs ls e hg henters hruns h

/-! ## Chains -/

/-- What a chain goes on to is refused as the acceptor does behind the operand on the left. -/
theorem refusal_of_chain {operand : Parser} {l : Level} (hreads : operand.Reads l.operand n)
    (ho : operand.Refuses l.operand n) {budget ls : List Lexeme} {left : Expr} {b : Bool}
    {runs : List OpenRun} {e : SyntaxError} (hruns : runs.length = n) (hg : ∀ x ∈ ls, x.Genuine)
    (h : chain operand l.join? budget left ⟨ls, n⟩ = .error e) :
    refusal ⟨.complete 0 b, runs⟩ ls = some e := by
  induction budget generalizing ls left b with
  | nil => cases h
  | cons x budget ih =>
    unfold chain at h
    split at h
    · cases h
    · next op hjoin =>
      obtain ⟨-, ht⟩ := Level.join?_eq_some_iff.1 hjoin
      obtain ⟨ls, rfl⟩ := exists_of_token_genuine hg ht (by cases op <;> decide)
        (by cases op <;> decide) (by cases op <;> decide)
      have hg₁ : ∀ x ∈ ls, x.Genuine := fun x hx => hg x (List.mem_cons_of_mem _ hx)
      have hnumber : op.token ≠ .number := by cases op <;> decide
      have henters := l.entersAt_operand_behind (token ⟨ls, n⟩)
      rcases ho.refusal_of_next (.operator rfl) hnumber op.token_ne_open hg₁ henters hruns h with
        hrefused | ⟨⟨right, c₂⟩, hright, hchain, heq⟩
      -- The operand on the right is refused, or what is left is refused behind it as behind the left one.
      · exact hrefused
      · obtain ⟨r, rfl, -, hg₂⟩ := hreads.exists_rest hg₁ hright
        rw [heq, hreads.refusal_eq hg₁ henters hruns hright]
        exact ih hg₂ hchain

/-- A chain goes on as long as operators of its level follow. -/
theorem ends_of_chain {operand : Parser} {l : Level} (hreads : operand.Reads l.operand n)
    (ho : operand.Refuses l.operand n) {budget ls : List Lexeme} {left e : Expr} {c : Cursor}
    (hbudget : ls.length ≤ budget.length) (hg : ∀ x ∈ ls, x.Genuine) (hahead : NoJunkAhead ls)
    (hends : l.operand.Ends left.rollable (token ⟨ls, n⟩))
    (h : chain operand l.join? budget left ⟨ls, n⟩ = .ok (e, c)) :
    NoJunkAhead c.rest ∧ (Nonterminal.chain l).Ends e.rollable c.token := by
  induction budget generalizing ls left with
  | nil =>
    -- The budget lasts to the end of the text.
    cases ls with
    | nil =>
      cases h
      refine ⟨hahead, Level.ends_chain_iff.2 ⟨hends, ?_⟩⟩
      cases l <;> rfl
    | cons x ls => simp at hbudget
  | cons x budget ih =>
    unfold chain at h
    split at h
    · next hjoin =>
      cases h
      exact ⟨hahead, Level.ends_chain_iff.2 ⟨hends, hjoin⟩⟩
    · next op hjoin =>
      obtain ⟨-, ht⟩ := Level.join?_eq_some_iff.1 hjoin
      obtain ⟨ls, rfl⟩ := exists_of_token_genuine hg ht (by cases op <;> decide)
        (by cases op <;> decide) (by cases op <;> decide)
      have hg₁ : ∀ x ∈ ls, x.Genuine := fun x hx => hg x (List.mem_cons_of_mem _ hx)
      obtain ⟨c₁, hnext, hrest⟩ := bind_eq_ok_iff.1 h
      obtain ⟨⟨right, c₂⟩, hright, hchain⟩ := bind_eq_ok_iff.1 hrest
      obtain ⟨rfl, -⟩ := next_cons_eq_ok_iff.1 hnext
      obtain ⟨hahead₂, hends₂⟩ := ho.ends _ _ _ hg₁ hright
      obtain ⟨r, rfl, hlength, hg₂⟩ := hreads.exists_rest hg₁ hright
      rw [List.length_cons, List.length_cons] at hbudget
      -- What follows the operand on the right follows all of the chain so far.
      have hjoined : l.operand.Ends (Expr.arith op left right).rollable (token ⟨r, n⟩) := hends₂
      exact ih (by omega) hg₂ hahead₂ hjoined hchain

/-- Chains fail with the refusal of the acceptor if their operands do. -/
theorem refuses_chained {operand : Parser} {l : Level} (hreads : operand.Reads l.operand n)
    (ho : operand.Refuses l.operand n) : (chained operand l).Refuses (.chain l) n where
  ends ls e c hg h := by
    obtain ⟨⟨left, c₁⟩, hleft, hrest⟩ := bind_eq_ok_iff.1 h
    obtain ⟨hahead, hends⟩ := ho.ends _ _ _ hg hleft
    obtain ⟨r, rfl, -, hg₁⟩ := hreads.exists_rest hg hleft
    exact ends_of_chain hreads ho (le_refl _) hg₁ hahead hends hrest
  refuses ph runs ls e hg hph hruns h := by
    have henters := Level.entersAt_operand hph
    rcases bind_eq_error_iff.1 h with hleft | ⟨⟨left, c₁⟩, hleft, hrest⟩
    · exact ho.refuses ph runs ls e hg henters hruns hleft
    obtain ⟨r, rfl, -, hg₁⟩ := hreads.exists_rest hg hleft
    rw [hreads.refusal_eq hg henters hruns hleft]
    exact refusal_of_chain hreads ho hruns hg₁ hrest

/-! ## Whole texts -/

/-- Expressions fail with the refusal of the acceptor as long as there is room for the groups in
them. -/
theorem refuses_expression (room n : Nat) (h : room + n = maxNesting + 1) (hn : n ≤ maxNesting) :
    (expression room).Refuses (.chain .sum) n := by
  induction room generalizing n with
  | zero => omega
  | succ room ih =>
    have hinner : n < maxNesting → (expression room).Reads (.chain .sum) (n + 1) :=
      fun hlt => reads_expression room (n + 1) (by omega) hlt
    -- The parsers of the levels, from the tightest one on.
    have hprimary := reads_primary hn hinner
    have hdice := reads_die hprimary
    have hsigned := reads_signed hdice
    have hproduct := reads_chained (l := .product) hsigned
    have hprimary' := refuses_primary hinner fun hlt => ih (n + 1) (by omega) hlt
    have hsigned' := refuses_signed (refuses_die hprimary hprimary')
    have hproduct' := refuses_chained (l := .product) hsigned hsigned'
    exact refuses_chained (l := .sum) hproduct hproduct'

end Parser

/-- The error of lexemes is the refusal of the acceptor. -/
theorem refusal_of_parseLexemes {ls : List Lexeme} (hg : ∀ l ∈ ls, l.Genuine) {e : SyntaxError}
    (h : parseLexemes ls = .error e) : init.refusal ls = some e := by
  have hreads := Parser.reads_expression (maxNesting + 1) 0 rfl (Nat.zero_le _)
  have hrefuses := Parser.refuses_expression (maxNesting + 1) 0 rfl (Nat.zero_le _)
  have hstarts : Phase.operand.Starts := trivial
  have henters : (Nonterminal.chain .sum).EntersAt .operand (token ⟨ls, 0⟩) :=
    hstarts.entersAt_chain nofun .sum
  unfold parseLexemes at h
  rcases bind_eq_error_iff.1 h with hclean | ⟨c, hclean, hread⟩
  · obtain ⟨l, r, hls, hjunk, rfl⟩ := clean_eq_error_iff.1 hclean
    have hls : ls = l :: r := hls
    rw [hls]
    exact refusal_junk hjunk
  · obtain ⟨rfl, -⟩ := clean_eq_ok_iff.1 hclean
    rcases bind_eq_error_iff.1 hread with hread | ⟨⟨e₁, c₁⟩, hread, hend⟩
    · exact hrefuses.refuses .operand [] ls e hg henters rfl hread
    · obtain ⟨r, rfl, -, hg₁⟩ := hreads.exists_rest hg hread
      obtain ⟨hahead, hends⟩ := hrefuses.ends _ _ _ hg hread
      have hrollable : (Phase.operand.rollable && e₁.rollable) = e₁.rollable := Bool.true_and _
      rw [init, hreads.refusal_eq hg henters rfl hread, hrollable]
      cases r with
      | nil => cases hend
      | cons l r =>
        cases hend
        -- No parenthesis is open that the lexeme could close.
        have hstep : ∀ q', ¬ TokenStep ⟨.complete 0 e₁.rollable, []⟩ l.token q' :=
          fun q' hstep => (Parser.eq_close_of_ends hends hstep).2 rfl
        rw [refusal_of_no_step (hahead l rfl) hstep]
        rfl

/-- What is read has no refusal. -/
theorem refusal_eq_none_of_parseLexemes {ls : List Lexeme} (hg : ∀ l ∈ ls, l.Genuine) {e : Expr}
    (h : parseLexemes ls = .ok e) : init.refusal ls = none := by
  obtain ⟨t, rfl, ⟨hfits, hclosed, hroom⟩, -⟩ := (parseLexemes_eq_ok_iff hg).1 h
  have hpasses := (t.passedBy hclosed).operand .operand [] maxNesting trivial nofun hroom
  have heq := refusal_append [] hpasses hfits
  rw [List.append_nil] at heq
  rw [init, heq, refusal, if_pos ⟨rfl, _, rfl⟩]

/-- Lexemes fail to be read with an error exactly when the acceptor refuses them with it. -/
theorem parseLexemes_eq_error_iff {ls : List Lexeme} (hg : ∀ l ∈ ls, l.Genuine) {e : SyntaxError} :
    parseLexemes ls = .error e ↔ init.refusal ls = some e := by
  constructor
  · exact refusal_of_parseLexemes hg
  · intro h
    cases hp : parseLexemes ls with
    | error e' =>
      have h' := refusal_of_parseLexemes hg hp
      rw [h] at h'
      rw [Option.some.inj h']
    | ok e' =>
      rw [refusal_eq_none_of_parseLexemes hg hp] at h
      cases h

end DiceNotation
