import DiceNotation.Proofs.Grammar.Viability

/-!
# What the acceptor refuses

The error of a text in one pass from the left. `Acceptor.refusal` drives the acceptor over the lexemes,
and where it gets stuck, or comes to a number that is too large or a parenthesis that is too deep, gives
the error for that place. It looks no further than to the next lexeme, and never goes back.

The lemmas say what the refusal is at one lexeme (`refusal_junk`, `refusal_of_no_step`,
`refusal_tooLarge`, `refusal_tooDeep`) and that it is otherwise the refusal behind it (`refusal_step`), and
from this what it is behind tokens that are passed (`refusal_append`), and where a cursor stops that
moves over lexemes one by one or in runs of parentheses.
-/

namespace DiceNotation

open Paren

/-- Where no junk follows, an error is reported itself. -/
theorem junkOr_of_noJunkAhead {ls : List Lexeme} (h : NoJunkAhead ls) (e : SyntaxError) :
    junkOr ls e = e := by
  cases ls with
  | nil => rfl
  | cons l ls => exact if_neg (h l rfl)

/-- A number is too large for a literal. -/
def Lexeme.TooLarge (l : Lexeme) : Prop :=
  l.token = .number ∧ maxLiteral < digitsValue l.chars

/-- The value of a literal is computed and compared. -/
instance (l : Lexeme) : Decidable l.TooLarge :=
  inferInstanceAs (Decidable (_ ∧ _))

/-- A lexeme that fits is not too large. -/
theorem Lexeme.Fits.not_tooLarge {l : Lexeme} (h : l.Fits) : ¬ l.TooLarge :=
  fun hlarge => Nat.not_le.2 hlarge.2 (h hlarge.1).2

namespace Acceptor

/-- It is told from the state of an acceptor whether a text may end. -/
instance (q : Acceptor) : Decidable q.MayEnd :=
  inferInstanceAs (Decidable (_ ∧ _))

/-- A parenthesis would start a run inside of too many others. -/
def TooDeep (q : Acceptor) (t : Token) : Prop :=
  t = .openParen ∧ q.phase ≠ .opened ∧ maxNesting ≤ q.runs.length

/-- It is told from the state of an acceptor whether a token opens a run too many. -/
instance (q : Acceptor) (t : Token) : Decidable (q.TooDeep t) :=
  inferInstanceAs (Decidable (_ ∧ _))

/-- The error where what is left of the text cannot stand. -/
def misplaced (q : Acceptor) (ls : List Lexeme) : SyntaxError :=
  if q.phase.Awaits then
    match ls with
    | [] => .unexpectedEnd
    | l :: _ => .unexpectedInput l.text
  else if q.sizes = [] then .unexpectedInput ((ls.head?.map Lexeme.text).getD "")
  else .expectedInput ")" (ls.head?.map Lexeme.text)

/-- The error of what is left of a text, if it has one. -/
def refusal (q : Acceptor) : List Lexeme → Option SyntaxError
  | [] => if q.MayEnd then none else some (q.misplaced [])
  | l :: ls =>
    if l.token = .junk then some (.unexpectedInput l.text)
    else
      match q.step? l.token with
      | none => some (q.misplaced (l :: ls))
      | some q' =>
        if l.TooLarge then
          some (junkOr ls (.invalidInteger l.text "number too large to fit in target type"))
        else if q.TooDeep l.token then some (junkOr ls (.unexpectedInput "("))
        else q'.refusal ls

/-! ## Refusals in one step -/

variable {q q' : Acceptor} {l : Lexeme} {ls : List Lexeme}

/-- Junk is refused wherever it stands. -/
theorem refusal_junk (h : l.token = .junk) : q.refusal (l :: ls) = some (.unexpectedInput l.text) := by
  rw [refusal, if_pos h]

/-- What is wrong behind a lexeme with a step is wrong with it before. -/
theorem refusal_step (hstep : TokenStep q l.token q') (hl : ¬ l.TooLarge) (hd : ¬ q.TooDeep l.token) :
    q.refusal (l :: ls) = q'.refusal ls := by
  rw [refusal, if_neg hstep.token_ne.2, hstep.step?_eq]
  dsimp only
  rw [if_neg hl, if_neg hd]

/-- A lexeme of another token than numbers and parentheses that open is never too much. -/
theorem refusal_step_of {t : Token} (hstep : TokenStep q t q') (hn : t ≠ .number)
    (ho : t ≠ .openParen) : q.refusal (.of t :: ls) = q'.refusal ls :=
  refusal_step hstep (fun h => hn h.1) (fun h => ho h.1)

/-- A lexeme without a step is misplaced. -/
theorem refusal_of_no_step (hj : l.token ≠ .junk) (h : ∀ q', ¬ TokenStep q l.token q') :
    q.refusal (l :: ls) = some (q.misplaced (l :: ls)) := by
  have hnone : q.step? l.token = none := by
    cases hs : q.step? l.token with
    | none => rfl
    | some q' => exact absurd (step?_eq_some_iff.1 hs) (h q')
  rw [refusal, if_neg hj, hnone]

/-- A number that is too large is refused, or the junk behind it. -/
theorem refusal_tooLarge (hstep : TokenStep q l.token q') (hl : l.TooLarge) :
    q.refusal (l :: ls) =
      some (junkOr ls (.invalidInteger l.text "number too large to fit in target type")) := by
  rw [refusal, if_neg hstep.token_ne.2, hstep.step?_eq]
  dsimp only
  rw [if_pos hl]

/-- A parenthesis that is too deep is refused, or the junk behind it. -/
theorem refusal_tooDeep (hstep : TokenStep q l.token q') (hl : ¬ l.TooLarge) (hd : q.TooDeep l.token) :
    q.refusal (l :: ls) = some (junkOr ls (.unexpectedInput "(")) := by
  rw [refusal, if_neg hstep.token_ne.2, hstep.step?_eq]
  dsimp only
  rw [if_neg hl, if_pos hd]

/-- Junk behind a lexeme with a step is refused, whatever is wrong with the lexeme. -/
theorem refusal_of_next {n : Nat} {e : SyntaxError} (hstep : TokenStep q l.token q')
    (h : Cursor.next ⟨l :: ls, n⟩ = .error e) : q.refusal (l :: ls) = some e := by
  obtain ⟨j, r, hls, hj, rfl⟩ := Cursor.clean_eq_error_iff.1 h
  have hls : ls = j :: r := hls
  have hjunk : ∀ e, junkOr ls e = .unexpectedInput j.text := by
    intro e
    rw [hls, junkOr, if_pos hj]
  by_cases hlarge : l.TooLarge
  · rw [refusal_tooLarge hstep hlarge, hjunk]
  · by_cases hdeep : q.TooDeep l.token
    · rw [refusal_tooDeep hstep hlarge hdeep, hjunk]
    · rw [refusal_step hstep hlarge hdeep, hls]
      exact refusal_junk hj

/-- What goes wrong behind a lexeme with a step, of another token than numbers and parentheses that open,
is junk, or a failure of what the cursor goes on with there. -/
theorem refusal_of_next_bind {α : Type} {t : Token} {n : Nat} {f : Cursor → Except SyntaxError α}
    {e : SyntaxError} (hstep : TokenStep q t q') (hn : t ≠ .number) (ho : t ≠ .openParen)
    (h : (Cursor.next ⟨.of t :: ls, n⟩ >>= f) = .error e) :
    q.refusal (.of t :: ls) = some e ∨
      (NoJunkAhead ls ∧ f ⟨ls, n⟩ = .error e ∧ q.refusal (.of t :: ls) = q'.refusal ls) := by
  rcases bind_eq_error_iff.1 h with hnext | ⟨c, hnext, hrest⟩
  · exact .inl (refusal_of_next hstep hnext)
  · obtain ⟨rfl, hahead⟩ := Cursor.next_cons_eq_ok_iff.1 hnext
    exact .inr ⟨hahead, hrest, refusal_step_of hstep hn ho⟩

/-- Over tokens that the acceptor passes within the room for groups, no lexeme is refused that fits. -/
theorem refusal_append {ls : List Lexeme} (rest : List Lexeme)
    (h : Passes maxNesting q (ls.map Lexeme.token) q') (hfits : ∀ l ∈ ls, l.Fits) :
    q.refusal (ls ++ rest) = q'.refusal rest := by
  induction ls generalizing q with
  | nil =>
    cases h
    rfl
  | cons l ls ih =>
    cases h with
    | @cons _ m _ _ _ step room passes =>
      obtain ⟨hl, hls⟩ := List.forall_mem_cons.1 hfits
      -- A run that starts counts among the open ones, so there was room for it.
      have hdeep : ¬ q.TooDeep l.token := by
        rintro ⟨ht, hopened, hle⟩
        rw [ht] at step
        cases step with
        | opens hp hfirst =>
          rw [List.length_cons] at room
          exact absurd room (by dsimp only at hle; omega)
        | opensMore => exact hopened rfl
        | operator heq => exact absurd heq.symm (Arith.token_ne_open _)
      rw [List.cons_append, refusal_step step hl.not_tooLarge hdeep, ih passes hls]

/-- Where a parenthesis has to close and none does, it is missed. -/
theorem refusal_of_not_close {n : Nat} (hq : ¬ q.phase.Awaits) (hsizes : q.sizes ≠ [])
    (hahead : NoJunkAhead ls) (h : ∀ q', ¬ TokenStep q (Cursor.token ⟨ls, n⟩) q') :
    q.refusal ls = some (.expectedInput ")" (ls.head?.map Lexeme.text)) := by
  have hmisplaced : q.misplaced ls = .expectedInput ")" (ls.head?.map Lexeme.text) := by
    unfold misplaced
    rw [if_neg hq, if_neg hsizes]
  cases ls with
  | nil =>
    have hmayEnd : ¬ q.MayEnd := by
      rintro ⟨hruns, b, hphase⟩
      obtain ⟨p, runs⟩ := q
      cases hruns
      cases hphase
      exact hsizes rfl
    rw [refusal, if_neg hmayEnd, hmisplaced]
  | cons l ls => rw [refusal_of_no_step (hahead l rfl) h, hmisplaced]

/-! ## Refusals in runs of parentheses -/

/-- Parentheses that open make the innermost run longer. -/
theorem refusal_replicate_open (d : Nat) (r : OpenRun) (runs : List OpenRun) (ls : List Lexeme) :
    refusal ⟨.opened, r :: runs⟩ (List.replicate d (.of .openParen) ++ ls) =
      refusal ⟨.opened, ⟨r.extra + d, r.rollable⟩ :: runs⟩ ls := by
  induction d generalizing r with
  | zero => rfl
  | succ d ih =>
    have hlarge : ¬ (Lexeme.of .openParen).TooLarge := (Lexeme.fits_of (by decide)).not_tooLarge
    have hdeep : ¬ TooDeep ⟨.opened, r :: runs⟩ (Lexeme.of .openParen).token := fun h => h.2.1 rfl
    rw [List.replicate_succ, List.cons_append,
      refusal_step .opensMore hlarge hdeep, ih]
    have hextra : r.extra + 1 + d = r.extra + (d + 1) := by omega
    rw [hextra]

/-- What stops a cursor within a run of parentheses is refused. -/
theorem refusal_of_openRun {budget ls : List Lexeme} {k n : Nat} {e : SyntaxError} (r : OpenRun)
    (runs : List OpenRun) (hg : ∀ l ∈ ls, l.Genuine)
    (h : Cursor.openRun budget k ⟨ls, n⟩ = .error e) :
    refusal ⟨.opened, r :: runs⟩ ls = some e := by
  induction budget generalizing ls k r with
  | nil => cases h
  | cons b budget ih =>
    unfold Cursor.openRun at h
    split at h
    · next hopen =>
      obtain ⟨ls, rfl⟩ := Cursor.exists_of_token_genuine hg hopen (by decide) (by decide) (by decide)
      rcases bind_eq_error_iff.1 h with hnext | ⟨c, hnext, h⟩
      · exact refusal_of_next .opensMore hnext
      · obtain ⟨rfl, -⟩ := Cursor.next_eq_ok_iff.1 hnext
        have hrest := ih ⟨r.extra + 1, r.rollable⟩ (fun l hl => hg l (List.mem_cons_of_mem _ hl)) h
        have hrun := refusal_replicate_open 1 r runs ls
        exact hrun.trans hrest
    · cases h

/-- What stops a cursor within the parentheses that close a run is refused. -/
theorem refusal_of_closeRun {left n : Nat} {b : Bool} {runs : List OpenRun} {e : SyntaxError}
    (hg : ∀ l ∈ ls, l.Genuine) (hahead : NoJunkAhead ls)
    (h : Cursor.closeRun left ⟨ls, n⟩ = .error e) :
    refusal ⟨.complete left b, runs⟩ ls = some e := by
  induction left generalizing ls with
  | zero => cases h
  | succ left ih =>
    rw [Cursor.closeRun] at h
    unfold Cursor.expect at h
    by_cases hclose : Cursor.token ⟨ls, n⟩ = .closeParen
    · rw [if_pos hclose] at h
      obtain ⟨ls, rfl⟩ := Cursor.exists_of_token_genuine hg hclose (by decide) (by decide) (by decide)
      rcases refusal_of_next_bind .closesMore (by decide) (by decide) h with
        hjunk | ⟨hahead', hrest, heq⟩
      · exact hjunk
      · rw [heq]
        exact ih (fun l hl => hg l (List.mem_cons_of_mem _ hl)) hahead' hrest
    · rw [if_neg hclose] at h
      cases h
      exact refusal_of_not_close (n := n) id (List.cons_ne_nil _ _) hahead fun q' hstep =>
        hclose hstep.eq_close

end Acceptor

end DiceNotation
