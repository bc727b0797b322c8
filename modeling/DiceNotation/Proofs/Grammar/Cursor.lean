import DiceNotation.Proofs.Except
import DiceNotation.Proofs.Lexing.Genuine

/-!
# Moving the cursor

When the moves of a cursor succeed and where they lead. Each of them leaves the number of open groups
alone, and refuses to come to a stand before junk. Over runs of parentheses there is one statement in
each direction: what a move that succeeded has passed, and that a cursor before such a run passes it.
-/

namespace DiceNotation

/-- What is left of a text does not start with junk. -/
def NoJunkAhead (ls : List Lexeme) : Prop :=
  ∀ l ∈ ls.head?, l.token ≠ .junk

/-- A lexeme that is no junk makes a way for the cursor. -/
theorem noJunkAhead_cons {l : Lexeme} {ls : List Lexeme} (h : l.token ≠ .junk) :
    NoJunkAhead (l :: ls) := by
  intro l' hl'
  cases hl'
  exact h

/-- Neither a row of lexemes that are no junk nor what follows it starts with junk. -/
theorem noJunkAhead_replicate_append {t : Token} (ht : t ≠ .junk) (d : Nat) {r : List Lexeme}
    (h : NoJunkAhead r) : NoJunkAhead (List.replicate d (.of t) ++ r) := by
  cases d with
  | zero => exact h
  | succ d => exact noJunkAhead_cons ht

namespace Cursor

/-- A cursor may stand before all but junk. -/
theorem clean_eq_ok_iff {c c' : Cursor} : c.clean = .ok c' ↔ c' = c ∧ NoJunkAhead c.rest := by
  unfold clean
  split
  · next h => simp [h, NoJunkAhead, eq_comm]
  · next l ls h =>
    rw [h]
    split
    · next hj => simp [NoJunkAhead, hj]
    · next hj =>
      have hahead : NoJunkAhead (l :: ls) := noJunkAhead_cons hj
      simp [hahead, eq_comm]

/-- The cursor moves by one lexeme, unless it comes to junk. -/
theorem next_eq_ok_iff {ls : List Lexeme} {n : Nat} {c : Cursor} :
    next ⟨ls, n⟩ = .ok c ↔ c = ⟨ls.tail, n⟩ ∧ NoJunkAhead ls.tail :=
  clean_eq_ok_iff

/-- The cursor moves over the first lexeme, unless it comes to junk. -/
theorem next_cons_eq_ok_iff {l : Lexeme} {ls : List Lexeme} {n : Nat} {c : Cursor} :
    next ⟨l :: ls, n⟩ = .ok c ↔ c = ⟨ls, n⟩ ∧ NoJunkAhead ls :=
  next_eq_ok_iff

/-- The cursor is stopped by junk, which is what it reports. -/
theorem clean_eq_error_iff {c : Cursor} {e : SyntaxError} :
    c.clean = .error e ↔ ∃ l ls, c.rest = l :: ls ∧ l.token = .junk ∧ e = .unexpectedInput l.text := by
  unfold clean
  split
  · next h => simp [h]
  · next l ls h =>
    rw [h]
    split
    · next hj => simp [hj, eq_comm]
    · next hj => simp [hj]

/-- The cursor moves by one lexeme where no junk follows. -/
theorem next_cons {l : Lexeme} {ls : List Lexeme} (n : Nat) (h : NoJunkAhead ls) :
    next ⟨l :: ls, n⟩ = .ok ⟨ls, n⟩ :=
  next_eq_ok_iff.2 ⟨rfl, h⟩

/-- At the cursor stands the token of the first lexeme. -/
@[simp] theorem token_cons (l : Lexeme) (ls : List Lexeme) (n : Nat) :
    token ⟨l :: ls, n⟩ = l.token := rfl

/-- At the cursor stands the token of the first lexeme, where that is all there is to it. -/
@[simp] theorem token_of_cons (t : Token) (ls : List Lexeme) (n : Nat) :
    token ⟨.of t :: ls, n⟩ = t := rfl

/-- Behind the last lexeme stands the end. -/
@[simp] theorem token_nil (n : Nat) : token ⟨[], n⟩ = .finish := rfl

/-- A token besides the end stands at the cursor when the text goes on with it. -/
theorem exists_of_token {ls : List Lexeme} {n : Nat} {t : Token} (h : token ⟨ls, n⟩ = t)
    (ht : t ≠ .finish) : ∃ l r, ls = l :: r ∧ l.token = t := by
  cases ls with
  | nil => exact absurd h.symm ht
  | cons l r => exact ⟨l, r, rfl, h⟩

/-- Among genuine lexemes, a token of a fixed spelling stands at the cursor when its lexeme does. -/
theorem exists_of_token_genuine {ls : List Lexeme} {n : Nat} {t : Token}
    (hg : ∀ l ∈ ls, l.Genuine) (h : token ⟨ls, n⟩ = t) (hf : t ≠ .finish) (hn : t ≠ .number)
    (hj : t ≠ .junk) : ∃ r, ls = .of t :: r := by
  obtain ⟨l, r, rfl, ht⟩ := exists_of_token h hf
  exact ⟨r, by rw [(hg l List.mem_cons_self).eq_of ht hn hj]⟩

/-! ## Runs of parentheses -/

/-- A cursor that passed a run of parentheses has passed all of it. -/
theorem openRun_eq_ok {budget ls : List Lexeme} {k n m : Nat} {c : Cursor}
    (hg : ∀ l ∈ ls, l.Genuine) (hbudget : ls.length ≤ budget.length)
    (h : openRun budget k ⟨ls, n⟩ = .ok (m, c)) :
    ∃ d r, m = k + d ∧ c = ⟨r, n⟩ ∧ ls = List.replicate d (.of .openParen) ++ r ∧
      token ⟨r, n⟩ ≠ .openParen := by
  -- The budget is as long as what is left at least, so it is used up at the end of the text only.
  induction budget generalizing ls k with
  | nil =>
    cases ls with
    | nil =>
      cases h
      exact ⟨0, [], rfl, rfl, rfl, by simp⟩
    | cons l ls => simp at hbudget
  | cons b budget ih =>
    unfold openRun at h
    split at h
    · next hopen =>
      obtain ⟨r, rfl⟩ := exists_of_token_genuine hg hopen (by decide) (by decide) (by decide)
      obtain ⟨c', hnext, h⟩ := bind_eq_ok_iff.1 h
      obtain ⟨rfl, -⟩ := next_eq_ok_iff.1 hnext
      have hg' : ∀ l ∈ r, l.Genuine := fun l hl => hg l (List.mem_cons_of_mem _ hl)
      obtain ⟨d, r', rfl, rfl, hr, htoken⟩ := ih hg' (Nat.le_of_succ_le_succ hbudget) h
      refine ⟨d + 1, r', by omega, rfl, ?_, htoken⟩
      rw [show r = _ from hr]
      rfl
    · next hopen =>
      cases h
      exact ⟨0, ls, rfl, rfl, rfl, hopen⟩

/-- A cursor passes a run of parentheses that open. -/
theorem openRun_replicate {budget r : List Lexeme} (d k n : Nat) (hbudget : d ≤ budget.length)
    (hjunk : NoJunkAhead r) (htoken : token ⟨r, n⟩ ≠ .openParen) :
    openRun budget k ⟨List.replicate d (.of .openParen) ++ r, n⟩ = .ok (k + d, ⟨r, n⟩) := by
  induction d generalizing budget k with
  | zero =>
    cases budget with
    | nil => rfl
    | cons b budget => exact if_neg htoken
  | succ d ih =>
    cases budget with
    | nil => simp at hbudget
    | cons b budget =>
      have hahead := noJunkAhead_replicate_append (t := .openParen) (by decide) d hjunk
      rw [List.replicate_succ, List.cons_append, openRun, if_pos (token_of_cons _ _ _),
        next_cons n hahead, ok_bind, ih (k + 1) (Nat.le_of_succ_le_succ hbudget)]
      congr 2
      omega

/-- A cursor that passed so many parentheses that close stood before them. -/
theorem closeRun_eq_ok {d n : Nat} {ls : List Lexeme} {c : Cursor} (hg : ∀ l ∈ ls, l.Genuine)
    (h : closeRun d ⟨ls, n⟩ = .ok c) :
    ∃ r, c = ⟨r, n⟩ ∧ ls = List.replicate d (.of .closeParen) ++ r := by
  induction d generalizing ls with
  | zero =>
    cases h
    exact ⟨ls, rfl, rfl⟩
  | succ d ih =>
    obtain ⟨c', hexpect, h⟩ := bind_eq_ok_iff.1 h
    unfold expect at hexpect
    split at hexpect
    · next hclose =>
      obtain ⟨r, rfl⟩ := exists_of_token_genuine hg hclose (by decide) (by decide) (by decide)
      obtain ⟨rfl, -⟩ := next_eq_ok_iff.1 hexpect
      obtain ⟨r', rfl, hr⟩ := ih (fun l hl => hg l (List.mem_cons_of_mem _ hl)) h
      refine ⟨r', rfl, ?_⟩
      rw [show r = _ from hr]
      rfl
    · cases hexpect

/-- A cursor comes to a stand behind parentheses that close only where no junk follows. -/
theorem noJunkAhead_of_closeRun {d : Nat} {c c' : Cursor} (h : closeRun (d + 1) c = .ok c') :
    NoJunkAhead c'.rest := by
  induction d generalizing c with
  | zero =>
    obtain ⟨c₁, hexpect, h⟩ := bind_eq_ok_iff.1 h
    cases h
    unfold expect at hexpect
    split at hexpect
    · obtain ⟨rfl, hahead⟩ := next_eq_ok_iff.1 hexpect
      exact hahead
    · cases hexpect
  | succ d ih =>
    obtain ⟨c₁, -, h⟩ := bind_eq_ok_iff.1 h
    exact ih h

/-- A cursor passes parentheses that close. -/
theorem closeRun_replicate (d n : Nat) {r : List Lexeme} (hjunk : NoJunkAhead r) :
    closeRun d ⟨List.replicate d (.of .closeParen) ++ r, n⟩ = .ok ⟨r, n⟩ := by
  induction d with
  | zero => rfl
  | succ d ih =>
    have hahead := noJunkAhead_replicate_append (t := .closeParen) (by decide) d hjunk
    rw [List.replicate_succ, List.cons_append, closeRun, expect, if_pos (token_of_cons _ _ _),
      next_cons n hahead, ok_bind, ih]

end Cursor

end DiceNotation
