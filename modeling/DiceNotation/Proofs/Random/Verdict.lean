import DiceNotation.Random.Words
import Mathlib.Tactic.SplitIfs

/-!
# What becomes of a word

A word that is taken for a bound has a verdict: the number that it is answered with, or none when the
next word has to be taken. The verdict compares the low half of the product with the threshold, and
with nothing else. That a sample is decided by the verdicts of its words, whether the threshold was
computed for them or not, is `WordSource.sample_of_next?`.
-/

namespace DiceNotation

/-- The number that a word is answered with for the bound `n`, or none when it is rejected. -/
def verdict (n : Nat) (w : UInt64) : Option Nat :=
  if w.toNat * n % wordCount < wordCount % n then none else some (w.toNat * n / wordCount)

/-- A word is rejected when the low half of its product with the bound is below the number of words that are
too many. -/
theorem verdict_eq_none_iff {n : Nat} {w : UInt64} :
    verdict n w = none ↔ w.toNat * n % wordCount < wordCount % n := by
  unfold verdict
  split_ifs with h <;> simp [h]

/-- Any other word is answered with the high half of its product with the bound. -/
theorem verdict_eq_some_iff {n : Nat} {w : UInt64} {k : Nat} :
    verdict n w = some k ↔
      wordCount % n ≤ w.toNat * n % wordCount ∧ w.toNat * n / wordCount = k := by
  unfold verdict
  split_ifs with h
  · simp [Nat.not_le.2 h]
  · simp [Nat.not_lt.1 h]

/-- A bound that fits in 64 bits is one for words. -/
theorem isBound_natCast {n : Nat} (h0 : 0 < n) (h : n < wordCount) : IsBound (n : Int) :=
  ⟨Int.natCast_pos.2 h0, Int.ofNat_lt.2 h⟩

namespace WordSource

variable {σ : Type} (W : WordSource σ)

/-- The remainder that the threshold is computed from can be that of `2^64` itself. -/
theorem threshold_eq {n : Nat} (h : n ≤ wordCount) : (wordCount - n) % n = wordCount % n :=
  (Nat.mod_eq_sub_mod h).symm

/-- Without the shortcut for low halves of `n` or more, a sample settles from its first word. -/
theorem sample_eq_settle {n : Nat} (h0 : 0 < n) (h : n < wordCount) (tries : Nat) (s : σ) :
    W.sample tries n s =
      match W.next? s with
      | none => (.error .exhausted, s)
      | some (w, s) => W.settle n (wordCount % n) tries (w.toNat * n) s := by
  rw [sample, if_pos (isBound_natCast h0 h), Int.toNat_natCast]
  rcases W.next? s with _ | ⟨w, s'⟩
  · rfl
  · dsimp only
    rw [threshold_eq (Nat.le_of_lt h)]
    split_ifs with hlow
    · rfl
    · -- The shortcut is right because the threshold is below the bound.
      have hthreshold : wordCount % n < n := Nat.mod_lt _ h0
      have habove : ¬ w.toNat * n % wordCount < wordCount % n := by omega
      unfold settle
      rw [if_neg habove]

/-- A sample is decided by the verdict on its next word: an answer ends it, and behind a word that is
rejected it goes on as a sample with one try less. -/
theorem sample_of_next? {n : Nat} (h0 : 0 < n) (h : n < wordCount) (tries : Nat) {s s' : σ}
    {w : UInt64} (hnext : W.next? s = some (w, s')) :
    W.sample tries n s =
      match verdict n w, tries with
      | some k, _ => (.ok k, s')
      | none, 0 => (.error .exhausted, s')
      | none, tries + 1 => W.sample tries n s' := by
  rw [sample_eq_settle W h0 h, hnext]
  show W.settle n (wordCount % n) tries (w.toNat * n) s' = _
  unfold settle verdict
  split_ifs with hlow
  · cases tries with
    | zero => rfl
    | succ tries => exact (sample_eq_settle W h0 h tries s').symm
  · rfl

/-- Where the words end a sample has no answer. -/
theorem sample_of_end {n : Nat} (h0 : 0 < n) (h : n < wordCount) (tries : Nat) {s : σ}
    (hnext : W.next? s = none) : W.sample tries n s = (.error .exhausted, s) := by
  rw [sample_eq_settle W h0 h, hnext]

end WordSource

end DiceNotation
