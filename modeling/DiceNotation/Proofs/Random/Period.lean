import DiceNotation.Proofs.Random.Verdict
import DiceNotation.Random.Generator
import Mathlib.Algebra.Ring.Nat
import Mathlib.Logic.Function.Iterate

/-!
# The counter answers

The seeded generator never rejects words for ever. Its counter grows by an odd number, so within `2^64`
steps it takes every value (`Counter.exists_iterate_eq`). One of these values is the word of ones, which
is mixed to itself (`Counter.mix_ones`), and the word of ones is accepted for every bound: the low half
of its product with `n` is `2^64 - n`, and the threshold is at most that (`verdict_ones`). So a sample
with `2^64` tries is answered for every bound and from every counter (`Counter.sampler_fair`).
-/

namespace DiceNotation

/-! ## The word of ones -/

/-- The greatest word. -/
def ones : UInt64 := 0xFFFFFFFFFFFFFFFF

/-- The greatest word is `2^64 - 1`. -/
theorem toNat_ones : ones.toNat = 2 ^ 64 - 1 := by decide

/-- The word of ones is accepted for every bound, as the greatest number below it. -/
theorem verdict_ones {n : Nat} (h0 : 0 < n) (hn : n < wordCount) : verdict n ones = some (n - 1) := by
  have hcount : wordCount = 2 ^ 64 := rfl
  -- The product falls short of `n` times `2^64` by `n`, which splits it into its halves.
  have hproduct : ones.toNat * n = (2 ^ 64 - n) + 2 ^ 64 * (n - 1) := by
    rw [toNat_ones]
    omega
  have hlow : ones.toNat * n % wordCount = 2 ^ 64 - n := by
    rw [hproduct, hcount, Nat.add_mul_mod_self_left]
    exact Nat.mod_eq_of_lt (by omega)
  have hhigh : ones.toNat * n / wordCount = n - 1 := by
    rw [hproduct, hcount, Nat.add_mul_div_left _ _ (by decide), Nat.div_eq_of_lt (by omega)]
    exact Nat.zero_add _
  -- The bound fits into `2^64` at least once, and the threshold is what is left over.
  have hthreshold : wordCount % n ≤ 2 ^ 64 - n := by
    have hsub : wordCount % n = (wordCount - n) % n := Nat.mod_eq_sub_mod (Nat.le_of_lt hn)
    have hle : (wordCount - n) % n ≤ wordCount - n := Nat.mod_le _ _
    rw [hsub]
    exact hle
  rw [verdict_eq_some_iff, hlow]
  exact ⟨hthreshold, hhigh⟩

namespace Counter

/-- The word of ones is mixed to itself, since its product with any other number is the one number less
in the high half and the complement of that in the low half. -/
theorem mix_ones : mix ones = ones := by decide

/-! ## The period of the counter -/

/-- The number that undoes a multiplication by the increment. -/
def inverse : UInt64 := 0x939C72E4AF1E62CF

/-- Its product with the increment is one. -/
theorem inverse_mul_increment : inverse * increment = 1 := by decide

/-- The counter behind `k` words. -/
theorem iterate_eq (k : Nat) (s : UInt64) :
    (· + increment)^[k] s = s + UInt64.ofNat k * increment := by
  induction k with
  | zero => simp
  | succ k ih =>
    rw [Function.iterate_succ_apply', ih, UInt64.ofNat_add, UInt64.add_mul, ← UInt64.add_assoc]
    simp

/-- Within `2^64` steps the counter takes every value. -/
theorem exists_iterate_eq (s t : UInt64) : ∃ k, k < 2 ^ 64 ∧ (· + increment)^[k + 1] s = t := by
  refine ⟨((t - s) * inverse - 1).toNat, UInt64.toNat_lt _, ?_⟩
  have hsteps : UInt64.ofNat (((t - s) * inverse - 1).toNat + 1) = (t - s) * inverse := by
    rw [UInt64.ofNat_add, UInt64.ofNat_toNat]
    exact UInt64.sub_add_cancel _ _
  rw [iterate_eq, hsteps, UInt64.mul_assoc, inverse_mul_increment, UInt64.mul_one, UInt64.add_comm]
  exact UInt64.sub_add_cancel _ _

/-- Among any `2^64` words of the counter in a row there is one that a bound accepts. -/
theorem exists_accepted {n : Nat} (h0 : 0 < n) (hn : n < wordCount) (s : UInt64) :
    ∃ k, k < 2 ^ 64 ∧ verdict n (mix ((· + increment)^[k + 1] s)) = some (n - 1) := by
  obtain ⟨k, hk, hones⟩ := exists_iterate_eq s ones
  refine ⟨k, hk, ?_⟩
  rw [hones, mix_ones]
  exact verdict_ones h0 hn

/-! ## Answers -/

/-- A word is answered with a number below the bound. -/
theorem lt_of_verdict {n v : Nat} {w : UInt64} (h0 : 0 < n) (h : verdict n w = some v) : v < n := by
  obtain ⟨-, rfl⟩ := verdict_eq_some_iff.1 h
  have hword : w.toNat < wordCount := w.toNat_lt
  rw [Nat.div_lt_iff_lt_mul (by decide), Nat.mul_comm n]
  exact Nat.mul_lt_mul_of_pos_right hword h0

/-- A sample of the counter is decided by the word behind the next step. -/
theorem sample_eq {n : Nat} (h0 : 0 < n) (hn : n < wordCount) (tries : Nat) (s : UInt64) :
    words.sample tries n s =
      match verdict n (mix (s + increment)), tries with
      | some a, _ => (.ok (a : Int), s + increment)
      | none, 0 => (.error .exhausted, s + increment)
      | none, tries + 1 => words.sample tries n (s + increment) :=
  words.sample_of_next? h0 hn tries rfl

/-- A sample is answered when one of the words that it has tries for is accepted: it is answered then or
earlier. -/
theorem sample_answered {n : Nat} (h0 : 0 < n) (hn : n < wordCount) {k v : Nat} {s : UInt64}
    (hword : verdict n (mix ((· + increment)^[k + 1] s)) = some v) {tries : Nat} (hk : k ≤ tries) :
    ∃ (a : Nat) (s' : UInt64), a < n ∧ words.sample tries n s = (.ok (a : Int), s') := by
  induction k generalizing s tries with
  | zero =>
    have hfirst : verdict n (mix (s + increment)) = some v := by
      rwa [Function.iterate_one] at hword
    rw [sample_eq h0 hn tries s, hfirst]
    exact ⟨v, s + increment, lt_of_verdict h0 hfirst, rfl⟩
  | succ k ih =>
    rw [sample_eq h0 hn tries s]
    cases hfirst : verdict n (mix (s + increment)) with
    | some a => exact ⟨a, s + increment, lt_of_verdict h0 hfirst, rfl⟩
    | none =>
      -- The first word is rejected, so there is a try less for the words behind it.
      cases tries with
      | zero => exact absurd hk (Nat.not_succ_le_zero k)
      | succ tries =>
        rw [Function.iterate_succ_apply] at hword
        exact ih hword (Nat.le_of_succ_le_succ hk)

/-- The seeded sampler is fair in its answers. -/
theorem sampler_fair : sampler.Fair where
  answer n s h := by
    -- The bound is a natural number that fits in 64 bits.
    obtain ⟨m, rfl⟩ := Int.eq_ofNat_of_zero_le (Int.le_of_lt h.1)
    have h0 : 0 < m := Int.natCast_pos.1 h.1
    have hm : m < wordCount := Int.ofNat_lt.1 h.2
    obtain ⟨k, hk, hword⟩ := exists_accepted h0 hm s
    have htries : k ≤ wordCount := Nat.le_of_lt hk
    obtain ⟨a, s', ha, hsample⟩ := sample_answered h0 hm hword htries
    refine ⟨a, ?_, Int.natCast_nonneg a, Int.ofNat_lt.2 ha⟩
    show (words.sample wordCount m s).1 = .ok (a : Int)
    rw [hsample]
  refuse n s h := if_neg h

end Counter

end DiceNotation
