import DiceNotation.Statistics.Mean
import Mathlib.Algebra.BigOperators.Group.List.Basic

/-!
# What a mean is the mean of

The mean adds the values of a series up in an order of its own. Each value is added once all the same: with
numbers that add up exactly, the eight interleaved sums of a block (`sum_addEights`), the halves of a longer
series (`pairwiseSum_eq_sum`) and its chunks (`addChunks_eq_add_sum`) come to the sum of the values. So what a
mean differs by from the exact one is the rounding of the sums, and no value is lost or counted twice.
-/

namespace DiceNotation.Statistics

variable {α : Type} [AddCommMonoid α]

/-- Values that are added one after the other come to their sum. -/
theorem foldl_add_eq_add_sum (total : α) (vs : List α) : vs.foldl (· + ·) total = total + vs.sum := by
  induction vs generalizing total with
  | nil => rw [List.foldl_nil, List.sum_nil, add_zero]
  | cons v vs ih => rw [List.foldl_cons, ih, List.sum_cons, add_assoc]

/-- Adding a block to eight sums adds its values, and the blocks that are added are no longer among the values
that are left. -/
theorem sum_addEights (n : Nat) {sums vs : List α} (hsums : sums.length = 8) (hvs : 8 * n ≤ vs.length) :
    (addEights n sums vs).1.length = 8 ∧
      (addEights n sums vs).1.sum + (addEights n sums vs).2.sum = sums.sum + vs.sum := by
  induction n generalizing sums vs with
  | zero => exact ⟨hsums, rfl⟩
  | succ n ih =>
    have htake : (vs.take 8).length = 8 := List.length_take_of_le (by omega)
    have hlength : (List.zipWith (· + ·) sums (vs.take 8)).length = 8 := by
      rw [List.length_zipWith, hsums, htake, Nat.min_self]
    have hdrop : 8 * n ≤ (vs.drop 8).length := by
      rw [List.length_drop]
      omega
    obtain ⟨hkept, hsum⟩ := ih hlength hdrop
    refine ⟨hkept, hsum.trans ?_⟩
    rw [← List.sum_add_sum_eq_sum_zipWith_of_length_eq _ _ (hsums.trans htake.symm), add_assoc,
      List.sum_take_add_sum_drop]

/-- Eight sums in pairs come to their sum. -/
theorem addSums_eq_sum (sums : List α) : addSums sums = sums.sum := by
  unfold addSums
  split
  · simp only [List.sum_cons, List.sum_nil, add_zero, add_assoc]
  · rw [foldl_add_eq_add_sum, zero_add]

/-- A series that is halved down to blocks comes to its sum. -/
theorem pairwiseSum_eq_sum (vs : List α) : pairwiseSum vs = vs.sum := by
  induction vs using pairwiseSum.induct with
  | case1 vs hshort => rw [pairwiseSum, if_pos hshort, foldl_add_eq_add_sum, zero_add]
  | case2 vs hlong hblock sums rest heq =>
    have htake : (vs.take 8).length = 8 := List.length_take_of_le (by omega)
    have hdrop : 8 * (vs.length / 8 - 1) ≤ (vs.drop 8).length := by
      rw [List.length_drop]
      omega
    obtain ⟨-, hsum⟩ := sum_addEights (vs.length / 8 - 1) htake hdrop
    rw [heq] at hsum
    rw [pairwiseSum, if_neg hlong, if_pos hblock, heq]
    dsimp only
    rw [foldl_add_eq_add_sum, addSums_eq_sum, hsum, List.sum_take_add_sum_drop]
  | case3 vs hlong hblock half ihleft ihright =>
    rw [pairwiseSum, if_neg hlong, if_neg hblock]
    dsimp only
    rw [ihleft, ihright, List.sum_take_add_sum_drop]

/-- A series that is added chunk by chunk comes to its sum. -/
theorem addChunks_eq_add_sum (total : α) (vs : List α) : addChunks total vs = total + vs.sum := by
  induction total, vs using addChunks.induct with
  | case1 total vs hempty =>
    rw [addChunks, if_pos hempty, List.isEmpty_iff.1 hempty, List.sum_nil, add_zero]
  | case2 total vs hsome ih =>
    rw [addChunks, if_neg hsome, ih, pairwiseSum_eq_sum, add_assoc, List.sum_take_add_sum_drop]

end DiceNotation.Statistics
