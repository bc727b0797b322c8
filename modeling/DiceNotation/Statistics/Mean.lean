import DiceNotation.Number.Binary64

/-!
# Means

The mean of a series in floating point. The order in which the values are added up decides the last
digits of the sum: a long series is halved again and again, and a block of at most 128 values is added
up in eight interleaved sums, so that the rounding errors grow slowly. The sums are those of any numbers
that can be added, so that it can be said what they are where nothing is rounded.
-/

namespace DiceNotation.Statistics

section

variable {α : Type} [Add α] [OfNat α 0]

/-- Adds blocks of eight values to eight sums, one value to each, and gives the sums with the values
that are left. -/
def addEights : Nat → List α → List α → List α × List α
  | 0, sums, vs => (sums, vs)
  | n + 1, sums, vs => addEights n (List.zipWith (· + ·) sums (vs.take 8)) (vs.drop 8)

/-- The sum of eight sums, in pairs and pairs of pairs. -/
def addSums : List α → α
  | [a, b, c, d, e, f, g, h] => ((a + b) + (c + d)) + ((e + f) + (g + h))
  | sums => sums.foldl (· + ·) 0

/-- The sum of a series that is halved down to blocks. -/
def pairwiseSum (vs : List α) : α :=
  if vs.length < 8 then vs.foldl (· + ·) 0
  else if vs.length ≤ 128 then
    -- The first eight values are the first sums, so one block fewer is added.
    let (sums, rest) := addEights (vs.length / 8 - 1) (vs.take 8) (vs.drop 8)
    rest.foldl (· + ·) (addSums sums)
  else
    let half := vs.length / 2 - vs.length / 2 % 8
    pairwiseSum (vs.take half) + pairwiseSum (vs.drop half)
termination_by vs.length
decreasing_by
  all_goals
    simp only [List.length_take, List.length_drop]
    omega

/-- How many values are summed at once. -/
def chunkSize : Nat := 8192

/-- Adds the sums of a series' chunks to `total`. -/
def addChunks (total : α) (vs : List α) : α :=
  if vs.isEmpty then total
  else addChunks (total + pairwiseSum (vs.take chunkSize)) (vs.drop chunkSize)
termination_by vs.length
decreasing_by
  rename_i h
  have hpos : 0 < vs.length := List.length_pos_iff.2 (by simpa using h)
  simp only [List.length_drop, chunkSize]
  omega

end

/-- The mean of a series of integers. -/
def mean (vs : List Int) : Float :=
  addChunks 0 (vs.map Number.ofInt) / Float.ofNat vs.length

end DiceNotation.Statistics
