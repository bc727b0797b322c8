/-!
# Frequencies

How often each value of a series occurs.
-/

namespace DiceNotation.Statistics

/-- Counts a value that is not above the ones counted so far. -/
def countValue (v : Int) : List (Int × Nat) → List (Int × Nat)
  | [] => [(v, 1)]
  | (w, n) :: rest => if v = w then (w, n + 1) :: rest else (v, 1) :: (w, n) :: rest

/-- The distinct values of a series in increasing order, each with the number of times that it
occurs. -/
def counts (vs : List Int) : List (Int × Nat) :=
  (vs.mergeSort fun a b => a ≤ b).foldr countValue []

/-- The distinct values of a series, each with its share of it. The most frequent ones come first. -/
def shares (vs : List Int) : List (Int × Float) :=
  let total := Float.ofNat vs.length
  ((counts vs).mergeSort fun a b => b.2 ≤ a.2).map fun (v, n) => (v, Float.ofNat n / total)

/-- Rows in the order of their values. -/
def sortRows (rows : List (Int × Float)) : List (Int × Float) :=
  rows.mergeSort fun a b => a.1 ≤ b.1

end DiceNotation.Statistics
