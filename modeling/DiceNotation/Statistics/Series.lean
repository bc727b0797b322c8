import DiceNotation.Evaluate
import DiceNotation.Statistics.Frequency
import DiceNotation.Statistics.Mean

/-!
# Series

The statistics are computed by a library that knows series of 64-bit integers. A `SeriesLibrary` is what they
need of one, and `Statistics.library` is one that has it.
-/

namespace DiceNotation

/-- What the statistics need of a library for series of integers. Any of it may fail. -/
structure SeriesLibrary where
  /-- The mean of a series. -/
  mean : List Int → Except SeriesError Float
  /-- The least value of a series. -/
  least : List Int → Except SeriesError Int
  /-- The greatest value of a series. -/
  greatest : List Int → Except SeriesError Int
  /-- The distinct values of a series, each with its share of it, in an order of the library's own. -/
  shares : List Int → Except SeriesError (List (Int × Float))
  /-- Rows in the order of their values. -/
  sortRows : List (Int × Float) → Except SeriesError (List (Int × Float))

/-- The distinct values of a series with their shares, in the order of the values. -/
def SeriesLibrary.table (L : SeriesLibrary) (vs : List Int) : Except SeriesError (List (Int × Float)) := do
  L.sortRows (← L.shares vs)

namespace Statistics

/-- The complaint about an extreme value of a series that has no values. -/
def noExtreme : SeriesError :=
  .other "cannot convert float NaN to integer"

/-- A library for series, which has no complaint about one with a value. -/
def library : SeriesLibrary where
  mean vs := .ok (mean vs)
  least vs := vs.min?.elim (.error noExtreme) .ok
  greatest vs := vs.max?.elim (.error noExtreme) .ok
  shares vs := .ok (shares vs)
  sortRows rows := .ok (sortRows rows)

end Statistics

end DiceNotation
