import DiceNotation.Number.Text
import DiceNotation.Sampling
import DiceNotation.Settings.Basic
import DiceNotation.Statistics.Series
import DiceNotation.Text.Lowercase

/-!
# Statistics

What can be computed from a sample of a roll, under the name that a user asks for it by, with a library
for series of integers.
-/

namespace DiceNotation

/-- A table of values with their shares. -/
structure Frame where
  /-- The names of the two columns. -/
  columns : String × String
  /-- The values with their shares. -/
  rows : List (Int × Float)

/-- A chart of how often each value occurs, as bars. -/
structure Chart where
  /-- The width in pixels. -/
  width : Nat
  /-- The height in pixels. -/
  height : Nat
  /-- The values with the heights of their bars. -/
  bars : List (Int × Float)

namespace Chart

/-- The names of a bar's value and of its height. -/
def columns : String × String :=
  ("value", "probability")

/-- How the heights are written at the axis: as percentages. -/
def tickFormat : String := "%"

/-- The format of the picture. -/
def pictureFormat : String := "png"

/-- The table that a chart of a series is drawn from. -/
def frame (L : SeriesLibrary) (vs : List Int) : Except SeriesError Frame := do
  return ⟨columns, ← L.table vs⟩

end Chart

/-- The result of a statistic. -/
inductive Summary
  /-- A mean. -/
  | mean (value : Float)
  /-- A value of the series. -/
  | value (value : Int)
  /-- The values of the series with their shares. -/
  | table (rows : List (Int × Float))
  /-- What is drawn. -/
  | chart (chart : Chart)

/-- A statistic. -/
inductive Statistic
  /-- The mean. -/
  | mean
  /-- The least value. -/
  | least
  /-- The greatest value. -/
  | greatest
  /-- The share of each value. -/
  | frequencies
  /-- A picture of the shares. -/
  | chart
  deriving DecidableEq, Repr

namespace Statistic

/-- All statistics. -/
def all : List Statistic :=
  [mean, least, greatest, frequencies, chart]

/-- The name that a statistic is asked for by. -/
def name : Statistic → String
  | mean => "mean"
  | least => "min"
  | greatest => "max"
  | frequencies => "probtab"
  | chart => "plot"

/-- The names of all statistics in alphabetical order. -/
def names : List String :=
  (all.map name).mergeSort fun a b => a ≤ b

/-- What a statistic is, in a few words. -/
def description : Statistic → String
  | mean => "average of sampled rolls"
  | least => "smallest sampled roll"
  | greatest => "largest sampled roll"
  | frequencies => "observed frequency of each result"
  | chart => "produce a distribution graph"

/-- The help on a statistic that has none of its own. -/
def defaultHelp : String := "No help text available for this function."

/-- The help on how a statistic is used. -/
def help : Statistic → String
  | mean => "mean <roll>\n\nArguments:\n    roll - A dice expression\n\nResult:\n" ++
    "    Rolls the expression once per sample seed and\n    returns the average result.\n"
  | frequencies => "probtab <roll>\n\nArguments:\n    roll - A dice expression\n\nResult:\n" ++
    "    Rolls the expression once per sample seed and\n" ++
    "    returns how often each result came up, ordered\n    by result.\n"
  | chart => "plot <roll>\n\nArguments:\n    roll - A dice expression\n\nResult:\n" ++
    "    Produces a PNG bar chart of how often each\n" ++
    "    result came up over the sampled seeds.\n"
  | _ => defaultHelp

/-- A statistic as it is shown in messages. -/
def text (f : Statistic) : String :=
  "(" ++ f.name ++ ")"

/-- The complaint that a series is empty. -/
def noRolls (f : Statistic) : DiceError :=
  .general (f.name ++ " of no rolls cannot be computed")

/-- The complaint that there is no seed to start from. -/
def noSeed (f : Statistic) : DiceError :=
  .general (f.name ++ " needs a seed")

/-- The complaint that there is no statistic of a name. -/
def unknown (name : String) : DiceError :=
  .general ("unknown function " ++ name)

/-- The statistic of a name, in whatever case its letters are. -/
def find (name : String) : Except DiceError Statistic :=
  let name := Text.lower name
  match all.find? fun f => f.name == name with
  | some f => .ok f
  | none => .error (unknown name)

/-- The statistic of a series that has a value. -/
def summarize (L : SeriesLibrary) (f : Statistic) (settings : Settings) (vs : List Int) :
    Except SeriesError Summary :=
  match f with
  | mean => (L.mean vs).map .mean
  | least => (L.least vs).map .value
  | greatest => (L.greatest vs).map .value
  | frequencies => (L.table vs).map .table
  | chart => (Chart.frame L vs).map fun frame =>
    .chart ⟨settings.plotWidth, settings.plotHeight, frame.rows⟩

/-- The statistic of a series. The library is not asked for one of a series without values. -/
def apply (L : SeriesLibrary) (f : Statistic) (settings : Settings) (vs : List Int) :
    Except Problem Summary :=
  if vs.isEmpty then .error (.dice f.noRolls)
  else (f.summarize L settings vs).mapError .series

/-- The statistic of a program's sample. A seed and a limit that are given come before those of the
settings. -/
def roll (L : SeriesLibrary) (f : Statistic) (settings : Settings) (p : Program)
    (seed? limit? : Option Int) : Except Problem Summary :=
  match seed?.or (settings.seed.map Int.ofNat) with
  | none => .error (.dice f.noSeed)
  | some seed => do
    f.apply L settings (← sampleRolls p seed (limit?.getD settings.rollLimit) settings.samples)

end Statistic

end DiceNotation
