/-!
# Journal

What a computation reports on its way, for a reader who wants to follow it.
-/

namespace DiceNotation.Journal

/-- What a record is about. -/
inductive Channel
  /-- Compiling a text. -/
  | compiling
  /-- Sampling a compiled roll. -/
  | sampling
  deriving DecidableEq, Repr

/-- How much a record matters. -/
inductive Level
  | debug
  | info
  deriving DecidableEq, Repr

/-- A report. -/
structure Record where
  /-- What it is about. -/
  channel : Channel
  /-- How much it matters. -/
  level : Level
  /-- What it says. -/
  message : String
  deriving DecidableEq, Repr

end DiceNotation.Journal
