import DiceNotation.Data

/-!
# Errors of documents

Why a document holds no data. Whatever breaks the rules of the format is one error; besides it, a
scalar can announce a kind of value by its tag or its look that its text does not denote.
-/

namespace DiceNotation.Yaml

/-- What is wrong with a date or a time of day. -/
inductive ClockError
  /-- There is no such year. -/
  | year (value : Nat)
  /-- There is no such month. -/
  | month
  /-- The month has no such day. -/
  | day
  /-- The day has no such hour. -/
  | hour
  /-- The hour has no such minute. -/
  | minute
  /-- The minute has no such second. -/
  | second
  /-- The offset is a day or more. -/
  | offset (seconds : Int)
  deriving DecidableEq, Repr

/-- Why a document holds no data, or data have no document. -/
inductive Error
  /-- The document breaks the rules of the format. -/
  | malformed
  /-- The text is no integer of the base. -/
  | badInteger (base : Nat) (text : String)
  /-- An integer has more digits than are read. -/
  | longInteger (digits : Nat)
  /-- The text is no decimal fraction. -/
  | badFraction (text : String)
  /-- A number has no text at all. -/
  | noNumber
  /-- The text is none of the names of a truth value. -/
  | badTruth (text : String)
  /-- The text is no date. -/
  | badDate
  /-- There is no such date or time. -/
  | badClock (error : ClockError)
  /-- An escape names a code point that there is not. -/
  | badCodePoint
  /-- The data cannot be written. -/
  | unwritable (error : FormatError)
  deriving DecidableEq, Repr

/-- The message of a bad date or time. -/
def ClockError.message : ClockError → String
  | year v => "year " ++ toString v ++ " is out of range"
  | month => "month must be in 1..12"
  | day => "day is out of range for month"
  | hour => "hour must be in 0..23"
  | minute => "minute must be in 0..59"
  | second => "second must be in 0..59"
  | offset s =>
    "offset must be a timedelta strictly between -timedelta(hours=24) and timedelta(hours=24), not "
      ++ Data.durationText s ++ "."

/-- The message of an error. -/
def Error.message : Error → String
  | malformed => "the document is malformed"
  | badInteger base text =>
    "invalid literal for int() with base " ++ toString base ++ ": " ++ Text.quoted text
  | longInteger n =>
    "Exceeds the limit (" ++ toString maxDigits ++ " digits) for integer string conversion: " ++
      "value has " ++ toString n ++
      " digits; use sys.set_int_max_str_digits() to increase the limit"
  | badFraction text => "could not convert string to float: " ++ Text.quoted text
  | noNumber => "string index out of range"
  | badTruth text => Text.quoted text
  | badDate => "'NoneType' object has no attribute 'groupdict'"
  | badClock e => e.message
  | badCodePoint => "chr() arg not in range(0x110000)"
  | unwritable e => e.message

end DiceNotation.Yaml
