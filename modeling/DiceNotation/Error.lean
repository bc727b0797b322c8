/-!
# Errors of dice notation

What can be wrong with a text (`SyntaxError`) and with the roll that it asks for (`RollError`), and
the message that each of these gives the user. A `DiceError` is either of them, or a complaint that
is a message only.
-/

namespace DiceNotation

/-- Why a text is not a dice expression. -/
inductive SyntaxError
  /-- The text ends where an operand is needed. -/
  | unexpectedEnd
  /-- The text cannot go on with `text`. -/
  | unexpectedInput (text : String)
  /-- The delimiter `expected` is needed, and the text has `got`, or ends. -/
  | expectedInput (expected : String) (got : Option String)
  /-- The digits `text` are no number of the range. -/
  | invalidInteger (text cause : String)
  deriving DecidableEq, Repr

/-- Why an expression that compiled has no result. -/
inductive RollError
  /-- A value left the signed 64-bit range. -/
  | overflow
  /-- A number is divided by zero. -/
  | divisionByZero
  /-- Less than no dice are rolled. -/
  | negativeTimes
  /-- Dice with less than no sides are rolled. -/
  | negativeSides
  /-- More dice are asked for than the limit allows. -/
  | tooManyRolls
  deriving DecidableEq, Repr

/-- The message of a syntax error. -/
def SyntaxError.message : SyntaxError → String
  | unexpectedEnd => "unexpected end of input"
  | unexpectedInput text => "unexpected input: \"" ++ text ++ "\""
  | expectedInput expected none => "expected \"" ++ expected ++ "\", got end of input"
  | expectedInput expected (some got) =>
    "expected \"" ++ expected ++ "\", got \"" ++ got ++ "\""
  | invalidInteger text cause => "invalid integer \"" ++ text ++ "\": " ++ cause

/-- The message of a roll error. -/
def RollError.message : RollError → String
  | overflow => "number overflowed"
  | divisionByZero => "can't divide by zero"
  | negativeTimes => "can't roll less than 0 times"
  | negativeSides => "can't roll a less than 0-sided die"
  | tooManyRolls => "too many rolls"

/-- A complaint about an expression, its roll, or what was to be done with it. -/
inductive DiceError
  /-- The text does not follow the grammar. -/
  | syntaxError (error : SyntaxError)
  /-- The roll has no value. -/
  | rollError (error : RollError)
  /-- A complaint of no kind of its own. -/
  | general (message : String)
  deriving DecidableEq, Repr

namespace DiceError

/-- The kinds that a user can tell errors apart by, besides their messages. -/
inductive Kind
  | unexpectedEnd
  | unexpectedInput
  | expectedInput
  | invalidInteger
  | overflow
  | divisionByZero
  | negativeTimes
  | negativeSides
  | tooManyRolls
  | general
  deriving DecidableEq, Repr

/-- The kind of an error. -/
def kind : DiceError → Kind
  | syntaxError .unexpectedEnd => .unexpectedEnd
  | syntaxError (.unexpectedInput _) => .unexpectedInput
  | syntaxError (.expectedInput _ _) => .expectedInput
  | syntaxError (.invalidInteger _ _) => .invalidInteger
  | rollError .overflow => .overflow
  | rollError .divisionByZero => .divisionByZero
  | rollError .negativeTimes => .negativeTimes
  | rollError .negativeSides => .negativeSides
  | rollError .tooManyRolls => .tooManyRolls
  | general _ => .general

/-- The message for the user. -/
def message : DiceError → String
  | syntaxError e => e.message
  | rollError e => e.message
  | general message => message

/-- Two errors are alike when a user cannot tell them apart: their kinds and messages agree. -/
def alike (a b : DiceError) : Bool :=
  a.kind == b.kind && a.message == b.message

end DiceError

end DiceNotation
