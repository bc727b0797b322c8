import DiceNotation.Parse
import DiceNotation.Random.Generator
import DiceNotation.Rolling

/-!
# Evaluation

A text is evaluated with a seed and a limit on the dice of one roll. A `Problem` is whatever can stop
that, or what is done with the values: a complaint about the text or its roll, which a user makes, or a
misuse of the machinery, which only a caller can.
-/

namespace DiceNotation

/-- Why there is nothing to be made of a series of values. -/
inductive SeriesError
  /-- A value is no signed 64-bit integer. -/
  | overflow
  /-- What the series was given to has a complaint of its own. -/
  | other (message : String)
  deriving DecidableEq, Repr

/-- The message of a series error. -/
def SeriesError.message : SeriesError → String
  | overflow => "Python int too large to convert to C long"
  | other message => message

/-- Why an evaluation has no value. -/
inductive Problem
  /-- The text or its roll is at fault. -/
  | dice (error : DiceError)
  /-- There is no such generator. -/
  | generator (error : GeneratorError)
  /-- The operations do not fit their stack. -/
  | stack (fault : StackFault)
  /-- There is no stack to run on. -/
  | allocation (error : AllocationError)
  /-- The sampler had no answer. -/
  | sample (error : SampleError)
  /-- The values make no series, or nothing is to be made of it. -/
  | series (error : SeriesError)
  deriving DecidableEq, Repr

/-- The message of a problem. -/
def Problem.message : Problem → String
  | dice e => e.message
  | generator e => e.message
  | stack e => e.message
  | allocation e => e.message
  | sample e => e.message
  | series e => e.message

/-- The problem that a failed evaluation is. -/
def Failure.problem : Failure → Problem
  | roll e => .dice (.rollError e)
  | stack e => .stack e
  | allocation e => .allocation e
  | sample e => .sample e

/-- The problem that a syntax error is. -/
def SyntaxError.problem (e : SyntaxError) : Problem :=
  .dice (.syntaxError e)

/-- Runs a program with a generator of the given seed, which is checked even where nothing is
rolled. -/
def Program.roll (p : Program) (seed limit : Int) : Except Problem Int :=
  match Counter.ofSeed seed with
  | .error e => .error (.generator e)
  | .ok s => ((p.run Counter.sampler limit).runFrom s).1.mapError Failure.problem

/-- Compiles a text, and runs it with a generator of the given seed. -/
def evaluateText (text : String) (seed limit : Int) : Except Problem Int :=
  match compile text with
  | .error e => .error e.problem
  | .ok p => p.roll seed limit

/-- Evaluates a text, and gives no value where the text or its roll is at fault. -/
def tryRoll (text : String) (seed limit : Int) : Except Problem (Option Int) :=
  match evaluateText text seed limit with
  | .ok v => .ok (some v)
  | .error (.dice _) => .ok none
  -- A bad seed is the caller's fault and not the text's.
  | .error e => .error e

end DiceNotation
