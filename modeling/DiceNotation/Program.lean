/-!
# Programs

A compiled expression is a list of operations for a machine with a stack of integers. Each operation
takes some values off the stack and puts some on it (`Op.pops`, `Op.pushes`), so the depth of the
stack is known from the operations alone. A `Program` is a list of operations with the stack size
that it claims to need.
-/

namespace DiceNotation

/-- The arithmetic operators of two operands. -/
inductive Arith
  | add
  | sub
  | mul
  | div
  deriving DecidableEq, Repr, Hashable

/-- An operation of the machine. -/
inductive Op
  /-- Puts a number on the stack. -/
  | num (value : Int)
  /-- Replaces the two topmost values by the operator's result, the lower of them on its left. -/
  | arith (op : Arith)
  /-- Replaces the topmost value by its negation. -/
  | neg
  /-- Replaces a number of dice and, above it, their number of sides by the sum that is rolled. -/
  | dice
  deriving DecidableEq, Repr, Hashable

/-- The name of an operator. -/
def Arith.name : Arith → String
  | add => "Add"
  | sub => "Sub"
  | mul => "Mul"
  | div => "Div"

namespace Op

/-- The name of an operation, which for a number is its decimal text. -/
def text : Op → String
  | num v => toString v
  | arith op => op.name
  | neg => "Neg"
  | dice => "Dice"

/-- How many values an operation takes off the stack. -/
def pops : Op → Nat
  | num _ => 0
  | arith _ => 2
  | neg => 1
  | dice => 2

/-- How many values an operation puts on the stack. -/
def pushes : Op → Nat
  | _ => 1

end Op

/-- Operations with the stack size that they are run on. Where the size is not positive, the stack
holds nothing. -/
structure Program where
  /-- The operations, in the order in which they are run. -/
  ops : List Op
  /-- How many values the stack holds at most. -/
  stackSize : Int
  deriving DecidableEq, Repr, Hashable

/-- A program as it is shown in messages. -/
def Program.text (p : Program) : String :=
  "Roll([" ++ ", ".intercalate (p.ops.map Op.text) ++ "], stack_size=" ++ toString p.stackSize ++ ")"

end DiceNotation
