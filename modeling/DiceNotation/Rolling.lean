import DiceNotation.Error
import DiceNotation.Expr
import DiceNotation.Random.Sampler

/-!
# Rolling

How an expression gets its value. `Expr.eval` computes it along the tree and `Program.run` by the
operations of a program on a stack of bounded size; both compute in signed 64 bits, ask a sampler for
the faces of the dice, and stop at the first failure with the sampler as it is then.
-/

namespace DiceNotation

/-- What a stack of bounded size cannot do. -/
inductive StackFault
  /-- A value was taken off a stack that holds none. -/
  | empty
  /-- A value was put on a stack with no room left. -/
  | full
  deriving DecidableEq, Repr

/-- The message of a stack fault. -/
def StackFault.message : StackFault → String
  | empty => "pop from empty roll stack"
  | full => "list assignment index out of range"

/-- Why there is no stack of a size. -/
inductive AllocationError
  /-- The size is no signed 64-bit integer. -/
  | size
  /-- So many values take more memory than there are addresses. -/
  | memory
  deriving DecidableEq, Repr

/-- The message of a stack that cannot be made. Where memory is the reason there is none. -/
def AllocationError.message : AllocationError → String
  | size => "cannot fit 'int' into an index-sized integer"
  | memory => ""

/-- Why an evaluation stopped. -/
inductive Failure
  /-- The roll has no result. -/
  | roll (error : RollError)
  /-- The operations do not fit the stack. -/
  | stack (fault : StackFault)
  /-- There is no stack to run on. -/
  | allocation (error : AllocationError)
  /-- The sampler had no answer. -/
  | sample (error : SampleError)
  deriving DecidableEq, Repr

/-- A computation that asks a sampler with states in `σ`, and may fail. -/
abbrev Rolling (σ α : Type) := ExceptT Failure (StateM σ) α

/-- The outcome of a computation from a state of the sampler, and the state that it leaves. -/
def Rolling.runFrom {σ α : Type} (x : Rolling σ α) (s : σ) : Except Failure α × σ :=
  (x.run).run s

/-! ## Arithmetic -/

/-- The least value: `-2^63`. -/
def minValue : Int := -0x8000000000000000

/-- The greatest value: `2^63 - 1`. -/
def maxValue : Int := 0x7FFFFFFFFFFFFFFF

/-- An integer in the range of values. -/
def InRange (v : Int) : Prop :=
  minValue ≤ v ∧ v ≤ maxValue

/-- The bounds of a range are compared. -/
instance (v : Int) : Decidable (InRange v) :=
  inferInstanceAs (Decidable (_ ∧ _))

/-- A result, unless it left the range. -/
def checked (v : Int) : Except RollError Int :=
  if InRange v then .ok v else .error .overflow

/-- A quotient without its fraction: that of the absolute values, negated where the signs differ. -/
def quotient (l r : Int) : Int :=
  let q : Int := (l.natAbs / r.natAbs : Nat)
  if l < 0 ↔ r < 0 then q else -q

/-- The result of an operator. Division drops the fraction, so it rounds toward zero. -/
def Arith.apply (op : Arith) (l r : Int) : Except RollError Int :=
  match op with
  | add => checked (l + r)
  | sub => checked (l - r)
  | mul => checked (l * r)
  | div => if r = 0 then .error .divisionByZero else checked (quotient l r)

section

variable {σ : Type} (S : Sampler σ)

/-! ## Dice -/

/-- Adds `n` faces of a die to `total`, as long as the sum stays in range. -/
def addFaces (sides : Int) : Nat → Int → σ → Except Failure Int × σ
  | 0, total, s => (.ok total, s)
  | n + 1, total, s =>
    match S.sample sides s with
    | (.error e, s) => (.error (.sample e), s)
    | (.ok v, s) =>
      match checked (total + 1 + v) with
      | .error e => (.error (.roll e), s)
      | .ok total => addFaces sides n total s

/-- The sum of `times` dice with `sides` sides. The operands and the limit are checked before a die is
rolled, and without dice or sides none is. -/
def rollDice (times sides limit : Int) : Rolling σ Int :=
  if times < 0 then throw (.roll .negativeTimes)
  else if sides < 0 then throw (.roll .negativeSides)
  else if times > limit then throw (.roll .tooManyRolls)
  else if times = 0 ∨ sides = 0 then pure 0
  else ExceptT.mk (addFaces S sides times.toNat 0)

/-- The outcome of arithmetic as a step of an evaluation. -/
def lift (r : Except RollError Int) : Rolling σ Int :=
  match r with
  | .ok v => pure v
  | .error e => throw (.roll e)

/-! ## The tree -/

/-- The value of an expression, its operands first and the left one before the right one. -/
def Expr.eval (limit : Int) : Expr → Rolling σ Int
  | literal v => pure v
  | group _ e => e.eval limit
  | negate e => do
    let v ← e.eval limit
    lift (checked (-v))
  | die s => do
    let sides ← s.eval limit
    rollDice S 1 sides limit
  | dice t s => do
    let times ← t.eval limit
    let sides ← s.eval limit
    rollDice S times sides limit
  | arith op l r => do
    let a ← l.eval limit
    let b ← r.eval limit
    lift (op.apply a b)

/-! ## The stack -/

/-- Puts a value on a stack of at most `size` values. -/
def push (size v : Int) (stack : List Int) : Rolling σ (List Int) :=
  if stack.length < size then pure (v :: stack) else throw (.stack .full)

/-- What an operation makes of the stack, whose topmost value is its head. -/
def Op.execute (size limit : Int) : Op → List Int → Rolling σ (List Int)
  | num v, stack => push size v stack
  | arith op, r :: l :: stack => do
    let v ← lift (op.apply l r)
    push size v stack
  | neg, v :: stack => do
    let v ← lift (checked (-v))
    push size v stack
  | dice, sides :: times :: stack => do
    let v ← rollDice S times sides limit
    push size v stack
  | _, _ => throw (.stack .empty)

/-- Runs operations one after another. -/
def executeAll (size limit : Int) : List Op → List Int → Rolling σ (List Int)
  | [], stack => pure stack
  | op :: ops, stack => do
    let stack ← op.execute S size limit stack
    executeAll size limit ops stack

/-- How many values the addresses of memory are too few for: `2^60`. -/
def slotCount : Int := 0x1000000000000000

/-- Why there is no stack of a size, if there is none. All room that the size gives a stack is made
before it is used, and a negative size gives it none. -/
def allocationError? (size : Int) : Option AllocationError :=
  if InRange size then if size < slotCount then none else some .memory else some .size

/-- The value that operations leave on top of an empty stack, whatever is below it. -/
def Program.compute (p : Program) (limit : Int) : Rolling σ Int := do
  match ← executeAll S p.stackSize limit p.ops [] with
  | [] => throw (.stack .empty)
  | v :: _ => pure v

/-- The value of a program on a stack of its size. -/
def Program.run (p : Program) (limit : Int) : Rolling σ Int :=
  match allocationError? p.stackSize with
  | some e => throw (.allocation e)
  | none => p.compute S limit

/-- One operation of a run, with the sampler's state behind it and the stack, or the failure that
ended the run. -/
structure Step (σ : Type) where
  /-- The operation. -/
  op : Op
  /-- The state of the sampler behind it. -/
  state : σ
  /-- The stack behind it, topmost value first, or why there is none. -/
  outcome : Except Failure (List Int)

/-- The steps of a run, to its end or to the first failure. -/
def steps (size limit : Int) : List Op → List Int → σ → List (Step σ)
  | [], _, _ => []
  | op :: ops, stack, s =>
    match (op.execute S size limit stack).runFrom s with
    | (.error e, s) => [⟨op, s, .error e⟩]
    | (.ok stack, s) => ⟨op, s, .ok stack⟩ :: steps size limit ops stack s

/-- The steps of a program from an empty stack. Without a stack there are none. -/
def Program.trace (p : Program) (limit : Int) (s : σ) : List (Step σ) :=
  match allocationError? p.stackSize with
  | some _ => []
  | none => steps S p.stackSize limit p.ops [] s

end

end DiceNotation
