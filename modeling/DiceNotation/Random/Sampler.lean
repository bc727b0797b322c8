import DiceNotation.Number.Word

/-!
# Samplers

A sampler answers questions for a random number below a bound, and keeps a state of its own between
them. All that an evaluation asks of chance is such a question, so any sampler can stand behind it.
`Sampler.Fair` says what a sampler of the usual range owes, and `Sampler.recorded` is a sampler
together with the list of the questions that it was asked.
-/

namespace DiceNotation

/-- Why a sampler has no answer. -/
inductive SampleError
  /-- No number is below the bound, or the bound does not fit in 64 bits. -/
  | badBound (bound : Int)
  /-- The source of words ended before it gave one that could be used. -/
  | exhausted
  deriving DecidableEq, Repr

/-- The message of a sampling error. -/
def SampleError.message : SampleError → String
  | badBound n => "sample bound must be in [1, 2**64), got " ++ toString n
  | exhausted => "pop from empty list"

/-- A source of bounded random integers. -/
structure Sampler (σ : Type) where
  /-- Asks for a number below a bound, and gives the state behind the answer. -/
  sample : Int → σ → Except SampleError Int × σ

/-- A bound that a sampler of 64-bit words can serve. -/
def IsBound (n : Int) : Prop :=
  0 < n ∧ n < wordCount

/-- The ends of the bounds are compared. -/
instance (n : Int) : Decidable (IsBound n) :=
  inferInstanceAs (Decidable (_ ∧ _))

namespace Sampler

variable {σ : Type}

/-- A sampler is fair in its answers: to a bound of 64 bits it gives a number below it, and any other
bound it refuses without a change of its state. -/
structure Fair (S : Sampler σ) : Prop where
  /-- The answer to a bound is below it. -/
  answer : ∀ n s, IsBound n → ∃ v, (S.sample n s).1 = .ok v ∧ 0 ≤ v ∧ v < n
  /-- What is no bound is refused. -/
  refuse : ∀ n s, ¬ IsBound n → S.sample n s = (.error (.badBound n), s)

/-- A question to a sampler and its answer. -/
structure Call where
  /-- The bound that was asked for. -/
  bound : Int
  /-- What the sampler said. -/
  answer : Except SampleError Int
  deriving Repr

/-- The bound and the number of a call that was answered. -/
def Call.draw? (c : Call) : Option (Int × Int) :=
  match c.answer with
  | .ok v => some (c.bound, v)
  | .error _ => none

/-- A sampler that also notes each call, the latest first. -/
def recorded (S : Sampler σ) : Sampler (σ × List Call) where
  sample n := fun (s, calls) =>
    let (answer, s) := S.sample n s
    (answer, s, ⟨n, answer⟩ :: calls)

end Sampler

end DiceNotation
