import DiceNotation.Proofs.Stack.Operation
import Mathlib.Tactic.Choose

/-!
# Evaluations as inquiries

All that a run learns from its sampler are the answers to its questions. An `Inquiry` is what is left of a
computation when the sampler is taken away: the bound that it asks for first, and for each number that
may be the answer how it goes on. `Inquiry.run` gives it a sampler again, and `Inquiry.calls` lists the
questions that it comes to ask then.

A computation is `Uniform` in the sampler when one inquiry is behind it for all samplers. The parts of an
evaluation are, and so is each run of a program (`Program.run_uniform`). What two runs of a program with
unrelated samplers have in common is then shown by induction on its inquiry.
-/

namespace DiceNotation

variable {σ α β : Type}

/-! ## Inquiries -/

/-- What a computation asks a sampler, depending on the answers that it has got so far. It fails where it
gets none. -/
inductive Inquiry (α : Type)
  /-- Nothing more is asked. -/
  | done (outcome : Except Failure α)
  /-- A number below `bound` is asked for, and `next` says how it goes on with the answer. -/
  | ask (bound : Int) (next : Int → Inquiry α)

namespace Inquiry

/-- The outcome with a sampler, and the state that it is left in. -/
def run (S : Sampler σ) : Inquiry α → σ → Except Failure α × σ
  | done outcome, s => (outcome, s)
  | ask n next, s =>
    match S.sample n s with
    | (.error e, s) => (.error (.sample e), s)
    | (.ok v, s) => (next v).run S s

/-- The calls that are made to a sampler, the first one first. -/
def calls (S : Sampler σ) : Inquiry α → σ → List Sampler.Call
  | done _, _ => []
  | ask n next, s =>
    match S.sample n s with
    | (.error e, _) => [⟨n, .error e⟩]
    | (.ok v, s) => ⟨n, .ok v⟩ :: (next v).calls S s

/-- An inquiry and then another one, unless the first one fails. -/
def bind (f : α → Inquiry β) : Inquiry α → Inquiry β
  | done (.ok a) => f a
  | done (.error e) => done (.error e)
  | ask n next => ask n fun v => (next v).bind f

section

variable {S : Sampler σ} {n : Int} {next : Int → Inquiry α} {s s' : σ}

/-- An inquiry that gets no answer fails. -/
theorem run_of_error {e : SampleError} (h : S.sample n s = (.error e, s')) :
    (ask n next).run S s = (.error (.sample e), s') := by
  rw [run, h]

/-- An inquiry goes on with the answer that it gets. -/
theorem run_of_ok {v : Int} (h : S.sample n s = (.ok v, s')) :
    (ask n next).run S s = (next v).run S s' := by
  rw [run, h]

/-- The call that is refused is the last one. -/
theorem calls_of_error {e : SampleError} (h : S.sample n s = (.error e, s')) :
    (ask n next).calls S s = [⟨n, .error e⟩] := by
  rw [calls, h]

/-- More calls follow a call that is answered. -/
theorem calls_of_ok {v : Int} (h : S.sample n s = (.ok v, s')) :
    (ask n next).calls S s = ⟨n, .ok v⟩ :: (next v).calls S s' := by
  rw [calls, h]

end

/-- Inquiries in a row are run in a row. -/
theorem run_bind (S : Sampler σ) (f : α → Inquiry β) (q : Inquiry α) (s : σ) :
    (q.bind f).run S s =
      match q.run S s with
      | (.ok a, s) => (f a).run S s
      | (.error e, s) => (.error e, s) := by
  induction q generalizing s with
  | done outcome => cases outcome <;> rfl
  | ask n next ih =>
    rw [bind]
    rcases hS : S.sample n s with ⟨e | v, s'⟩
    · rw [run_of_error hS, run_of_error hS]
    · rw [run_of_ok hS, run_of_ok hS]
      exact ih v s'

/-- A recorded call is answered by the sampler and put before the earlier ones. -/
theorem sample_recorded (S : Sampler σ) (n : Int) (s : σ) (noted : List Sampler.Call) :
    S.recorded.sample n (s, noted) =
      ((S.sample n s).1, (S.sample n s).2, ⟨n, (S.sample n s).1⟩ :: noted) := rfl

/-- A sampler with its calls noted has the calls of the inquiry noted, the latest first, and is otherwise
as without. -/
theorem run_recorded (S : Sampler σ) (q : Inquiry α) (s : σ) (noted : List Sampler.Call) :
    q.run S.recorded (s, noted) =
      ((q.run S s).1, (q.run S s).2, (q.calls S s).reverse ++ noted) := by
  induction q generalizing s noted with
  | done outcome => rfl
  | ask n next ih =>
    have hrecorded := sample_recorded S n s noted
    rcases hS : S.sample n s with ⟨e | v, s'⟩
    · rw [hS] at hrecorded
      rw [run_of_error hrecorded, run_of_error hS, calls_of_error hS]
      rfl
    · rw [hS] at hrecorded
      rw [run_of_ok hrecorded, run_of_ok hS, calls_of_ok hS, ih, List.reverse_cons,
        List.append_assoc, List.singleton_append]

end Inquiry

/-! ## Uniform computations -/

namespace Rolling

/-- One inquiry is behind a computation, whatever the sampler. -/
def Uniform (x : ∀ σ : Type, Sampler σ → Rolling σ α) : Prop :=
  ∃ q : Inquiry α, ∀ (σ : Type) (S : Sampler σ) (s : σ), (x σ S).runFrom s = q.run S s

/-- A computation with its value at hand is uniform. -/
theorem uniform_pure (a : α) : Uniform fun _ _ => pure a :=
  ⟨.done (.ok a), fun _ _ _ => rfl⟩

/-- A failure is uniform. -/
theorem uniform_throw (e : Failure) : Uniform fun _ _ => (throw e : Rolling _ α) :=
  ⟨.done (.error e), fun _ _ _ => rfl⟩

/-- Computations in a row are uniform when their parts are. -/
theorem Uniform.bind {x : ∀ σ : Type, Sampler σ → Rolling σ α}
    {f : ∀ σ : Type, Sampler σ → α → Rolling σ β} (hx : Uniform x)
    (hf : ∀ a, Uniform fun σ S => f σ S a) : Uniform fun σ S => x σ S >>= f σ S := by
  obtain ⟨q, hq⟩ := hx
  choose g hg using hf
  refine ⟨q.bind g, fun σ S s => ?_⟩
  rw [runFrom_bind, Inquiry.run_bind, hq]
  rcases q.run S s with ⟨e | a, s'⟩
  · rfl
  · exact hg a σ S s'

/-- The calls that a computation makes to a sampler from a state on, the first one first. -/
def calls (x : ∀ σ : Type, Sampler σ → Rolling σ α) (S : Sampler σ) (s : σ) : List Sampler.Call :=
  ((x _ S.recorded).runFrom (s, [])).2.2.reverse

/-- The calls of a computation are those of an inquiry behind it. -/
theorem calls_eq_of_run {x : ∀ σ : Type, Sampler σ → Rolling σ α} {q : Inquiry α}
    (h : ∀ (σ : Type) (S : Sampler σ) (s : σ), (x σ S).runFrom s = q.run S s) (S : Sampler σ) (s : σ) :
    calls x S s = q.calls S s := by
  rw [calls, h, q.run_recorded, List.append_nil, List.reverse_reverse]

end Rolling

open Rolling

/-- Arithmetic asks for nothing. -/
theorem lift_uniform (r : Except RollError Int) : Uniform fun _ _ => lift r := by
  cases r with
  | ok v => exact uniform_pure v
  | error e => exact uniform_throw _

/-- Putting a value on a stack asks for nothing. -/
theorem push_uniform (size v : Int) (stack : List Int) : Uniform fun _ _ => push size v stack := by
  unfold push
  split
  · exact uniform_pure _
  · exact uniform_throw _

/-- The inquiry of `n` faces: a number is asked for to each face, as long as the sum stays in range. -/
def Inquiry.addFaces (sides : Int) : Nat → Int → Inquiry Int
  | 0, total => .done (.ok total)
  | n + 1, total => .ask sides fun v =>
    match checked (total + 1 + v) with
    | .error e => .done (.error (.roll e))
    | .ok total => addFaces sides n total

/-- Faces are added by their inquiry. -/
theorem addFaces_eq_run (S : Sampler σ) (sides : Int) (n : Nat) (total : Int) (s : σ) :
    addFaces S sides n total s = (Inquiry.addFaces sides n total).run S s := by
  induction n generalizing total s with
  | zero => rfl
  | succ n ih =>
    rw [addFaces, Inquiry.addFaces, Inquiry.run]
    rcases S.sample sides s with ⟨e | v, s'⟩
    · rfl
    · dsimp only
      cases checked (total + 1 + v) with
      | error e => rfl
      | ok total' => exact ih total' s'

/-- So adding faces is uniform. -/
theorem addFaces_uniform (sides : Int) (n : Nat) (total : Int) :
    Uniform fun _ S => ExceptT.mk (addFaces S sides n total) :=
  ⟨.addFaces sides n total, fun _ S s => addFaces_eq_run S sides n total s⟩

/-- Dice are checked without a question, and then roll their faces. -/
theorem rollDice_uniform (times sides limit : Int) :
    Uniform fun _ S => rollDice S times sides limit := by
  unfold rollDice
  split_ifs
  · exact uniform_throw _
  · exact uniform_throw _
  · exact uniform_throw _
  · exact uniform_pure 0
  · exact addFaces_uniform sides times.toNat 0

/-- An operation computes its value by one inquiry. -/
theorem Op.value_uniform (limit : Int) {op : Op} {stack : List Int} (h : op.pops ≤ stack.length) :
    Uniform fun _ S => op.value S limit stack := by
  cases op with
  | num v => exact uniform_pure v
  | arith op =>
    match stack, h with
    | r :: l :: stack, _ => exact lift_uniform _
  | neg =>
    match stack, h with
    | v :: stack, _ => exact lift_uniform _
  | dice =>
    match stack, h with
    | sides :: times :: stack, _ => exact rollDice_uniform times sides limit

/-- An operation acts on a stack by one inquiry. -/
theorem Op.execute_uniform (size limit : Int) (op : Op) (stack : List Int) :
    Uniform fun _ S => op.execute S size limit stack := by
  rcases Nat.lt_or_ge stack.length op.pops with hpops | hpops
  · simp only [op.execute_of_lt _ size limit hpops]
    exact uniform_throw _
  · simp only [op.execute_eq _ size limit hpops]
    exact (op.value_uniform limit hpops).bind fun v => push_uniform size v _

/-- Operations in a row act on a stack by one inquiry. -/
theorem executeAll_uniform (size limit : Int) (ops : List Op) (stack : List Int) :
    Uniform fun _ S => executeAll S size limit ops stack := by
  induction ops generalizing stack with
  | nil => exact uniform_pure stack
  | cons op ops ih => exact (op.execute_uniform size limit stack).bind fun stack' => ih stack'

/-- A program computes its value by one inquiry. -/
theorem Program.compute_uniform (p : Program) (limit : Int) :
    Uniform fun _ S => p.compute S limit := by
  refine (executeAll_uniform p.stackSize limit p.ops []).bind fun stack => ?_
  cases stack with
  | nil => exact uniform_throw _
  | cons v stack => exact uniform_pure v

/-- A program is run by one inquiry. -/
theorem Program.run_uniform (p : Program) (limit : Int) : Uniform fun _ S => p.run S limit := by
  unfold run
  cases allocationError? p.stackSize with
  | some e => exact uniform_throw _
  | none => exact p.compute_uniform limit

end DiceNotation
