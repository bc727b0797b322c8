import DiceNotation.Proofs.Stack.Operation

/-!
# The points of a run

A run comes to one operation after another, each with the stack and the state of the sampler that it finds
(`points`). Its steps are what the operations make of these (`steps_eq_map_points`). A run without a
failure comes to all operations and none of them fails; any other run comes to the first ones
(`map_op_points`). What every operation keeps true of the stack is true at all points
(`forall_mem_points`).
-/

namespace DiceNotation

variable {σ : Type}

/-- An operation of a run before it is executed, with the stack and the state of the sampler that it
finds. -/
structure Point (σ : Type) where
  /-- The operation. -/
  op : Op
  /-- The stack before it, topmost value first. -/
  stack : List Int
  /-- The state of the sampler before it. -/
  state : σ

/-- The points of a run, to its end or to the operation that fails. -/
def points (S : Sampler σ) (size limit : Int) : List Op → List Int → σ → List (Point σ)
  | [], _, _ => []
  | op :: ops, stack, s =>
    ⟨op, stack, s⟩ ::
      match (op.execute S size limit stack).runFrom s with
      | (.error _, _) => []
      | (.ok stack, s) => points S size limit ops stack s

/-- The points of a program, which starts with an empty stack. Without a stack it comes to none. -/
def Program.points (p : Program) (S : Sampler σ) (limit : Int) (s : σ) : List (Point σ) :=
  match allocationError? p.stackSize with
  | some _ => []
  | none => DiceNotation.points S p.stackSize limit p.ops [] s

/-- The points of a program are those of its operations where there is a stack. -/
theorem Program.points_of_allocated {p : Program} (h : allocationError? p.stackSize = none)
    (S : Sampler σ) (limit : Int) (s : σ) :
    p.points S limit s = DiceNotation.points S p.stackSize limit p.ops [] s := by
  rw [points, h]

/-- A program comes to no points where there is no stack. -/
theorem Program.points_of_allocationError {p : Program} {e : AllocationError}
    (h : allocationError? p.stackSize = some e) (S : Sampler σ) (limit : Int) (s : σ) :
    p.points S limit s = [] := by
  rw [points, h]

/-- The points of a program are among those of its operations. -/
theorem Program.isPrefix_points (p : Program) (S : Sampler σ) (limit : Int) (s : σ) :
    p.points S limit s <+: DiceNotation.points S p.stackSize limit p.ops [] s := by
  cases hsize : allocationError? p.stackSize with
  | some e =>
    rw [p.points_of_allocationError hsize]
    exact List.nil_prefix
  | none => exact ⟨[], (List.append_nil _).trans (p.points_of_allocated hsize S limit s)⟩

/-- What comes of the operation at a point. -/
def Point.step (S : Sampler σ) (size limit : Int) (pt : Point σ) : Step σ :=
  let r := (pt.op.execute S size limit pt.stack).runFrom pt.state
  ⟨pt.op, r.2, r.1⟩

section

variable (S : Sampler σ) (size limit : Int) {op : Op} {ops : List Op} {stack : List Int} {s : σ}

/-- Behind an operation that fails there are no points. -/
theorem points_of_error {e : Failure} {s' : σ}
    (h : (op.execute S size limit stack).runFrom s = (.error e, s')) :
    points S size limit (op :: ops) stack s = [⟨op, stack, s⟩] := by
  rw [points, h]

/-- Behind an operation that does not fail are the points of the others, from what it leaves. -/
theorem points_of_ok {stack' : List Int} {s' : σ}
    (h : (op.execute S size limit stack).runFrom s = (.ok stack', s')) :
    points S size limit (op :: ops) stack s =
      ⟨op, stack, s⟩ :: points S size limit ops stack' s' := by
  rw [points, h]

/-- The steps of a run are what comes of its operations at their points. -/
theorem steps_eq_map_points (ops : List Op) (stack : List Int) (s : σ) :
    steps S size limit ops stack s = (points S size limit ops stack s).map (Point.step S size limit) := by
  -- Steps and points are cut off at the same failure, so both sides go on, or end, together.
  induction ops generalizing stack s with
  | nil => rfl
  | cons op ops ih =>
    rcases h : (op.execute S size limit stack).runFrom s with ⟨e | stack', s'⟩
    · rw [points_of_error S size limit h, steps, h, List.map_singleton, Point.step, h]
    · rw [points_of_ok S size limit h, steps, h, List.map_cons, Point.step, h, ← ih]

/-- A run comes to its operations in their order. -/
theorem isPrefix_map_op_points (ops : List Op) (stack : List Int) (s : σ) :
    (points S size limit ops stack s).map Point.op <+: ops := by
  induction ops generalizing stack s with
  | nil => exact List.prefix_refl []
  | cons op ops ih =>
    rcases h : (op.execute S size limit stack).runFrom s with ⟨e | stack', s'⟩
    · rw [points_of_error S size limit h]
      exact List.cons_prefix_cons.2 ⟨rfl, List.nil_prefix⟩
    · rw [points_of_ok S size limit h]
      exact List.cons_prefix_cons.2 ⟨rfl, ih stack' s'⟩

/-- A run that does not fail comes to all of its operations, and none of them fails. -/
theorem map_op_points {stack' : List Int} {s' : σ}
    (h : (executeAll S size limit ops stack).runFrom s = (.ok stack', s')) :
    (points S size limit ops stack s).map Point.op = ops ∧
      ∀ pt ∈ points S size limit ops stack s,
        ∃ left state, (pt.op.execute S size limit pt.stack).runFrom pt.state = (.ok left, state) := by
  induction ops generalizing stack s with
  | nil => exact ⟨rfl, fun pt hpt => absurd hpt List.not_mem_nil⟩
  | cons op ops ih =>
    rw [executeAll, Rolling.runFrom_bind] at h
    rcases hop : (op.execute S size limit stack).runFrom s with ⟨e | stack₁, s₁⟩
    · -- A run whose first operation fails does not have an outcome without a failure.
      rw [hop] at h
      cases h
    · rw [hop] at h
      obtain ⟨hops, hpoints⟩ := ih h
      rw [points_of_ok S size limit hop, List.map_cons, hops]
      exact ⟨rfl, List.forall_mem_cons.2 ⟨⟨stack₁, s₁, hop⟩, hpoints⟩⟩

/-- What is true of the stack at the start and kept by each operation is true at every point. -/
theorem forall_mem_points {good : List Int → Prop} {ops : List Op}
    (hstep : ∀ op ∈ ops, ∀ stack, good stack →
      (op.execute S size limit stack).Ensures good fun _ => True)
    {stack : List Int} (hstack : good stack) (s : σ) :
    ∀ pt ∈ points S size limit ops stack s, good pt.stack := by
  induction ops generalizing stack s with
  | nil => exact fun pt hpt => absurd hpt List.not_mem_nil
  | cons op ops ih =>
    have hop := hstep op List.mem_cons_self stack hstack s
    rcases h : (op.execute S size limit stack).runFrom s with ⟨e | stack', s'⟩
    · rw [points_of_error S size limit h]
      exact List.forall_mem_singleton.2 hstack
    · rw [h] at hop
      rw [points_of_ok S size limit h]
      exact List.forall_mem_cons.2
        ⟨hstack, ih (fun op hop => hstep op (List.mem_cons_of_mem _ hop)) hop s'⟩

end

end DiceNotation
