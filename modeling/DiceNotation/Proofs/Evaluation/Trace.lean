import DiceNotation.Proofs.Evaluation.Budget
import DiceNotation.Proofs.Evaluation.Range

/-!
# Values on the way

Every operation puts one value on the stack, and if this is no number that is put there as it is, it was
checked (`Op.execute_inRange`). So the stacks of a run stay in the signed 64-bit range as long as the
numbers of its program are in it (`Program.forall_mem_points_inRange`), and with them the numbers of sides
that its sampler is asked for (`Program.calls_inRange`). The numbers of a compiled program are
(`Program.trace_inRange`). None of this depends on what the sampler answers.
-/

namespace DiceNotation

open Rolling Sampler

variable {σ : Type}

/-! ## Single operations -/

/-- An operation puts one value on what it leaves of the stack, which is a number of the program or in
range. -/
theorem Op.execute_inRange (S : Sampler σ) (size limit : Int) (op : Op) (stack : List Int) :
    (op.execute S size limit stack).Ensures
      (fun left => ∃ v, left = v :: stack.drop op.pops ∧ (op = .num v ∨ InRange v)) fun _ => True := by
  rcases Nat.lt_or_ge stack.length op.pops with hpops | hpops
  · rw [op.execute_of_lt S size limit hpops]
    exact ensures_throw trivial
  · -- Nothing is said of the failures here, so it does not matter how the sampler fails.
    have hvalue : (op.value S limit stack).Ensures (fun v => op = .num v ∨ InRange v) fun _ => True :=
      op.value_inRange (fun _ => trivial) limit hpops fun _ _ _ _ _ _ => trivial
    rw [op.execute_eq S size limit hpops]
    refine hvalue.bind fun v hv => ?_
    unfold push
    split
    · exact ensures_pure ⟨v, rfl, hv⟩
    · exact ensures_throw trivial

/-- A stack in range stays in range, if a number that is put on it is in range too. -/
theorem Op.execute_stack_inRange (S : Sampler σ) (size limit : Int) {op : Op}
    (hnum : ∀ v, op = .num v → InRange v) {stack : List Int} (hstack : ∀ v ∈ stack, InRange v) :
    (op.execute S size limit stack).Ensures (fun left => ∀ v ∈ left, InRange v) fun _ => True := by
  refine (op.execute_inRange S size limit stack).mono ?_ fun _ => id
  rintro left ⟨v, rfl, hv⟩
  refine List.forall_mem_cons.2 ⟨hv.elim (hnum v) id, fun w hw => ?_⟩
  exact hstack w (List.mem_of_mem_drop hw)

/-! ## Runs -/

section

variable {p : Program} (S : Sampler σ) (limit : Int) (s : σ)

/-- A step is what comes of a point. -/
theorem Program.exists_point_of_mem_trace {step : Step σ} (h : step ∈ p.trace S limit s) :
    ∃ pt ∈ p.points S limit s, pt.step S p.stackSize limit = step := by
  cases hsize : allocationError? p.stackSize with
  | some e =>
    rw [Program.trace, hsize] at h
    exact absurd h List.not_mem_nil
  | none =>
    rw [Program.trace, hsize] at h
    dsimp only at h
    rw [steps_eq_map_points, ← p.points_of_allocated hsize] at h
    exact List.mem_map.1 h

/-- The operation at a point is one of the program. -/
theorem Program.op_mem_of_mem_points {pt : Point σ} (h : pt ∈ p.points S limit s) : pt.op ∈ p.ops :=
  (isPrefix_map_op_points S p.stackSize limit p.ops [] s).subset
    (List.mem_map_of_mem ((p.isPrefix_points S limit s).subset h))

variable (hp : ∀ v, Op.num v ∈ p.ops → InRange v)

include hp

/-- The stacks that the operations of a run find are in range, if the numbers of the program are. -/
theorem Program.forall_mem_points_inRange :
    ∀ pt ∈ p.points S limit s, ∀ v ∈ pt.stack, InRange v := by
  have hstep : ∀ op ∈ p.ops, ∀ stack, (∀ v ∈ stack, InRange v) →
      (op.execute S p.stackSize limit stack).Ensures (fun left => ∀ v ∈ left, InRange v) fun _ => True :=
    fun op hop stack => Op.execute_stack_inRange S p.stackSize limit fun v hv => hp v (hv ▸ hop)
  exact fun pt hpt => forall_mem_points S p.stackSize limit hstep (List.forall_mem_nil _) s pt
    ((p.isPrefix_points S limit s).subset hpt)

/-- The stacks that the operations of a run leave are in range, if the numbers of the program are. -/
theorem Program.forall_mem_trace_inRange {step : Step σ} (h : step ∈ p.trace S limit s)
    {stack : List Int} (hok : step.outcome = .ok stack) : ∀ v ∈ stack, InRange v := by
  obtain ⟨pt, hpt, rfl⟩ := exists_point_of_mem_trace S limit s h
  have hop := op_mem_of_mem_points S limit s hpt
  have hstack := forall_mem_points_inRange S limit s hp pt hpt
  exact (Op.execute_stack_inRange S p.stackSize limit (fun v hv => hp v (hv ▸ hop)) hstack).of_ok hok

/-- What a run asks its sampler for is a number of sides from a stack, and is positive, so it is in range
if the numbers of the program are. -/
theorem Program.calls_inRange {c : Call} (hc : c ∈ p.calls S limit s) :
    1 ≤ c.bound ∧ c.bound ≤ maxValue := by
  -- What is asked for belongs to a roll at a point, whose sides are on the stack that it finds.
  have hbound : c.bound ∈ (p.points S limit s).flatMap (Point.boundsUnder limit) :=
    (p.run_asks limit S s).isPrefix.subset (List.mem_map_of_mem hc)
  obtain ⟨pt, hpt, hpoint⟩ := List.mem_flatMap.1 hbound
  obtain ⟨t, ht, hthrow⟩ := List.mem_flatMap.1 hpoint
  obtain ⟨hsides, hpos⟩ := Throw.of_mem_boundsUnder hthrow
  have hmem : t.sides ∈ pt.stack := Point.sides_mem_of_throw? (Option.mem_toList.1 ht)
  have hrange := forall_mem_points_inRange S limit s hp pt hpt t.sides hmem
  exact ⟨hpos, hsides ▸ hrange.2⟩

end

/-- A value that an operation puts on the stack in a run is in range, unless it is a number that the
program has there. In a program that a text compiles to these numbers are in range and not negative; so
in its runs all values of the stacks that operations find and leave are in range, and so are all bounds
that the sampler is asked for, which are positive. The limit and the answers of the sampler do not matter:
a sum of faces is checked whatever they are. -/
theorem Program.trace_inRange (p : Program) :
    (∀ {σ : Type} (S : Sampler σ) (limit : Int) (s : σ), ∀ step ∈ p.trace S limit s, ∀ stack,
      step.outcome = .ok stack →
        ∃ v below, stack = v :: below ∧ (step.op = .num v ∨ InRange v)) ∧
    ∀ text, compile text = .ok p →
      (∀ v, Op.num v ∈ p.ops → 0 ≤ v ∧ v ≤ maxValue) ∧
      ∀ {σ : Type} (S : Sampler σ) (limit : Int) (s : σ),
        (∀ pt ∈ p.points S limit s, ∀ v ∈ pt.stack, InRange v) ∧
        (∀ step ∈ p.trace S limit s, ∀ stack, step.outcome = .ok stack → ∀ v ∈ stack, InRange v) ∧
        ∀ c ∈ p.calls S limit s, 1 ≤ c.bound ∧ c.bound ≤ maxValue := by
  constructor
  · intro σ S limit s step hstep stack hok
    obtain ⟨pt, -, rfl⟩ := exists_point_of_mem_trace S limit s hstep
    obtain ⟨v, hv, hrange⟩ := (pt.op.execute_inRange S p.stackSize limit pt.stack).of_ok hok
    exact ⟨v, _, hv, hrange⟩
  · intro text h
    have hp : ∀ v, Op.num v ∈ p.ops → InRange v := fun v => inRange_of_num_mem_ops h
    refine ⟨fun v => num_mem_ops_of_compile h,
      fun S limit s => ⟨forall_mem_points_inRange S limit s hp, ?_, ?_⟩⟩
    · exact fun step hstep stack hok => forall_mem_trace_inRange S limit s hp hstep hok
    · exact fun c hc => calls_inRange S limit s hp hc

/-- A die of as many sides as there may be takes the value down to the least one when it shows a 1. No
literal gets there, since its digits are read without the sign. -/
theorem Program.trace_inRange_least :
    ∃ p, compile "-9223372036854775807-d9223372036854775807" = .ok p ∧
      (p.run Fixed.sampler 1).runFrom (some 0) = (.ok minValue, some 0) ∧
      p.calls Fixed.sampler 1 (some 0) = [⟨maxValue, .ok 0⟩] ∧
      (∀ step ∈ p.trace Fixed.sampler 1 (some 0), ∀ stack, step.outcome = .ok stack →
        ∀ v ∈ stack, InRange v) ∧
      ∀ c ∈ p.calls Fixed.sampler 1 (some 0), 1 ≤ c.bound ∧ c.bound ≤ maxValue := by
  have h : compile "-9223372036854775807-d9223372036854775807" =
      .ok ⟨[.num maxValue, .neg, .num 1, .num maxValue, .dice, .arith .sub], 3⟩ := by
    with_unfolding_all rfl
  obtain ⟨-, hcompiled⟩ := Program.trace_inRange
    ⟨[.num maxValue, .neg, .num 1, .num maxValue, .dice, .arith .sub], 3⟩
  obtain ⟨-, hstacks, hcalls⟩ := (hcompiled _ h).2 Fixed.sampler 1 (some 0)
  exact ⟨_, h, rfl, rfl, hstacks, hcalls⟩

end DiceNotation
