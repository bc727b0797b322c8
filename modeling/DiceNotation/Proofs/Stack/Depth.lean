import DiceNotation.Proofs.Stack.Simulation
import Mathlib.Order.Bounds.Basic

/-!
# The depth of the stack

The depth that a stack has by the declared effects of operations, and what it says of a run. `Supplied`
says that each operation finds as many values as it takes, and `peak` is the greatest depth on the way.
Operations that are supplied, on a stack of the size of their peak, fail only where one of them cannot
compute its value (`executeAll_ensures`), and so without a fault of the stack (`Program.compute_offStack`).

The code of an expression is supplied from any depth on, comes out one deeper, and has its peak where
`Expr.depth` says. So the stack size of a program is a function of its operations.
-/

namespace DiceNotation

/-! ## Replaying effects -/

/-- The depth behind operations that start at depth `d`, by what they take and what they put. -/
def depthAfter (d : Int) (ops : List Op) : Int :=
  ops.foldl (fun d op => d - op.pops + op.pushes) d

/-- The depth never goes below zero: each operation finds what it takes. -/
def Supplied (d : Int) : List Op → Prop
  | [] => True
  | op :: ops => op.pops ≤ d ∧ Supplied (d - op.pops + op.pushes) ops

/-- The greatest depth before, between and behind operations that start at depth `d`. -/
def peak (d : Int) : List Op → Int
  | [] => d
  | op :: ops => max d (peak (d - op.pops + op.pushes) ops)

/-- Without operations a stack keeps its depth. -/
@[simp] theorem depthAfter_nil (d : Int) : depthAfter d [] = d := rfl

/-- An operation changes the depth, and the others go on from there. -/
@[simp] theorem depthAfter_cons (d : Int) (op : Op) (ops : List Op) :
    depthAfter d (op :: ops) = depthAfter (d - op.pops + op.pushes) ops := rfl

/-- Operations in a row change the depth one part after the other. -/
@[simp] theorem depthAfter_append (d : Int) (a b : List Op) :
    depthAfter d (a ++ b) = depthAfter (depthAfter d a) b :=
  List.foldl_append

/-- Operations behind others are supplied from the depth that those come to. -/
@[simp] theorem supplied_append (d : Int) (a b : List Op) :
    Supplied d (a ++ b) ↔ Supplied d a ∧ Supplied (depthAfter d a) b := by
  induction a generalizing d with
  | nil => exact (and_iff_right trivial).symm
  | cons op a ih =>
    rw [List.cons_append, Supplied, ih, Supplied, depthAfter_cons, and_assoc]

/-- The peak is no less than the depth at the start. -/
theorem le_peak (d : Int) (ops : List Op) : d ≤ peak d ops := by
  cases ops with
  | nil => exact le_refl d
  | cons op ops => exact le_max_left _ _

/-- The peak of operations behind others is reached among the one or the other. -/
@[simp] theorem peak_append (d : Int) (a b : List Op) :
    peak d (a ++ b) = max (peak d a) (peak (depthAfter d a) b) := by
  induction a generalizing d with
  | nil => exact (max_eq_right (le_peak d b)).symm
  | cons op a ih =>
    rw [List.cons_append, peak, ih, peak, depthAfter_cons, max_assoc]

/-- Operations are supplied when each of them is at the depth behind those before it. -/
theorem supplied_iff {d : Int} {ops : List Op} :
    Supplied d ops ↔ ∀ before op after, ops = before ++ op :: after →
      (op.pops : Int) ≤ depthAfter d before := by
  constructor
  · rintro h before op after rfl
    exact ((supplied_append d before (op :: after)).1 h).2.1
  · intro h
    induction ops generalizing d with
    | nil => trivial
    | cons op ops ih =>
      refine ⟨h [] op ops rfl, ih fun before op' after hops => ?_⟩
      rw [hops] at h
      exact h (op :: before) op' after rfl

/-- The peak is the greatest of the depths behind the first operations. -/
theorem isGreatest_peak (d : Int) (ops : List Op) :
    IsGreatest {m | ∃ before, before <+: ops ∧ depthAfter d before = m} (peak d ops) := by
  induction ops generalizing d with
  | nil =>
    refine ⟨⟨[], List.prefix_refl [], rfl⟩, ?_⟩
    rintro m ⟨before, hbefore, rfl⟩
    rw [List.prefix_nil.1 hbefore]
    exact le_refl d
  | cons op ops ih =>
    obtain ⟨⟨before, hbefore, hpeak⟩, hupper⟩ := ih (d - op.pops + op.pushes)
    constructor
    · -- The peak is at the start, or where the operations behind the first one have theirs.
      rcases max_choice d (peak (d - op.pops + op.pushes) ops) with hmax | hmax
      · exact ⟨[], List.nil_prefix, hmax.symm⟩
      · refine ⟨op :: before, List.cons_prefix_cons.2 ⟨rfl, hbefore⟩, ?_⟩
        rw [depthAfter_cons, hpeak]
        exact hmax.symm
    · rintro m ⟨before', hbefore', rfl⟩
      rcases List.prefix_cons_iff.1 hbefore' with rfl | ⟨rest, rfl, hrest⟩
      · exact le_max_left _ _
      · exact le_max_of_le_right (hupper ⟨rest, hrest, rfl⟩)

/-! ## Runs without a fault -/

section

open Failure

variable {σ : Type} (S : Sampler σ)

/-- Operations that are supplied run on a stack of the size of their peak, and leave it at the depth that
their effects come to. Each step keeps the length of the stack equal to the depth of the replay, so all
that can go wrong is the computation of a value; and what all values have that are computed from values
that have it, all values on the stack have. -/
theorem executeAll_ensures {size : Int} (limit : Int) {good : Int → Prop} {fails : Failure → Prop}
    {ops : List Op} (hvalue : ∀ op ∈ ops, ∀ stack : List Int, op.pops ≤ stack.length →
      (∀ v ∈ stack, good v) → (op.value S limit stack).Ensures good fails)
    (stack : List Int) (hstack : ∀ v ∈ stack, good v) (hsupplied : Supplied stack.length ops)
    (hpeak : peak stack.length ops ≤ size) :
    (executeAll S size limit ops stack).Ensures
      (fun stack' => (stack'.length : Int) = depthAfter stack.length ops ∧ ∀ v ∈ stack', good v)
      fails := by
  induction ops generalizing stack with
  | nil => exact Rolling.ensures_pure ⟨rfl, hstack⟩
  | cons op ops ih =>
    obtain ⟨hpops, hsupplied⟩ := hsupplied
    have hpops : op.pops ≤ stack.length := Int.ofNat_le.1 hpops
    have hpeak : peak (stack.length - op.pops + op.pushes) ops ≤ size :=
      le_trans (le_max_right _ _) hpeak
    -- Whatever the operation computes, the stack behind it is as deep as the replay says.
    have hlength : ∀ v : Int, ((v :: stack.drop op.pops).length : Int) =
        stack.length - op.pops + op.pushes := by
      intro v
      rw [List.length_cons, List.length_drop, Op.pushes]
      omega
    have hroom : ((stack.drop op.pops).length : Int) < size := by
      have hle := le_peak (stack.length - op.pops + op.pushes) ops
      have hlen := hlength 0
      rw [List.length_cons] at hlen
      omega
    rw [executeAll_cons S limit op ops hpops hroom]
    refine (hvalue op List.mem_cons_self stack hpops hstack).bind fun v hv => ?_
    have hrest : ∀ w ∈ v :: stack.drop op.pops, good w :=
      List.forall_mem_cons.2 ⟨hv, fun w hw => hstack w (List.mem_of_mem_drop hw)⟩
    rw [← hlength v] at hsupplied hpeak
    rw [depthAfter_cons, ← hlength v]
    exact ih (fun op hop => hvalue op (List.mem_cons_of_mem _ hop)) _ hrest hsupplied hpeak

/-- A program whose operations are supplied, leave a value and have their peak within its stack gives
what its operations compute, and fails as they do. -/
theorem Program.compute_ensures {p : Program} (limit : Int) {good : Int → Prop} {fails : Failure → Prop}
    (hvalue : ∀ op ∈ p.ops, ∀ stack : List Int, op.pops ≤ stack.length →
      (∀ v ∈ stack, good v) → (op.value S limit stack).Ensures good fails)
    (hsupplied : Supplied 0 p.ops) (hpeak : peak 0 p.ops ≤ p.stackSize)
    (hend : 0 < depthAfter 0 p.ops) : (p.compute S limit).Ensures good fails := by
  have hnone : ∀ v ∈ ([] : List Int), good v := fun v hv => absurd hv List.not_mem_nil
  refine (executeAll_ensures S limit hvalue [] hnone hsupplied hpeak).bind fun stack hstack => ?_
  cases stack with
  | nil => exact absurd hstack.1 hend.ne
  | cons v stack => exact Rolling.ensures_pure (hstack.2 v List.mem_cons_self)

/-- A program whose operations are supplied, leave a value and have their peak within its stack computes
its value without a fault. -/
theorem Program.compute_offStack {p : Program} (limit : Int) (hsupplied : Supplied 0 p.ops)
    (hpeak : peak 0 p.ops ≤ p.stackSize) (hend : 0 < depthAfter 0 p.ops) :
    (p.compute S limit).Ensures (fun _ => True) OffStack :=
  p.compute_ensures S limit (fun op _ _ hpops _ => op.value_offStack S limit hpops) hsupplied hpeak hend

end

/-! ## The code of expressions -/

namespace Expr

/-- The code of an expression puts one value on the stack. -/
@[simp] theorem depthAfter_code (e : Expr) (d : Int) : depthAfter d e.code = d + 1 := by
  induction e generalizing d with
  | literal v => simp [Op.pops, Op.pushes]
  | group n e ih => exact ih d
  | negate e ih => simp [ih, Op.pops, Op.pushes]
  | die s ih =>
    simp only [code_die, depthAfter_cons, depthAfter_append, ih, depthAfter_nil, Op.pops, Op.pushes]
    omega
  | dice t s iht ihs =>
    simp only [code_dice, depthAfter_cons, depthAfter_append, iht, ihs, depthAfter_nil, Op.pops,
      Op.pushes]
    omega
  | arith op l r ihl ihr =>
    simp only [code_arith, depthAfter_cons, depthAfter_append, ihl, ihr, depthAfter_nil, Op.pops,
      Op.pushes]
    omega

/-- The code of an expression takes nothing from below it. -/
theorem supplied_code (e : Expr) {d : Int} (h : 0 ≤ d) : Supplied d e.code := by
  -- The code of each operand leaves the stack one higher (`depthAfter_code`), which is what the
  -- operation behind it takes.
  induction e generalizing d with
  | literal v => exact ⟨h, trivial⟩
  | group n e ih => exact ih h
  | negate e ih =>
    rw [code_negate, supplied_append, depthAfter_code]
    refine ⟨ih h, ?_, trivial⟩
    simp only [Op.pops]
    omega
  | die s ih =>
    rw [code_die, Supplied, supplied_append, depthAfter_code]
    simp only [Op.pops, Op.pushes]
    refine ⟨by omega, ih (by omega), ?_, trivial⟩
    simp only [Op.pops]
    omega
  | dice t s iht ihs =>
    rw [code_dice, supplied_append, supplied_append, depthAfter_code, depthAfter_code]
    refine ⟨iht h, ihs (by omega), ?_, trivial⟩
    simp only [Op.pops]
    omega
  | arith op l r ihl ihr =>
    rw [code_arith, supplied_append, supplied_append, depthAfter_code, depthAfter_code]
    refine ⟨ihl h, ihr (by omega), ?_, trivial⟩
    simp only [Op.pops]
    omega

/-- The peak of the code of an expression is its depth, counted from where it starts. -/
theorem peak_code (e : Expr) (d : Int) : peak d e.code = d + e.depth := by
  induction e generalizing d with
  | literal v =>
    simp only [code_literal, peak, Op.pops, Op.pushes, depth]
    omega
  | group n e ih => exact ih d
  | negate e ih =>
    have hpos := e.depth_pos
    simp only [code_negate, peak_append, ih, depthAfter_code, peak, Op.pops, Op.pushes, depth]
    omega
  | die s ih =>
    have hpos := s.depth_pos
    simp only [code_die, peak_append, ih, depthAfter_code, peak, Op.pops, Op.pushes, depth]
    omega
  | dice t s iht ihs =>
    have hpos := s.depth_pos
    simp only [code_dice, peak_append, iht, ihs, depthAfter_code, peak, Op.pops, Op.pushes, depth]
    omega
  | arith op l r ihl ihr =>
    have hpos := r.depth_pos
    simp only [code_arith, peak_append, ihl, ihr, depthAfter_code, peak, Op.pops, Op.pushes, depth]
    omega

end Expr

/-- What a text compiles to has the stack that its operations need: replaying their effects never goes
below zero, has its greatest depth at the stack size and ends at one value. So no run has a fault of the
stack, and programs of texts are equal when their operations are. -/
theorem compile_stack_exact {text : String} {p : Program} (h : compile text = .ok p) :
    (∀ before op after, p.ops = before ++ op :: after → (op.pops : Int) ≤ depthAfter 0 before) ∧
      IsGreatest {d | ∃ before, before <+: p.ops ∧ depthAfter 0 before = d} p.stackSize ∧
      depthAfter 0 p.ops = 1 ∧
      (∀ {σ : Type} (S : Sampler σ) (limit : Int) (s : σ) (fault : StackFault),
        ((p.run S limit).runFrom s).1 ≠ .error (.stack fault)) ∧
      ∀ text' q, compile text' = .ok q → (p = q ↔ p.ops = q.ops) := by
  -- The stack size says nothing that the operations do not say.
  have hsize : ∀ e : Expr, e.program.stackSize = peak 0 e.program.ops := by
    intro e
    show (e.depth : Int) = peak 0 e.code
    rw [e.peak_code, Int.zero_add]
  obtain ⟨e, hparse, rfl⟩ := compile_eq_ok_iff.1 h
  have hsupplied : Supplied 0 e.program.ops := e.supplied_code (le_refl 0)
  have hend : depthAfter 0 e.program.ops = 1 := e.depthAfter_code 0
  refine ⟨supplied_iff.1 hsupplied, ?_, hend, fun S limit s fault => ?_, fun text' q hq => ?_⟩
  · rw [hsize]
    exact isGreatest_peak 0 e.program.ops
  · have hcompute := Program.compute_offStack S limit hsupplied (hsize e).ge
      (by rw [hend]; exact Int.one_pos)
    rw [e.program.run_of_allocated S (allocationError?_of_parse hparse)]
    exact hcompute.ne_error (fun hoff => hoff fault rfl) s
  · obtain ⟨e', -, rfl⟩ := compile_eq_ok_iff.1 hq
    refine ⟨fun heq => by rw [heq], fun hops => ?_⟩
    have hsizes : e.program.stackSize = e'.program.stackSize := by rw [hsize, hsize, hops]
    exact congrArg₂ Program.mk hops hsizes

/-- The stack of `(1+2)d6` holds two values at most. -/
theorem compile_stack_exact_group :
    IsGreatest {d | ∃ before, before <+: [Op.num 1, .num 2, .arith .add, .num 6, .dice] ∧
      depthAfter 0 before = d} 2 ∧
      ∀ {σ : Type} (S : Sampler σ) (limit : Int) (s : σ) (fault : StackFault),
        (((⟨[.num 1, .num 2, .arith .add, .num 6, .dice], 2⟩ : Program).run S limit).runFrom s).1 ≠
          .error (.stack fault) := by
  have hcompile : compile "(1+2)d6" =
      .ok ⟨[.num 1, .num 2, .arith .add, .num 6, .dice], 2⟩ := by with_unfolding_all rfl
  obtain ⟨-, hpeak, -, hrun, -⟩ := compile_stack_exact hcompile
  exact ⟨hpeak, hrun⟩

end DiceNotation
