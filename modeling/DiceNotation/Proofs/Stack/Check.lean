import DiceNotation.Proofs.Evaluation.Limit
import DiceNotation.Proofs.Stack.Depth
import Mathlib.Algebra.Ring.Int.Defs

/-!
# Checking a program for faults of its stack

Whether a program written by hand can have a fault of its stack is decided by the effects of its
operations alone. `Op.misfit?` is the fault that an operation has at a depth, and the operations before
the first misfit run as those of a well-formed program do: the depth of the stack is the one that their
effects come to (`executeAll_of_fits`). So a run comes to the first misfit and has its fault there, unless
it failed before for another reason (`Program.compute_of_firstMisfit`), and without a misfit there is no
fault at all but that of a program without operations, which has no value to give
(`Program.exists_fault_iff_of_fits`, `Program.exists_compute_of_fits`). All this is so on a stack that can be
made. Where the size is none that a stack can have, a program fails before its operations
(`Program.run_stackCheck`).
-/

namespace DiceNotation

open Rolling Failure

/-! ## Misfits -/

/-- The fault of an operation on a stack of depth `d` with room for `size` values: there are fewer values
than it takes, or more behind it than there is room for. A negative size is as good as none. -/
def Op.misfit? (size d : Int) (op : Op) : Option StackFault :=
  if d < op.pops then some .empty
  else if max size 0 < d - op.pops + op.pushes then some .full
  else none

/-- Each of the operations, run from an empty stack on, finds what it takes and room for what it puts. -/
def Fits (size : Int) (ops : List Op) : Prop :=
  ∀ before op after, ops = before ++ op :: after → op.misfit? size (depthAfter 0 before) = none

/-- The operation behind `before` is the first one of the program that does not fit, for the reason
`fault`. -/
structure Program.FirstMisfit (p : Program) (before : List Op) (op : Op) (after : List Op)
    (fault : StackFault) : Prop where
  /-- The operation stands there in the program. -/
  ops_eq : p.ops = before ++ op :: after
  /-- It does not fit. -/
  misfit : op.misfit? p.stackSize (depthAfter 0 before) = some fault
  /-- What is before it fits. -/
  fits : Fits p.stackSize before

/-- What fits finds its operands and room for its result. -/
theorem Op.misfit?_eq_none_iff {size d : Int} {op : Op} :
    op.misfit? size d = none ↔ op.pops ≤ d ∧ d - op.pops + op.pushes ≤ max size 0 := by
  unfold misfit?
  split
  · next h => simp [Int.not_le.2 h]
  · next h =>
    split
    · next hfull => simp [Int.not_le.2 hfull]
    · next hfull => simp [Int.not_lt.1 h, Int.not_lt.1 hfull]

/-- The message of a misfit tells too few values from too little room. -/
theorem Op.message_of_misfit? {size d : Int} {op : Op} {fault : StackFault}
    (h : op.misfit? size d = some fault) :
    fault.message =
      if d < op.pops then "pop from empty roll stack" else "list assignment index out of range" := by
  unfold misfit? at h
  split at h
  · next hpops =>
    cases h
    rw [if_pos hpops]
    rfl
  · next hpops =>
    rw [if_neg hpops]
    split at h
    · cases h
      rfl
    · cases h

/-- The depth behind one more operation. -/
theorem depthAfter_concat (d : Int) (ops : List Op) (op : Op) :
    depthAfter d (ops ++ [op]) = depthAfter d ops - op.pops + op.pushes := by
  rw [depthAfter_append, depthAfter_cons, depthAfter_nil]

/-- Operations fit when they are supplied and their peak is within the size. -/
theorem fits_iff {size : Int} {ops : List Op} :
    Fits size ops ↔ Supplied 0 ops ∧ peak 0 ops ≤ max size 0 := by
  constructor
  · intro h
    refine ⟨supplied_iff.2 fun before op after hops =>
      (Op.misfit?_eq_none_iff.1 (h before op after hops)).1, ?_⟩
    -- The peak is at the start or behind one of the operations, which fits.
    obtain ⟨before, ⟨rest, rfl⟩, hpeak⟩ := (isGreatest_peak 0 ops).1
    rw [← hpeak]
    rcases List.eq_nil_or_concat before with rfl | ⟨init, op, rfl⟩
    · exact le_max_right size 0
    · rw [List.concat_eq_append, depthAfter_concat]
      exact (Op.misfit?_eq_none_iff.1 (h init op rest (by simp))).2
  · rintro ⟨hsupplied, hpeak⟩ before op after rfl
    refine Op.misfit?_eq_none_iff.2 ⟨supplied_iff.1 hsupplied before op after rfl, ?_⟩
    have hprefix : before ++ [op] <+: before ++ op :: after := ⟨after, by simp⟩
    rw [← depthAfter_concat]
    exact le_trans ((isGreatest_peak 0 _).2 ⟨_, hprefix, rfl⟩) hpeak

/-- Operations that fit leave a value, if there are any. -/
theorem Fits.depthAfter_pos {size : Int} {ops : List Op} (h : Fits size ops) (hne : ops ≠ []) :
    0 < depthAfter 0 ops := by
  rcases List.eq_nil_or_concat ops with rfl | ⟨init, op, rfl⟩
  · exact absurd rfl hne
  · rw [List.concat_eq_append] at h ⊢
    have hpops := (Op.misfit?_eq_none_iff.1 (h init op [] rfl)).1
    rw [depthAfter_concat, Op.pushes]
    omega

/-- Operations that fit have room for the value that they leave, so their stack has a size. -/
theorem Fits.peak_le {size : Int} {ops : List Op} (h : Fits size ops) (hne : ops ≠ []) :
    peak 0 ops ≤ size := by
  have hpeak := (fits_iff.1 h).2
  have hpos := h.depthAfter_pos hne
  have hend : depthAfter 0 ops ≤ peak 0 ops :=
    (isGreatest_peak 0 ops).2 ⟨ops, List.prefix_refl ops, rfl⟩
  omega

/-- A program without a first misfit has none: the first one of several would be that. -/
theorem Program.fits_of_not_firstMisfit {p : Program}
    (h : ¬ ∃ before op after fault, p.FirstMisfit before op after fault) :
    Fits p.stackSize p.ops := by
  intro before
  induction hn : before.length using Nat.strong_induction_on generalizing before with
  | _ n ih =>
    intro op after hops
    cases hmisfit : op.misfit? p.stackSize (depthAfter 0 before) with
    | none => rfl
    | some fault =>
      refine absurd ⟨before, op, after, fault, hops, hmisfit, ?_⟩ h
      rintro b o a rfl
      have hlt : b.length < n := by
        rw [← hn, List.length_append, List.length_cons]
        omega
      exact ih b.length hlt b rfl o (a ++ op :: after) (by rw [hops]; simp)

/-- A program with a misfit does not fit. -/
theorem Program.FirstMisfit.not_fits {p : Program} {before : List Op} {op : Op} {after : List Op}
    {fault : StackFault} (h : p.FirstMisfit before op after fault) : ¬ Fits p.stackSize p.ops := by
  intro hfits
  have hnone := hfits before op after h.ops_eq
  rw [h.misfit] at hnone
  cases hnone

/-- Up to its first misfit a program fills no more than its stack. -/
theorem Program.FirstMisfit.length_le {p : Program} {before : List Op} {op : Op} {after : List Op}
    {fault : StackFault} (h : p.FirstMisfit before op after fault) {stack : List Int}
    (hdepth : (stack.length : Int) = depthAfter 0 before) :
    (stack.length : Int) ≤ max p.stackSize 0 := by
  rw [hdepth]
  exact le_trans ((isGreatest_peak 0 before).2 ⟨before, List.prefix_refl before, rfl⟩)
    (fits_iff.1 h.fits).2

/-! ## Runs up to a misfit -/

section

variable {σ : Type} (S : Sampler σ)

/-- Operations that fit have no fault, and leave the stack as deep as their effects say. -/
theorem executeAll_of_fits {size : Int} (limit : Int) {ops : List Op} (h : Fits size ops) :
    (executeAll S size limit ops []).Ensures
      (fun stack => (stack.length : Int) = depthAfter 0 ops) OffStack := by
  by_cases hne : ops = []
  · subst hne
    exact ensures_pure rfl
  · intro s
    have hvalue : ∀ op ∈ ops, ∀ stack : List Int, op.pops ≤ stack.length → (∀ v ∈ stack, True) →
        (op.value S limit stack).Ensures (fun _ => True) OffStack :=
      fun op _ stack hpops _ => op.value_offStack S limit hpops
    have hrun := executeAll_ensures S limit hvalue [] (fun _ _ => trivial) (fits_iff.1 h).1
      (h.peak_le hne) s
    rcases hr : ((executeAll S size limit ops []).runFrom s).1 with e | stack
    · rw [hr] at hrun
      exact hrun
    · rw [hr] at hrun
      exact hrun.1

/-- An operation that does not fit the stack has its fault before it does anything. Only numbers can
lack room, since the other operations take more values than they put. -/
theorem Op.execute_of_misfit {size : Int} (limit : Int) {op : Op} {stack : List Int}
    {fault : StackFault} (hstack : (stack.length : Int) ≤ max size 0)
    (h : op.misfit? size stack.length = some fault) :
    op.execute S size limit stack = throw (.stack fault) := by
  unfold misfit? at h
  split at h
  · next hpops =>
    cases h
    exact op.execute_of_lt S size limit (Int.ofNat_lt.1 hpops)
  · split at h
    · next hfull =>
      cases h
      cases op with
      | num v =>
        have hsize : size ≤ stack.length := by
          simp only [pops, pushes] at hfull
          omega
        exact push_of_le hsize
      | arith op => simp only [pops, pushes] at hfull; omega
      | neg => simp only [pops, pushes] at hfull; omega
      | dice => simp only [pops, pushes] at hfull; omega
    · cases h

/-- A program fails where its operations do. -/
theorem Program.compute_of_error {p : Program} {limit : Int} {s s' : σ} {e : Failure}
    (h : (executeAll S p.stackSize limit p.ops []).runFrom s = (.error e, s')) :
    (p.compute S limit).runFrom s = (.error e, s') := by
  rw [Program.compute, runFrom_bind, h]

/-- A program gives the topmost value that its operations leave. -/
theorem Program.compute_of_ok {p : Program} {limit : Int} {s s' : σ} {v : Int} {below : List Int}
    (h : (executeAll S p.stackSize limit p.ops []).runFrom s = (.ok (v :: below), s')) :
    (p.compute S limit).runFrom s = (.ok v, s') := by
  rw [Program.compute, runFrom_bind, h]
  rfl

/-- A run fails before the first misfit of its program, with no fault of the stack, or comes to the
misfit and fails there. -/
theorem Program.compute_of_firstMisfit {p : Program} {before : List Op} {op : Op} {after : List Op}
    {fault : StackFault} (h : p.FirstMisfit before op after fault) (limit : Int) (s : σ) :
    (∃ b o a stack s₁ e s₂, before = b ++ o :: a ∧
        (executeAll S p.stackSize limit b []).runFrom s = (.ok stack, s₁) ∧
        (o.execute S p.stackSize limit stack).runFrom s₁ = (.error e, s₂) ∧ e.OffStack ∧
        (p.compute S limit).runFrom s = (.error e, s₂)) ∨
      ∃ stack s₁, (stack.length : Int) = depthAfter 0 before ∧
        (executeAll S p.stackSize limit before []).runFrom s = (.ok stack, s₁) ∧
        (p.compute S limit).runFrom s = (.error (.stack fault), s₁) := by
  have hbefore := executeAll_of_fits S limit h.fits s
  have hops : executeAll S p.stackSize limit p.ops [] =
      (executeAll S p.stackSize limit before [] >>= fun stack =>
        executeAll S p.stackSize limit (op :: after) stack) := by
    rw [h.ops_eq, executeAll_append]
  rcases hrun : (executeAll S p.stackSize limit before []).runFrom s with ⟨e | stack, s₁⟩
  · rw [hrun] at hbefore
    obtain ⟨b, o, a, stack, s₂, hsplit, hb, ho⟩ := executeAll_eq_error S p.stackSize limit hrun
    refine .inl ⟨b, o, a, stack, s₂, e, s₁, hsplit, hb, ho, hbefore, ?_⟩
    exact p.compute_of_error S (by rw [hops, runFrom_bind, hrun])
  · rw [hrun] at hbefore
    have hdepth : (stack.length : Int) = depthAfter 0 before := hbefore
    refine .inr ⟨stack, s₁, hdepth, rfl, p.compute_of_error S ?_⟩
    have hop := op.execute_of_misfit S limit (h.length_le hdepth) (by rw [hdepth]; exact h.misfit)
    rw [hops, runFrom_bind, hrun]
    dsimp only
    rw [executeAll, hop]
    rfl

/-- Without a misfit there are no faults of the stack, unless there is no operation. -/
theorem Program.exists_fault_iff_of_fits {p : Program} (h : Fits p.stackSize p.ops) (limit : Int)
    (s : σ) : (∃ fault, ((p.compute S limit).runFrom s).1 = .error (.stack fault)) ↔ p.ops = [] := by
  constructor
  · rintro ⟨fault, hfault⟩
    by_contra hne
    have hrun := p.compute_offStack S limit (fits_iff.1 h).1 (h.peak_le hne) (h.depthAfter_pos hne)
    exact hrun.ne_error (fun hoff => hoff fault rfl) s hfault
  · intro hnil
    refine ⟨.empty, ?_⟩
    rw [Program.compute, hnil]
    rfl

/-- Without a misfit there is a value on top of the stack at the end, which is the result. -/
theorem Program.exists_compute_of_fits {p : Program} (h : Fits p.stackSize p.ops) (hne : p.ops ≠ [])
    {limit : Int} {s s' : σ} {stack : List Int}
    (hrun : (executeAll S p.stackSize limit p.ops []).runFrom s = (.ok stack, s')) :
    ∃ v below, stack = v :: below ∧ (p.compute S limit).runFrom s = (.ok v, s') := by
  have hdepth := executeAll_of_fits S limit h s
  rw [hrun] at hdepth
  have hdepth : (stack.length : Int) = depthAfter 0 p.ops := hdepth
  have hpos := h.depthAfter_pos hne
  cases stack with
  | nil => simp at hdepth; omega
  | cons v below => exact ⟨v, below, rfl, p.compute_of_ok S hrun⟩

end

/-- Where there is no stack, a run fails before its operations and asks the sampler for nothing. -/
theorem Program.runFrom_of_allocationError {σ : Type} {p : Program} {e : AllocationError}
    (h : allocationError? p.stackSize = some e) (S : Sampler σ) (limit : Int) (s : σ)
    (calls : List Sampler.Call) :
    (p.run S.recorded limit).runFrom (s, calls) = (.error (.allocation e), s, calls) := by
  rw [p.run_of_allocationError S.recorded h]
  rfl

/-- A size beyond 64 bits is none that a stack can have. -/
theorem allocationError?_eq_size {size : Int} (h : size < -2 ^ 63 ∨ 2 ^ 63 ≤ size) :
    allocationError? size = some .size := by
  refine if_neg fun hrange => ?_
  unfold InRange minValue maxValue at hrange
  omega

/-- A size of `2^60` values or more is one that memory has no room for. -/
theorem allocationError?_eq_memory {size : Int} (h : 2 ^ 60 ≤ size) (hword : size < 2 ^ 63) :
    allocationError? size = some .memory := by
  have hrange : InRange size := by
    unfold InRange minValue maxValue
    omega
  rw [allocationError?, if_pos hrange]
  refine if_neg fun hroom => ?_
  unfold slotCount at hroom
  omega

/-- For any program, however it is written, one replay of the effects of its operations tells where a
run can have a fault of the stack, as long as there can be a stack of its size. If there is an operation that
finds too few values or too little room, a run fails at an operation before the first such one, for another
reason, or it has the fault there and asks the sampler for nothing in that operation. If there is none, the
only fault is that of a program without operations, and a run in which no operation fails gives the topmost
value of the stack. A program of any other size fails for that before its operations, and asks the sampler
for nothing. -/
theorem Program.run_stackCheck (p : Program) :
    (-2 ^ 63 ≤ p.stackSize → p.stackSize < 2 ^ 60 →
      (∀ before op after fault, p.FirstMisfit before op after fault →
        fault.message = (if depthAfter 0 before < op.pops then "pop from empty roll stack"
          else "list assignment index out of range") ∧
        ∀ {σ : Type} (S : Sampler σ) (limit : Int) (s : σ),
          (∃ b o a stack s₁ e s₂, before = b ++ o :: a ∧
            (executeAll S p.stackSize limit b []).runFrom s = (.ok stack, s₁) ∧
            (o.execute S p.stackSize limit stack).runFrom s₁ = (.error e, s₂) ∧
            (∀ fault', e ≠ .stack fault') ∧ (p.run S limit).runFrom s = (.error e, s₂)) ∨
          ∃ stack s₁, (executeAll S p.stackSize limit before []).runFrom s = (.ok stack, s₁) ∧
            (∀ calls, (op.execute S.recorded p.stackSize limit stack).runFrom (s₁, calls) =
              (.error (.stack fault), s₁, calls)) ∧
            (p.run S limit).runFrom s = (.error (.stack fault), s₁)) ∧
      ((¬ ∃ before op after fault, p.FirstMisfit before op after fault) →
        ∀ {σ : Type} (S : Sampler σ) (limit : Int) (s : σ),
          ((∃ fault, ((p.run S limit).runFrom s).1 = .error (.stack fault)) ↔ p.ops = []) ∧
          (p.ops ≠ [] → ∀ stack s',
            (executeAll S p.stackSize limit p.ops []).runFrom s = (.ok stack, s') →
            ∃ v below, stack = v :: below ∧ (p.run S limit).runFrom s = (.ok v, s')))) ∧
    (p.stackSize < -2 ^ 63 ∨ 2 ^ 60 ≤ p.stackSize →
      ∃ e : AllocationError, e.message = (if 2 ^ 60 ≤ p.stackSize ∧ p.stackSize < 2 ^ 63 then ""
          else "cannot fit 'int' into an index-sized integer") ∧
        ∀ {σ : Type} (S : Sampler σ) (limit : Int) (s : σ) (calls : List Sampler.Call),
          (p.run S.recorded limit).runFrom (s, calls) = (.error (.allocation e), s, calls)) := by
  constructor
  · intro hleast hroom
    have halloc : allocationError? p.stackSize = none := by
      refine allocationError?_eq_none_iff.2 ?_
      unfold minValue slotCount
      omega
    have hrun : ∀ {σ : Type} (S : Sampler σ) (limit : Int), p.run S limit = p.compute S limit :=
      fun S limit => p.run_of_allocated S halloc limit
    constructor
    · intro before op after fault h
      refine ⟨Op.message_of_misfit? h.misfit, fun S limit s => ?_⟩
      rw [hrun]
      rcases p.compute_of_firstMisfit S h limit s with hbefore | ⟨stack, s₁, hdepth, hstack, hfault⟩
      · exact .inl hbefore
      · refine .inr ⟨stack, s₁, hstack, fun calls => ?_, hfault⟩
        rw [op.execute_of_misfit S.recorded limit (h.length_le hdepth)
          (by rw [hdepth]; exact h.misfit)]
        rfl
    · intro hnone σ S limit s
      have hfits := fits_of_not_firstMisfit hnone
      rw [hrun]
      exact ⟨exists_fault_iff_of_fits S hfits limit s,
        fun hne stack s' hall => exists_compute_of_fits S hfits hne hall⟩
  · intro hsize
    by_cases hmemory : 2 ^ 60 ≤ p.stackSize ∧ p.stackSize < 2 ^ 63
    · refine ⟨.memory, (if_pos hmemory).symm, fun S limit s calls => ?_⟩
      exact p.runFrom_of_allocationError (allocationError?_eq_memory hmemory.1 hmemory.2) S limit s calls
    · refine ⟨.size, (if_neg hmemory).symm, fun S limit s calls => ?_⟩
      exact p.runFrom_of_allocationError (allocationError?_eq_size (by omega)) S limit s calls

/-- An addition that finds one value fails, however much room there is. With two numbers and a negation
the result is that of the negation, above the number that is left over. A stack of `2^60` values is more than
there is memory for. -/
theorem Program.run_stackCheck_addition :
    (⟨[.num 1, .arith .add], 5⟩ : Program).FirstMisfit [.num 1] (.arith .add) [] .empty ∧
      ((⟨[.num 1, .arith .add], 5⟩ : Program).run Fixed.sampler 0).runFrom none =
        (.error (.stack .empty), none) ∧
      ((⟨[.num 7, .num 5, .neg], 2⟩ : Program).run Fixed.sampler 0).runFrom none =
        (.ok (-5), none) ∧
      ((⟨[.num 7], 2 ^ 60⟩ : Program).run Fixed.sampler.recorded 0).runFrom (none, []) =
        (.error (.allocation .memory), none, []) := by
  have hmisfit : (⟨[.num 1, .arith .add], 5⟩ : Program).FirstMisfit [.num 1] (.arith .add) [] .empty :=
    ⟨rfl, rfl, fits_iff.2 ⟨⟨by decide, trivial⟩, by decide⟩⟩
  have hfits : Fits 2 [.num 7, .num 5, .neg] :=
    fits_iff.2 ⟨⟨by decide, by decide, by decide, trivial⟩, by decide⟩
  refine ⟨hmisfit, ?_, ?_, ?_⟩
  · rcases (((run_stackCheck _).1 (by decide) (by decide)).1 _ _ _ _ hmisfit).2 Fixed.sampler 0 none with
      ⟨b, o, a, stack, s₁, e, s₂, hsplit, hb, ho, -⟩ | ⟨stack, s₁, hrun, -, hfault⟩
    · -- The number before the addition does not fail.
      obtain ⟨rfl, rfl, rfl⟩ : b = [] ∧ o = .num 1 ∧ a = [] := by
        cases b with
        | nil => simpa [eq_comm] using hsplit
        | cons o' b => simp at hsplit
      cases hb
      cases ho
    · cases hrun
      exact hfault
  · have hnone : ¬ ∃ before op after fault,
        (⟨[.num 7, .num 5, .neg], 2⟩ : Program).FirstMisfit before op after fault :=
      fun ⟨_, _, _, _, h⟩ => h.not_fits hfits
    obtain ⟨v, below, hstack, hrun⟩ :=
      (((run_stackCheck _).1 (by decide) (by decide)).2 hnone Fixed.sampler 0 none).2 (by decide)
        [-5, 7] none rfl
    cases hstack
    exact hrun
  · obtain ⟨e, hmessage, hrun⟩ := (run_stackCheck ⟨[.num 7], 2 ^ 60⟩).2 (.inr (by decide))
    rw [if_pos (by decide)] at hmessage
    cases e with
    | size => exact absurd hmessage (by decide)
    | memory => exact hrun Fixed.sampler 0 none []

/-- A program without operations on a stack of `2^63` values has no misfit, and no fault of the stack either:
there is no such stack to take a value from. -/
theorem Program.run_of_no_stack :
    (¬ ∃ before op after fault, (⟨[], 2 ^ 63⟩ : Program).FirstMisfit before op after fault) ∧
      ((⟨[], 2 ^ 63⟩ : Program).run Fixed.sampler 10).runFrom none =
        (.error (.allocation .size), none) ∧
      ∀ fault, (((⟨[], 2 ^ 63⟩ : Program).run Fixed.sampler 10).runFrom none).1 ≠
        .error (.stack fault) := by
  have hrun : ((⟨[], 2 ^ 63⟩ : Program).run Fixed.sampler 10).runFrom none =
      (.error (.allocation .size), none) := by
    rw [Program.run_of_allocationError Fixed.sampler (allocationError?_eq_size (.inr (by decide)))]
    rfl
  refine ⟨?_, hrun, fun fault h => ?_⟩
  · rintro ⟨before, op, after, fault, h⟩
    exact absurd h.ops_eq (by simp)
  · rw [hrun] at h
    cases h

end DiceNotation
