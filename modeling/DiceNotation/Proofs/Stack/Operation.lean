import DiceNotation.Rolling
import Mathlib.Tactic.SplitIfs

/-!
# Single operations on the stack

What one operation does, once for all of them: it computes a value from the topmost values of the stack
(`Op.value`), takes these off and puts the value on (`Op.execute_eq`). The computations of values
know nothing of the stack, so a fault of the stack only comes from too few values on it or too many.

`Rolling.Ensures` is the statement that a computation has an outcome of some kind whatever the state of
the sampler, with one lemma for each way in which computations are put together.
-/

namespace DiceNotation

variable {σ α β : Type}

namespace Rolling

/-! ## Runs -/

/-- A value at hand leaves the state as it is. -/
@[simp] theorem runFrom_pure (a : α) (s : σ) : (pure a : Rolling σ α).runFrom s = (.ok a, s) := rfl

/-- A failure leaves the state as it is. -/
@[simp] theorem runFrom_throw (e : Failure) (s : σ) :
    (throw e : Rolling σ α).runFrom s = (.error e, s) := rfl

/-- A computation runs on from where the one before it has come to, unless that one failed. -/
theorem runFrom_bind (x : Rolling σ α) (f : α → Rolling σ β) (s : σ) :
    (x >>= f).runFrom s =
      match x.runFrom s with
      | (.ok a, s) => (f a).runFrom s
      | (.error e, s) => (.error e, s) := by
  show (match x.runFrom s with
    | (r, s) => (ExceptT.bindCont f r).run s) = _
  obtain ⟨r, s⟩ := x.runFrom s
  cases r <;> rfl

/-! ## Outcomes -/

/-- An outcome is a value with the one property or a failure with the other. -/
def Meets (post : α → Prop) (fails : Failure → Prop) : Except Failure α → Prop
  | .ok a => post a
  | .error e => fails e

/-- Whatever the state of the sampler, a computation gives a value with the one property or fails with
the other. -/
def Ensures (x : Rolling σ α) (post : α → Prop) (fails : Failure → Prop) : Prop :=
  ∀ s, Meets post fails (x.runFrom s).1

variable {x : Rolling σ α} {post : α → Prop} {fails : Failure → Prop}

/-- A value at hand ensures what holds of it. -/
theorem ensures_pure {a : α} (h : post a) : (pure a : Rolling σ α).Ensures post fails :=
  fun _ => h

/-- A failure ensures whatever does not count it as another one. -/
theorem ensures_throw {e : Failure} (h : fails e) : (throw e : Rolling σ α).Ensures post fails :=
  fun _ => h

/-- What a computation ensures may be said more weakly. -/
theorem Ensures.mono {post' : α → Prop} {fails' : Failure → Prop} (h : x.Ensures post fails)
    (hpost : ∀ a, post a → post' a) (hfails : ∀ e, fails e → fails' e) : x.Ensures post' fails' := by
  intro s
  have hx := h s
  rcases hr : (x.runFrom s).1 with e | a
  · rw [hr] at hx
    exact hfails e hx
  · rw [hr] at hx
    exact hpost a hx

/-- A computation takes over what the one before it ensures of its value. -/
theorem Ensures.bind {f : α → Rolling σ β} {post' : β → Prop} (h : x.Ensures post fails)
    (hf : ∀ a, post a → (f a).Ensures post' fails) : (x >>= f).Ensures post' fails := by
  intro s
  have hx := h s
  rw [runFrom_bind]
  rcases hr : x.runFrom s with ⟨e | a, s'⟩
  · rw [hr] at hx
    exact hx
  · rw [hr] at hx
    exact hf a hx s'

/-- A run that does not fail has a value of the kind that is ensured. -/
theorem Ensures.of_ok (h : x.Ensures post fails) {a : α} {s : σ} (ha : (x.runFrom s).1 = .ok a) :
    post a := by
  have hs := h s
  rw [ha] at hs
  exact hs

/-- The outcome of a run is none that its failures rule out. -/
theorem Ensures.ne_error {e : Failure} (h : x.Ensures post fails) (he : ¬ fails e) (s : σ) :
    (x.runFrom s).1 ≠ .error e := by
  intro hx
  have hs := h s
  rw [hx] at hs
  exact he hs

end Rolling

/-! ## Values without a stack -/

/-- A value that is not below zero is in range when it is not too great. -/
theorem inRange_of_nonneg {v : Int} (h0 : 0 ≤ v) (h : v ≤ maxValue) : InRange v := by
  have hmin : minValue ≤ 0 := by decide
  exact ⟨Int.le_trans hmin h0, h⟩

/-- A failure that is no fault of the stack. -/
def Failure.OffStack (e : Failure) : Prop :=
  ∀ fault, e ≠ .stack fault

open Rolling Failure

/-- Arithmetic does not use the stack. -/
theorem lift_offStack (r : Except RollError Int) :
    (lift r : Rolling σ Int).Ensures (fun _ => True) OffStack := by
  cases r with
  | ok v => exact ensures_pure trivial
  | error e => exact ensures_throw fun _ h => by cases h

section

variable (S : Sampler σ)

/-- Adding faces up does not use the stack. -/
theorem addFaces_offStack (sides : Int) (n : Nat) (total : Int) :
    Ensures (ExceptT.mk (addFaces S sides n total)) (fun _ => True) OffStack := by
  induction n generalizing total with
  | zero => exact fun _ => trivial
  | succ n ih =>
    intro s
    show Meets _ _ (addFaces S sides (n + 1) total s).1
    unfold addFaces
    -- A sampler may fail, a sum may leave the range, and otherwise the next face follows.
    rcases S.sample sides s with ⟨e | v, s'⟩
    · exact fun _ h => by cases h
    · dsimp only
      cases checked (total + 1 + v) with
      | error e => exact fun _ h => by cases h
      | ok total' => exact ih total' s'

/-- Rolling dice does not use the stack. -/
theorem rollDice_offStack (times sides limit : Int) :
    (rollDice S times sides limit).Ensures (fun _ => True) OffStack := by
  unfold rollDice
  split_ifs
  · exact ensures_throw fun _ h => by cases h
  · exact ensures_throw fun _ h => by cases h
  · exact ensures_throw fun _ h => by cases h
  · exact ensures_pure trivial
  · exact addFaces_offStack S sides times.toNat 0

/-! ## Operations -/

/-- The value that an operation computes from the topmost values of the stack. -/
def Op.value (limit : Int) : Op → List Int → Rolling σ Int
  | num v, _ => pure v
  | arith op, r :: l :: _ => lift (op.apply l r)
  | neg, v :: _ => lift (checked (-v))
  | dice, sides :: times :: _ => rollDice S times sides limit
  | _, _ => throw (.stack .empty)

/-- With enough values on the stack an operation replaces those that it takes by the one that it
computes. -/
theorem Op.execute_eq (size limit : Int) {op : Op} {stack : List Int} (h : op.pops ≤ stack.length) :
    op.execute S size limit stack =
      (op.value S limit stack >>= fun v => push size v (stack.drop op.pops)) := by
  cases op with
  | num v => rfl
  | arith op =>
    match stack, h with
    | r :: l :: stack, _ => rfl
  | neg =>
    match stack, h with
    | v :: stack, _ => rfl
  | dice =>
    match stack, h with
    | sides :: times :: stack, _ => rfl

/-- With too few values on the stack an operation fails before it has asked for anything. -/
theorem Op.execute_of_lt (size limit : Int) {op : Op} {stack : List Int} (h : stack.length < op.pops) :
    op.execute S size limit stack = throw (.stack .empty) := by
  cases op with
  | num v => exact absurd h (Nat.not_lt_zero _)
  | arith op =>
    match stack, h with
    | [], _ => rfl
    | [v], _ => rfl
  | neg =>
    match stack, h with
    | [], _ => rfl
  | dice =>
    match stack, h with
    | [], _ => rfl
    | [v], _ => rfl

/-- With enough values on the stack the value of an operation is computed off the stack. -/
theorem Op.value_offStack (limit : Int) {op : Op} {stack : List Int} (h : op.pops ≤ stack.length) :
    (op.value S limit stack).Ensures (fun _ => True) OffStack := by
  cases op with
  | num v => exact ensures_pure trivial
  | arith op =>
    match stack, h with
    | r :: l :: stack, _ => exact lift_offStack _
  | neg =>
    match stack, h with
    | v :: stack, _ => exact lift_offStack _
  | dice =>
    match stack, h with
    | sides :: times :: stack, _ => exact rollDice_offStack S times sides limit

/-- A value is put on a stack that has room for it. -/
theorem push_of_lt {size v : Int} {stack : List Int} (h : stack.length < size) :
    (push size v stack : Rolling σ (List Int)) = pure (v :: stack) :=
  if_pos h

/-- A full stack takes no value. -/
theorem push_of_le {size v : Int} {stack : List Int} (h : size ≤ stack.length) :
    (push size v stack : Rolling σ (List Int)) = throw (.stack .full) :=
  if_neg (Int.not_lt.2 h)

/-- An operation with enough values on the stack and room for its result computes and goes on. -/
theorem executeAll_cons {size : Int} (limit : Int) (op : Op) (ops : List Op) {stack : List Int}
    (hpops : op.pops ≤ stack.length) (hroom : ((stack.drop op.pops).length : Int) < size) :
    executeAll S size limit (op :: ops) stack =
      (op.value S limit stack >>= fun v =>
        executeAll S size limit ops (v :: stack.drop op.pops)) := by
  rw [executeAll, Op.execute_eq S size limit hpops, bind_assoc]
  refine bind_congr fun v => ?_
  rw [push_of_lt hroom, pure_bind]

/-! ## Stacks -/

/-- There is a stack of every size that is a signed 64-bit integer and leaves room in memory. -/
theorem allocationError?_eq_none_iff {size : Int} :
    allocationError? size = none ↔ minValue ≤ size ∧ size < slotCount := by
  have hword : slotCount ≤ maxValue := by decide
  unfold allocationError?
  split_ifs with hrange hroom
  · exact iff_of_true rfl ⟨hrange.1, hroom⟩
  · exact iff_of_false (fun h => by cases h) fun h => hroom h.2
  · refine iff_of_false (fun h => by cases h) fun h => hrange ⟨h.1, ?_⟩
    omega

/-- A program computes its value where there is a stack for it. -/
theorem Program.run_of_allocated {p : Program} (h : allocationError? p.stackSize = none) (limit : Int) :
    p.run S limit = p.compute S limit := by
  rw [run, h]

/-- A program without a stack fails before it does anything. -/
theorem Program.run_of_allocationError {p : Program} {e : AllocationError}
    (h : allocationError? p.stackSize = some e) (limit : Int) :
    p.run S limit = throw (.allocation e) := by
  rw [run, h]

/-- A program ensures what its computation does, if it may also fail for want of a stack. -/
theorem Program.ensures_run {p : Program} {limit : Int} {post : Int → Prop} {fails : Failure → Prop}
    (halloc : ∀ e, allocationError? p.stackSize = some e → fails (.allocation e))
    (h : (p.compute S limit).Ensures post fails) : (p.run S limit).Ensures post fails := by
  cases hsize : allocationError? p.stackSize with
  | some e =>
    rw [p.run_of_allocationError S hsize]
    exact ensures_throw (halloc e hsize)
  | none =>
    rw [p.run_of_allocated S hsize]
    exact h

/-! ## Operations in a row -/

/-- Operations behind others go on with the stack that those leave. -/
theorem executeAll_append (size limit : Int) (a b : List Op) (stack : List Int) :
    executeAll S size limit (a ++ b) stack =
      (executeAll S size limit a stack >>= fun stack => executeAll S size limit b stack) := by
  induction a generalizing stack with
  | nil => rw [List.nil_append, executeAll, pure_bind]
  | cons op a ih =>
    rw [List.cons_append, executeAll, executeAll, bind_assoc]
    exact bind_congr fun stack' => ih stack'

end

end DiceNotation
