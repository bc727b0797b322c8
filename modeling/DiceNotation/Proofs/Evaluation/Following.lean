import DiceNotation.Proofs.Stack.Operation

/-!
# Runs that follow each other

Two runs of the same operations with two samplers, whose states are in a relation that their answers
keep. The second run follows the first one: from related states it has the same outcome and leaves
related states, unless the first run was stopped by one of some failures. Nothing is said of the second
run in that case, so its limit on dice may be greater than that of the first one, if what this makes a
difference for, too many dice, is among these failures (`Program.run_follows`).

The relation is arbitrary. With equality and two limits it compares the runs of one sampler, and with
one limit it compares a sampler with another one, such as itself with its calls noted
(`Program.runFrom_recorded`).
-/

namespace DiceNotation

variable {σ τ α β : Type}

/-! ## Computations -/

namespace Rolling

/-- From states in the relation `R`, the computation `y` has the outcome of `x` and leaves states in the
relation, unless `x` fails with one of the failures in `stop`. -/
def Follows (R : σ → τ → Prop) (stop : Failure → Prop) (y : Rolling τ α) (x : Rolling σ α) : Prop :=
  ∀ s t, R s t → (∃ f, stop f ∧ (x.runFrom s).1 = .error f) ∨
    ((y.runFrom t).1 = (x.runFrom s).1 ∧ R (x.runFrom s).2 (y.runFrom t).2)

variable {R : σ → τ → Prop} {stop : Failure → Prop}

/-- A value at hand follows itself. -/
theorem follows_pure (a : α) : Follows R stop (pure a) (pure a) :=
  fun _ _ h => .inr ⟨rfl, h⟩

/-- A failure follows itself. -/
theorem follows_throw (e : Failure) : (throw e : Rolling τ α).Follows R stop (throw e) :=
  fun _ _ h => .inr ⟨rfl, h⟩

/-- Computations in a row follow each other when their parts do. -/
theorem Follows.bind {y : Rolling τ α} {x : Rolling σ α} {g : α → Rolling τ β} {f : α → Rolling σ β}
    (h : y.Follows R stop x) (hf : ∀ a, (g a).Follows R stop (f a)) :
    (y >>= g).Follows R stop (x >>= f) := by
  intro s t hst
  have hparts := h s t hst
  rw [runFrom_bind, runFrom_bind]
  rcases hx : x.runFrom s with ⟨r, s'⟩
  rcases hy : y.runFrom t with ⟨r', t'⟩
  rw [hx, hy] at hparts
  rcases hparts with ⟨e, hstop, he⟩ | ⟨hsame, hrelated⟩
  · -- The first part is stopped, and so is the whole.
    obtain rfl : r = .error e := he
    exact .inl ⟨e, hstop, rfl⟩
  · obtain rfl : r' = r := hsame
    cases r' with
    | error e => exact .inr ⟨rfl, hrelated⟩
    | ok a => exact hf a s' t' hrelated

end Rolling

/-! ## Samplers -/

/-- From states in the relation `R`, the sampler `T` answers as `S` does and goes on to states in the
relation. -/
def Sampler.Follows (R : σ → τ → Prop) (T : Sampler τ) (S : Sampler σ) : Prop :=
  ∀ n s t, R s t → (T.sample n t).1 = (S.sample n s).1 ∧ R (S.sample n s).2 (T.sample n t).2

/-- A sampler follows itself. -/
theorem Sampler.follows_self (S : Sampler σ) : S.Follows Eq S := by
  rintro n s t rfl
  exact ⟨rfl, rfl⟩

/-- A sampler with its calls noted follows the sampler. -/
theorem Sampler.recorded_follows (S : Sampler σ) :
    S.recorded.Follows (fun (s : σ) (t : σ × List Sampler.Call) => t.1 = s) S := by
  rintro n s ⟨s', calls⟩ rfl
  exact ⟨rfl, rfl⟩

/-! ## Runs -/

section

open Rolling

variable {R : σ → τ → Prop} {stop : Failure → Prop} {S : Sampler σ} {T : Sampler τ}
  {limit limit' : Int}

/-- Arithmetic asks no sampler. -/
theorem lift_follows (r : Except RollError Int) : (lift r : Rolling τ Int).Follows R stop (lift r) := by
  cases r with
  | ok v => exact follows_pure v
  | error e => exact follows_throw _

/-- Values are put on stacks without a question to a sampler. -/
theorem push_follows (size v : Int) (stack : List Int) :
    (push size v stack : Rolling τ (List Int)).Follows R stop (push size v stack) := by
  unfold push
  split
  · exact follows_pure _
  · exact follows_throw _

/-- Faces are added up alike from answers that are alike. -/
theorem addFaces_follows (h : T.Follows R S) (sides : Int) (n : Nat) (total : Int) :
    Rolling.Follows R stop (ExceptT.mk (addFaces T sides n total))
      (ExceptT.mk (addFaces S sides n total)) := by
  induction n generalizing total with
  | zero => exact follows_pure total
  | succ n ih =>
    intro s t hst
    show (∃ f, stop f ∧ (addFaces S sides (n + 1) total s).1 = .error f) ∨
      ((addFaces T sides (n + 1) total t).1 = (addFaces S sides (n + 1) total s).1 ∧
        R (addFaces S sides (n + 1) total s).2 (addFaces T sides (n + 1) total t).2)
    unfold addFaces
    have hanswers := h sides s t hst
    rcases hS : S.sample sides s with ⟨answer, s'⟩
    rcases hT : T.sample sides t with ⟨answer', t'⟩
    rw [hS, hT] at hanswers
    obtain ⟨hsame, hrelated⟩ := hanswers
    obtain rfl : answer' = answer := hsame
    -- The samplers fail together, the sums leave the range together, or both go on.
    cases answer' with
    | error e => exact .inr ⟨rfl, hrelated⟩
    | ok v =>
      dsimp only
      cases checked (total + 1 + v) with
      | error e => exact .inr ⟨rfl, hrelated⟩
      | ok total' => exact ih total' s' t' hrelated

/-- Dice are rolled alike within the smaller one of two limits, and also beyond it where too many dice
stop the comparison. -/
theorem rollDice_follows (h : T.Follows R S)
    (hlimit : limit' = limit ∨ limit ≤ limit' ∧ stop (.roll .tooManyRolls)) (times sides : Int) :
    (rollDice T times sides limit').Follows R stop (rollDice S times sides limit) := by
  unfold rollDice
  -- The checks are made in the same order on both sides; they can differ at the limit only.
  by_cases htimes : times < 0
  · rw [if_pos htimes, if_pos htimes]
    exact follows_throw _
  rw [if_neg htimes, if_neg htimes]
  by_cases hsides : sides < 0
  · rw [if_pos hsides, if_pos hsides]
    exact follows_throw _
  rw [if_neg hsides, if_neg hsides]
  by_cases hmany : times > limit
  · rw [if_pos hmany]
    rcases hlimit with rfl | ⟨-, hstop⟩
    · rw [if_pos hmany]
      exact follows_throw _
    · exact fun s t _ => .inl ⟨_, hstop, rfl⟩
  have hmany' : ¬ times > limit' := by
    rcases hlimit with rfl | ⟨hle, -⟩ <;> omega
  rw [if_neg hmany, if_neg hmany']
  by_cases hnone : times = 0 ∨ sides = 0
  · rw [if_pos hnone, if_pos hnone]
    exact follows_pure 0
  rw [if_neg hnone, if_neg hnone]
  exact addFaces_follows h sides times.toNat 0

/-- An operation computes its value alike. -/
theorem Op.value_follows (h : T.Follows R S)
    (hlimit : limit' = limit ∨ limit ≤ limit' ∧ stop (.roll .tooManyRolls)) {op : Op}
    {stack : List Int} (hpops : op.pops ≤ stack.length) :
    (op.value T limit' stack).Follows R stop (op.value S limit stack) := by
  cases op with
  | num v => exact follows_pure v
  | arith op =>
    match stack, hpops with
    | r :: l :: stack, _ => exact lift_follows _
  | neg =>
    match stack, hpops with
    | v :: stack, _ => exact lift_follows _
  | dice =>
    match stack, hpops with
    | sides :: times :: stack, _ => exact rollDice_follows h hlimit times sides

/-- An operation does the same to a stack. -/
theorem Op.execute_follows (h : T.Follows R S)
    (hlimit : limit' = limit ∨ limit ≤ limit' ∧ stop (.roll .tooManyRolls)) (size : Int) (op : Op)
    (stack : List Int) :
    (op.execute T size limit' stack).Follows R stop (op.execute S size limit stack) := by
  rcases Nat.lt_or_ge stack.length op.pops with hpops | hpops
  · rw [op.execute_of_lt T size limit' hpops, op.execute_of_lt S size limit hpops]
    exact follows_throw _
  · rw [op.execute_eq T size limit' hpops, op.execute_eq S size limit hpops]
    exact (Op.value_follows h hlimit hpops).bind fun v => push_follows size v _

/-- Operations in a row do the same to a stack. -/
theorem executeAll_follows (h : T.Follows R S)
    (hlimit : limit' = limit ∨ limit ≤ limit' ∧ stop (.roll .tooManyRolls)) (size : Int)
    (ops : List Op) (stack : List Int) :
    (executeAll T size limit' ops stack).Follows R stop (executeAll S size limit ops stack) := by
  induction ops generalizing stack with
  | nil => exact follows_pure stack
  | cons op ops ih => exact (op.execute_follows h hlimit size stack).bind fun stack' => ih stack'

/-- A program computes its value alike. -/
theorem Program.compute_follows (h : T.Follows R S)
    (hlimit : limit' = limit ∨ limit ≤ limit' ∧ stop (.roll .tooManyRolls)) (p : Program) :
    (p.compute T limit').Follows R stop (p.compute S limit) := by
  refine (executeAll_follows h hlimit p.stackSize p.ops []).bind fun stack => ?_
  cases stack with
  | nil => exact follows_throw _
  | cons v stack => exact follows_pure v

/-- A program does the same with a sampler that follows another one. -/
theorem Program.run_follows (h : T.Follows R S)
    (hlimit : limit' = limit ∨ limit ≤ limit' ∧ stop (.roll .tooManyRolls)) (p : Program) :
    (p.run T limit').Follows R stop (p.run S limit) := by
  unfold run
  cases allocationError? p.stackSize with
  | some e => exact follows_throw _
  | none => exact p.compute_follows h hlimit

/-- Noting the calls of a run changes neither its outcome nor the state that it leaves. -/
theorem Program.runFrom_recorded (p : Program) (limit : Int) (s : σ) (calls : List Sampler.Call) :
    ((p.run S.recorded limit).runFrom (s, calls)).1 = ((p.run S limit).runFrom s).1 ∧
      ((p.run S.recorded limit).runFrom (s, calls)).2.1 = ((p.run S limit).runFrom s).2 := by
  have hrun : (p.run S.recorded limit).Follows (fun (s : σ) (t : σ × List Sampler.Call) => t.1 = s)
      (fun _ => False) (p.run S limit) := p.run_follows S.recorded_follows (.inl rfl)
  rcases hrun s (s, calls) rfl with ⟨e, hstop, -⟩ | ⟨hsame, hrelated⟩
  · exact hstop.elim
  · exact ⟨hsame, hrelated⟩

end

end DiceNotation
