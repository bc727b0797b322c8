import DiceNotation.Proofs.Evaluation.Points
import DiceNotation.Proofs.Evaluation.Replay
import Mathlib.Algebra.Ring.Int.Defs
import Mathlib.Data.List.Basic

/-!
# What a run draws

The calls that a run makes to its sampler are those of its dice, one after another: a roll of dice asks
for one number to each die, with its number of sides as the bound, and no other operation asks for
anything. A computation `Asks` for some bounds when these are what it asks for as long as nothing fails;
where something does, the calls are the first ones of them. Computations in a row ask for the bounds of
the one and then of the other (`Uniform.asks_bind`), so a run asks for those of its dice in their order
(`Program.run_asks`). A roll asks for no more numbers than the limit on dice, which bounds the calls of
the run (`Program.calls_budget`).
-/

namespace DiceNotation

open Sampler

variable {σ α β : Type}

/-! ## Calls of computations -/

namespace Rolling

/-- The bounds that a computation asks a sampler for from a state on. -/
def bounds (x : ∀ σ : Type, Sampler σ → Rolling σ α) (S : Sampler σ) (s : σ) : List Int :=
  (calls x S s).map Call.bound

variable {x : ∀ σ : Type, Sampler σ → Rolling σ α} {f : ∀ σ : Type, Sampler σ → α → Rolling σ β}
  {S : Sampler σ} {s : σ} {bs cs : List Int}

/-- A computation that goes on from another one makes the calls of that one first, and then its own if
that one did not fail. -/
theorem Uniform.calls_bind (hx : Uniform x) (hf : ∀ a, Uniform fun σ S => f σ S a) (S : Sampler σ)
    (s : σ) :
    calls (fun σ S => x σ S >>= f σ S) S s =
      calls x S s ++
        match (x σ S).runFrom s with
        | (.ok a, s') => calls (fun σ S => f σ S a) S s'
        | (.error _, _) => [] := by
  obtain ⟨q, hq⟩ := hx
  rw [calls, runFrom_bind, hq, hq, q.run_recorded, calls_eq_of_run hq]
  rcases q.run S s with ⟨e | a, s'⟩
  · simp
  · obtain ⟨r, hr⟩ := hf a
    dsimp only
    rw [hr, r.run_recorded, calls_eq_of_run hr]
    simp

/-- From a state on, the bounds that a computation asks for are the first ones of some bounds, and all of
these when it does not fail. -/
structure Asks (x : ∀ σ : Type, Sampler σ → Rolling σ α) (S : Sampler σ) (s : σ) (bs : List Int) :
    Prop where
  /-- The bounds that are asked for are the first ones of them. -/
  isPrefix : bounds x S s <+: bs
  /-- Without a failure all of them are asked for. -/
  eq_of_ok : ∀ {a s'}, (x σ S).runFrom s = (.ok a, s') → bounds x S s = bs

/-- A computation asks for the bounds of an inquiry behind it. -/
theorem asks_of_run {q : Inquiry α}
    (h : ∀ (σ : Type) (S : Sampler σ) (s : σ), (x σ S).runFrom s = q.run S s)
    (hbegin : (q.calls S s).map Call.bound <+: bs)
    (heq : ∀ a s', q.run S s = (.ok a, s') → (q.calls S s).map Call.bound = bs) : Asks x S s bs := by
  refine ⟨?_, fun {a s'} hok => ?_⟩
  · rw [bounds, calls_eq_of_run h]
    exact hbegin
  · rw [bounds, calls_eq_of_run h]
    exact heq a s' ((h σ S s).symm.trans hok)

/-- A computation with a value at hand asks for nothing. -/
theorem asks_pure (a : α) (S : Sampler σ) (s : σ) : Asks (fun _ _ => pure a) S s [] :=
  ⟨List.prefix_refl [], fun _ => rfl⟩

/-- A failure asks for nothing, whatever would have been asked for. -/
theorem asks_throw (e : Failure) (S : Sampler σ) (s : σ) (bs : List Int) :
    Asks (fun _ _ => (throw e : Rolling _ α)) S s bs :=
  ⟨List.nil_prefix, fun h => by cases h⟩

/-- Computations in a row ask for the bounds of the first one and then for those of the other. -/
theorem Uniform.asks_bind (hx : Uniform x) (hf : ∀ a, Uniform fun σ S => f σ S a) (h : Asks x S s bs)
    (hcs : ∀ a s', (x σ S).runFrom s = (.ok a, s') → Asks (fun σ S => f σ S a) S s' cs) :
    Asks (fun σ S => x σ S >>= f σ S) S s (bs ++ cs) := by
  have hcalls := hx.calls_bind hf S s
  rcases hrun : (x σ S).runFrom s with ⟨e | a, s'⟩
  · -- The first one fails, and nothing is asked for behind it.
    rw [hrun] at hcalls
    have hbounds : bounds (fun σ S => x σ S >>= f σ S) S s = bounds x S s := by
      rw [bounds, hcalls, List.append_nil, bounds]
    refine ⟨?_, fun hok => ?_⟩
    · rw [hbounds]
      exact h.isPrefix.trans (List.prefix_append bs cs)
    · rw [runFrom_bind, hrun] at hok
      cases hok
  · -- The first one has asked for all its bounds, so what the other one asks for comes behind these.
    rw [hrun] at hcalls
    have hrest := hcs a s' hrun
    have hbounds : bounds (fun σ S => x σ S >>= f σ S) S s =
        bs ++ bounds (fun σ S => f σ S a) S s' := by
      rw [bounds, hcalls, List.map_append, ← bounds, h.eq_of_ok hrun, ← bounds]
    refine ⟨?_, fun hok => ?_⟩
    · rw [hbounds]
      exact (List.prefix_append_right_inj bs).2 hrest.isPrefix
    · rw [runFrom_bind, hrun] at hok
      rw [hbounds, hrest.eq_of_ok hok]

end Rolling

open Rolling

/-! ## Rolls of dice -/

/-- The operands of a roll of dice. -/
structure Throw where
  /-- The number of dice. -/
  times : Int
  /-- The number of their sides. -/
  sides : Int

/-- The bounds that a roll of dice asks for: one to each die, and none where there are no dice or no
sides. -/
def Throw.bounds (t : Throw) : List Int :=
  if 0 < t.times ∧ 0 < t.sides then List.replicate t.times.toNat t.sides else []

/-- The bounds that a roll asks for under a limit on dice. -/
def Throw.boundsUnder (limit : Int) (t : Throw) : List Int :=
  if t.times ≤ limit then t.bounds else []

/-- A roll asks for no more bounds than the limit. -/
theorem Throw.length_boundsUnder_le (limit : Int) (t : Throw) :
    (t.boundsUnder limit).length ≤ limit.toNat := by
  unfold boundsUnder bounds
  split_ifs with hlimit hpos
  · rw [List.length_replicate]
    omega
  · exact Nat.zero_le _
  · exact Nat.zero_le _

/-- A roll asks for its number of sides, which is positive then. -/
theorem Throw.of_mem_boundsUnder {limit n : Int} {t : Throw} (h : n ∈ t.boundsUnder limit) :
    n = t.sides ∧ 0 < n := by
  unfold boundsUnder bounds at h
  split_ifs at h with hlimit hpos
  · obtain rfl := List.eq_of_mem_replicate h
    exact ⟨rfl, hpos.2⟩
  · cases h
  · cases h

/-- The inquiry of some faces asks for the sides of each die. -/
theorem Inquiry.bounds_addFaces (S : Sampler σ) (sides : Int) (n : Nat) (total : Int) (s : σ) :
    ((Inquiry.addFaces sides n total).calls S s).map Call.bound <+: List.replicate n sides ∧
      ∀ v s', (Inquiry.addFaces sides n total).run S s = (.ok v, s') →
        ((Inquiry.addFaces sides n total).calls S s).map Call.bound = List.replicate n sides := by
  induction n generalizing total s with
  | zero => exact ⟨List.prefix_refl [], fun _ _ _ => rfl⟩
  | succ n ih =>
    have hfirst : [sides] <+: List.replicate (n + 1) sides :=
      List.cons_prefix_cons.2 ⟨rfl, List.nil_prefix⟩
    rw [Inquiry.addFaces]
    rcases hS : S.sample sides s with ⟨e | v, s'⟩
    · -- The first call is refused, and is the last one.
      rw [calls_of_error hS, run_of_error hS]
      exact ⟨hfirst, fun _ _ h => by cases h⟩
    · rw [calls_of_ok hS, run_of_ok hS, List.map_cons]
      cases checked (total + 1 + v) with
      | error e => exact ⟨hfirst, fun _ _ h => by cases h⟩
      | ok total' =>
        obtain ⟨hbegin, heq⟩ := ih total' s'
        exact ⟨List.cons_prefix_cons.2 ⟨rfl, hbegin⟩, fun w t h => congrArg _ (heq w t h)⟩

/-- Dice ask for their bounds under the limit. -/
theorem rollDice_asks (times sides limit : Int) (S : Sampler σ) (s : σ) :
    Asks (fun _ S => rollDice S times sides limit) S s (Throw.boundsUnder limit ⟨times, sides⟩) := by
  unfold rollDice
  split_ifs with htimes hsides hlimit hnone
  · exact asks_throw _ S s _
  · exact asks_throw _ S s _
  · exact asks_throw _ S s _
  · -- Nothing is rolled: there are no dice, or they have no sides.
    have hpos : ¬ (0 < times ∧ 0 < sides) := by omega
    have hbounds : Throw.boundsUnder limit ⟨times, sides⟩ = [] := by
      rw [Throw.boundsUnder, Throw.bounds, if_neg hpos, ite_self]
    rw [hbounds]
    exact asks_pure 0 S s
  · have hle : times ≤ limit := Int.not_lt.1 hlimit
    have hpos : 0 < times ∧ 0 < sides := by omega
    have hbounds : Throw.boundsUnder limit ⟨times, sides⟩ = List.replicate times.toNat sides := by
      rw [Throw.boundsUnder, Throw.bounds, if_pos hle, if_pos hpos]
    obtain ⟨hbegin, heq⟩ := Inquiry.bounds_addFaces S sides times.toNat 0 s
    rw [hbounds]
    exact asks_of_run (fun _ T t => addFaces_eq_run T sides times.toNat 0 t) hbegin heq

/-! ## Operations and runs -/

/-- The roll of dice at a point of a run, if there is one. -/
def Point.throw? (pt : Point σ) : Option Throw :=
  match pt.op, pt.stack with
  | .dice, sides :: times :: _ => some ⟨times, sides⟩
  | _, _ => none

/-- The bounds that the operation at a point asks for under a limit on dice. -/
def Point.boundsUnder (limit : Int) (pt : Point σ) : List Int :=
  pt.throw?.toList.flatMap (Throw.boundsUnder limit)

/-- Only a point of dice has a roll. -/
theorem Point.op_of_throw? {pt : Point σ} {t : Throw} (h : pt.throw? = some t) : pt.op = .dice := by
  unfold throw? at h
  split at h
  · next hop _ => exact hop
  · cases h

/-- Only a point with a throw is one of dice. -/
theorem Point.op_beq_of_isSome {pt : Point σ} (h : pt.throw?.isSome = true) :
    (pt.op == .dice) = true := by
  obtain ⟨t, ht⟩ := Option.isSome_iff_exists.1 h
  exact beq_iff_eq.2 (op_of_throw? ht)

/-- The sides of a roll are a value of the stack. -/
theorem Point.sides_mem_of_throw? {pt : Point σ} {t : Throw} (h : pt.throw? = some t) :
    t.sides ∈ pt.stack := by
  unfold throw? at h
  split at h
  · next hstack =>
    cases h
    rw [hstack]
    exact List.mem_cons_self
  · cases h

/-- Arithmetic asks for nothing. -/
theorem lift_asks (r : Except RollError Int) (S : Sampler σ) (s : σ) : Asks (fun _ _ => lift r) S s [] := by
  cases r with
  | ok v => exact asks_pure v S s
  | error e => exact asks_throw _ S s []

/-- Putting a value on a stack asks for nothing. -/
theorem push_asks (size v : Int) (stack : List Int) (S : Sampler σ) (s : σ) :
    Asks (fun _ _ => push size v stack) S s [] := by
  unfold push
  split
  · exact asks_pure _ S s
  · exact asks_throw _ S s []

/-- An operation computes its value by asking for the bounds of its roll, if it is one. -/
theorem Op.value_asks (limit : Int) {op : Op} {stack : List Int} (h : op.pops ≤ stack.length)
    (S : Sampler σ) (s : σ) :
    Asks (fun _ S => op.value S limit stack) S s (Point.boundsUnder limit ⟨op, stack, s⟩) := by
  cases op with
  | num v => exact asks_pure v S s
  | arith op =>
    match stack, h with
    | r :: l :: stack, _ => exact lift_asks _ S s
  | neg =>
    match stack, h with
    | v :: stack, _ => exact lift_asks _ S s
  | dice =>
    match stack, h with
    | sides :: times :: stack, _ =>
      have hroll : Point.boundsUnder limit ⟨.dice, sides :: times :: stack, s⟩ =
          Throw.boundsUnder limit ⟨times, sides⟩ := List.append_nil _
      rw [hroll]
      exact rollDice_asks times sides limit S s

/-- An operation asks for the bounds of its roll, if it is one. -/
theorem Op.execute_asks (size limit : Int) (op : Op) (stack : List Int) (S : Sampler σ) (s : σ) :
    Asks (fun _ S => op.execute S size limit stack) S s
      (Point.boundsUnder limit ⟨op, stack, s⟩) := by
  rcases Nat.lt_or_ge stack.length op.pops with hpops | hpops
  · simp only [op.execute_of_lt _ size limit hpops]
    exact asks_throw _ S s _
  · simp only [op.execute_eq _ size limit hpops]
    rw [← List.append_nil (Point.boundsUnder limit ⟨op, stack, s⟩)]
    exact (op.value_uniform limit hpops).asks_bind (fun v => push_uniform size v _)
      (op.value_asks limit hpops S s) fun v s' _ => push_asks size v _ S s'

/-- Operations in a row ask for the bounds of their points. -/
theorem executeAll_asks (size limit : Int) (ops : List Op) (stack : List Int) (S : Sampler σ) (s : σ) :
    Asks (fun _ S => executeAll S size limit ops stack) S s
      ((points S size limit ops stack s).flatMap (Point.boundsUnder limit)) := by
  induction ops generalizing stack s with
  | nil => exact asks_pure stack S s
  | cons op ops ih =>
    have hop := op.execute_asks size limit stack S s
    have hbind : ∀ bs, (∀ stack' s', (op.execute S size limit stack).runFrom s = (.ok stack', s') →
        Asks (fun _ S => executeAll S size limit ops stack') S s' bs) →
        Asks (fun _ S => executeAll S size limit (op :: ops) stack) S s
          (Point.boundsUnder limit ⟨op, stack, s⟩ ++ bs) :=
      fun _ => (op.execute_uniform size limit stack).asks_bind
        (fun stack' => executeAll_uniform size limit ops stack') hop
    rcases h : (op.execute S size limit stack).runFrom s with ⟨e | stack', s'⟩
    · -- Behind a failure there are no points, and no bounds are left to ask for.
      rw [points_of_error S size limit h, List.flatMap_cons]
      exact hbind [] fun stack' s' hok => by rw [h] at hok; cases hok
    · rw [points_of_ok S size limit h, List.flatMap_cons]
      refine hbind _ fun stack₁ s₁ hok => ?_
      rw [h] at hok
      cases hok
      exact ih stack' s'

/-- Taking the result off the stack asks for nothing. -/
theorem Program.compute_asks (p : Program) (limit : Int) (S : Sampler σ) (s : σ) :
    Asks (fun _ S => p.compute S limit) S s
      ((DiceNotation.points S p.stackSize limit p.ops [] s).flatMap (Point.boundsUnder limit)) := by
  rw [← List.append_nil ((DiceNotation.points S p.stackSize limit p.ops [] s).flatMap _)]
  refine (executeAll_uniform p.stackSize limit p.ops []).asks_bind (fun stack => ?_)
    (executeAll_asks p.stackSize limit p.ops [] S s) fun stack s' _ => ?_
  · cases stack with
    | nil => exact uniform_throw _
    | cons v stack => exact uniform_pure v
  · cases stack with
    | nil => exact asks_throw _ S s' []
    | cons v stack => exact asks_pure v S s'

/-- A run asks for the bounds of its points. Where there is no stack, there are none. -/
theorem Program.run_asks (p : Program) (limit : Int) (S : Sampler σ) (s : σ) :
    Asks (fun _ S => p.run S limit) S s
      ((p.points S limit s).flatMap (Point.boundsUnder limit)) := by
  unfold run points
  cases allocationError? p.stackSize with
  | some e => exact asks_throw _ S s []
  | none => exact p.compute_asks limit S s

/-! ## The budget of a run -/

/-- The rolls of dice that a run comes to, in their order. -/
def Program.throws (p : Program) (S : Sampler σ) (limit : Int) (s : σ) : List Throw :=
  (p.points S limit s).filterMap Point.throw?

/-- The points of a run ask for the bounds of its rolls. -/
theorem Program.flatMap_points (p : Program) (S : Sampler σ) (limit : Int) (s : σ) :
    (p.points S limit s).flatMap (Point.boundsUnder limit) =
      (p.throws S limit s).flatMap (Throw.boundsUnder limit) := by
  rw [throws, List.filterMap_eq_flatMap_toList, List.flatMap_assoc]
  rfl

/-- Rolls are counted at their points. -/
theorem Program.length_throws (p : Program) (S : Sampler σ) (limit : Int) (s : σ) :
    (p.throws S limit s).length = (p.points S limit s).countP fun pt => pt.throw?.isSome :=
  List.length_filterMap_eq_countP

/-- Operations of dice are counted at their points. -/
theorem count_map_op (pts : List (Point σ)) :
    (pts.map Point.op).count .dice = pts.countP fun pt => pt.op == .dice := by
  rw [List.count, List.countP_map]
  rfl

/-- A run comes to no more rolls than its program has. -/
theorem Program.length_throws_le (p : Program) (S : Sampler σ) (limit : Int) (s : σ) :
    (p.throws S limit s).length ≤ p.ops.count .dice := by
  have hpoints : (p.points S limit s).map Point.op <+: p.ops :=
    ((p.isPrefix_points S limit s).map Point.op).trans
      (isPrefix_map_op_points S p.stackSize limit p.ops [] s)
  calc (p.throws S limit s).length
      = (p.points S limit s).countP fun pt => pt.throw?.isSome := p.length_throws S limit s
    _ ≤ (p.points S limit s).countP fun pt => pt.op == .dice :=
        List.countP_mono_left fun pt _ => Point.op_beq_of_isSome
    _ = ((p.points S limit s).map Point.op).count .dice := (count_map_op _).symm
    _ ≤ p.ops.count .dice := hpoints.sublist.count_le _

/-- Some rolls ask for no more bounds than the limit allows each of them. -/
theorem length_flatMap_boundsUnder_le (limit : Int) (ts : List Throw) :
    (ts.flatMap (Throw.boundsUnder limit)).length ≤ ts.length * limit.toNat := by
  induction ts with
  | nil => exact Nat.zero_le _
  | cons t ts ih =>
    have hfirst := t.length_boundsUnder_le limit
    rw [List.flatMap_cons, List.length_append, List.length_cons, Nat.succ_mul]
    omega

/-- Some rolls ask for one bound to each die that has sides. -/
theorem length_flatMap_bounds (ts : List Throw) :
    ((ts.flatMap Throw.bounds).length : Int) =
      (ts.map fun t => if 0 < t.times ∧ 0 < t.sides then t.times else 0).sum := by
  induction ts with
  | nil => rfl
  | cons t ts ih =>
    have hfirst : (t.bounds.length : Int) = if 0 < t.times ∧ 0 < t.sides then t.times else 0 := by
      unfold Throw.bounds
      split_ifs with hpos
      · rw [List.length_replicate]
        omega
      · rfl
    rw [List.flatMap_cons, List.length_append, Int.natCast_add, ih, hfirst, List.map_cons,
      List.sum_cons]

/-- Dice that are rolled have passed the checks. -/
theorem le_of_runFrom_rollDice {S : Sampler σ} {times sides limit v : Int} {s s' : σ}
    (h : (rollDice S times sides limit).runFrom s = (.ok v, s')) :
    0 ≤ times ∧ times ≤ limit ∧ 0 ≤ sides := by
  unfold rollDice at h
  split_ifs at h with htimes hsides hlimit hnone
  · cases h
  · cases h
  · cases h
  · omega
  · omega

/-- A point of dice that do not fail has a roll that has passed the checks. -/
theorem Point.exists_throw {S : Sampler σ} {size limit : Int} {pt : Point σ} (hop : pt.op = .dice)
    {left : List Int} {state : σ}
    (h : (pt.op.execute S size limit pt.stack).runFrom pt.state = (.ok left, state)) :
    ∃ t, pt.throw? = some t ∧ 0 ≤ t.times ∧ t.times ≤ limit ∧ 0 ≤ t.sides := by
  obtain ⟨op, stack, s⟩ := pt
  obtain rfl : op = .dice := hop
  rcases Nat.lt_or_ge stack.length Op.dice.pops with hpops | hpops
  · rw [Op.execute_of_lt S size limit hpops] at h
    cases h
  · match stack, hpops with
    | sides :: times :: below, _ =>
      refine ⟨⟨times, sides⟩, rfl, ?_⟩
      dsimp only at h
      rw [Op.execute, runFrom_bind] at h
      rcases hroll : (rollDice S times sides limit).runFrom s with ⟨e | v, s'⟩
      · rw [hroll] at h
        cases h
      · exact le_of_runFrom_rollDice hroll

/-- A run that does not fail has a stack, and its operations do not fail. -/
theorem Program.exists_executeAll_of_run_eq_ok {p : Program} {S : Sampler σ} {limit : Int} {s s' : σ}
    {v : Int} (h : (p.run S limit).runFrom s = (.ok v, s')) :
    ∃ stack s₁, allocationError? p.stackSize = none ∧
      (executeAll S p.stackSize limit p.ops []).runFrom s = (.ok stack, s₁) := by
  cases hsize : allocationError? p.stackSize with
  | some e =>
    rw [p.run_of_allocationError S hsize] at h
    cases h
  | none =>
    rw [p.run_of_allocated S hsize, compute, runFrom_bind] at h
    rcases hall : (executeAll S p.stackSize limit p.ops []).runFrom s with ⟨e | stack, s₁⟩
    · rw [hall] at h
      cases h
    · exact ⟨stack, s₁, rfl, rfl⟩

/-- A run that does not fail comes to all the rolls of its program, and each of them has passed the
checks. -/
theorem Program.throws_of_ok {p : Program} {S : Sampler σ} {limit : Int} {s s' : σ} {v : Int}
    (h : (p.run S limit).runFrom s = (.ok v, s')) :
    (p.throws S limit s).length = p.ops.count .dice ∧
      ∀ t ∈ p.throws S limit s, 0 ≤ t.times ∧ t.times ≤ limit ∧ 0 ≤ t.sides := by
  obtain ⟨stack, s₁, hsize, hall⟩ := exists_executeAll_of_run_eq_ok h
  obtain ⟨hops, hpoints⟩ := map_op_points S p.stackSize limit hall
  rw [← p.points_of_allocated hsize] at hops hpoints
  have hthrow : ∀ pt ∈ p.points S limit s, pt.op = .dice →
      ∃ t, pt.throw? = some t ∧ 0 ≤ t.times ∧ t.times ≤ limit ∧ 0 ≤ t.sides := by
    intro pt hpt hop
    obtain ⟨left, state, hok⟩ := hpoints pt hpt
    exact Point.exists_throw hop hok
  constructor
  · -- Dice that do not fail have found their two operands, so every point of dice has a roll.
    calc (p.throws S limit s).length
        = (p.points S limit s).countP fun pt => pt.throw?.isSome := p.length_throws S limit s
      _ = (p.points S limit s).countP fun pt => pt.op == .dice := by
          refine List.countP_congr fun pt hpt => ⟨Point.op_beq_of_isSome, fun hop => ?_⟩
          obtain ⟨t, ht, -⟩ := hthrow pt hpt (beq_iff_eq.1 hop)
          exact Option.isSome_iff_exists.2 ⟨t, ht⟩
      _ = ((p.points S limit s).map Point.op).count .dice := (count_map_op _).symm
      _ = p.ops.count .dice := congrArg _ hops
  · intro t ht
    obtain ⟨pt, hpt, hsome⟩ := List.mem_filterMap.1 ht
    obtain ⟨t', ht', hchecks⟩ := hthrow pt hpt (Point.op_of_throw? hsome)
    obtain rfl : t' = t := Option.some.inj (ht'.symm.trans hsome)
    exact hchecks

/-- A run asks for the bounds of its rolls under the limit. -/
theorem Program.run_asks_throws (p : Program) (limit : Int) (S : Sampler σ) (s : σ) :
    Asks (fun _ S => p.run S limit) S s ((p.throws S limit s).flatMap (Throw.boundsUnder limit)) := by
  rw [← p.flatMap_points]
  exact p.run_asks limit S s

/-- A run makes no more calls than the limit allows for each operation of dice. -/
theorem Program.length_calls_le (p : Program) (S : Sampler σ) (limit : Int) (s : σ) :
    (p.calls S limit s).length ≤ p.ops.count .dice * limit.toNat := by
  calc (p.calls S limit s).length
      = ((p.calls S limit s).map Call.bound).length := (List.length_map _).symm
    _ ≤ ((p.throws S limit s).flatMap (Throw.boundsUnder limit)).length :=
        (p.run_asks_throws limit S s).isPrefix.length_le
    _ ≤ (p.throws S limit s).length * limit.toNat := length_flatMap_boundsUnder_le limit _
    _ ≤ p.ops.count .dice * limit.toNat := Nat.mul_le_mul_right _ (p.length_throws_le S limit s)

/-- A run that does not fail has asked for the bounds of all its rolls: each of them has passed the limit,
which takes no bounds away then. -/
theorem Program.map_bound_calls {p : Program} {S : Sampler σ} {limit : Int} {s s' : σ} {v : Int}
    (h : (p.run S limit).runFrom s = (.ok v, s')) :
    (p.calls S limit s).map Call.bound = (p.throws S limit s).flatMap Throw.bounds := by
  obtain ⟨-, hchecks⟩ := throws_of_ok h
  calc (p.calls S limit s).map Call.bound
      = (p.throws S limit s).flatMap (Throw.boundsUnder limit) := (p.run_asks_throws limit S s).eq_of_ok h
    _ = (p.throws S limit s).flatMap Throw.bounds :=
        List.flatMap_congr fun t ht => if_pos (hchecks t ht).2.1

/-- A run makes no more calls to its sampler than the limit on dice allows for each operation of dice in
the program, whether it has a value or fails. If it has a value, it has rolled all the dice of the program,
with operands that are not negative and no more dice than the limit; it has made as many calls as these
are dice, not counting those of rolls without dice or sides, and the calls of each roll have its number of
sides as their bound. -/
theorem Program.calls_budget (p : Program) (S : Sampler σ) (limit : Int) (s : σ) :
    ((p.calls S limit s).length : Int) ≤ p.ops.count .dice * max limit 0 ∧
    ∀ v s', (p.run S limit).runFrom s = (.ok v, s') →
      (p.throws S limit s).length = p.ops.count .dice ∧
      (∀ t ∈ p.throws S limit s, 0 ≤ t.times ∧ t.times ≤ limit ∧ 0 ≤ t.sides) ∧
      ((p.calls S limit s).length : Int) =
        ((p.throws S limit s).map fun t => if 0 < t.times ∧ 0 < t.sides then t.times else 0).sum ∧
      (p.calls S limit s).map Call.bound = (p.throws S limit s).flatMap fun t =>
        if 0 < t.times ∧ 0 < t.sides then List.replicate t.times.toNat t.sides else [] := by
  constructor
  · rw [← Int.ofNat_toNat, ← Int.natCast_mul]
    exact Int.ofNat_le.2 (p.length_calls_le S limit s)
  · intro v s' hok
    obtain ⟨hcount, hchecks⟩ := throws_of_ok hok
    have hbounds := map_bound_calls hok
    refine ⟨hcount, hchecks, ?_, hbounds⟩
    rw [← List.length_map Call.bound, hbounds, length_flatMap_bounds]

/-- One die that shows a 3 gives the number of the dice that follow it, so `(1d6)d8` takes four calls, of
the twenty that two rolls may take with the limit 10. -/
theorem Program.calls_budget_nested :
    ((⟨[.num 1, .num 6, .dice, .num 8, .dice], 2⟩ : Program).run Fixed.sampler 10).runFrom (some 2) =
        (.ok 9, some 2) ∧
      ((⟨[.num 1, .num 6, .dice, .num 8, .dice], 2⟩ : Program).calls Fixed.sampler 10 (some 2)).map
        Call.bound = [6, 8, 8, 8] ∧
      (((⟨[.num 1, .num 6, .dice, .num 8, .dice], 2⟩ : Program).calls Fixed.sampler 10
        (some 2)).length : Int) ≤ 20 := by
  have hrun : ((⟨[.num 1, .num 6, .dice, .num 8, .dice], 2⟩ : Program).run Fixed.sampler
      10).runFrom (some 2) = (.ok 9, some 2) := rfl
  obtain ⟨hbudget, hexact⟩ :=
    Program.calls_budget ⟨[.num 1, .num 6, .dice, .num 8, .dice], 2⟩ Fixed.sampler 10 (some 2)
  obtain ⟨-, -, -, hbounds⟩ := hexact 9 (some 2) hrun
  exact ⟨hrun, hbounds, hbudget⟩

end DiceNotation
