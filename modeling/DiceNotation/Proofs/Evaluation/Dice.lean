import DiceNotation.Proofs.Evaluation.Following
import DiceNotation.Random.Generator
import Mathlib.Algebra.Ring.Int.Defs
import Mathlib.Data.Nat.Find

/-!
# Rolls of dice

What a roll of dice comes to with a sampler that is fair in its answers. The operands are checked first,
in a fixed order and without a question to the sampler. Then faces are added up, and a sum that leaves the
range is noticed at the face that makes it do so. Since every face adds at least one, sums only grow
(`addFaces_of_lt`), so a roll overflows exactly when the sum of all its faces is too great, and it stops
at the first beginning of them with a sum that is too great (`rollDice_outcome`).

The faces are those that a sampler shows when it is asked for one number after another
(`Sampler.faces`). A sampler with its calls noted shows the same ones, so the calls of a roll are
counted with its outcome.
-/

namespace DiceNotation

variable {σ : Type} {S : Sampler σ} {n sides : Int}

/-! ## Numbers in a row -/

namespace Sampler

/-- The numbers below `n` that a sampler answers to `k` calls in a row. A call that is refused is the last
one. -/
def answers (S : Sampler σ) (n : Int) : Nat → σ → List Int
  | 0, _ => []
  | k + 1, s =>
    match S.sample n s with
    | (.error _, _) => []
    | (.ok v, s) => v :: S.answers n k s

/-- The state behind `k` calls in a row with the bound `n`. -/
def after (S : Sampler σ) (n : Int) : Nat → σ → σ
  | 0, s => s
  | k + 1, s => S.after n k (S.sample n s).2

/-- The faces of `k` dice with `sides` sides, which are counted from one. -/
def faces (S : Sampler σ) (sides : Int) (k : Nat) (s : σ) : List Int :=
  (S.answers sides k s).map (1 + ·)

/-- The calls for `k` dice with `sides` sides, each with the number that it is answered with. -/
def faceCalls (S : Sampler σ) (sides : Int) (k : Nat) (s : σ) : List Call :=
  (S.answers sides k s).map fun v => ⟨sides, .ok v⟩

/-- A sampler answers every call with the bound `n` by a number below it. -/
def Serves (S : Sampler σ) (n : Int) : Prop :=
  ∀ s, ∃ v s', S.sample n s = (.ok v, s') ∧ 0 ≤ v ∧ v < n

/-- A fair sampler serves every bound of 64-bit words. -/
theorem Fair.serves (hS : S.Fair) (hn : IsBound n) : S.Serves n := by
  intro s
  obtain ⟨v, hv, hrange⟩ := hS.answer n s hn
  exact ⟨v, (S.sample n s).2, Prod.ext hv rfl, hrange⟩

/-- A sampler that serves a bound serves it with its calls noted as well. -/
theorem Serves.recorded (h : S.Serves n) : S.recorded.Serves n := by
  rintro ⟨s, calls⟩
  obtain ⟨v, s', hv, hrange⟩ := h s
  refine ⟨v, (s', ⟨n, .ok v⟩ :: calls), ?_, hrange⟩
  show ((S.sample n s).1, (S.sample n s).2, ⟨n, (S.sample n s).1⟩ :: calls) = _
  rw [hv]

section

variable {v : Int} {s s' : σ}

/-- The face of a call that is answered comes first, and the others are shown from the state behind it. -/
theorem faces_succ (h : S.sample sides s = (.ok v, s')) (k : Nat) :
    S.faces sides (k + 1) s = (1 + v) :: S.faces sides k s' := by
  rw [faces, answers, h]
  rfl

/-- The state behind a call and `k` more is that behind `k` calls from where the first one has come to. -/
theorem after_succ (h : S.sample n s = (.ok v, s')) (k : Nat) :
    S.after n (k + 1) s = S.after n k s' := by
  rw [after, h]

end

/-- There are as many faces as dice. -/
theorem Serves.length_answers (h : S.Serves n) (k : Nat) (s : σ) : (S.answers n k s).length = k := by
  induction k generalizing s with
  | zero => rfl
  | succ k ih =>
    obtain ⟨v, s', hv, -⟩ := h s
    rw [answers, hv]
    show (S.answers n k s').length + 1 = k + 1
    rw [ih]

/-- The sum of faces is at least the number of dice, and at most what it is with the greatest faces. -/
theorem Serves.sum_faces (h : S.Serves sides) (k : Nat) (s : σ) :
    (k : Int) ≤ (S.faces sides k s).sum ∧ (S.faces sides k s).sum ≤ k * sides := by
  induction k generalizing s with
  | zero =>
    rw [faces, answers]
    simp
  | succ k ih =>
    obtain ⟨v, s', hv, hnonneg, hlt⟩ := h s
    obtain ⟨hleast, hmost⟩ := ih s'
    rw [faces_succ hv, List.sum_cons, Int.natCast_succ, Int.add_mul, Int.one_mul]
    omega

/-- A sampler with its calls noted answers as without. -/
theorem answers_recorded (S : Sampler σ) (n : Int) (k : Nat) (s : σ) (noted : List Call) :
    S.recorded.answers n k (s, noted) = S.answers n k s := by
  induction k generalizing s noted with
  | zero => rfl
  | succ k ih =>
    rw [answers, answers, show S.recorded.sample n (s, noted) =
      ((S.sample n s).1, (S.sample n s).2, ⟨n, (S.sample n s).1⟩ :: noted) from rfl]
    rcases S.sample n s with ⟨e | v, s'⟩
    · rfl
    · show v :: S.recorded.answers n k (s', _) = v :: S.answers n k s'
      rw [ih]

/-- A sampler with its calls noted shows the same faces as without. -/
theorem faces_recorded (S : Sampler σ) (sides : Int) (k : Nat) (s : σ) (noted : List Call) :
    S.recorded.faces sides k (s, noted) = S.faces sides k s := by
  rw [faces, faces, answers_recorded]

/-- Behind calls for dice, a sampler with its calls noted has noted these, the latest first. -/
theorem Serves.after_recorded (h : S.Serves sides) (k : Nat) (s : σ) (noted : List Call) :
    S.recorded.after sides k (s, noted) =
      (S.after sides k s, (S.faceCalls sides k s).reverse ++ noted) := by
  induction k generalizing s noted with
  | zero => rfl
  | succ k ih =>
    obtain ⟨v, s', hv, -⟩ := h s
    have hrecorded : S.recorded.sample sides (s, noted) = (.ok v, s', ⟨sides, .ok v⟩ :: noted) := by
      show ((S.sample sides s).1, (S.sample sides s).2, ⟨sides, (S.sample sides s).1⟩ :: noted) = _
      rw [hv]
    have hcalls : S.faceCalls sides (k + 1) s = ⟨sides, .ok v⟩ :: S.faceCalls sides k s' := by
      rw [faceCalls, answers, hv]
      rfl
    rw [after_succ hrecorded, after_succ hv, ih, hcalls, List.reverse_cons, List.append_assoc,
      List.singleton_append]

end Sampler

open Sampler

/-! ## Sums of faces -/

/-- Faces whose sum does not get too great are all added up. -/
theorem addFaces_of_le (h : S.Serves sides) {k : Nat} {total : Int} {s : σ} (h0 : 0 ≤ total)
    (hsum : total + (S.faces sides k s).sum ≤ maxValue) :
    addFaces S sides k total s = (.ok (total + (S.faces sides k s).sum), S.after sides k s) := by
  induction k generalizing total s with
  | zero =>
    rw [addFaces, faces, answers, after]
    simp
  | succ k ih =>
    obtain ⟨v, s', hv, hnonneg, -⟩ := h s
    rw [faces_succ hv, List.sum_cons] at hsum ⊢
    -- The faces behind the first one add nothing negative, so the sum fits already there.
    have hrest : (0 : Int) ≤ (S.faces sides k s').sum := by
      have hleast := (h.sum_faces k s').1
      omega
    have hfits : InRange (total + 1 + v) := inRange_of_nonneg (by omega) (by omega)
    have hassoc : total + ((1 + v) + (S.faces sides k s').sum) =
        total + 1 + v + (S.faces sides k s').sum := by omega
    rw [hassoc] at hsum ⊢
    rw [addFaces, hv, after_succ hv]
    dsimp only
    rw [checked, if_pos hfits]
    exact ih (by omega) hsum

/-- Faces are added up to the first one with which their sum is too great, and no more are asked for. -/
theorem addFaces_of_lt (h : S.Serves sides) {j k : Nat} (hj : j ≤ k) {total : Int} {s : σ}
    (h0 : 0 ≤ total) (hbefore : ∀ i < j, total + (S.faces sides i s).sum ≤ maxValue)
    (hsum : maxValue < total + (S.faces sides j s).sum) (htotal : total ≤ maxValue) :
    addFaces S sides k total s = (.error (.roll .overflow), S.after sides j s) := by
  induction j generalizing k total s with
  | zero =>
    -- Without a face the sum is the total, which is not too great.
    rw [faces, answers, List.map_nil, List.sum_nil, Int.add_zero] at hsum
    omega
  | succ j ih =>
    obtain ⟨k, rfl⟩ : ∃ k', k = k' + 1 := ⟨k - 1, by omega⟩
    obtain ⟨v, s', hv, hnonneg, -⟩ := h s
    rw [addFaces, hv, after_succ hv]
    dsimp only
    have hassoc : ∀ i, total + (S.faces sides (i + 1) s).sum =
        total + 1 + v + (S.faces sides i s').sum := by
      intro i
      rw [faces_succ hv, List.sum_cons]
      omega
    rw [hassoc] at hsum
    by_cases hfits : total + 1 + v ≤ maxValue
    · rw [checked, if_pos (inRange_of_nonneg (by omega) hfits)]
      refine ih (Nat.le_of_succ_le_succ hj) (by omega) (fun i hi => ?_) hsum hfits
      rw [← hassoc]
      exact hbefore (i + 1) (Nat.succ_lt_succ hi)
    · -- The first face is too much, so it is the last one that is asked for.
      obtain rfl : j = 0 := by
        by_contra hpos
        have hone := hbefore 1 (by omega)
        rw [hassoc, faces, answers, List.map_nil, List.sum_nil] at hone
        omega
      rw [checked, if_neg (fun hrange => hfits hrange.2)]
      rfl

/-- The fixed sampler is fair in its answers. -/
theorem Fixed.sampler_fair : Fixed.sampler.Fair where
  answer n v h := by
    refine ⟨Fixed.answer v n.toNat, ?_, Int.natCast_nonneg _, ?_⟩
    · exact congrArg Prod.fst (if_pos h)
    · -- The middle of the range is below the bound, and so is what is no more than one less.
      have hpos := h.1
      cases v with
      | none =>
        show (((n.toNat - 1) / 2 : Nat) : Int) < n
        omega
      | some v =>
        show ((min v (n.toNat - 1) : Nat) : Int) < n
        omega
  refuse n v h := if_neg h

/-! ## Rolls -/

/-- A roll of dice from a state of the sampler has an outcome, leaves a state, and makes calls, which are
here in their order. -/
def RollsTo (S : Sampler σ) (times sides limit : Int) (s : σ) (outcome : Except Failure Int) (s' : σ)
    (calls : List Call) : Prop :=
  (rollDice S times sides limit).runFrom s = (outcome, s') ∧
    (rollDice S.recorded times sides limit).runFrom (s, []) = (outcome, s', calls.reverse)

/-- Dice that pass the checks are rolled. -/
theorem runFrom_rollDice (S : Sampler σ) {times limit : Int} (htimes : 0 < times) (hlimit : times ≤ limit)
    (hsides : 0 < sides) (s : σ) :
    (rollDice S times sides limit).runFrom s = addFaces S sides times.toNat 0 s := by
  rw [rollDice, if_neg (by omega), if_neg (by omega), if_neg (by omega), if_neg (by omega)]
  rfl

/-- A roll that is decided by its checks makes no calls. -/
theorem rollsTo_of_eq {times limit : Int} {s : σ} {outcome : Except Failure Int}
    (h : ∀ {τ : Type} (T : Sampler τ), rollDice T times sides limit = ExceptT.mk (pure outcome)) :
    RollsTo S times sides limit s outcome s [] := by
  refine ⟨?_, ?_⟩
  · rw [h]
    rfl
  · rw [h]
    rfl

/-- Faces that are added up with every sampler as with a given outcome make a roll with this outcome, and
the calls are those that are noted. -/
theorem rollsTo_of_addFaces {times limit : Int} (htimes : 0 < times) (hlimit : times ≤ limit)
    (hsides : 0 < sides) {s s' : σ} {outcome : Except Failure Int} {calls : List Call}
    (h : addFaces S sides times.toNat 0 s = (outcome, s'))
    (hrecorded : addFaces S.recorded sides times.toNat 0 (s, []) = (outcome, s', calls.reverse)) :
    RollsTo S times sides limit s outcome s' calls :=
  ⟨(runFrom_rollDice S htimes hlimit hsides s).trans h,
    (runFrom_rollDice S.recorded htimes hlimit hsides (s, [])).trans hrecorded⟩

section

variable {times limit : Int} {s : σ} (h : S.Serves sides) (htimes : 0 < times) (hlimit : times ≤ limit)
  (hsides : 0 < sides)

include h htimes hlimit hsides

/-- Dice with a sum of faces in range show this sum. -/
theorem rollsTo_of_le (hsum : (S.faces sides times.toNat s).sum ≤ maxValue) :
    RollsTo S times sides limit s (.ok (S.faces sides times.toNat s).sum)
      (S.after sides times.toNat s) (S.faceCalls sides times.toNat s) := by
  have hzero : 0 + (S.faces sides times.toNat s).sum ≤ maxValue := by rwa [Int.zero_add]
  apply rollsTo_of_addFaces htimes hlimit hsides
  · rw [addFaces_of_le h (Int.le_refl 0) hzero, Int.zero_add]
  · have hrecorded := faces_recorded S sides times.toNat s []
    rw [addFaces_of_le h.recorded (Int.le_refl 0) (by rwa [hrecorded]), h.after_recorded, hrecorded,
      Int.zero_add, List.append_nil]

/-- Dice with a greater sum of faces overflow with the first face that makes it too great. -/
theorem exists_rollsTo_of_lt (hsum : maxValue < (S.faces sides times.toNat s).sum) :
    ∃ j ≤ times.toNat, maxValue < (S.faces sides j s).sum ∧
      (∀ i < j, (S.faces sides i s).sum ≤ maxValue) ∧
      RollsTo S times sides limit s (.error (.roll .overflow)) (S.after sides j s)
        (S.faceCalls sides j s) := by
  obtain ⟨j, hj, hbefore⟩ : ∃ j, maxValue < (S.faces sides j s).sum ∧
      ∀ i < j, (S.faces sides i s).sum ≤ maxValue :=
    have hexists : ∃ j, maxValue < (S.faces sides j s).sum := ⟨times.toNat, hsum⟩
    ⟨Nat.find hexists, Nat.find_spec hexists, fun i hi => Int.not_lt.1 (Nat.find_min hexists hi)⟩
  have hle : j ≤ times.toNat := by
    by_contra hgt
    exact Int.not_lt.2 (hbefore times.toNat (Nat.not_le.1 hgt)) hsum
  have hmax : (0 : Int) ≤ maxValue := by decide
  refine ⟨j, hle, hj, hbefore, rollsTo_of_addFaces htimes hlimit hsides ?_ ?_⟩
  · exact addFaces_of_lt h hle (Int.le_refl 0) (by simpa using hbefore) (by simpa using hj) hmax
  · rw [addFaces_of_lt h.recorded hle (Int.le_refl 0) (by simpa [faces_recorded] using hbefore)
      (by simpa [faces_recorded] using hj) hmax, h.after_recorded, List.append_nil]

end

/-- What a roll of dice comes to with a fair sampler. A negative number of dice is reported first, then
a negative number of sides, then a number of dice above the limit; no dice or none with sides are zero.
None of these asks the sampler for a number. It refuses a number of sides that is no bound, and is left as
it is. Otherwise the roll is the sum of the faces, which takes as many calls as there are dice, if the sum
is in range. If it is not, the roll overflows with the first face that makes the sum of those up to it too
great, and the sampler is left behind the call for that face. -/
theorem rollDice_outcome (hS : S.Fair) (times sides limit : Int) (s : σ) :
    (times < 0 → RollsTo S times sides limit s (.error (.roll .negativeTimes)) s []) ∧
    (0 ≤ times → sides < 0 → RollsTo S times sides limit s (.error (.roll .negativeSides)) s []) ∧
    (0 ≤ times → 0 ≤ sides → limit < times →
      RollsTo S times sides limit s (.error (.roll .tooManyRolls)) s []) ∧
    (0 ≤ times → 0 ≤ sides → times ≤ limit → times = 0 ∨ sides = 0 →
      RollsTo S times sides limit s (.ok 0) s []) ∧
    (0 < times → times ≤ limit → wordCount ≤ sides →
      RollsTo S times sides limit s (.error (.sample (.badBound sides))) s
        [⟨sides, .error (.badBound sides)⟩]) ∧
    (0 < times → times ≤ limit → 0 < sides → sides < wordCount →
      (∀ k, (S.faces sides k s).length = k ∧ (S.faceCalls sides k s).length = k) ∧
      times ≤ (S.faces sides times.toNat s).sum ∧
      (S.faces sides times.toNat s).sum ≤ times * sides ∧
      ((S.faces sides times.toNat s).sum ≤ maxValue →
        RollsTo S times sides limit s (.ok (S.faces sides times.toNat s).sum)
          (S.after sides times.toNat s) (S.faceCalls sides times.toNat s)) ∧
      (maxValue < (S.faces sides times.toNat s).sum →
        ∃ j ≤ times.toNat, maxValue < (S.faces sides j s).sum ∧
          (∀ i < j, (S.faces sides i s).sum ≤ maxValue) ∧
          RollsTo S times sides limit s (.error (.roll .overflow)) (S.after sides j s)
            (S.faceCalls sides j s))) := by
  refine ⟨fun htimes => ?_, fun htimes hsides => ?_, fun htimes hsides hlimit => ?_,
    fun htimes hsides hlimit hnone => ?_, fun htimes hlimit hsides => ?_,
    fun htimes hlimit h0 hsides => ?_⟩
  · exact rollsTo_of_eq fun T => if_pos htimes
  · refine rollsTo_of_eq fun T => ?_
    rw [rollDice, if_neg (by omega), if_pos hsides]
    rfl
  · refine rollsTo_of_eq fun T => ?_
    rw [rollDice, if_neg (by omega), if_neg (by omega), if_pos hlimit]
    rfl
  · refine rollsTo_of_eq fun T => ?_
    rw [rollDice, if_neg (by omega), if_neg (by omega), if_neg (by omega), if_pos hnone]
    rfl
  · -- The first face is asked for, and refused.
    have hbound : ¬ IsBound sides := fun h => by have := h.2; omega
    have hcount : (0 : Int) < wordCount := by decide
    obtain ⟨k, hk⟩ : ∃ k, times.toNat = k + 1 := ⟨times.toNat - 1, by omega⟩
    refine rollsTo_of_addFaces htimes hlimit (by omega) ?_ ?_
    · rw [hk, addFaces, hS.refuse sides s hbound]
    · rw [hk, addFaces, show S.recorded.sample sides (s, []) = ((S.sample sides s).1,
        (S.sample sides s).2, [⟨sides, (S.sample sides s).1⟩]) from rfl, hS.refuse sides s hbound]
      rfl
  · have hserves : S.Serves sides := hS.serves ⟨h0, hsides⟩
    have hbounds := hserves.sum_faces times.toNat s
    rw [Int.toNat_of_nonneg (Int.le_of_lt htimes)] at hbounds
    refine ⟨fun k => ?_, hbounds.1, hbounds.2, rollsTo_of_le hserves htimes hlimit h0,
      exists_rollsTo_of_lt hserves htimes hlimit h0⟩
    rw [faces, faceCalls, List.length_map, List.length_map, hserves.length_answers]
    exact ⟨rfl, rfl⟩

/-- Three dice that show `2^62` each overflow with the second one, and the third one is not rolled. -/
theorem rollDice_outcome_third :
    Fixed.sampler.Fair ∧
      RollsTo Fixed.sampler 3 0x4000000000000000 10 (some 0x3FFFFFFFFFFFFFFF) (.error (.roll .overflow))
        (some 0x3FFFFFFFFFFFFFFF)
        [⟨0x4000000000000000, .ok 0x3FFFFFFFFFFFFFFF⟩, ⟨0x4000000000000000, .ok 0x3FFFFFFFFFFFFFFF⟩] := by
  refine ⟨Fixed.sampler_fair, ?_⟩
  obtain ⟨-, -, -, -, -, hrolled⟩ := rollDice_outcome Fixed.sampler_fair 3 0x4000000000000000 10
    (some 0x3FFFFFFFFFFFFFFF)
  obtain ⟨-, -, -, -, hoverflow⟩ := hrolled (by decide) (by decide) (by decide) (by decide)
  obtain ⟨j, -, hj, hbefore, hrolls⟩ := hoverflow (by decide)
  have hzero : j ≠ 0 := by
    rintro rfl
    exact absurd hj (by decide)
  have hone : j ≠ 1 := by
    rintro rfl
    exact absurd hj (by decide)
  have htwo : ¬ 2 < j := fun h => absurd (hbefore 2 h) (by decide)
  obtain rfl : j = 2 := by omega
  exact hrolls

end DiceNotation
