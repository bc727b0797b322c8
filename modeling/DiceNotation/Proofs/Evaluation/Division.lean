import DiceNotation.Proofs.Stack.Operation
import DiceNotation.Random.Generator
import Mathlib.Algebra.Ring.Int.Defs

/-!
# Division

Division leaves over what has the sign of the dividend, so it rounds toward zero. `IsQuotient` says so of a
quotient by what is left over. For every divisor but zero there is one such quotient
(`isQuotient_iff`), and it is the one that is computed from the absolute values and the signs
(`quotient_eq_tdiv`). It is no greater than the dividend without its sign, and as great only for the
divisors 1 and -1, so of all operands in range only the least value, divided by -1, has a quotient that is
not (`inRange_quotient_iff`).
-/

namespace DiceNotation

open Rolling

/-! ## Quotients -/

/-- The quotient of `l` by `r` without its fraction is `q`: what is left over is smaller than the divisor,
and has the sign of the dividend unless it is zero. -/
def IsQuotient (l r q : Int) : Prop :=
  ∃ m, l = q * r + m ∧ m.natAbs < r.natAbs ∧ (m = 0 ∨ m.sign = l.sign)

/-- What is left over of a dividend that is not negative is not negative. -/
theorem nonneg_of_sign {l m : Int} (h : m = 0 ∨ m.sign = l.sign) (hl : 0 ≤ l) : 0 ≤ m := by
  rcases h with rfl | h
  · exact Int.le_refl 0
  · rw [← Int.sign_nonneg_iff, h]
    exact Int.sign_nonneg_iff.2 hl

/-- What is left over of a dividend that is not positive is not positive. -/
theorem nonpos_of_sign {l m : Int} (h : m = 0 ∨ m.sign = l.sign) (hl : l ≤ 0) : m ≤ 0 := by
  rcases h with rfl | h
  · exact Int.le_refl 0
  · rw [← Int.sign_nonpos_iff, h]
    exact Int.sign_nonpos_iff.2 hl

/-- The quotient of the absolute values, negated when one operand only is negative, is the one that rounds
toward zero. -/
theorem quotient_eq_tdiv (l r : Int) : quotient l r = l.tdiv r := by
  have hcast : ∀ a b : Nat, (a : Int).tdiv b = ((a / b : Nat) : Int) := fun a b => rfl
  have hneg : ∀ v : Int, v < 0 → v = -(v.natAbs : Int) := fun v hv => by omega
  have hnonneg : ∀ v : Int, 0 ≤ v → v = (v.natAbs : Int) := fun v hv => by omega
  unfold quotient
  dsimp only
  rw [← hcast]
  -- By the signs of the operands: each negated operand turns the sign of the quotient.
  rcases Int.lt_or_le l 0 with hl | hl <;> rcases Int.lt_or_le r 0 with hr | hr
  · rw [if_pos (iff_of_true hl hr)]
    calc (l.natAbs : Int).tdiv r.natAbs
        = (-(l.natAbs : Int)).tdiv (-(r.natAbs : Int)) := by
          rw [Int.neg_tdiv, Int.tdiv_neg, Int.neg_neg]
      _ = l.tdiv r := by rw [← hneg l hl, ← hneg r hr]
  · rw [if_neg (fun h => Int.not_lt.2 hr (h.1 hl))]
    calc -(l.natAbs : Int).tdiv r.natAbs
        = (-(l.natAbs : Int)).tdiv r.natAbs := (Int.neg_tdiv _ _).symm
      _ = l.tdiv r := by rw [← hneg l hl, ← hnonneg r hr]
  · rw [if_neg (fun h => Int.not_lt.2 hl (h.2 hr))]
    calc -(l.natAbs : Int).tdiv r.natAbs
        = (l.natAbs : Int).tdiv (-(r.natAbs : Int)) := (Int.tdiv_neg _ _).symm
      _ = l.tdiv r := by rw [← hnonneg l hl, ← hneg r hr]
  · rw [if_pos (iff_of_false (Int.not_lt.2 hl) (Int.not_lt.2 hr)), ← hnonneg l hl, ← hnonneg r hr]

/-- Division has one quotient for every divisor but zero. -/
theorem isQuotient_iff {l r : Int} (hr : r ≠ 0) (q : Int) : IsQuotient l r q ↔ q = quotient l r := by
  rw [quotient_eq_tdiv]
  constructor
  · rintro ⟨m, hl, hlt, hsign⟩
    have hsum : m + r * q = l := by
      rw [hl, Int.mul_comm, Int.add_comm]
    -- What is left over is on the side of zero where the dividend is, which leaves one value for it.
    rcases Int.le_total 0 l with h | h
    · have hm := nonneg_of_sign hsign h
      exact ((Int.tdiv_tmod_unique h hr).2 ⟨hsum, hm, by omega⟩).1.symm
    · have hm := nonpos_of_sign hsign h
      exact ((Int.tdiv_tmod_unique' h hr).2 ⟨hsum, by omega, hm⟩).1.symm
  · rintro rfl
    refine ⟨l.tmod r, (Int.tdiv_mul_add_tmod l r).symm, ?_, ?_⟩
    · rw [Int.natAbs_tmod]
      exact Nat.mod_lt _ (Int.natAbs_pos.2 hr)
    · have hsign := Int.sign_tmod l r
      split at hsign
      · exact .inl (Int.sign_eq_zero_iff_zero.1 hsign)
      · exact .inr hsign

/-- Of the operands in range, only the least value and -1 have a quotient that is not in range. -/
theorem inRange_quotient_iff {l r : Int} (hl : InRange l) (hr : r ≠ 0) :
    InRange (quotient l r) ↔ ¬ (l = minValue ∧ r = -1) := by
  unfold quotient
  dsimp only
  unfold InRange minValue maxValue at *
  by_cases hone : r.natAbs = 1
  · -- The quotient is the dividend with one sign or the other.
    rw [hone, Nat.div_one]
    split <;> omega
  · -- A greater divisor leaves no more than a half of the dividend.
    have hhalf : l.natAbs / r.natAbs ≤ l.natAbs / 2 := Nat.div_le_div_left (by omega) (by decide)
    generalize l.natAbs / r.natAbs = q at hhalf
    split <;> omega

/-! ## Operations -/

section

variable {σ : Type} (S : Sampler σ)

/-- An operator puts its result in the place of its operands, or fails, and asks the sampler for nothing. -/
theorem Op.runFrom_arith (op : Arith) {size : Int} (limit l r : Int) {stack : List Int}
    (hroom : stack.length < size) (s : σ) :
    ((Op.arith op).execute S size limit (r :: l :: stack)).runFrom s =
      (match op.apply l r with
        | .ok v => .ok (v :: stack)
        | .error e => .error (.roll e), s) := by
  rw [Op.execute, runFrom_bind]
  rcases op.apply l r with e | v
  · rfl
  · rw [lift, runFrom_pure]
    dsimp only
    rw [push_of_lt hroom, runFrom_pure]

/-- A division on a stack with room for what is on it fails for the divisor zero, and only for that, as one by
zero. For any other divisor there is one quotient without its fraction, which is put in the place of the
operands when it is in range and is an overflow when it is not. Of all dividends in range only the least
one has such a quotient, and only for the divisor -1. The sampler is asked for nothing. -/
theorem Op.execute_div (l r : Int) (limit : Int) {size : Int} {stack : List Int}
    (hroom : ((r :: l :: stack).length : Int) ≤ size) (s : σ) :
    ∃ outcome, ((Op.arith .div).execute S size limit (r :: l :: stack)).runFrom s = (outcome, s) ∧
      (outcome = .error (.roll .divisionByZero) ↔ r = 0) ∧
      (r ≠ 0 → ∃ q, (∀ q', IsQuotient l r q' ↔ q' = q) ∧
        outcome = if -2 ^ 63 ≤ q ∧ q ≤ 2 ^ 63 - 1 then .ok (q :: stack) else .error (.roll .overflow)) ∧
      (-2 ^ 63 ≤ l ∧ l ≤ 2 ^ 63 - 1 →
        (outcome = .error (.roll .overflow) ↔ l = -2 ^ 63 ∧ r = -1)) := by
  have hless : (stack.length : Int) < size := by
    simp only [List.length_cons] at hroom
    omega
  refine ⟨_, Op.runFrom_arith S .div limit l r hless s, ?_⟩
  by_cases hr : r = 0
  · have happly : Arith.div.apply l r = .error .divisionByZero := if_pos hr
    rw [happly]
    exact ⟨iff_of_true rfl hr, fun h => absurd hr h,
      fun _ => iff_of_false (fun h => by cases h) (fun h => by omega)⟩
  · have happly : Arith.div.apply l r = checked (quotient l r) := if_neg hr
    rw [happly, checked]
    by_cases hq : InRange (quotient l r)
    · rw [if_pos hq]
      exact ⟨iff_of_false (fun h => by cases h) hr,
        fun _ => ⟨quotient l r, isQuotient_iff hr, (if_pos hq).symm⟩,
        fun hl => iff_of_false (fun h => by cases h) ((inRange_quotient_iff hl hr).1 hq)⟩
    · rw [if_neg hq]
      exact ⟨iff_of_false (fun h => by cases h) hr,
        fun _ => ⟨quotient l r, isQuotient_iff hr, (if_neg hq).symm⟩,
        fun hl => iff_of_true rfl (Decidable.not_not.1 (mt (inRange_quotient_iff hl hr).2 hq))⟩

end

/-- The quotient of -7 by 2 is -3, since -1 is left over. That of the least value by -1 is one more than the
greatest value. -/
theorem Op.execute_div_least :
    ((Op.arith .div).execute Fixed.sampler 2 0 [2, -7]).runFrom none = (.ok [-3], none) ∧
      ((Op.arith .div).execute Fixed.sampler 2 0 [-1, -2 ^ 63]).runFrom none =
        (.error (.roll .overflow), none) := by
  have hroom : ∀ l r : Int, ([r, l].length : Int) ≤ 2 := fun _ _ => Int.le_refl 2
  constructor
  · obtain ⟨outcome, hrun, -, hquotient, -⟩ :=
      Op.execute_div Fixed.sampler (-7) 2 0 (hroom (-7) 2) none
    obtain ⟨q, hunique, houtcome⟩ := hquotient (by decide)
    obtain rfl : -3 = q := (hunique (-3)).1 ⟨-1, by decide, by decide, .inr (by decide)⟩
    rw [hrun, houtcome, if_pos (by decide)]
  · obtain ⟨outcome, hrun, -, -, hoverflow⟩ :=
      Op.execute_div Fixed.sampler (-2 ^ 63) (-1) 0 (hroom (-2 ^ 63) (-1)) none
    rw [hrun, (hoverflow (by decide)).2 ⟨rfl, rfl⟩]

end DiceNotation
