import DiceNotation.Parse
import Mathlib.Tactic.Ring

/-!
# Literals

The value of a literal is that of all its digits, or an error where that is above `maxLiteral`
(`literalValue_eq`), however many digits there are. `literalValue` never computes the value of more than
nineteen significant digits; it may skip longer ones because a number that starts with another digit
than zero is at least a power of ten, and `10^19` is above the greatest literal.
-/

namespace DiceNotation

/-- The digits are the characters from `0` to `9` by their codes. -/
theorem isDigit_iff {c : Char} : isDigit c = true ↔ 48 ≤ c.toNat ∧ c.toNat ≤ 57 := by
  rw [isDigit, Bool.and_eq_true, decide_eq_true_eq, decide_eq_true_eq]
  rfl

/-- Digits behind a number move it up by a power of ten. -/
theorem foldl_digits (ds : List Char) (n : Nat) :
    ds.foldl (fun n c => 10 * n + (c.toNat - 48)) n = n * 10 ^ ds.length + digitsValue ds := by
  rw [digitsValue]
  induction ds generalizing n with
  | nil => simp
  | cons c cs ih =>
    -- Both sides go on from the number that the first digit has made.
    rw [List.foldl_cons, List.foldl_cons, ih (10 * n + (c.toNat - 48)), ih (10 * 0 + (c.toNat - 48)),
      List.length_cons, pow_succ]
    ring

/-- The value of digits is that of the first one at its place and that of the others. -/
theorem digitsValue_cons (c : Char) (cs : List Char) :
    digitsValue (c :: cs) = (c.toNat - 48) * 10 ^ cs.length + digitsValue cs := by
  rw [digitsValue, List.foldl_cons, foldl_digits, Nat.mul_zero, Nat.zero_add]

/-- Leading zeros add nothing. -/
theorem digitsValue_dropWhile_zero (ds : List Char) :
    digitsValue (ds.dropWhile (· == '0')) = digitsValue ds := by
  induction ds with
  | nil => rfl
  | cons c cs ih =>
    rw [List.dropWhile_cons]
    split
    · next h =>
      have hc : c = '0' := by simpa using h
      rw [ih, digitsValue_cons, hc]
      simp
    · rfl

/-- A number that starts with another digit than zero is at least the power of ten at the place of
that digit. -/
theorem pow_le_digitsValue {c : Char} (cs : List Char) (hd : isDigit c = true) (hz : c ≠ '0') :
    10 ^ cs.length ≤ digitsValue (c :: cs) := by
  have hcode : c.toNat ≠ 48 := fun h => hz (Char.toNat_inj.1 h)
  have hdigit := isDigit_iff.1 hd
  have hpos : 1 ≤ c.toNat - 48 := by omega
  calc 10 ^ cs.length = 1 * 10 ^ cs.length := (one_mul _).symm
    _ ≤ (c.toNat - 48) * 10 ^ cs.length := Nat.mul_le_mul_right _ hpos
    _ ≤ digitsValue (c :: cs) := by rw [digitsValue_cons]; exact Nat.le_add_right _ _

/-- More significant digits than the greatest literal has make a number above it. -/
theorem maxLiteral_lt_of_length {ds : List Char} (hd : ∀ c ∈ ds, isDigit c = true)
    (hlen : 19 < (ds.dropWhile (· == '0')).length) : maxLiteral < digitsValue ds := by
  rw [← digitsValue_dropWhile_zero]
  have hsub : ∀ c ∈ ds.dropWhile (· == '0'), isDigit c = true :=
    fun c hc => hd c ((List.dropWhile_sublist _).subset hc)
  have hhead := List.head?_dropWhile_not (fun c => c == '0') ds
  cases hs : ds.dropWhile (· == '0') with
  | nil => rw [hs] at hlen; simp at hlen
  | cons c cs =>
    rw [hs] at hlen hsub hhead
    -- The first digit that is left is none of the zeros.
    have hz : c ≠ '0' := by simpa using hhead
    have hle := pow_le_digitsValue cs (hsub c List.mem_cons_self) hz
    have hpow : 10 ^ 19 ≤ 10 ^ cs.length :=
      Nat.pow_le_pow_right (by decide) (by rw [List.length_cons] at hlen; omega)
    have hmax : maxLiteral < 10 ^ 19 := by decide
    omega

/-- The value of a literal is that of its digits, unless it is above the greatest literal. -/
theorem literalValue_eq {ds : List Char} (hd : ∀ c ∈ ds, isDigit c = true) :
    literalValue ds =
      if digitsValue ds ≤ maxLiteral then .ok (digitsValue ds)
      else .error (.invalidInteger (String.ofList ds)
        "number too large to fit in target type") := by
  unfold literalValue
  simp only [digitsValue_dropWhile_zero, Bool.or_eq_true, decide_eq_true_eq]
  by_cases hlen : 19 < (ds.dropWhile (· == '0')).length
  · have hlt := maxLiteral_lt_of_length hd hlen
    rw [if_pos (.inl hlen), if_neg (Nat.not_le.2 hlt)]
  · by_cases hmax : digitsValue ds ≤ maxLiteral
    · rw [if_neg (by omega), if_pos hmax]
    · rw [if_pos (.inr (Nat.not_le.1 hmax)), if_neg hmax]

end DiceNotation
