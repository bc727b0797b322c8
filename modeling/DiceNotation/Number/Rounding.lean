/-!
# Rounding a quotient

The integer nearest to a quotient of natural numbers, where a quotient halfway between two integers
goes to the even one.
-/

namespace DiceNotation.Number

/-- The integer nearest to `num / den`, the even one of two. -/
def roundDiv (num den : Nat) : Nat :=
  let q := num / den
  let r := num % den
  if 2 * r < den then q
  else if den < 2 * r then q + 1
  else if q % 2 = 0 then q
  else q + 1

end DiceNotation.Number
