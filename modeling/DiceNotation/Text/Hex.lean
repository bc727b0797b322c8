/-!
# Hexadecimal digits
-/

namespace DiceNotation.Text

/-- The last `width` hexadecimal digits of a number, in lower case. -/
def hexDigits (width n : Nat) : List Char :=
  (List.range width).map fun i => Nat.digitChar (n >>> (4 * (width - 1 - i)) % 16)

end DiceNotation.Text
