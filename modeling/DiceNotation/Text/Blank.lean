/-!
# Blank characters

The characters that separate the parts of a dice expression and mean nothing themselves: those
whose bidirectional class in Unicode is a white space or a separator, and the space separators.
-/

namespace DiceNotation.Text

/-- A blank: tab to carriage return, the four information separators, the next line, and the space,
line and paragraph separators of Unicode. -/
def isBlank (c : Char) : Bool :=
  let n := c.toNat
  (0x09 ≤ n && n ≤ 0x0D) || (0x1C ≤ n && n ≤ 0x20) || n == 0x85 || n == 0xA0 || n == 0x1680 ||
    (0x2000 ≤ n && n ≤ 0x200A) || n == 0x2028 || n == 0x2029 || n == 0x202F || n == 0x205F ||
    n == 0x3000

end DiceNotation.Text
