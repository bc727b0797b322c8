import DiceNotation.Text.Hex
import DiceNotation.Text.Printable

/-!
# Quoted text

How messages show a text. It stands in single quotes, or in double quotes when it has a single one
and no double one. The quote, the backslash and the characters that cannot be shown are escaped.
-/

namespace DiceNotation.Text

/-- A character by its code point, with the fewest digits of two, four and eight that hold it. -/
def escapeCode (c : Char) : List Char :=
  let n := c.toNat
  if n ≤ 0xFF then '\\' :: 'x' :: hexDigits 2 n
  else if n ≤ 0xFFFF then '\\' :: 'u' :: hexDigits 4 n
  else '\\' :: 'U' :: hexDigits 8 n

/-- A character inside of `quote`s. -/
def escapeChar (quote c : Char) : List Char :=
  if c = quote || c = '\\' then ['\\', c]
  else if c = '\t' then ['\\', 't']
  else if c = '\n' then ['\\', 'n']
  else if c = '\r' then ['\\', 'r']
  else if isPrintable c then [c]
  else escapeCode c

/-- The quote that a text stands in. -/
def quoteFor (cs : List Char) : Char :=
  if cs.contains '\'' && !cs.contains '"' then '"' else '\''

/-- A text in quotes. -/
def quoted (s : String) : String :=
  let cs := s.toList
  let quote := quoteFor cs
  String.ofList (quote :: cs.flatMap (escapeChar quote) ++ [quote])

end DiceNotation.Text
