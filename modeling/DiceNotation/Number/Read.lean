import DiceNotation.Number.Binary64
import DiceNotation.Text.Blank

/-!
# Reading numbers

Numbers written by hand: integers in a base, and decimal fractions with an exponent. Blanks around a
number are passed over, and an underscore may stand between two digits.
-/

namespace DiceNotation.Number

/-- A text without the blanks at its ends. -/
def trim (cs : List Char) : List Char :=
  ((cs.dropWhile Text.isBlank).reverse.dropWhile Text.isBlank).reverse

/-- The value of a digit of the bases up to thirty-six. -/
def digitValue? (base : Nat) (c : Char) : Option Nat :=
  let n := c.toNat
  let v? :=
    if '0' ≤ c && c ≤ '9' then some (n - 48)
    else if 'a' ≤ c && c ≤ 'z' then some (n - 87)
    else if 'A' ≤ c && c ≤ 'Z' then some (n - 55)
    else none
  v?.filter (· < base)

/-- Reads digits with single underscores between them, and gives their value, how many they are, and
what is left. There is no underscore before the first digit or behind the last one. -/
def readDigits (base : Nat) : Nat → Nat → List Char → Nat × Nat × List Char
  | value, count, [] => (value, count, [])
  | value, count, c :: cs =>
    match digitValue? base c with
    | some v => readDigits base (base * value + v) (count + 1) cs
    | none =>
      match c, cs with
      | '_', d :: ds =>
        match digitValue? base d with
        | some v =>
          if count = 0 then (value, count, c :: cs)
          else readDigits base (base * value + v) (count + 1) ds
        | none => (value, count, c :: cs)
      | _, _ => (value, count, c :: cs)

/-- A sign, and what is left. -/
def readSign : List Char → Bool × List Char
  | '-' :: cs => (true, cs)
  | '+' :: cs => (false, cs)
  | cs => (false, cs)

/-- The letters that may mark a base behind a zero. -/
def baseMarks (base : Nat) : List Char :=
  if base = 2 then ['b', 'B'] else if base = 8 then ['o', 'O'] else if base = 16 then ['x', 'X']
  else []

/-- The integer that a text denotes in a base, whose mark it may carry. -/
def readInt? (base : Nat) (cs : List Char) : Option Int :=
  let (negative, cs) := readSign (trim cs)
  let digits := match cs with
    | '0' :: c :: rest =>
      if (baseMarks base).contains c then
        match rest with
        | '_' :: rest => rest
        | rest => rest
      else cs
    | cs => cs
  match readDigits base 0 0 digits with
  | (value, count, []) => if count = 0 then none else some (if negative then -value else value)
  | _ => none

/-- The exponent of a decimal fraction, where there is one. -/
def readExponent? : List Char → Option Int
  | [] => some 0
  | c :: cs =>
    if c = 'e' || c = 'E' then
      let (negative, cs) := readSign cs
      match readDigits 10 0 0 cs with
      | (value, _ + 1, []) => some (if negative then -value else value)
      | _ => none
    else none

/-- The number that a decimal fraction denotes, its sign aside. -/
def readMagnitude? (negative : Bool) (cs : List Char) : Option Float :=
  let word := cs.map Char.toLower
  if word = "inf".toList || word = "infinity".toList then
    some (infinity negative)
  else if word = "nan".toList then some (Float.ofBits 0x7FF8000000000000)
  else
    let (whole, wholeCount, rest) := readDigits 10 0 0 cs
    let (value, count, places, rest) := match rest with
      | '.' :: rest =>
        match rest with
        | '_' :: _ => (whole, wholeCount, 0, rest)
        | _ =>
          let (fraction, places, rest) := readDigits 10 0 0 rest
          (whole * tenTo places + fraction, wholeCount + places, places, rest)
      | rest => (whole, wholeCount, 0, rest)
    if count = 0 then none
    else (readExponent? rest).map fun e => ofDecimal negative value (e - places)

/-- The floating-point number that a text denotes. -/
def readFloat? (cs : List Char) : Option Float :=
  let (negative, cs) := readSign (trim cs)
  readMagnitude? negative cs

end DiceNotation.Number
