import DiceNotation.Number.Shortest

/-!
# Text of floating-point numbers

How messages show a floating-point number: by its shortest decimal, positional for points near the
first digit and with an exponent of ten for the others, or with a fixed number of places.
-/

namespace DiceNotation.Number

/-- The first point that is written positionally: one with three zeros behind it. -/
def minPoint : Int := -3

/-- The last point that is written positionally: one behind sixteen digits. -/
def maxPoint : Int := 16

/-- So many zeros. -/
def zeros (n : Nat) : List Char :=
  List.replicate n '0'

/-- A natural number with at least two digits. -/
def twoDigits (n : Nat) : List Char :=
  if n < 10 then '0' :: decimalDigits n else decimalDigits n

/-- The text of a decimal. In positional form there is always a digit on both sides of the point. -/
def Decimal.text (d : Decimal) : List Char :=
  let ds := decimalDigits d.digits
  if minPoint ≤ d.point && d.point ≤ maxPoint then
    -- A point before the first digit has zeros behind it.
    if d.point ≤ 0 then '0' :: '.' :: (zeros (-d.point).toNat ++ ds)
    else
      let p := d.point.toNat
      if ds.length ≤ p then ds ++ zeros (p - ds.length) ++ ['.', '0']
      else ds.take p ++ '.' :: ds.drop p
  else
    let e := d.point - 1
    let lead := match ds with
      | c :: r@(_ :: _) => c :: '.' :: r
      | ds => ds
    lead ++ 'e' :: (if e < 0 then '-' else '+') :: twoDigits e.natAbs

/-- A number that is finite. -/
def isFinite (x : Float) : Bool :=
  (dyadic? x).isSome

/-- What stands for no number at all: the largest exponent with a fraction. -/
def isUndefined (x : Float) : Bool :=
  !isFinite x && x.toBits.toNat % hiddenBit != 0

/-- Whether the sign bit of a number is set. -/
def isNegative (x : Float) : Bool :=
  x.toBits.toNat >>> 63 == 1

/-- The text of a number, of its shortest decimal where it is finite. -/
def text (x : Float) : String :=
  match dyadic? x with
  | none =>
    if isUndefined x then "nan" else if isNegative x then "-inf" else "inf"
  | some d =>
    let magnitude :=
      if d.mantissa = 0 then ['0', '.', '0'] else (shortest d.mantissa d.exponent).text
    String.ofList (if d.negative then '-' :: magnitude else magnitude)

/-- The text of a finite number rounded to `places` places, a half to the even digit. -/
def fixedText (places : Nat) (x : Float) : String :=
  match dyadic? x with
  | none => text x
  | some d =>
    let (n, m) := scaled (d.mantissa * tenTo places) 1 (-d.exponent)
    let ds := decimalDigits (roundDiv n m)
    let ds := zeros (places + 1 - ds.length) ++ ds
    let whole := ds.length - places
    let magnitude := ds.take whole ++ (if places = 0 then [] else '.' :: ds.drop whole)
    String.ofList (if d.negative then '-' :: magnitude else magnitude)

/-- A share of one as a percentage with two places. -/
def percentText (x : Float) : String :=
  fixedText 2 (x * 100) ++ "%"

end DiceNotation.Number
