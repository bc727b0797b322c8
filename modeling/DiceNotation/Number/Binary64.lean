import DiceNotation.Number.Rounding

/-!
# Binary floating point

The numbers of the 64-bit binary format as exact quotients, and back. A finite one is a natural number
times a power of two, with a sign (`Dyadic`); `nearest` is the one that is nearest to a quotient, with
a tie going to the one whose last bit is zero.
-/

namespace DiceNotation.Number

/-- The number `mantissa * 2^exponent`, or its negation. -/
structure Dyadic where
  /-- Whether the sign bit is set. -/
  negative : Bool
  /-- The significant bits. -/
  mantissa : Nat
  /-- The power of two that they are multiplied by. -/
  exponent : Int
  deriving DecidableEq, Repr

/-- The bit that a mantissa has above its fraction, unless the number is too small: `2^52`. -/
def hiddenBit : Nat := 0x10000000000000

/-- The exponent of the smallest positive number. -/
def minExponent : Int := -1074

/-- A finite floating-point number exactly; infinities and what is no number have no such form. -/
def dyadic? (x : Float) : Option Dyadic :=
  let bits := x.toBits.toNat
  let negative := bits >>> 63 == 1
  let biased : Nat := bits >>> 52 % 2048
  let fraction := bits % hiddenBit
  if biased = 2047 then none
  else if biased = 0 then some ⟨negative, fraction, minExponent⟩
  else some ⟨negative, hiddenBit + fraction, (biased : Int) - 1075⟩

/-- The quotient of the numbers `num` and `den` with `2^e` in the denominator. -/
def scaled (num den : Nat) (e : Int) : Nat × Nat :=
  if 0 ≤ e then (num, den <<< e.toNat) else (num <<< (-e).toNat, den)

/-- The bits of the positive number nearest to `num / den`, which are those of infinity for a quotient
beyond the range. A mantissa that is rounded up to `2^53` carries into the exponent by itself. -/
def nearestBits (num den : Nat) : Nat :=
  if num = 0 then 0
  else
    -- By its bit lengths the quotient has a mantissa of 52 or 53 bits at this exponent.
    let guess : Int := (num.log2 : Int) - den.log2 - 52
    let (n, d) := scaled num den guess
    let e := max (if n < hiddenBit * d then guess - 1 else guess) minExponent
    let (n, d) := scaled num den e
    min ((e - minExponent).toNat * hiddenBit + roundDiv n d) (2047 * hiddenBit)

/-- The floating-point number nearest to `num / den`, or to its negation. -/
def nearest (negative : Bool) (num den : Nat) : Float :=
  Float.ofBits (UInt64.ofNat (nearestBits num den + if negative then 1 <<< 63 else 0))

/-- The infinity of a sign. -/
def infinity (negative : Bool) : Float :=
  Float.ofBits (if negative then 0xFFF0000000000000 else 0x7FF0000000000000)

/-- The floating-point number nearest to an integer. -/
def ofInt (v : Int) : Float :=
  nearest (v < 0) v.natAbs 1

/-- A power of ten. -/
def tenTo (n : Nat) : Nat :=
  Nat.pow 10 n

/-- The floating-point number nearest to `digits * 10^e`, or to its negation. Exponents far beyond the
range are not computed with. -/
def ofDecimal (negative : Bool) (digits : Nat) (e : Int) : Float :=
  let magnitude : Int := if digits = 0 then 0 else (Nat.toDigits 10 digits).length + e
  if digits = 0 || magnitude < -400 then nearest negative 0 1
  else if magnitude > 400 then infinity negative
  else if 0 ≤ e then nearest negative (digits * tenTo e.toNat) 1
  else nearest negative digits (tenTo (-e).toNat)

/-- The exact order of an integer and a finite number: whether they are equal. -/
def Dyadic.equalsInt (d : Dyadic) (v : Int) : Bool :=
  let m : Int := if d.negative then -d.mantissa else d.mantissa
  if 0 ≤ d.exponent then m <<< d.exponent.toNat == v else m == v <<< (-d.exponent).toNat

/-- The bits of a floating-point number, as a natural number. -/
def bitsOf (x : Float) : Nat :=
  x.toBits.toNat

end DiceNotation.Number
