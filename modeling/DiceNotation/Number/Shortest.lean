import DiceNotation.Number.Binary64

/-!
# Shortest decimals

The shortest decimal that reads back as a given floating-point number, and of those the nearest to it.
Around a number lie the reals that round to it, with both ends where its mantissa is even. For one
digit, two, and so on, the two neighbours of the number on the grid of decimals with that many digits
are tried; seventeen digits always suffice.
-/

namespace DiceNotation.Number

/-- The decimal `0.d₁d₂… * 10^point`. -/
structure Decimal where
  /-- The digits `d₁d₂…` as one number. -/
  digits : Nat
  /-- The position of the point, counted from the first digit. -/
  point : Int
  deriving DecidableEq, Repr

/-- The decimal digits of a number. -/
def decimalDigits (n : Nat) : List Char :=
  Nat.toDigits 10 n

/-- The position of the point in the positive number `m * 2^e`. The number is multiplied by a power of
ten that makes it at least one, and the digits before the point are counted. -/
def pointOf (m : Nat) (e : Int) : Int :=
  let (n, d) := scaled (m * tenTo 400) 1 (-e)
  (decimalDigits (n / d)).length - 400

/-- Compares `a * 10^k` with `b * 2^e`. -/
def compareScaled (a : Nat) (k : Int) (b : Nat) (e : Int) : Ordering :=
  let tens := if 0 ≤ k then (tenTo k.toNat, 1) else (1, tenTo (-k).toNat)
  let twos := if 0 ≤ e then (1 <<< e.toNat, 1) else (1, 1 <<< (-e).toNat)
  compare (a * tens.1 * twos.2) (b * twos.1 * tens.2)

/-- The reals that round to a positive number, in units of a quarter of its last place: the lower end
and the upper end. Below a power of two the next number is nearer. -/
def interval (m : Nat) (e : Int) : Nat × Nat :=
  if m = hiddenBit && minExponent < e then (4 * m - 1, 4 * m + 2) else (4 * m - 2, 4 * m + 2)

/-- Whether `c * 10^k` rounds to the positive number `m * 2^e`. -/
def readsBack (m : Nat) (e : Int) (c : Nat) (k : Int) : Bool :=
  let (lo, hi) := interval m e
  let above := compareScaled c k lo (e - 2)
  let below := compareScaled c k hi (e - 2)
  if m % 2 = 0 then above != .lt && below != .gt else above == .gt && below == .lt

/-- The decimal of the grid `10^k` that reads back as `m * 2^e`: of its neighbours `c` and `c + 1` on
the grid the one that does, of two the nearer, and of two as near the even one. -/
def onGrid? (m : Nat) (e : Int) (k : Int) : Option Nat :=
  let (n, d) := if 0 ≤ k then scaled m (tenTo k.toNat) (-e) else scaled (m * tenTo (-k).toNat) 1 (-e)
  let c := n / d
  match readsBack m e c k, readsBack m e (c + 1) k with
  | true, true => some (roundDiv n d)
  | true, false => some c
  | false, true => some (c + 1)
  | false, false => none

/-- The first grid with a hit, from `places` digits on. -/
def search (m : Nat) (e point : Int) : Nat → Nat → Nat × Int
  | 0, places =>
    let k := point - places
    let (n, d) := if 0 ≤ k then scaled m (tenTo k.toNat) (-e) else scaled (m * tenTo (-k).toNat) 1 (-e)
    (roundDiv n d, k)
  | more + 1, places =>
    match onGrid? m e (point - places) with
    | some c => (c, point - places)
    | none => search m e point more (places + 1)

/-- Removes the zeros at the end of a number, at most `n` of them, and counts them. -/
def dropZeros : Nat → Nat → Nat
  | 0, c => c
  | n + 1, c => if c ≠ 0 && c % 10 = 0 then dropZeros n (c / 10) else c

/-- The shortest decimal of the positive number `m * 2^e`. -/
def shortest (m : Nat) (e : Int) : Decimal :=
  let (c, k) := search m e (pointOf m e) 16 1
  ⟨dropZeros 17 c, k + (decimalDigits c).length⟩

end DiceNotation.Number
