namespace AccessTopology.Number

/-!
# Shortest decimal digits

The decimal of a double with the fewest digits that reads back as that double,
and among those the one nearest to its exact value. Everything is decided in
exact natural-number arithmetic on the double's significand and exponent.
-/

/-- The decimal `0.d₁d₂… * 10 ^ scale`, where `digits` is `d₁d₂…`. -/
structure Digits where
  digits : List Char
  scale : Int
  deriving Repr, DecidableEq

/--
A positive double and the midpoints to its neighbours, as numerators over one
denominator. `closed` tells whether the midpoints themselves read as the
double.
-/
structure Rounding where
  low : Nat
  exact : Nat
  high : Nat
  denominator : Nat
  closed : Bool
  deriving Repr

namespace Rounding

/-- Stored fraction of a bit pattern. -/
def fractionBits (bits : UInt64) : Nat :=
  (bits &&& 0xFFFFFFFFFFFFF).toNat

/-- Stored exponent of a bit pattern. -/
def exponentBits (bits : UInt64) : Nat :=
  ((bits >>> 52) &&& 0x7FF).toNat

/-- Significand of the double with a bit pattern. -/
def significand (bits : UInt64) : Nat :=
  if exponentBits bits = 0 then fractionBits bits
  else fractionBits bits + 0x10000000000000

/-- How far the exponent of a double lies above the smallest one, `-1074`. -/
def raised (bits : UInt64) : Nat :=
  exponentBits bits - 1

/--
The reals that round to a positive finite double.

In units of a quarter of the last place the double is four times its
significand, and the midpoints lie two units away; below a power of two the
lower neighbour is only half as far.
-/
def ofBits (bits : UInt64) : Rounding :=
  let middle := 4 * significand bits
  let narrow := fractionBits bits = 0 && exponentBits bits > 1
  let scaled := fun units => units * Nat.pow 2 (raised bits)
  { low := scaled (middle - (if narrow then 1 else 2))
    exact := scaled middle
    high := scaled (middle + 2)
    denominator := Nat.pow 2 1076
    closed := significand bits % 2 = 0 }

/-- The least `n ≤ limit` with `numerator * 10 ^ (n + 1) ≥ denominator`, else `limit`. -/
def leadingZeros
    (denominator : Nat) :
    (limit numerator : Nat) → Nat
  | 0, _ => 0
  | limit + 1, numerator =>
      if denominator ≤ numerator * 10 then 0
      else leadingZeros denominator limit (numerator * 10) + 1

/-- The scale of a value's decimal, so that its first digit is not zero. -/
def scale (rounding : Rounding) : Int :=
  if rounding.denominator ≤ rounding.exact then
    (Nat.toDigits 10 (rounding.exact / rounding.denominator)).length
  else
    -(leadingZeros rounding.denominator 330 rounding.exact : Int)

/-- The same reals in other units: numerators times `up`, denominator times `down`. -/
def rescale
    (rounding : Rounding)
    (up down : Nat) :
    Rounding :=
  { rounding with
    low := rounding.low * up
    exact := rounding.exact * up
    high := rounding.high * up
    denominator := rounding.denominator * down }

/-- Whether a whole number of units rounds to the double. -/
def holds
    (rounding : Rounding)
    (units : Nat) :
    Bool :=
  let numerator := units * rounding.denominator
  if rounding.closed then
    rounding.low ≤ numerator && numerator ≤ rounding.high
  else
    rounding.low < numerator && numerator < rounding.high

/--
The whole number of units nearest to the double that rounds to it, if any.
Of two equally near ones the even one is taken.
-/
def nearestUnits? (rounding : Rounding) : Option Nat :=
  let lower := rounding.exact / rounding.denominator
  let upper := lower + 1
  match rounding.holds lower, rounding.holds upper with
  | false, false => none
  | true, false => some lower
  | false, true => some upper
  | true, true =>
      let twice := 2 * rounding.exact
      let middle := (2 * lower + 1) * rounding.denominator
      if twice < middle then some lower
      else if middle < twice then some upper
      else if lower % 2 = 0 then some lower
      else some upper

/-- The double in units of `10 ^ (scale - count)`, the grid of `count` digits. -/
def onGrid
    (rounding : Rounding)
    (count : Nat) :
    Rounding :=
  let place := rounding.scale - count
  rounding.rescale (Nat.pow 10 (-place).toNat) (Nat.pow 10 place.toNat)

/-- Digits without the zeros at the end. -/
def dropTrailingZeros (digits : List Char) : List Char :=
  (digits.reverse.dropWhile (· = '0')).reverse

/-- The first grid of at least `count` digits that holds a decimal of the double. -/
def search
    (rounding : Rounding) :
    (remaining count : Nat) → Digits
  | 0, _ => ⟨[], 0⟩
  | remaining + 1, count =>
      match (rounding.onGrid count).nearestUnits? with
      | some units =>
          let digits := Nat.toDigits 10 units
          { digits := dropTrailingZeros digits
            scale := rounding.scale + digits.length - count }
      | none => search rounding remaining (count + 1)

end Rounding

/-- Shortest digits of a positive finite double: at most seventeen suffice. -/
def shortestDigits (bits : UInt64) : Digits :=
  (Rounding.ofBits bits).search 17 1

end AccessTopology.Number
