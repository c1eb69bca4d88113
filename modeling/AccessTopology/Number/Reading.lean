import AccessTopology.Number.Basic

namespace AccessTopology.Number

/-!
# Reading decimal numbers

The text of a number names an integer when it has neither a fraction nor an
exponent and its value fits 64 bits. Every other number is a double, computed
as a 64-bit significand times or divided by a power of ten; digits that no
longer fit the significand count towards the exponent only.
-/

/-- The digits of a number's text; an exponent is a sign and digits. -/
structure Parts where
  negative : Bool
  integer : List Nat
  fraction : List Nat
  exponent : Option (Bool × List Nat)
  deriving Repr, DecidableEq

/-- A significand of at most 64 bits and a power of ten. -/
structure Scaled where
  significand : Nat
  exponent : Int
  deriving Repr, DecidableEq

namespace Scaled

/-- The significand followed by one more digit, if that fits 64 bits. -/
def append?
    (scaled : Scaled)
    (digit : Nat) :
    Option Nat :=
  let next := scaled.significand * 10 + digit
  if next ≤ maxUnsigned then some next else none

/-- Take in the digits before the point; those that do not fit raise the exponent. -/
def takeInteger (scaled : Scaled) : List Nat → Scaled
  | [] => scaled
  | digit :: rest =>
      match scaled.append? digit with
      | some significand =>
          takeInteger { scaled with significand := significand } rest
      | none =>
          { scaled with exponent := scaled.exponent + (rest.length + 1) }

/-- Take in the digits after the point, up to the first that does not fit. -/
def takeFraction (scaled : Scaled) : List Nat → Scaled
  | [] => scaled
  | digit :: rest =>
      match scaled.append? digit with
      | some significand =>
          takeFraction ⟨significand, scaled.exponent - 1⟩ rest
      | none => scaled

/-- The double of a power of ten. -/
def powerOfTen (exponent : Nat) : Float :=
  Float.ofScientific 1 false exponent

/--
Divide by a power of ten, in steps of at most `10 ^ 308`.

Three steps take every 64-bit significand to zero, so `fuel` never runs out
before the value does when it starts at three.
-/
def scaleDown : (fuel : Nat) → Float → (exponent : Nat) → Float
  | 0, value, _ => value
  | fuel + 1, value, exponent =>
      if exponent ≤ 308 then value / powerOfTen exponent
      else scaleDown fuel (value / powerOfTen 308) (exponent - 308)

/-- Double arithmetic for `significand * 10 ^ exponent`; none when it is infinite. -/
def toFloat? (scaled : Scaled) : Option Float :=
  let start := scaled.significand.toUInt64.toFloat
  if scaled.exponent < 0 then
    some (scaleDown 3 start scaled.exponent.natAbs)
  else if scaled.exponent ≤ 308 then
    let value := start * powerOfTen scaled.exponent.natAbs
    if value.isInf then none else some value
  else if scaled.significand = 0 then
    some start
  else
    none

end Scaled

/-- Bits of a double with its sign. -/
def signedBits
    (negative : Bool)
    (value : Float) :
    UInt64 :=
  (if negative then -value else value).toBits

/-- The value of a list of decimal digits. -/
def digitsValue (digits : List Nat) : Nat :=
  digits.foldl (fun value digit => value * 10 + digit) 0

/-- The greatest power of ten that an exponent may name. -/
def maxExponent : Nat :=
  0x7FFFFFFF

/-- The double of a significand and a named exponent; none when it is out of range. -/
def doubleBits?
    (negative : Bool)
    (scaled : Scaled) :
    Option (Bool × List Nat) → Option UInt64
  | none => scaled.toFloat?.map (signedBits negative)
  | some (negativeExponent, digits) =>
      let named := digitsValue digits
      if maxExponent < named then
        if scaled.significand ≠ 0 && !negativeExponent then none
        else some (signedBits negative 0.0)
      else
        let exponent : Int := if negativeExponent then -named else named
        (Scaled.toFloat?
          { scaled with exponent := scaled.exponent + exponent }).map
          (signedBits negative)

/-- The number that a text names; none when it is out of range. -/
def Parts.value? (parts : Parts) : Option Number :=
  let whole := digitsValue parts.integer
  let signed : Int := if parts.negative then -whole else whole
  let isInteger := parts.fraction.isEmpty && parts.exponent.isNone
  if isInteger && fits signed && !(parts.negative && whole = 0) then
    some (.integer signed)
  else
    let scaled :=
      ((Scaled.mk 0 0).takeInteger parts.integer).takeFraction parts.fraction
    (doubleBits? parts.negative scaled parts.exponent).map .double

end AccessTopology.Number
