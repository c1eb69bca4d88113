import AccessTopology.Document.Node
import AccessTopology.Text.Hexadecimal

namespace AccessTopology.Scalar

/-!
# Plain scalars

What an unquoted scalar of a YAML 1.2 document stands for where any value may
stand: null, a truth value, a number, or its own text. Where a text is wanted
nothing is resolved, so `007` and `true` are texts there.
-/

/-- Whether a plain scalar stands for null. -/
def isNull (text : List Char) : Bool :=
  text = [] || text = ['~'] || text = "null".toList ||
    text = "Null".toList || text = "NULL".toList

/-- The truth value that a plain scalar stands for. -/
def bool? (text : List Char) : Option Bool :=
  if text = "true".toList || text = "True".toList || text = "TRUE".toList then
    some true
  else if
      text = "false".toList || text = "False".toList || text = "FALSE".toList then
    some false
  else
    none

/-- The value of one or more digits of a base of at most sixteen. -/
def natural?
    (base : Nat)
    (text : List Char) :
    Option Nat :=
  if text = [] then none
  else
    text.foldlM
      (fun value c =>
        match Text.hexValue? c with
        | some digit => if digit < base then some (value * base + digit) else none
        | none => none)
      0

/-- Whether a text is a zero followed by digits, after at most one sign. -/
def hasLeadingZero (text : List Char) : Bool :=
  let unsigned :=
    match text with
    | '-' :: rest => rest
    | '+' :: rest => rest
    | _ => text
  match unsigned with
  | '0' :: c :: rest => (c :: rest).all Char.isDigit
  | _ => false

/-- The absolute value of an integer after its sign, by the base its start names. -/
def unsigned? (text : List Char) : Option Nat :=
  match text with
  | '0' :: 'x' :: digits => natural? 16 digits
  | '0' :: 'o' :: digits => natural? 8 digits
  | '0' :: 'b' :: digits => natural? 2 digits
  | _ => if hasLeadingZero text then none else natural? 10 text

/-- The integer that a plain scalar stands for, of any size. -/
def integer? (text : List Char) : Option Int :=
  match text with
  | '+' :: rest => (unsigned? rest).map Int.ofNat
  | '-' :: rest => (unsigned? rest).map (fun value => -(value : Int))
  | _ => (unsigned? text).map Int.ofNat

/-- The digits at the start of a text, and the rest. -/
def splitDigits (text : List Char) : List Char × List Char :=
  (text.takeWhile Char.isDigit, text.dropWhile Char.isDigit)

/-- The power of ten that a text names, which is `e` and an integer, or nothing. -/
def exponent? : List Char → Option Int
  | [] => some 0
  | c :: rest =>
      if c = 'e' || c = 'E' then
        match rest with
        | '+' :: digits => (natural? 10 digits).map Int.ofNat
        | '-' :: digits => (natural? 10 digits).map (fun value => -(value : Int))
        | digits => (natural? 10 digits).map Int.ofNat
      else
        none

/-- The double nearest to `significand * 10 ^ exponent`, unless it is infinite. -/
def nearestDouble?
    (significand : Nat)
    (exponent : Int) :
    Option Float :=
  let size := (Nat.toDigits 10 significand).length + exponent
  if significand = 0 || size < -400 then some 0.0
  else if size > 400 then none
  else
    let value :=
      if exponent < 0 then Float.ofScientific significand true exponent.natAbs
      else Float.ofScientific significand false exponent.natAbs
    if value.isInf then none else some value

/-- The finite double that a decimal text without a sign stands for. -/
def unsignedDouble? (text : List Char) : Option Float :=
  let (whole, rest) := splitDigits text
  let (fraction, rest) :=
    match rest with
    | '.' :: rest => splitDigits rest
    | _ => ([], rest)
  if whole = [] && fraction = [] then none
  else do
    let exponent ← exponent? rest
    let significand ← natural? 10 (whole ++ fraction)
    nearestDouble? significand (exponent - fraction.length)

/-- The finite double that a plain scalar stands for. -/
def double? (text : List Char) : Option UInt64 :=
  match text with
  | '+' :: rest => (unsignedDouble? rest).map Float.toBits
  | '-' :: rest =>
      (unsignedDouble? rest).map (fun value => (-value).toBits)
  | _ => (unsignedDouble? text).map Float.toBits

/-- Whether a plain scalar stands for an infinity or for no number. -/
def isNotFinite (text : List Char) : Bool :=
  [".inf", ".Inf", ".INF", "+.inf", "+.Inf", "+.INF", "-.inf", "-.Inf",
    "-.INF", ".nan", ".NaN", ".NAN"].any (·.toList = text)

/-- Whether an integer has a value in 128 bits, signed or unsigned. -/
def isWide (value : Int) : Bool :=
  -0x80000000000000000000000000000000 ≤ value &&
    value ≤ 0xFFFFFFFFFFFFFFFFFFFFFFFFFFFFFFFF

/--
The part of a document that a plain scalar stands for.

An integer beyond 64 bits has no value up to 128 bits and is a double beyond
them; infinities stand for null, as in JSON.
-/
def resolve (text : String) : Node :=
  let chars := text.toList
  if isNull chars then .null
  else
    match bool? chars, integer? chars with
    | some value, _ => .bool value
    | none, some value =>
        if Number.fits value then .number (.integer value)
        else if isWide value then .unreadable true
        else
          match double? chars with
          | some bits => .number (.double bits)
          | none => .string text
    | none, none =>
        if isNotFinite chars then .null
        else if hasLeadingZero chars then .string text
        else
          match double? chars with
          | some bits => .number (.double bits)
          | none => .string text

end AccessTopology.Scalar

namespace AccessTopology

/-- A scalar as the value it stands for; other parts are themselves. -/
def Node.resolved : Node → Node
  | .scalar text true => Scalar.resolve text
  | .scalar text false => .string text
  | node => node

end AccessTopology
