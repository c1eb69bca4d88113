namespace AccessTopology

/-!
# Numbers of documents

A number is an integer or an IEEE 754 double. Doubles are kept as their bit
patterns, which tell the two zeros apart and need no arithmetic to compare.
-/

/-- A number of a document. -/
inductive Number
  | integer (value : Int)
  | double (bits : UInt64)
  deriving Repr, DecidableEq, Inhabited

namespace Number

/-- Whether a bit pattern is one of the two zeros. -/
def isZeroBits (bits : UInt64) : Bool :=
  bits &&& 0x7FFFFFFFFFFFFFFF == 0

/-- Whether two numbers are of one form and equal; the two zeros are equal. -/
def same : Number → Number → Bool
  | integer left, integer right => left == right
  | double left, double right =>
      left == right || (isZeroBits left && isZeroBits right)
  | _, _ => false

/-- Every number is the same as itself. -/
theorem same_refl (number : Number) : number.same number = true := by
  cases number <;> simp [same]

/-- The greatest unsigned integer of 64 bits. -/
def maxUnsigned : Nat :=
  UInt64.size - 1

/-- Whether an integer fits 64 bits, signed or unsigned. -/
def fits (value : Int) : Bool :=
  -0x8000000000000000 ≤ value && value ≤ maxUnsigned

end Number

end AccessTopology
