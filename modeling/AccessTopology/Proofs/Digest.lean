import AccessTopology.Digest.Sha256
import Mathlib.Data.Nat.ModEq

namespace AccessTopology.Digest

/-!
# What a digest tells

The hexadecimal digits of a digest tell the hash that they are written from.
Two texts with one digest are therefore equal, or their bytes are two messages
with one hash.
-/

/-- The bytes of an array, as a list, are those that it holds. -/
theorem toList_eq_data (bytes : ByteArray) :
    bytes.toList = bytes.data.toList := by
  have fromPlace (remaining place : Nat) (found : List UInt8) :
      bytes.size = place + remaining →
        ByteArray.toList.loop bytes place found =
          found.reverse ++ bytes.data.toList.drop place := by
    intro sized
    induction remaining generalizing place found with
    | zero =>
        have atEnd : bytes.data.toList.length ≤ place := by
          rw [Array.length_toList]
          exact sized.le
        rw [ByteArray.toList.loop, if_neg (by omega),
          List.drop_eq_nil_of_le atEnd, List.append_nil]
    | succ remaining inductionHypothesis =>
        have inBounds : place < bytes.data.toList.length := by
          rw [Array.length_toList]
          exact Nat.lt_of_lt_of_eq (by omega) sized.symm
        rw [ByteArray.toList.loop, if_pos (by omega),
          inductionHypothesis (place + 1) _ (by omega),
          List.drop_eq_getElem_cons inBounds, List.reverse_cons,
          List.append_assoc, List.singleton_append]
        congr 2
        cases bytes
        exact getElem!_pos _ place (by simpa using inBounds)
  rw [ByteArray.toList, fromPlace bytes.size 0 [] (Nat.zero_add _).symm]
  rfl

/-- Two texts with the same bytes are equal. -/
theorem toList_toUTF8_inj
    {left right : String} :
    left.toUTF8.toList = right.toUTF8.toList ↔ left = right := by
  rw [toList_eq_data, toList_eq_data, Array.toList_inj]
  constructor
  · intro same
    exact String.toByteArray_inj.mp (ByteArray.ext same)
  · rintro rfl
    rfl

/-- The digits below sixteen are different characters. -/
theorem digitChar_inj
    {left right : Nat}
    (leftSmall : left < 16)
    (rightSmall : right < 16)
    (same : Nat.digitChar left = Nat.digitChar right) :
    left = right := by
  have decided :
      ∀ first < 16,
        ∀ second < 16,
          Nat.digitChar first = Nat.digitChar second → first = second := by
    decide
  exact decided left leftSmall right rightSmall same

/-- The last bytes of a number tell its remainder. -/
theorem bigEndian_inj
    {count left right : Nat}
    (same : bigEndian count left = bigEndian count right) :
    left % 256 ^ count = right % 256 ^ count := by
  induction count with
  | zero =>
      simp [Nat.mod_one]
  | succ count inductionHypothesis =>
      rw [bigEndian, bigEndian, List.cons.injEq] at same
      have sameByte := congrArg UInt8.toNat same.1
      have place : 2 ^ (8 * count) = 256 ^ count := by
        rw [Nat.pow_mul]
      simp only [Nat.shiftRight_eq_div_pow, place, Nat.toUInt8_eq,
        UInt8.toNat_ofNat'] at sameByte
      rw [Nat.mod_pow_succ, Nat.mod_pow_succ, inductionHypothesis same.2]
      exact congrArg (right % 256 ^ count + 256 ^ count * ·) sameByte

/-- Texts of one length written one after the other tell what they stand for. -/
theorem flatMap_injective
    {write : α → List β}
    {length : Nat}
    (lengths : ∀ value, (write value).length = length + 1)
    (injective : Function.Injective write) :
    Function.Injective (List.flatMap write) := by
  have written (value : α) : write value ≠ [] :=
    List.ne_nil_of_length_eq_add_one (lengths value)
  intro left right same
  induction left generalizing right with
  | nil =>
      cases right with
      | nil =>
          rfl
      | cons other others =>
          have noText := List.flatMap_eq_nil_iff.mp same.symm
          exact absurd (noText other List.mem_cons_self) (written other)
  | cons value values inductionHypothesis =>
      cases right with
      | nil =>
          have noText := List.flatMap_eq_nil_iff.mp same
          exact absurd (noText value List.mem_cons_self) (written value)
      | cons other others =>
          rw [List.flatMap_cons, List.flatMap_cons] at same
          obtain ⟨sameText, sameTexts⟩ :=
            List.append_inj same ((lengths value).trans (lengths other).symm)
          rw [injective sameText, inductionHypothesis sameTexts]

/-- The two digits of a byte. -/
def byteHex (byte : UInt8) : List Char :=
  [Nat.digitChar (byte.toNat / 16), Nat.digitChar (byte.toNat % 16)]

theorem byteHex_injective : Function.Injective byteHex := by
  intro left right same
  rw [byteHex, byteHex, List.cons.injEq, List.cons.injEq] at same
  have leftBound := left.toNat_lt
  have rightBound := right.toNat_lt
  have sameHigh := digitChar_inj (by omega) (by omega) same.1
  have sameLow := digitChar_inj (by omega) (by omega) same.2.1
  exact UInt8.toNat_inj.mp (by omega)

/-- The digits of a word tell the word. -/
theorem wordHex_injective : Function.Injective wordHex := by
  intro left right same
  have sameBytes :
      bigEndian 4 left.toNat = bigEndian 4 right.toNat :=
    flatMap_injective (fun _ => rfl) byteHex_injective same
  have sameRemainder := bigEndian_inj sameBytes
  have leftBound := left.toNat_lt
  have rightBound := right.toNat_lt
  exact UInt32.toNat_inj.mp (by omega)

/-- Two messages that are different and have one hash. -/
def Collide (left right : List UInt8) : Prop :=
  left ≠ right ∧ sha256 left = sha256 right

/-- Different texts with one digest are messages that collide. -/
theorem collide_of_ofText_eq
    {left right : String}
    (different : left ≠ right)
    (same : ofText left = ofText right) :
    Collide left.toUTF8.toList right.toUTF8.toList := by
  have lengths (word : UInt32) : (wordHex word).length = 7 + 1 := rfl
  rw [ofText, ofText, String.ofList_inj] at same
  exact ⟨toList_toUTF8_inj.not.mpr different,
    flatMap_injective lengths wordHex_injective same⟩

end AccessTopology.Digest
