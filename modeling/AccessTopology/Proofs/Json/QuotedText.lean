import AccessTopology.Document.JsonText
import AccessTopology.Json.Text
import Mathlib.Tactic.IntervalCases

namespace AccessTopology

/-!
# Reading back quoted texts

The quote that ends a text is the first one that no backslash escapes, and each
character reads back from the characters it is written as.  A quoted text is
therefore read up to its own closing quote, whatever follows.
-/

namespace Json

/-- A character that is written as it is. -/
theorem escaped_of_plain
    {c : Char}
    (notQuote : c ≠ '\x22')
    (notBackslash : c ≠ '\\')
    (printable : 0x20 ≤ c.toNat) :
    escaped c = [c] := by
  have differs {other : Char} (control : other.toNat < 0x20) : c ≠ other :=
    fun same => by
      rw [same] at printable
      omega
  rw [escaped, if_neg notQuote, if_neg notBackslash,
    if_neg (differs (by decide)), if_neg (differs (by decide)),
    if_neg (differs (by decide)), if_neg (differs (by decide)),
    if_neg (differs (by decide)), if_neg (by omega)]

end Json

namespace JsonText

/--
No character is written with a quote in front, and each is read back from what
it is written as.
-/
theorem exists_escaped_eq (c : Char) :
    ∃ first more,
      Json.escaped c = first :: more ∧
        first ≠ '\x22' ∧
          ∀ rest, piece? (first :: (more ++ rest)) = some (.char c, rest) := by
  by_cases isQuote : c = '\x22'
  · subst isQuote
    exact ⟨'\\', ['\x22'], rfl, by decide, fun rest => rfl⟩
  by_cases isBackslash : c = '\\'
  · subst isBackslash
    exact ⟨'\\', ['\\'], rfl, by decide, fun rest => rfl⟩
  by_cases control : c.toNat < 0x20
  · rw [← Char.ofNat_toNat c]
    generalize c.toNat = code at control
    interval_cases code <;> exact ⟨_, _, rfl, by decide, fun rest => rfl⟩
  · refine ⟨c, [], Json.escaped_of_plain isQuote isBackslash (by omega),
      isQuote, ?_⟩
    intro rest
    simp [piece?, control]

/-- A text is read back up to the quote that closes it. -/
theorem stringBody?_escaped
    (chars rest : List Char)
    {fuel : Nat}
    (enough : chars.length < fuel) :
    stringBody? fuel (chars.flatMap Json.escaped ++ '\x22' :: rest) =
      some (some chars, rest) := by
  induction chars generalizing fuel with
  | nil =>
      cases fuel with
      | zero =>
          simp at enough
      | succ fuel =>
          rfl
  | cons c chars inductionHypothesis =>
      cases fuel with
      | zero =>
          simp at enough
      | succ fuel =>
          obtain ⟨first, others, written, notQuote, readBack⟩ :=
            exists_escaped_eq c
          rw [List.flatMap_cons, written, List.cons_append, List.cons_append,
            List.append_assoc]
          simp [stringBody?, notQuote, readBack,
            inductionHypothesis (Nat.lt_of_succ_lt_succ enough)]

/-- As many steps as a quoted text has characters read it back. -/
theorem stringBody?_quoted
    (text : String)
    (rest : List Char) :
    stringBody?
        ((text.toList.flatMap Json.escaped ++ '\x22' :: rest).length + 1)
        (text.toList.flatMap Json.escaped ++ '\x22' :: rest) =
      some (some text.toList, rest) := by
  have notShorter (chars : List Char) :
      chars.length ≤ (chars.flatMap Json.escaped).length := by
    induction chars with
    | nil =>
        exact Nat.le_refl 0
    | cons c chars inductionHypothesis =>
        obtain ⟨first, others, written, _⟩ := exists_escaped_eq c
        rw [List.flatMap_cons, written, List.length_append, List.length_cons,
          List.length_cons]
        omega
  refine stringBody?_escaped text.toList rest ?_
  rw [List.length_append]
  have length := notShorter text.toList
  omega

/-- A quoted text can be split off what follows in one way only. -/
theorem quoted_append_inj
    {left right : String}
    {leftRest rightRest : List Char}
    (same : Json.quoted left ++ leftRest = Json.quoted right ++ rightRest) :
    left = right ∧ leftRest = rightRest := by
  have sameBody :
      left.toList.flatMap Json.escaped ++ '\x22' :: leftRest =
        right.toList.flatMap Json.escaped ++ '\x22' :: rightRest := by
    simpa [Json.quoted] using same
  have leftRead := stringBody?_quoted left leftRest
  rw [sameBody, stringBody?_quoted right rightRest, Option.some.injEq,
    Prod.mk.injEq, Option.some.injEq] at leftRead
  exact ⟨String.toList_inj.mp leftRead.1.symm, leftRead.2.symm⟩

end JsonText

end AccessTopology
