import AccessTopology.Proofs.Text.Ascii
import AccessTopology.Proofs.Text.Runs

namespace AccessTopology.Text

/-!
# Lowercased names

An ASCII capital is lowercased to its small letter and any other ASCII
character to itself.  Beyond ASCII the Kelvin sign and the capital I with a dot
above hold an ASCII letter when they are lowercased, and all other characters
are lowercased to characters that are beyond ASCII again.  Which ones these are
makes no difference to a slug: it is what any lowercased form of the name
leaves of letters and digits.
-/

/-- The letters and digits that slugs are written with. -/
def slugAlphabet : List Char :=
  "abcdefghijklmnopqrstuvwxyz0123456789".toList

/-- The ASCII capitals, each with its small letter. -/
def letterCases : List (Char × Char) :=
  [('A', 'a'), ('B', 'b'), ('C', 'c'), ('D', 'd'), ('E', 'e'), ('F', 'f'),
    ('G', 'g'), ('H', 'h'), ('I', 'i'), ('J', 'j'), ('K', 'k'), ('L', 'l'),
    ('M', 'm'), ('N', 'n'), ('O', 'o'), ('P', 'p'), ('Q', 'q'), ('R', 'r'),
    ('S', 's'), ('T', 't'), ('U', 'u'), ('V', 'v'), ('W', 'w'), ('X', 'x'),
    ('Y', 'y'), ('Z', 'z')]

/-- What a character may be lowercased to. -/
inductive LowersTo : Char → List Char → Prop
  | capital {upper lower : Char} :
      (upper, lower) ∈ letterCases →
        LowersTo upper [lower]
  | ascii {c : Char} :
      c.toNat < 128 →
      c ∉ letterCases.map Prod.fst →
        LowersTo c [c]
  | kelvinSign :
      LowersTo '\u212a' ['k']
  | dottedCapital :
      LowersTo '\u0130' ['i', '\u0307']
  | beyond {c : Char} {lowered : List Char} :
      128 ≤ c.toNat →
      c ≠ '\u212a' →
      c ≠ '\u0130' →
      lowered ≠ [] →
      (∀ other ∈ lowered, 128 ≤ other.toNat) →
        LowersTo c lowered

/-- A text that is lowercased character by character. -/
inductive Lowercased : List Char → List Char → Prop
  | nil :
      Lowercased [] []
  | cons {c : Char} {lowered rest loweredRest : List Char} :
      LowersTo c lowered →
      Lowercased rest loweredRest →
        Lowercased (c :: rest) (lowered ++ loweredRest)

/-- The characters that are kept are those that slugs are written with. -/
theorem isSlugChar_eq_contains : isSlugChar = slugAlphabet.contains := by
  funext c
  rw [Bool.eq_iff_iff, List.contains_iff_mem]
  constructor
  · intro kept
    have ascii : c.toNat < 128 := by
      have inRange := isSlugChar_iff.mp kept
      omega
    revert kept
    apply forall_ascii ascii
    decide
  · intro listed
    have kept : slugAlphabet.all isSlugChar = true := by
      decide
    exact List.all_eq_true.mp kept c listed

/-- A capital of the table is lowercased to its small letter. -/
theorem lowercase_of_mem_letterCases
    {upper lower : Char}
    (listed : (upper, lower) ∈ letterCases) :
    lowercase upper = [lower] := by
  have lowered :
      letterCases.all (fun pair => lowercase pair.1 = [pair.2]) = true := by
    decide
  simpa using List.all_eq_true.mp lowered (upper, lower) listed

/-- Every other ASCII character is lowercased to itself. -/
theorem lowercase_of_ascii
    {c : Char}
    (ascii : c.toNat < 128)
    (notCapital : c ∉ letterCases.map Prod.fst) :
    lowercase c = [c] := by
  revert notCapital
  apply forall_ascii ascii
  decide

/-- Every character beyond ASCII but the two is left as it is. -/
theorem lowercase_of_beyond
    {c : Char}
    (beyond : 128 ≤ c.toNat)
    (notKelvin : c ≠ '\u212a')
    (notDotted : c ≠ '\u0130') :
    lowercase c = [c] := by
  rw [lowercase, if_neg notKelvin, if_neg notDotted,
    toLower_of_beyond beyond]

theorem lowersTo_lowercase (c : Char) : LowersTo c (lowercase c) := by
  by_cases ascii : c.toNat < 128
  · by_cases isCapital : c ∈ letterCases.map Prod.fst
    · obtain ⟨⟨upper, lower⟩, listed, rfl⟩ := List.mem_map.mp isCapital
      rw [lowercase_of_mem_letterCases listed]
      exact .capital listed
    · rw [lowercase_of_ascii ascii isCapital]
      exact .ascii ascii isCapital
  · have beyond : 128 ≤ c.toNat :=
      Nat.le_of_not_lt ascii
    by_cases isKelvin : c = '\u212a'
    · subst isKelvin
      exact .kelvinSign
    · by_cases isDotted : c = '\u0130'
      · subst isDotted
        exact .dottedCapital
      · rw [lowercase_of_beyond beyond isKelvin isDotted]
        exact .beyond beyond isKelvin isDotted (by simp) (by simpa)

theorem lowercased_flatMap (name : List Char) :
    Lowercased name (name.flatMap lowercase) := by
  induction name with
  | nil =>
      exact .nil
  | cons c rest inductionHypothesis =>
      exact .cons (lowersTo_lowercase c) inductionHypothesis

/-- A run of characters that are left out counts as one of them. -/
theorem collapse_append_of_dropped
    {skipped : List Char}
    (written : skipped ≠ [])
    (dropped : ∀ c ∈ skipped, isSlugChar c = false)
    (started pending : Bool)
    (rest : List Char) :
    collapse started pending (skipped ++ rest) =
      collapse started true rest := by
  induction skipped generalizing pending with
  | nil =>
      exact absurd rfl written
  | cons c others inductionHypothesis =>
      obtain ⟨firstDropped, othersDropped⟩ := List.forall_mem_cons.mp dropped
      cases others with
      | nil =>
          simp [collapse, firstDropped]
      | cons next later =>
          rw [List.cons_append, collapse, firstDropped,
            if_neg Bool.false_ne_true]
          exact inductionHypothesis (by simp) othersDropped true

/-- A slug sees the same of a character in any of its lowercased forms. -/
theorem LowersTo.collapse_append
    {c : Char}
    {lowered : List Char}
    (lowersTo : LowersTo c lowered)
    (started pending : Bool)
    (rest : List Char) :
    collapse started pending (lowered ++ rest) =
      collapse started pending (lowercase c ++ rest) := by
  cases lowersTo with
  | capital listed =>
      rw [lowercase_of_mem_letterCases listed]
  | ascii inAscii notCapital =>
      rw [lowercase_of_ascii inAscii notCapital]
  | kelvinSign =>
      rfl
  | dottedCapital =>
      rfl
  | beyond outside notKelvin notDotted written loweredOutside =>
      have dropped : ∀ other ∈ lowered, isSlugChar other = false :=
        fun other listed => isSlugChar_of_beyond (loweredOutside other listed)
      have selfDropped : ∀ other ∈ [c], isSlugChar other = false :=
        List.forall_mem_singleton.mpr (isSlugChar_of_beyond outside)
      rw [collapse_append_of_dropped written dropped,
        lowercase_of_beyond outside notKelvin notDotted,
        collapse_append_of_dropped (by simp) selfDropped]

/-- Rests that collapse alike do so behind any characters. -/
theorem collapse_append_congr
    {left right : List Char}
    (alike :
      ∀ started pending,
        collapse started pending left = collapse started pending right)
    (before : List Char)
    (started pending : Bool) :
    collapse started pending (before ++ left) =
      collapse started pending (before ++ right) := by
  induction before generalizing started pending with
  | nil =>
      exact alike started pending
  | cons c rest inductionHypothesis =>
      simp [collapse, inductionHypothesis]

/-- Every lowercased form of a name collapses to one slug. -/
theorem Lowercased.collapse_eq
    {name text : List Char}
    (lowercased : Lowercased name text)
    (started pending : Bool) :
    collapse started pending text =
      collapse started pending (name.flatMap lowercase) := by
  induction lowercased generalizing started pending with
  | nil =>
      rfl
  | cons lowersTo _ inductionHypothesis =>
      rw [lowersTo.collapse_append, List.flatMap_cons]
      exact collapse_append_congr inductionHypothesis _ started pending

/-- A slug is the runs of its alphabet in any lowercased form of the name. -/
theorem toList_slugify_of_lowercased
    {name : String}
    {text : List Char}
    (lowercased : Lowercased name.toList text) :
    (slugify name).toList =
      ['-'].intercalate (runs slugAlphabet.contains text) := by
  rw [slugify, String.toList_ofList, slugChars, ← lowercased.collapse_eq,
    collapse_false, isSlugChar_eq_contains]

end AccessTopology.Text
