import AccessTopology.Proofs.Text.Ascii
import AccessTopology.Text.Uuid
import Mathlib.Algebra.GroupWithZero.Nat
import Mathlib.Data.List.Forall2
import Mathlib.Data.String.Basic

namespace AccessTopology.Text

/-!
# Groups of hexadecimal digits

A text is accepted as groups of hexadecimal digits exactly where it is runs of
these digits, of the sizes that are asked for, with one hyphen between two runs.
Such a text has as many bytes as characters, so a UUID has 36.
-/

/-- The hexadecimal digits of either letter case. -/
def hexDigits : List Char :=
  "0123456789abcdefABCDEF".toList

/-- Hexadecimal digits in some number, and nothing else. -/
structure IsHexRun (size : Nat) (run : List Char) : Prop where
  length :
    run.length = size
  digits :
    ∀ c ∈ run, c ∈ hexDigits

/-- Runs of hexadecimal digits of these sizes, joined by hyphens. -/
def IsHexGroups (sizes : List Nat) (text : List Char) : Prop :=
  ∃ runs,
    List.Forall₂ IsHexRun sizes runs ∧ ['-'].intercalate runs = text

/-- A UUID in its hyphenated form. -/
def IsUuid (text : List Char) : Prop :=
  IsHexGroups [8, 4, 4, 4, 12] text

/-- The characters that are tested for are the hexadecimal digits. -/
theorem isHexDigit_iff {c : Char} :
    isHexDigit c = true ↔ c ∈ hexDigits := by
  constructor
  · intro accepted
    have ascii : c.toNat < 128 := by
      have codePoint : c.val.toNat = c.toNat :=
        rfl
      have lastDigit : '9'.toNat = 57 :=
        rfl
      have lastLower : 'f'.val.toNat = 102 :=
        rfl
      have lastUpper : 'F'.val.toNat = 70 :=
        rfl
      simp only [isHexDigit, Bool.or_eq_true, Bool.and_eq_true,
        decide_eq_true_eq, Char.isDigit_iff_toNat, Char.le_def,
        UInt32.le_iff_toNat_le, codePoint, lastDigit, lastLower, lastUpper]
        at accepted
      omega
    revert accepted
    apply forall_ascii ascii
    decide
  · intro listed
    have accepted : hexDigits.all isHexDigit = true := by
      decide
    exact List.all_eq_true.mp accepted c listed

/-- Each hexadecimal digit is one byte. -/
theorem utf8Size_of_mem_hexDigits
    {c : Char}
    (listed : c ∈ hexDigits) :
    c.utf8Size = 1 := by
  have oneByte : hexDigits.all (·.utf8Size == 1) = true := by
    decide
  exact eq_of_beq (List.all_eq_true.mp oneByte c listed)

theorem isHexRun_zero_iff {run : List Char} :
    IsHexRun 0 run ↔ run = [] := by
  constructor
  · intro isRun
    exact List.length_eq_zero_iff.mp isRun.length
  · rintro rfl
    exact ⟨rfl, by simp⟩

theorem isHexRun_cons_iff
    {size : Nat}
    {c : Char}
    {run : List Char} :
    IsHexRun (size + 1) (c :: run) ↔ c ∈ hexDigits ∧ IsHexRun size run := by
  constructor
  · intro isRun
    obtain ⟨first, others⟩ := List.forall_mem_cons.mp isRun.digits
    exact ⟨first, Nat.succ.inj isRun.length, others⟩
  · rintro ⟨first, isRun⟩
    exact ⟨congrArg Nat.succ isRun.length,
      List.forall_mem_cons.mpr ⟨first, isRun.digits⟩⟩

/-- A text starts with a longer run where a digit is in front of a shorter one. -/
theorem exists_isHexRun_cons_iff
    {size : Nat}
    {c : Char}
    {text rest : List Char} :
    (∃ run, IsHexRun (size + 1) run ∧ run ++ rest = c :: text) ↔
      c ∈ hexDigits ∧ ∃ run, IsHexRun size run ∧ run ++ rest = text := by
  constructor
  · rintro ⟨run, isRun, whole⟩
    cases run with
    | nil =>
        cases isRun.length
    | cons first run =>
        obtain ⟨rfl, sameText⟩ := List.cons.inj whole
        obtain ⟨listed, others⟩ := isHexRun_cons_iff.mp isRun
        exact ⟨listed, run, others, sameText⟩
  · rintro ⟨listed, run, isRun, rfl⟩
    exact ⟨c :: run, isHexRun_cons_iff.mpr ⟨listed, isRun⟩, rfl⟩

/-- A run of digits is dropped where the text starts with one. -/
theorem dropHexDigits?_eq_some_iff
    {size : Nat}
    {text rest : List Char} :
    dropHexDigits? size text = some rest ↔
      ∃ run, IsHexRun size run ∧ run ++ rest = text := by
  induction size generalizing text with
  | zero =>
      simp [dropHexDigits?, isHexRun_zero_iff, eq_comm]
  | succ size inductionHypothesis =>
      cases text with
      | nil =>
          constructor
          · intro dropped
            cases dropped
          · rintro ⟨run, isRun, whole⟩
            rw [(List.append_eq_nil_iff.mp whole).1] at isRun
            cases isRun.length
      | cons c tail =>
          rw [dropHexDigits?, exists_isHexRun_cons_iff, ← isHexDigit_iff,
            ← inductionHypothesis]
          by_cases isDigit : isHexDigit c = true
          · simp [isDigit]
          · simp [isDigit]

/-- One group is a run of digits. -/
theorem isHexGroups_singleton_iff
    {size : Nat}
    {text : List Char} :
    IsHexGroups [size] text ↔ IsHexRun size text := by
  constructor
  · rintro ⟨runs, sized, rfl⟩
    cases sized with
    | cons isRun others =>
        cases others
        simpa using isRun
  · intro isRun
    exact ⟨[text], .cons isRun .nil, by simp⟩

/-- Of several groups the first is followed by a hyphen and the others. -/
theorem isHexGroups_cons_iff
    {size next : Nat}
    {sizes : List Nat}
    {text : List Char} :
    IsHexGroups (size :: next :: sizes) text ↔
      ∃ run rest,
        IsHexRun size run ∧ IsHexGroups (next :: sizes) rest ∧
          run ++ '-' :: rest = text := by
  constructor
  · rintro ⟨runs, sized, rfl⟩
    cases sized with
    | @cons _ run _ others isRun othersSized =>
        refine ⟨run, ['-'].intercalate others, isRun,
          ⟨others, othersSized, rfl⟩, ?_⟩
        cases othersSized with
        | cons _ _ =>
            simp [List.intercalate_cons_cons]
  · rintro ⟨run, rest, isRun, ⟨others, othersSized, rfl⟩, rfl⟩
    refine ⟨run :: others, .cons isRun othersSized, ?_⟩
    cases othersSized with
    | cons _ _ =>
        simp [List.intercalate_cons_cons]

/-- Groups are accepted exactly where they are written. -/
theorem isHexGroups_iff
    {size : Nat}
    {sizes : List Nat}
    {text : List Char} :
    isHexGroups (size :: sizes) text = true ↔
      IsHexGroups (size :: sizes) text := by
  induction sizes generalizing size text with
  | nil =>
      rw [isHexGroups_singleton_iff, isHexGroups, beq_iff_eq,
        dropHexDigits?_eq_some_iff]
      simp
  | cons next sizes inductionHypothesis =>
      rw [isHexGroups_cons_iff]
      constructor
      · intro accepted
        rw [isHexGroups] at accepted
        split at accepted
        · rename_i rest dropped
          obtain ⟨run, isRun, whole⟩ := dropHexDigits?_eq_some_iff.mp dropped
          exact ⟨run, rest, isRun, inductionHypothesis.mp accepted, whole⟩
        · cases accepted
        · simp
      · rintro ⟨run, rest, isRun, groups, whole⟩
        have dropped : dropHexDigits? size text = some ('-' :: rest) :=
          dropHexDigits?_eq_some_iff.mpr ⟨run, isRun, whole⟩
        rw [isHexGroups, dropped]
        · exact inductionHypothesis.mpr groups
        · simp

/-- What is accepted as a UUID is one. -/
theorem isUuid_iff {text : List Char} :
    isUuid text = true ↔ IsUuid text :=
  isHexGroups_iff

/-- Digits are as many bytes as they are characters. -/
theorem utf8Len_of_isHexRun
    {size : Nat}
    {run : List Char}
    (isRun : IsHexRun size run) :
    String.utf8Len run = size := by
  induction run generalizing size with
  | nil =>
      exact isRun.length
  | cons c rest inductionHypothesis =>
      cases size with
      | zero =>
          cases isRun.length
      | succ size =>
          obtain ⟨first, others⟩ := isHexRun_cons_iff.mp isRun
          rw [String.utf8Len_cons, inductionHypothesis others,
            utf8Size_of_mem_hexDigits first]

/-- Groups are as many bytes as their digits and the hyphens between them. -/
theorem utf8Len_of_isHexGroups
    {size : Nat}
    {sizes : List Nat}
    {text : List Char}
    (groups : IsHexGroups (size :: sizes) text) :
    String.utf8Len text = size + (sizes.map (· + 1)).sum := by
  have hyphen : '-'.utf8Size = 1 :=
    rfl
  induction sizes generalizing size text with
  | nil =>
      exact utf8Len_of_isHexRun (isHexGroups_singleton_iff.mp groups)
  | cons next sizes inductionHypothesis =>
      obtain ⟨run, rest, isRun, others, rfl⟩ :=
        isHexGroups_cons_iff.mp groups
      rw [String.utf8Len_append, String.utf8Len_cons,
        utf8Len_of_isHexRun isRun, inductionHypothesis others, hyphen,
        List.map_cons, List.sum_cons]
      omega

/-- A UUID has 36 bytes. -/
theorem utf8Len_of_isUuid
    {text : List Char}
    (isUuid : IsUuid text) :
    String.utf8Len text = 36 :=
  utf8Len_of_isHexGroups isUuid

/-- No digit is a hyphen. -/
theorem hyphen_not_mem_of_isHexRun
    {size : Nat}
    {run : List Char}
    (isRun : IsHexRun size run) :
    '-' ∉ run := by
  intro listed
  have notDigit : '-' ∉ hexDigits := by
    decide
  exact notDigit (isRun.digits '-' listed)

end AccessTopology.Text
