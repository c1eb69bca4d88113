import AccessTopology.Proofs.Text.Search
import AccessTopology.Proofs.Text.Uuid
import AccessTopology.Proofs.Topology.Resolution

namespace AccessTopology

/-!
# What a principal id looks like

A principal id is a UUID, which ten hexadecimal digits and a hyphen may precede.
The test for it cuts a text at its first hyphen, which every UUID has as well,
and takes exactly these texts.  It may count bytes and leave texts of 36 bytes to
any reader of UUIDs, whatever that reader makes of shorter and longer texts.  A
name that no draft stands for resolves exactly when it is a principal id.
-/

/-- A UUID, or ten hexadecimal digits, a hyphen and a UUID. -/
inductive IsPrincipalId (text : String) : Prop
  | bare :
      Text.IsUuid text.toList → IsPrincipalId text
  | inStore (store uuid : List Char) :
      Text.IsHexRun 10 store →
      Text.IsUuid uuid →
      store ++ '-' :: uuid = text.toList →
        IsPrincipalId text

/--
What is left of a text behind its first hyphen, if ten bytes are before it and
all of them are hexadecimal digits; else the text itself.
-/
def withoutStorePrefix (text : String) : String :=
  match Text.splitFirst? ['-'] text.toList with
  | some (head, rest) =>
      if (String.ofList head).utf8ByteSize = 10 ∧
          head.all Text.isHexDigit = true then
        .ofList rest
      else text
  | none => text

/-- The test that asks a reader of UUIDs about what is left, if that has 36 bytes. -/
def isPrincipalIdBy
    (readsUuid : String → Bool)
    (text : String) :
    Bool :=
  (withoutStorePrefix text).utf8ByteSize == 36 &&
    readsUuid (withoutStorePrefix text)

/-- Of the texts of 36 bytes a reader takes exactly the hyphenated UUIDs. -/
def ReadsHyphenated (readsUuid : String → Bool) : Prop :=
  ∀ text : String,
    text.utf8ByteSize = 36 →
      (readsUuid text = true ↔ Text.IsUuid text.toList)

/-- A store's prefix is ten hexadecimal digits. -/
theorem isStorePrefix_iff {text : List Char} :
    isStorePrefix text = true ↔ Text.IsHexRun 10 text := by
  rw [isStorePrefix, beq_iff_eq, Text.dropHexDigits?_eq_some_iff]
  simp

/-- Ten bytes that are hexadecimal digits are ten digits. -/
theorem measured_iff_isStorePrefix {text : List Char} :
    (String.ofList text).utf8ByteSize = 10 ∧
        text.all Text.isHexDigit = true ↔
      isStorePrefix text = true := by
  rw [isStorePrefix_iff, String.utf8ByteSize_ofList, List.all_eq_true]
  simp only [Text.isHexDigit_iff]
  constructor
  · rintro ⟨measured, digits⟩
    have isRun : Text.IsHexRun text.length text := ⟨rfl, digits⟩
    rw [Text.utf8Len_of_isHexRun isRun] at measured
    exact ⟨measured, digits⟩
  · intro isRun
    exact ⟨Text.utf8Len_of_isHexRun isRun, isRun.digits⟩

/-- What is left without a store's prefix is tested for a UUID. -/
theorem isPrincipalId_eq_isUuid (text : String) :
    isPrincipalId text = Text.isUuid (withoutStorePrefix text).toList := by
  rw [isPrincipalId, withoutStorePrefix]
  cases Text.splitFirst? ['-'] text.toList with
  | none =>
      rfl
  | some parts =>
      simp only [measured_iff_isStorePrefix]
      split
      · rw [String.toList_ofList]
      · rfl

/-- A reader that takes the hyphenated UUIDs takes part in the same test. -/
theorem isPrincipalIdBy_eq
    {readsUuid : String → Bool}
    (hyphenated : ReadsHyphenated readsUuid)
    (text : String) :
    isPrincipalIdBy readsUuid text = isPrincipalId text := by
  rw [isPrincipalId_eq_isUuid, isPrincipalIdBy, Bool.eq_iff_iff,
    Bool.and_eq_true, beq_iff_eq, Text.isUuid_iff]
  constructor
  · rintro ⟨measured, read⟩
    exact (hyphenated _ measured).mp read
  · intro isUuid
    have measured : (withoutStorePrefix text).utf8ByteSize = 36 := by
      rw [← String.utf8Len_toList]
      exact Text.utf8Len_of_isUuid isUuid
    exact ⟨measured, (hyphenated _ measured).mpr isUuid⟩

/-- A UUID does not start like ten digits in front of a hyphen. -/
theorem withoutStorePrefix_of_isUuid
    {text : String}
    (isUuid : Text.IsUuid text.toList) :
    withoutStorePrefix text = text := by
  obtain ⟨run, rest, isRun, _, whole⟩ := Text.isHexGroups_cons_iff.mp isUuid
  have notPrefix : ¬isStorePrefix run = true := by
    intro isPrefix
    have tenDigits := (isStorePrefix_iff.mp isPrefix).length
    have eightDigits := isRun.length
    omega
  rw [withoutStorePrefix, ← whole,
    Text.splitFirst?_append (Text.hyphen_not_mem_of_isHexRun isRun)]
  simp only [measured_iff_isStorePrefix, if_neg notPrefix]

/-- What follows ten digits and a hyphen is left without them. -/
theorem withoutStorePrefix_of_isHexRun
    {text : String}
    {store rest : List Char}
    (isRun : Text.IsHexRun 10 store)
    (whole : store ++ '-' :: rest = text.toList) :
    withoutStorePrefix text = .ofList rest := by
  rw [withoutStorePrefix, ← whole,
    Text.splitFirst?_append (Text.hyphen_not_mem_of_isHexRun isRun)]
  simp only [measured_iff_isStorePrefix, isStorePrefix_iff.mpr isRun,
    ↓reduceIte]

/-- The test for a principal id takes exactly the texts that look like one. -/
theorem isPrincipalId_iff {text : String} :
    isPrincipalId text = true ↔ IsPrincipalId text := by
  constructor
  · intro accepted
    rw [isPrincipalId] at accepted
    split at accepted
    · rename_i head rest cut
      split at accepted
      · rename_i isPrefix
        have whole := Text.append_of_splitFirst? cut
        exact .inStore head rest (isStorePrefix_iff.mp isPrefix)
          (Text.isUuid_iff.mp accepted) (by simpa using whole)
      · exact .bare (Text.isUuid_iff.mp accepted)
    · exact .bare (Text.isUuid_iff.mp accepted)
  · intro looksLike
    rw [isPrincipalId_eq_isUuid, Text.isUuid_iff]
    cases looksLike with
    | bare isUuid =>
        rw [withoutStorePrefix_of_isUuid isUuid]
        exact isUuid
    | inStore store uuid isRun isUuid whole =>
        rw [withoutStorePrefix_of_isHexRun isRun whole, String.toList_ofList]
        exact isUuid

namespace Scope

variable {scope : Scope} {kind : PrincipalKind} {name : String}

/-- A name that no draft stands for can stand for itself only. -/
theorem resolvePrincipal_eq_external_iff
    (undrafted : ¬scope.DraftsPrincipal kind name) :
    scope.resolvePrincipal kind name = .ok (.external name) ↔
      IsPrincipalId name := by
  rw [resolvePrincipal_eq_ok_iff, ← isPrincipalId_iff]
  constructor
  · intro stands
    cases stands with
    | literal _ isId =>
        exact isId
  · exact .literal undrafted

/-- A name that stands for nothing is a fault that tells whether it is declared. -/
theorem resolvePrincipal_eq_error
    (undrafted : ¬scope.DraftsPrincipal kind name)
    (noId : ¬IsPrincipalId name) :
    scope.resolvePrincipal kind name =
      .error
        (.configuration
          (if scope.declaresPrincipal kind name then
            .unmanagedPrincipal kind name
          else
            .unknownPrincipal kind name)) := by
  have notAccepted := isPrincipalId_iff.not.mpr noId
  have notDrafted :
      ¬(scope.declaresPrincipal kind name && scope.managesPrincipals) =
        true := by
    rwa [Bool.and_eq_true, declaresPrincipal_iff]
  simp only [resolvePrincipal, if_neg notDrafted, if_neg notAccepted]
  split <;> rfl

end Scope

/--
How principal ids are told from other texts, where texts of 36 bytes may be left
to a reader of UUIDs.
-/
structure TellsPrincipalIds (readsUuid : String → Bool) : Prop where
  recognised :
    ∀ text, isPrincipalId text = true ↔ IsPrincipalId text
  measured :
    ∀ text, isPrincipalIdBy readsUuid text = isPrincipalId text
  external :
    ∀ (scope : Scope) kind name,
      ¬scope.DraftsPrincipal kind name →
        (scope.resolvePrincipal kind name = .ok (.external name) ↔
          IsPrincipalId name)
  refused :
    ∀ (scope : Scope) kind name,
      ¬scope.DraftsPrincipal kind name →
        ¬IsPrincipalId name →
          scope.resolvePrincipal kind name =
            .error
              (.configuration
                (if scope.declaresPrincipal kind name then
                  .unmanagedPrincipal kind name
                else
                  .unknownPrincipal kind name))

/--
Principal ids are the texts that look like one, tested with any reader that
takes exactly the hyphenated UUIDs among the texts of 36 bytes.  The name of a
principal that is not drafted resolves to itself if it is one, and is a fault of
the topology otherwise.
-/
theorem principal_ids_told
    {readsUuid : String → Bool}
    (hyphenated : ReadsHyphenated readsUuid) :
    TellsPrincipalIds readsUuid where
  recognised := fun _ => isPrincipalId_iff
  measured := isPrincipalIdBy_eq hyphenated
  external := fun _ _ _ => Scope.resolvePrincipal_eq_external_iff
  refused := fun _ _ _ => Scope.resolvePrincipal_eq_error

/-- A reader of UUIDs, hyphenated or 32 digits in a row. -/
def readsEitherForm (text : String) : Bool :=
  Text.isUuid text.toList || Text.isHexGroups [32] text.toList

/-- Digits in a row are too short to be taken for a hyphenated UUID. -/
theorem readsHyphenated_readsEitherForm :
    ReadsHyphenated readsEitherForm := by
  intro text measured
  have notInARow : ¬Text.IsHexGroups [32] text.toList := by
    intro inARow
    have shorter := Text.utf8Len_of_isHexGroups inARow
    rw [String.utf8Len_toList, measured] at shorter
    cases shorter
  rw [readsEitherForm, Bool.or_eq_true, Text.isUuid_iff,
    Text.isHexGroups_iff]
  simp [notInARow]

/--
Where nothing is declared, a UUID behind a store's prefix stands for itself, and
digits in a row for nothing, though the reader takes them.
-/
theorem principal_ids_told_sample :
    ReadsHyphenated readsEitherForm ∧
      (Scope.build "acme" {} {}).resolvePrincipal .group
          "906754B1D0-0a1b2c3d-1111-2222-3333-444455556666" =
        .ok (.external "906754B1D0-0a1b2c3d-1111-2222-3333-444455556666") ∧
      readsEitherForm "0a1b2c3d111122223333444455556666" = true ∧
      (Scope.build "acme" {} {}).resolvePrincipal .group
          "0a1b2c3d111122223333444455556666" =
        .error
          (.configuration
            (.unknownPrincipal .group "0a1b2c3d111122223333444455556666")) := by
  have told := principal_ids_told readsHyphenated_readsEitherForm
  have undrafted (name : String) :
      ¬(Scope.build "acme" {} {}).DraftsPrincipal .group name := by
    rintro ⟨⟨_, listed, _⟩, _⟩
    cases listed
  refine ⟨readsHyphenated_readsEitherForm, ?_, by decide +kernel, ?_⟩
  · rw [told.external _ _ _ (undrafted _), ← told.recognised,
      ← told.measured]
    decide +kernel
  · refine told.refused _ _ _ (undrafted _) ?_
    rw [← told.recognised, ← told.measured]
    decide +kernel

end AccessTopology
