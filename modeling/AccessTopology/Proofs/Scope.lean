import AccessTopology.Proofs.Text.Blank
import AccessTopology.Rendering

namespace AccessTopology

/-!
# What the drafts of a composite share

A topology may leave open its organization's name, the provider configuration
and the management policies.  Of a name that is given only what is between
blank characters counts, and the composite's own name stands in where nothing
is.  The settings' policies stand in where the topology gives none.
-/

/-- The name that a topology gives, or the one that stands in for it. -/
inductive NameOr (standIn : String) : Option String → String → Prop
  | absent :
      NameOr standIn none standIn
  | blank {text : String} :
      Text.IsTrimmed text "" →
        NameOr standIn (some text) standIn
  | given {text name : String} :
      Text.IsTrimmed text name →
      name ≠ "" →
        NameOr standIn (some text) name

/-- The policies that a topology gives, or those that stand in for them. -/
inductive PoliciesOr
    (standIn : List String) :
    Option (List String) → List String → Prop
  | absent :
      PoliciesOr standIn none standIn
  | empty :
      PoliciesOr standIn (some []) standIn
  | given {policies : List String} :
      policies ≠ [] →
        PoliciesOr standIn (some policies) policies

theorem nameOr_iff
    {standIn name : String}
    {given : Option String} :
    NameOr standIn given name ↔
      (given.bind Text.nonBlank?).getD standIn = name := by
  constructor
  · intro settled
    cases settled with
    | absent =>
        rfl
    | blank trimmed =>
        simp [Text.nonBlank?, trimmed.trim_eq]
    | given trimmed written =>
        simp [Text.nonBlank?, trimmed.trim_eq, written]
  · rintro rfl
    cases given with
    | none =>
        exact .absent
    | some text =>
        have trimmed := Text.isTrimmed_trim text
        by_cases blank : Text.trim text = ""
        · rw [blank] at trimmed
          simpa [Text.nonBlank?, blank] using NameOr.blank trimmed
        · simpa [Text.nonBlank?, blank] using NameOr.given trimmed blank

theorem policiesOr_iff
    {spec : Spec}
    {standIn policies : List String} :
    PoliciesOr standIn spec.managementPolicies policies ↔
      spec.managementPolicies?.getD standIn = policies := by
  rw [Spec.managementPolicies?]
  constructor
  · intro settled
    generalize spec.managementPolicies = given at settled
    cases settled with
    | absent | empty =>
        rfl
    | given written =>
        obtain ⟨first, others, rfl⟩ := List.exists_cons_of_ne_nil written
        rfl
  · rintro rfl
    cases spec.managementPolicies with
    | none =>
        exact .absent
    | some policies =>
        cases policies with
        | nil =>
            exact .empty
        | cons first others =>
            exact .given (List.cons_ne_nil first others)

/-- What all drafts of a composite have in common. -/
structure Shared where
  organization : String
  managementPolicies : List String
  providerConfig : String

/-- What the drafts of a scope have in common. -/
def Scope.shared (scope : Scope) : Shared :=
  { organization := scope.organizationName
    managementPolicies := scope.managementPolicies
    providerConfig := scope.providerConfigName }

/-- What a composite and its settings leave to all drafts in common. -/
structure Composite.Settles
    (composite : Composite)
    (settings : Settings)
    (shared : Shared) :
    Prop where
  organization :
    NameOr composite.metadata.name composite.spec.organizationName
      shared.organization
  managementPolicies :
    PoliciesOr settings.managementPolicies composite.spec.managementPolicies
      shared.managementPolicies
  providerConfig :
    NameOr composite.metadata.name
      (composite.spec.providerConfigRef.bind ProviderConfigRef.name)
      shared.providerConfig

/-- A composite settles on what its scope has, and on nothing else. -/
theorem Composite.settles_iff
    {composite : Composite}
    {settings : Settings}
    {shared : Shared} :
    composite.Settles settings shared ↔
      (composite.scope settings).shared = shared := by
  constructor
  · rintro ⟨organization, managementPolicies, providerConfig⟩
    cases shared
    rw [Scope.shared, Shared.mk.injEq]
    exact ⟨nameOr_iff.mp organization,
      policiesOr_iff.mp managementPolicies, nameOr_iff.mp providerConfig⟩
  · rintro rfl
    exact
      { organization := nameOr_iff.mpr rfl
        managementPolicies := policiesOr_iff.mpr rfl
        providerConfig := nameOr_iff.mpr rfl }

end AccessTopology
