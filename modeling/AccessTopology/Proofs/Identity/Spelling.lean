import AccessTopology.Proofs.Topology.Identities

namespace AccessTopology

/-!
# Keys of different kinds

The prefixes of two kinds either differ at some character, or one goes on from
the other: a membership's from a group's, a policy's from a permission set's.
Keys of different kinds are therefore equal in one case only: the name of a
group spells the rest of a membership's key, or the name of a permission set
the rest of a policy's.
-/

namespace ResourceKind

/-- What follows the prefix of a kind, and a hyphen, in the prefix of another. -/
def suffix? : (shorter longer : ResourceKind) → Option String
  | group, groupMembership => some "membership"
  | permissionSet, inlinePolicy => some "inline-policy"
  | permissionSet, managedPolicyAttachment => some "managed-policy"
  | permissionSet, customerPolicyAttachment => some "customer-policy"
  | _, _ => none

variable {shorter longer : ResourceKind}

theorem keyPrefix_of_suffix?
    {suffix : String}
    (goesOn : shorter.suffix? longer = some suffix) :
    longer.keyPrefix = shorter.keyPrefix ++ ("-" ++ suffix) := by
  cases shorter <;> cases longer <;> cases goesOn <;> rfl

/-- A prefix begins with that of another kind only if it goes on from it. -/
theorem exists_suffix_of_prefix
    (differ : shorter ≠ longer)
    (begins : shorter.keyPrefix.toList <+: longer.keyPrefix.toList) :
    ∃ suffix, shorter.suffix? longer = some suffix := by
  have decided :
      shorter.keyPrefix.toList.isPrefixOf longer.keyPrefix.toList = true →
        shorter = longer ∨ (shorter.suffix? longer).isSome = true := by
    cases shorter <;> cases longer <;> decide
  rcases decided (List.isPrefixOf_iff_prefix.mpr begins) with same | goesOn
  · exact absurd same differ
  · exact Option.isSome_iff_exists.mp goesOn

end ResourceKind

namespace LogicalKey

variable {left right : ResourceKind} {leftNames rightNames : List String}

/-- The key of the shorter prefix is the other key if its names spell the rest. -/
theorem compose_eq_iff_of_suffix?
    {suffix : String}
    (goesOn : left.suffix? right = some suffix) :
    compose left leftNames = compose right rightNames ↔
      segments leftNames = "-" ++ (suffix ++ segments rightNames) := by
  rw [compose, compose, mk.injEq, ResourceKind.keyPrefix_of_suffix? goesOn,
    String.append_assoc, String.append_right_inj, String.append_assoc]

/-- Keys of different kinds are equal only where one prefix goes on from the other. -/
theorem exists_suffix_of_compose_eq
    (differ : left ≠ right)
    (same : compose left leftNames = compose right rightNames) :
    (∃ suffix, left.suffix? right = some suffix) ∨
      ∃ suffix, right.suffix? left = some suffix := by
  have sameText :
      left.keyPrefix.toList ++ (segments leftNames).toList =
        right.keyPrefix.toList ++ (segments rightNames).toList := by
    rw [compose, compose, mk.injEq] at same
    rw [← String.toList_append, ← String.toList_append, same]
  have leftBegins :
      left.keyPrefix.toList <+:
        right.keyPrefix.toList ++ (segments rightNames).toList :=
    sameText ▸ List.prefix_append _ _
  rcases List.prefix_or_prefix_of_prefix leftBegins
      (List.prefix_append _ _) with leftFirst | rightFirst
  · exact .inl (ResourceKind.exists_suffix_of_prefix differ leftFirst)
  · exact .inr (ResourceKind.exists_suffix_of_prefix differ.symm rightFirst)

/-- One name adds a hyphen and a text to a key if that text is its slug. -/
theorem segments_singleton_eq_iff
    {name rest : String}
    (written : rest ≠ "") :
    segments [name] = "-" ++ rest ↔ Text.slugify name = rest := by
  by_cases blank : Text.slugify name = ""
  · simp [segments, segment, blank, written.symm]
  · simp [segments, segment, blank]

end LogicalKey

namespace ResourceIdentity

/-- The names that the key of a resource is composed of. -/
def names : ResourceIdentity → List String
  | group name => [name]
  | user name => [name]
  | membership member container => [member, container]
  | permissionSet name => [name]
  | inlinePolicy set => [set]
  | managedPolicy set arn => [set, LogicalKey.policyPath arn]
  | customerPolicy set path name => [set, path, name]
  | assignment set principalKind principal account =>
      [set, principalKind.keyPart, principal, account]

theorem key_eq_compose (identity : ResourceIdentity) :
    identity.key = .compose identity.kind identity.names := by
  cases identity <;> rfl

/--
The slug of a resource's name spells what another resource's key has after the
prefix of the first one's kind.
-/
def Spells (shorter longer : ResourceIdentity) : Prop :=
  ∃ suffix name,
    shorter.kind.suffix? longer.kind = some suffix ∧
      shorter.names = [name] ∧
        Text.slugify name = suffix ++ LogicalKey.segments longer.names

variable {left right : ResourceIdentity}

/-- Only groups and permission sets have a prefix from which others go on. -/
theorem exists_name_of_suffix?
    {suffix : String}
    (goesOn : left.kind.suffix? right.kind = some suffix) :
    suffix ≠ "" ∧ ∃ name, left.names = [name] := by
  cases left <;> cases right <;> cases goesOn <;>
    exact ⟨by decide, _, rfl⟩

theorem spells_iff
    {suffix : String}
    (goesOn : left.kind.suffix? right.kind = some suffix) :
    left.Spells right ↔ left.key = right.key := by
  obtain ⟨written, name, only⟩ := exists_name_of_suffix? goesOn
  have restWritten :
      suffix ++ LogicalKey.segments right.names ≠ "" := by
    rw [Ne, String.append_eq_empty_iff]
    exact fun empty => written empty.1
  rw [key_eq_compose, key_eq_compose,
    LogicalKey.compose_eq_iff_of_suffix? goesOn, only,
    LogicalKey.segments_singleton_eq_iff restWritten, Spells]
  constructor
  · rintro ⟨otherSuffix, otherName, alsoGoesOn, alsoOnly, spelled⟩
    obtain rfl : suffix = otherSuffix :=
      Option.some.inj (goesOn.symm.trans alsoGoesOn)
    obtain rfl : name = otherName :=
      List.singleton_inj.mp (only.symm.trans alsoOnly)
    exact spelled
  · intro spelled
    exact ⟨suffix, name, goesOn, only, spelled⟩

/-- Resources of different kinds share a key where the name of one spells it. -/
theorem key_eq_iff_of_kind_ne
    (differ : left.kind ≠ right.kind) :
    left.key = right.key ↔ left.Spells right ∨ right.Spells left := by
  constructor
  · intro same
    rw [key_eq_compose, key_eq_compose] at same
    rcases LogicalKey.exists_suffix_of_compose_eq differ same with
      ⟨suffix, goesOn⟩ | ⟨suffix, goesOn⟩
    · rw [← key_eq_compose, ← key_eq_compose] at same
      exact .inl ((spells_iff goesOn).mpr same)
    · rw [← key_eq_compose, ← key_eq_compose] at same
      exact .inr ((spells_iff goesOn).mpr same.symm)
  · rintro (spells | spells)
    · have ⟨_, _, goesOn, _⟩ := spells
      exact (spells_iff goesOn).mp spells
    · have ⟨_, _, goesOn, _⟩ := spells
      exact ((spells_iff goesOn).mp spells).symm

end ResourceIdentity

end AccessTopology
