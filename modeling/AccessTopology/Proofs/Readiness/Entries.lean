import AccessTopology.Proofs.Identity.Spelling
import AccessTopology.Proofs.Readiness

namespace AccessTopology

/-!
# Looking up states

A status has an entry for each group, user, permission set and assignment that
a scope reports, and no other.  The entry is found among those of its kind and
says what was observed under its key, so that two statuses of a scope have one
entry under a key of which the same was observed.
-/

/-- The map of two joined lists prefers the second. -/
theorem KeyMap.get?_ofList_append
    (lower upper : List (String × α))
    (query : String) :
    (ofList (lower ++ upper)).get? query =
      ((ofList upper).get? query).or ((ofList lower).get? query) := by
  simp only [get?_ofList, List.reverse_append, List.lookup_append]

/-- The keys of a kind are composed of its prefix and some names. -/
theorem Scope.exists_names_of_reported
    {scope : Scope}
    {kind : ResourceKind}
    {key : LogicalKey}
    (reported : key ∈ scope.reportedKeys kind) :
    ∃ names, key = .compose kind names := by
  cases kind with
  | group | user =>
      simp only [reportedKeys] at reported
      split at reported
      · obtain ⟨declared, _, rfl⟩ := List.mem_map.mp reported
        exact ⟨_, rfl⟩
      · cases reported
  | permissionSet | accountAssignment =>
      obtain ⟨declared, _, rfl⟩ := List.mem_map.mp reported
      exact ⟨_, rfl⟩
  | _ =>
      cases reported

/-- What was observed under a key decides the state of a resource. -/
theorem ResourceStatus.ofObservations_congr
    {left right : Observations}
    {key : LogicalKey}
    (same : left.get? key = right.get? key)
    (kind : ResourceKind) :
    ofObservations left kind key = ofObservations right kind key := by
  rw [ofObservations, ofObservations, same]

namespace StatusSummary

/-- The states among which those of a kind are found. -/
def ofKind (summary : StatusSummary) : ResourceKind → KeyMap ResourceStatus
  | .group | .user => summary.principals
  | .permissionSet => summary.permissionSets
  | .accountAssignment => summary.assignments
  | _ => .empty

variable {scope : Scope} {observations : Observations}

/-- A state is found under each of the keys that were asked for. -/
theorem get?_ofList_statuses
    (observations : Observations)
    (kind : ResourceKind)
    (keys : List LogicalKey)
    (key : LogicalKey) :
    (KeyMap.ofList (statuses observations kind keys)).get? key.text =
      if key ∈ keys then
        some (.ofObservations observations kind key)
      else none := by
  have found (asked : List LogicalKey) :
      (statuses observations kind asked).lookup key.text =
        if key ∈ asked then
          some (.ofObservations observations kind key)
        else none := by
    induction asked with
    | nil =>
        rfl
    | cons first rest inductionHypothesis =>
        rw [statuses, List.map_cons, KeyMap.lookup_cons_ite, ← statuses,
          inductionHypothesis]
        by_cases isFirst : key = first
        · simp [isFirst]
        · simp [isFirst, LogicalKey.text_inj]
  rw [KeyMap.get?_ofList, statuses, ← List.map_reverse, ← statuses, found]
  simp only [List.mem_reverse]

/-- Principals are found as users, else as groups. -/
theorem get?_principals
    (scope : Scope)
    (observations : Observations)
    (key : LogicalKey) :
    (ofScope scope observations).principals.get? key.text =
      (if key ∈ scope.reportedKeys .user then
        some (ResourceStatus.ofObservations observations .user key)
      else none).or
        (if key ∈ scope.reportedKeys .group then
          some (.ofObservations observations .group key)
        else none) := by
  simp only [ofScope, principalStatuses, Scope.reportedKeys]
  by_cases managed : scope.managesPrincipals = true
  · simp only [if_pos managed, KeyMap.get?_ofList_append,
      get?_ofList_statuses]
  · simp [managed]

/-- No group shares its key with a user. -/
theorem not_reported_as_user
    {key : LogicalKey}
    (asGroup : key ∈ scope.reportedKeys .group) :
    key ∉ scope.reportedKeys .user := by
  intro asUser
  obtain ⟨groupNames, isGroup⟩ := Scope.exists_names_of_reported asGroup
  obtain ⟨userNames, isUser⟩ := Scope.exists_names_of_reported asUser
  have kindsDiffer : ResourceKind.group ≠ ResourceKind.user := by
    decide
  rcases LogicalKey.exists_suffix_of_compose_eq kindsDiffer
      (isGroup.symm.trans isUser) with ⟨_, goesOn⟩ | ⟨_, goesOn⟩
  · cases goesOn
  · cases goesOn

/-- Under each key that it reports a status has what was observed. -/
theorem get?_ofKind
    {kind : ResourceKind}
    {key : LogicalKey}
    (reported : key ∈ scope.reportedKeys kind) :
    ((ofScope scope observations).ofKind kind).get? key.text =
      some (.ofObservations observations kind key) := by
  cases kind with
  | group =>
      rw [ofKind, get?_principals, if_neg (not_reported_as_user reported),
        if_pos reported, Option.none_or]
  | user =>
      rw [ofKind, get?_principals, if_pos reported, Option.some_or]
  | permissionSet | accountAssignment =>
      exact (get?_ofList_statuses _ _ _ _).trans (if_pos reported)
  | _ =>
      cases reported

/-- Under a key of which the same was observed, two statuses have one entry. -/
theorem get?_ofKind_congr
    {left right : Observations}
    {key : LogicalKey}
    (same : left.get? key = right.get? key)
    (scope : Scope)
    (kind : ResourceKind) :
    ((ofScope scope left).ofKind kind).get? key.text =
      ((ofScope scope right).ofKind kind).get? key.text := by
  have principals :
      (ofScope scope left).principals.get? key.text =
        (ofScope scope right).principals.get? key.text := by
    simp only [get?_principals, ResourceStatus.ofObservations_congr same]
  cases kind with
  | group | user =>
      exact principals
  | permissionSet | accountAssignment =>
      simp only [ofKind, ofScope, permissionSetStatuses, assignmentStatuses,
        get?_ofList_statuses, ResourceStatus.ofObservations_congr same]
  | _ =>
      rfl

end StatusSummary

end AccessTopology
