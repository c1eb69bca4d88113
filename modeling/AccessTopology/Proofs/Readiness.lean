import AccessTopology.Proofs.KeyMap.Extensionality
import AccessTopology.Readiness

namespace AccessTopology

/-!
# What a status says

The counts of a status add up to the number of its entries, and all of them are
ready exactly when there is one and none is in another state.  An entry is
pending when nothing was observed under its key, and then it has no identifier.
-/

namespace ReadinessCounts

/-- Number of resources in any state. -/
def total (counts : ReadinessCounts) : Nat :=
  counts.ready + counts.provisioning + counts.pending

/-- Every status is counted, and only once. -/
theorem total_ofStatuses (statuses : List ResourceStatus) :
    (ofStatuses statuses).total = statuses.length := by
  rw [total, ofStatuses]
  induction statuses with
  | nil =>
      rfl
  | cons status rest inductionHypothesis =>
      simp only [List.countP_cons, List.length_cons] at *
      cases status.state <;> simp <;> omega

/-- All are ready when there is a status and none says otherwise. -/
theorem allReady_ofStatuses_iff (statuses : List ResourceStatus) :
    (ofStatuses statuses).allReady = true ↔
      0 < statuses.length ∧
        ∀ status ∈ statuses, status.state = .ready := by
  have provisioningNone :
      (ofStatuses statuses).provisioning = 0 ↔
        ∀ status ∈ statuses, status.state ≠ .provisioning := by
    simp [ofStatuses, List.countP_eq_zero]
  have pendingNone :
      (ofStatuses statuses).pending = 0 ↔
        ∀ status ∈ statuses, status.state ≠ .pending := by
    simp [ofStatuses, List.countP_eq_zero]
  have counted := total_ofStatuses statuses
  rw [total] at counted
  rw [allReady]
  simp only [Bool.and_eq_true, decide_eq_true_eq]
  constructor
  · rintro ⟨⟨someReady, noneProvisioning⟩, nonePending⟩
    refine ⟨by omega, ?_⟩
    intro status member
    have notProvisioning :=
      provisioningNone.mp noneProvisioning status member
    have notPending := pendingNone.mp nonePending status member
    cases state : status.state with
    | ready =>
        rfl
    | provisioning =>
        exact absurd state notProvisioning
    | pending =>
        exact absurd state notPending
  · rintro ⟨someStatus, allReady⟩
    have noneProvisioning :=
      provisioningNone.mpr fun status member => by
        simp [allReady status member]
    have nonePending :=
      pendingNone.mpr fun status member => by
        simp [allReady status member]
    exact ⟨⟨by omega, noneProvisioning⟩, nonePending⟩

end ReadinessCounts

/-- A resource is pending when nothing was observed under its key. -/
theorem ResourceStatus.unobserved_of_pending
    {observations : Observations}
    {kind : ResourceKind}
    {key : LogicalKey}
    (pending : (ofObservations observations kind key).state = .pending) :
    observations.get? key = none ∧
      (ofObservations observations kind key).id = none := by
  cases observed : observations.get? key with
  | none =>
      simp [ofObservations, observed]
  | some observation =>
      rw [ofObservations, observed] at pending
      cases ready : observation.ready <;> simp [ready] at pending

/-- The keys of a scope's resources of some kind, if their states are reported. -/
def Scope.reportedKeys (scope : Scope) : ResourceKind → List LogicalKey
  | .group =>
      if scope.managesPrincipals then
        scope.spec.groups.map (fun group => .group group.name)
      else []
  | .user =>
      if scope.managesPrincipals then
        scope.spec.users.map (fun user => .user user.name)
      else []
  | .permissionSet =>
      scope.spec.permissionSets.map (fun set => .permissionSet set.name)
  | .accountAssignment => scope.spec.expandAssignments.map Assignment.key
  | _ => []

namespace StatusSummary

/-- Every entry of a status. -/
def entries (summary : StatusSummary) : List (String × ResourceStatus) :=
  summary.principals.entries ++ summary.permissionSets.entries ++
    summary.assignments.entries

variable {scope : Scope} {observations : Observations}

theorem mem_keys_statuses
    {kind : ResourceKind}
    {keys : List LogicalKey}
    {text : String} :
    text ∈ (statuses observations kind keys).map Prod.fst ↔
      ∃ key ∈ keys, key.text = text := by
  simp [statuses]

/-- Every entry of a status is what was observed under a key it reports. -/
theorem exists_key_of_mem_entries
    {entry : String × ResourceStatus}
    (listed : entry ∈ (ofScope scope observations).entries) :
    ∃ kind,
      ∃ key ∈ scope.reportedKeys kind,
        entry =
          (key.text, ResourceStatus.ofObservations observations kind key) := by
  have ofKeys
      (kind : ResourceKind)
      {keys : List LogicalKey}
      (reported : scope.reportedKeys kind = keys)
      (member : entry ∈ statuses observations kind keys) :
      ∃ kind,
        ∃ key ∈ scope.reportedKeys kind,
          entry =
            (key.text,
              ResourceStatus.ofObservations observations kind key) := by
    obtain ⟨key, asked, isEntry⟩ := List.mem_map.mp member
    exact ⟨kind, key, reported ▸ asked, isEntry.symm⟩
  rw [entries, List.mem_append, List.mem_append] at listed
  rcases listed with (inPrincipals | inSets) | inAssignments
  · simp only [ofScope, principalStatuses] at inPrincipals
    split at inPrincipals
    · rename_i managed
      rcases List.mem_append.mp (KeyMap.mem_entries_ofList inPrincipals) with
        ofGroup | ofUser
      · exact ofKeys .group (if_pos managed) ofGroup
      · exact ofKeys .user (if_pos managed) ofUser
    · cases inPrincipals
  · exact ofKeys .permissionSet rfl (KeyMap.mem_entries_ofList inSets)
  · exact ofKeys .accountAssignment rfl
      (KeyMap.mem_entries_ofList inAssignments)

theorem counts_ofScope :
    (ofScope scope observations).counts =
      .ofStatuses ((ofScope scope observations).entries.map Prod.snd) := by
  simp only [ofScope, entries, List.map_append, KeyMap.values]

/-- The counts of a status add up to the number of its entries. -/
theorem total_counts_ofScope :
    (ofScope scope observations).counts.total =
      (ofScope scope observations).entries.length := by
  rw [counts_ofScope, ReadinessCounts.total_ofStatuses, List.length_map]

/-- A status is ready when it has an entry and all of its entries are ready. -/
theorem ready_ofScope_iff :
    (ofScope scope observations).ready = true ↔
      0 < (ofScope scope observations).entries.length ∧
        ∀ entry ∈ (ofScope scope observations).entries,
          entry.2.state = .ready := by
  have isReady :
      (ofScope scope observations).ready =
        (ofScope scope observations).counts.allReady :=
    rfl
  rw [isReady, counts_ofScope, ReadinessCounts.allReady_ofStatuses_iff,
    List.length_map, List.forall_mem_map]

theorem map_fst_statuses
    (observations : Observations)
    (kind : ResourceKind)
    (keys : List LogicalKey) :
    (statuses observations kind keys).map Prod.fst =
      keys.map LogicalKey.text := by
  rw [statuses, List.map_map]
  rfl

section Keys

variable {leftScope rightScope : Scope} (left right : Observations)

/-- Which principals have a state does not depend on what was observed. -/
theorem keys_principals_eq
    (managed :
      leftScope.managesPrincipals = rightScope.managesPrincipals)
    (groups :
      leftScope.spec.groups.map
          (fun group => LogicalKey.group group.name) =
        rightScope.spec.groups.map
          (fun group => LogicalKey.group group.name))
    (users :
      leftScope.spec.users.map (fun user => LogicalKey.user user.name) =
        rightScope.spec.users.map
          (fun user => LogicalKey.user user.name)) :
    (ofScope leftScope left).principals.keys =
      (ofScope rightScope right).principals.keys := by
  simp only [ofScope, principalStatuses, managed]
  split
  · refine KeyMap.keys_ofList_eq ?_
    rw [List.map_append, List.map_append]
    simp only [map_fst_statuses, groups, users]
  · rfl

theorem keys_permissionSets_eq
    (sets :
      leftScope.spec.permissionSets.map
          (fun set => LogicalKey.permissionSet set.name) =
        rightScope.spec.permissionSets.map
          (fun set => LogicalKey.permissionSet set.name)) :
    (ofScope leftScope left).permissionSets.keys =
      (ofScope rightScope right).permissionSets.keys := by
  refine KeyMap.keys_ofList_eq ?_
  rw [map_fst_statuses, map_fst_statuses, sets]

theorem keys_assignments_eq
    (bindings :
      leftScope.spec.expandAssignments.map Assignment.key =
        rightScope.spec.expandAssignments.map Assignment.key) :
    (ofScope leftScope left).assignments.keys =
      (ofScope rightScope right).assignments.keys := by
  refine KeyMap.keys_ofList_eq ?_
  rw [map_fst_statuses, map_fst_statuses, bindings]

end Keys

end StatusSummary

end AccessTopology
