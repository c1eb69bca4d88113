import AccessTopology.Proofs.Readiness
import AccessTopology.Proofs.Rendering.References

namespace AccessTopology

/-!
# The status of a rendering

A status takes its keys from the topology and a rendering takes its drafts from
the stages.  Both have the same groups, users, permission sets and assignments,
so the status counts each of these drafts once.
-/

/-- Whether the state of a resource of some kind is part of a status. -/
def ResourceKind.hasStatus : ResourceKind → Bool
  | group | user | permissionSet | accountAssignment => true
  | _ => false

/--
A status has exactly the groups, users, permission sets and assignments that
were drafted.
-/
structure StatusSummary.AgreesWith
    (summary : StatusSummary)
    (drafts : List Draft) :
    Prop where
  principals :
    ∀ text,
      text ∈ summary.principals.keys ↔
        ∃ draft ∈ drafts,
          (draft.kind = .group ∨ draft.kind = .user) ∧
            draft.key.text = text
  permissionSets :
    ∀ text,
      text ∈ summary.permissionSets.keys ↔
        ∃ draft ∈ drafts,
          draft.kind = .permissionSet ∧ draft.key.text = text
  assignments :
    ∀ text,
      text ∈ summary.assignments.keys ↔
        ∃ draft ∈ drafts,
          draft.kind = .accountAssignment ∧ draft.key.text = text
  total :
    summary.counts.ready + summary.counts.provisioning +
        summary.counts.pending =
      drafts.countP (fun draft => draft.kind.hasStatus)
  ready :
    summary.ready = true ↔
      0 < drafts.countP (fun draft => draft.kind.hasStatus) ∧
        ∀ entry ∈ summary.entries, entry.2.state = .ready
  pending :
    ∀ entry ∈ summary.entries,
      entry.2.state = .pending →
        entry.2.id = none ∧
          ∀ draft ∈ drafts,
            draft.key.text = entry.1 → draft.externalName = none

namespace StatusSummary

variable {scope : Scope} {observations : Observations} {text : String}

/--
A list that declares all resources of a kind has the keys of that kind's
declarations.
-/
theorem mem_keys_statuses_iff
    {spec : Spec}
    {kind : ResourceKind}
    {values : List α}
    {declares : α → Declaration}
    (complete :
      ∀ declaration,
        declaration ∈ spec.declarations ∧ declaration.kind = kind ↔
          ∃ value ∈ values, declares value = declaration) :
    text ∈
        (statuses observations kind
          (values.map (fun value => (declares value).key))).map Prod.fst ↔
      ∃ declaration ∈ spec.declarations,
        declaration.kind = kind ∧ declaration.key.text = text := by
  rw [mem_keys_statuses]
  constructor
  · rintro ⟨_, listed, named⟩
    obtain ⟨value, member, rfl⟩ := List.mem_map.mp listed
    obtain ⟨declared, ofKind⟩ :=
      (complete (declares value)).mpr ⟨value, member, rfl⟩
    exact ⟨declares value, declared, ofKind, named⟩
  · rintro ⟨declaration, declared, ofKind, named⟩
    obtain ⟨value, member, rfl⟩ :=
      (complete declaration).mp ⟨declared, ofKind⟩
    exact ⟨(declares value).key, List.mem_map_of_mem member, named⟩

/--
Principals have a state when they are among the declarations of the topology.
-/
theorem mem_keys_principals_iff
    (faithful : scope.Faithful) :
    text ∈ (ofScope scope observations).principals.keys ↔
      ∃ declaration ∈ scope.spec.declarations,
        (declaration.kind = .group ∨ declaration.kind = .user) ∧
          declaration.key.text = text := by
  have managedIff :
      scope.managesPrincipals = true ↔
        scope.spec.identityStoreId?.isSome = true := by
    rw [Scope.managesPrincipals, faithful.identityStoreId]
  simp only [ofScope, principalStatuses]
  by_cases managed : scope.managesPrincipals = true
  · rw [if_pos managed, KeyMap.mem_keys_ofList, List.map_append,
      List.mem_append]
    simp only [or_and_right, and_or_left, exists_or]
    refine or_congr ?_ ?_
    · exact mem_keys_statuses_iff
        fun _ => Spec.mem_declarations_group_iff (managedIff.mp managed)
    · exact mem_keys_statuses_iff
        fun _ => Spec.mem_declarations_user_iff (managedIff.mp managed)
  · rw [if_neg managed]
    constructor
    · intro listed
      cases listed
    · rintro ⟨declaration, listed, isPrincipal, _⟩
      have inStore : declaration.kind.service = .identityStore := by
        rcases isPrincipal with isGroup | isUser
        · rw [isGroup]
          rfl
        · rw [isUser]
          rfl
      exact absurd
        (managedIff.mpr ((Spec.mem_declarations_iff.mp listed).1 inStore))
        managed

theorem mem_keys_permissionSets_iff :
    text ∈ (ofScope scope observations).permissionSets.keys ↔
      ∃ declaration ∈ scope.spec.declarations,
        declaration.kind = .permissionSet ∧
          declaration.key.text = text :=
  KeyMap.mem_keys_ofList.trans
    (mem_keys_statuses_iff
      fun _ => Spec.mem_declarations_permissionSet_iff)

theorem mem_keys_assignments_iff :
    text ∈ (ofScope scope observations).assignments.keys ↔
      ∃ declaration ∈ scope.spec.declarations,
        declaration.kind = .accountAssignment ∧
          declaration.key.text = text :=
  KeyMap.mem_keys_ofList.trans
    (mem_keys_statuses_iff fun _ => Spec.mem_declarations_assignment_iff)

end StatusSummary

namespace Draft

/--
Where a map has the keys of the drafts of some kinds, it has as many entries as
these.
-/
theorem length_entries_eq_countP
    {drafts : List Draft}
    (keysOnce : (drafts.map Draft.key).Nodup)
    (ofKind : ResourceKind → Prop)
    [DecidablePred ofKind]
    {map : KeyMap ResourceStatus}
    (same :
      ∀ text,
        text ∈ map.keys ↔
          ∃ draft ∈ drafts, ofKind draft.kind ∧ draft.key.text = text) :
    map.entries.length = drafts.countP (fun draft => ofKind draft.kind) := by
  have textsOnce :
      ((drafts.filter (fun draft => ofKind draft.kind)).map
        (fun draft => draft.key.text)).Nodup := by
    refine List.Nodup.map_on ?_ ?_
    · intro left leftMember right rightMember sameText
      exact List.inj_on_of_nodup_map keysOnce
        (List.mem_of_mem_filter leftMember)
        (List.mem_of_mem_filter rightMember)
        (congrArg LogicalKey.mk sameText)
    · exact keysOnce.of_map.filter _
  have permuted :
      map.keys.Perm
        ((drafts.filter (fun draft => ofKind draft.kind)).map
          (fun draft => draft.key.text)) := by
    refine (List.perm_ext_iff_of_nodup map.nodup_keys textsOnce).mpr ?_
    intro text
    rw [same, List.mem_map]
    simp only [List.mem_filter, decide_eq_true_eq, and_assoc]
  rw [List.countP_eq_length_filter]
  simpa [KeyMap.keys] using permuted.length_eq

theorem countP_hasStatus (drafts : List Draft) :
    drafts.countP (fun draft => draft.kind.hasStatus) =
      drafts.countP
          (fun draft => draft.kind = .group ∨ draft.kind = .user) +
        drafts.countP (fun draft => draft.kind = .permissionSet) +
          drafts.countP (fun draft => draft.kind = .accountAssignment) := by
  induction drafts with
  | nil =>
      rfl
  | cons draft rest inductionHypothesis =>
      simp only [List.countP_cons, inductionHypothesis]
      cases draft.kind <;> simp [ResourceKind.hasStatus] <;> omega

end Draft

namespace StatusSummary

variable {scope : Scope} {observations : Observations}
  {drafts : List Draft}

/--
Where declared names are distinct, the drafts have the keys of the
declarations.
-/
theorem exists_draft_iff
    (distinct : scope.spec.DistinctNames)
    (compiled :
      drafts =
        (dropRepeats Declaration.identity scope.spec.declarations).map
          (Declaration.compiled scope observations))
    (ofKind : ResourceKind → Prop)
    (text : String) :
    (∃ draft ∈ drafts, ofKind draft.kind ∧ draft.key.text = text) ↔
      ∃ declaration ∈ scope.spec.declarations,
        ofKind declaration.kind ∧ declaration.key.text = text := by
  have draftedIff :
      ∀ draft,
        draft ∈ drafts ↔
          ∃ declaration ∈ scope.spec.declarations,
            declaration.compiled scope observations = draft := by
    intro draft
    rw [compiled]
    exact Spec.mem_map_dropRepeats_declarations_iff distinct
      fun _ listed => (Spec.mem_declarations_iff.mp listed).2
  constructor
  · rintro ⟨draft, drafted, isOfKind, named⟩
    obtain ⟨declaration, listed, rfl⟩ := (draftedIff draft).mp drafted
    exact ⟨declaration, listed, isOfKind, named⟩
  · rintro ⟨declaration, listed, isOfKind, named⟩
    exact ⟨declaration.compiled scope observations,
      (draftedIff _).mpr ⟨declaration, listed, rfl⟩, isOfKind, named⟩

/-- What is pending has no identifier, and its draft no external name. -/
theorem unnamed_of_pending
    {entry : String × ResourceStatus}
    (listed : entry ∈ (ofScope scope observations).entries)
    (pending : entry.2.state = .pending) :
    entry.2.id = none ∧
      ∀ declaration : Declaration,
        declaration.key.text = entry.1 →
          (declaration.compiled scope observations).externalName =
            none := by
  obtain ⟨kind, key, _, rfl⟩ := exists_key_of_mem_entries listed
  obtain ⟨unobserved, noId⟩ := ResourceStatus.unobserved_of_pending pending
  refine ⟨noId, ?_⟩
  intro declaration named
  have sameKey : declaration.key = key := congrArg LogicalKey.mk named
  simp [Declaration.compiled, Declaration.draftWith, Draft.start, sameKey,
    unobserved]

/-- The status of a topology agrees with the drafts of a pass that completes. -/
theorem agreesWith_of_completes
    (faithful : scope.Faithful)
    (distinct : scope.spec.DistinctNames)
    (completes : scope.Completes Stage.all)
    (compiled :
      drafts =
        (dropRepeats Declaration.identity scope.spec.declarations).map
          (Declaration.compiled scope observations)) :
    (ofScope scope observations).AgreesWith drafts := by
  have keysOnce : (drafts.map Draft.key).Nodup := by
    rw [compiled, ← Spec.declarationsIn_all]
    exact completes.nodup_keys distinct observations
  have principals :
      ∀ text,
        text ∈ (ofScope scope observations).principals.keys ↔
          ∃ draft ∈ drafts,
            (draft.kind = .group ∨ draft.kind = .user) ∧
              draft.key.text = text := by
    intro text
    exact (mem_keys_principals_iff faithful).trans
      (exists_draft_iff distinct compiled
        (fun kind => kind = .group ∨ kind = .user) text).symm
  have permissionSets :
      ∀ text,
        text ∈ (ofScope scope observations).permissionSets.keys ↔
          ∃ draft ∈ drafts,
            draft.kind = .permissionSet ∧ draft.key.text = text := by
    intro text
    exact mem_keys_permissionSets_iff.trans
      (exists_draft_iff distinct compiled (· = .permissionSet) text).symm
  have assignments :
      ∀ text,
        text ∈ (ofScope scope observations).assignments.keys ↔
          ∃ draft ∈ drafts,
            draft.kind = .accountAssignment ∧ draft.key.text = text := by
    intro text
    exact mem_keys_assignments_iff.trans
      (exists_draft_iff distinct compiled (· = .accountAssignment) text).symm
  have entriesCounted :
      (ofScope scope observations).entries.length =
        drafts.countP (fun draft => draft.kind.hasStatus) := by
    rw [entries, List.length_append, List.length_append,
      Draft.countP_hasStatus,
      Draft.length_entries_eq_countP keysOnce
        (fun kind => kind = .group ∨ kind = .user) principals,
      Draft.length_entries_eq_countP keysOnce (· = .permissionSet)
        permissionSets,
      Draft.length_entries_eq_countP keysOnce (· = .accountAssignment)
        assignments]
  refine ⟨principals, permissionSets, assignments, ?_, ?_, ?_⟩
  · exact total_counts_ofScope.trans entriesCounted
  · rw [← entriesCounted]
    exact ready_ofScope_iff
  · intro entry listed pending
    obtain ⟨noId, unnamed⟩ := unnamed_of_pending listed pending
    refine ⟨noId, ?_⟩
    intro draft drafted named
    rw [compiled] at drafted
    obtain ⟨declaration, _, rfl⟩ := List.mem_map.mp drafted
    exact unnamed declaration named

end StatusSummary

namespace Composite

/--
The status of a rendering has exactly the groups, users, permission sets and
assignments that were drafted, and is the status that the composite has on its
own.
-/
theorem render_status_agrees
    {composite : Composite}
    {settings : Settings}
    {rendering : Rendering}
    (rendered : composite.render settings = .ok rendering) :
    rendering.status.AgreesWith rendering.drafts ∧
      rendering.status = composite.status settings := by
  obtain ⟨_, valid, ledger, made, rfl⟩ := renderIn_eq_ok_iff.mp rendered
  obtain ⟨completes, drafts⟩ :=
    drafts_of_runStages valid (ledger_eq_ok_iff.mp made).1
  refine ⟨?_, rfl⟩
  exact StatusSummary.agreesWith_of_completes
    (composite.faithful_scope settings)
    (Spec.distinctNames_of_valid valid) completes drafts

theorem render_status_agrees_sample :
    ∃ rendering,
      sample.render {} = .ok rendering ∧
        rendering.status.AgreesWith rendering.drafts := by
  obtain ⟨rendering, rendered⟩ := sample_renders
  exact ⟨rendering, rendered, (render_status_agrees rendered).1⟩

end Composite

end AccessTopology
