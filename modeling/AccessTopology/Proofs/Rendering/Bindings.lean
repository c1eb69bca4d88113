import AccessTopology.Proofs.Identity.LetterCase
import AccessTopology.Proofs.Rendering.References

namespace AccessTopology

/-!
# What a rendering binds

No two drafts of a rendering assign the same permission set to the same
principal on the same account, and no two put the same user into the same
group.  This holds even where given identifiers are compared without regard to
letter case: names that stand for alike things share a slug, so that the drafts
would share a key.
-/

/-- References to one thing, whatever the letter case of given values. -/
inductive Reference.Alike : Reference → Reference → Prop
  | draft (key : LogicalKey) (field : String) :
      Alike (.draft key field) (.draft key field)
  | external {left right : String} :
      Text.SameIgnoringCase left right →
        Alike (.external left) (.external right)

namespace Draft

/-- Two drafts hold references to one thing under a name, or both hold none. -/
def ReferAlike
    (left right : Draft)
    (name : String) :
    Prop :=
  Option.Rel Reference.Alike (left.references.get? name)
    (right.references.get? name)

/-- Two drafts assign one permission set to one principal on one account. -/
structure AssignAlike (left right : Draft) : Prop where
  leftKind :
    left.kind = .accountAssignment
  rightKind :
    right.kind = .accountAssignment
  principalType :
    left.forProvider.get? "principalType" =
      right.forProvider.get? "principalType"
  principal :
    left.ReferAlike right "principalId"
  permissionSet :
    left.ReferAlike right "permissionSetArn"
  target :
    left.forProvider.get? "targetId" = right.forProvider.get? "targetId"

/-- Two drafts put one user into one group. -/
structure JoinAlike (left right : Draft) : Prop where
  leftKind :
    left.kind = .groupMembership
  rightKind :
    right.kind = .groupMembership
  group :
    left.ReferAlike right "groupId"
  member :
    left.ReferAlike right "memberId"

end Draft

namespace Scope

variable {scope : Scope}

/-- Names of principals that stand for alike things add the same to a key. -/
theorem PrincipalReference.segment_eq
    (distinct : scope.spec.DistinctNames)
    {kind : PrincipalKind}
    {left right : String}
    {leftReference rightReference : Reference}
    (leftStands : scope.PrincipalReference kind left leftReference)
    (rightStands : scope.PrincipalReference kind right rightReference)
    (alike : leftReference.Alike rightReference) :
    LogicalKey.segment left = LogicalKey.segment right := by
  cases alike with
  | draft key field =>
      rw [leftStands.name_eq distinct rightStands]
  | external sameText =>
      cases leftStands
      cases rightStands
      exact LogicalKey.segment_eq_of_sameIgnoringCase sameText

/-- Names of permission sets that stand for alike things add the same to a key. -/
theorem PermissionSetReference.segment_eq
    (distinct : scope.spec.DistinctNames)
    {left right : String}
    {leftReference rightReference : Reference}
    (leftStands : scope.PermissionSetReference left leftReference)
    (rightStands : scope.PermissionSetReference right rightReference)
    (alike : leftReference.Alike rightReference) :
    LogicalKey.segment left = LogicalKey.segment right := by
  cases alike with
  | draft key field =>
      rw [leftStands.name_eq distinct rightStands]
  | external sameText =>
      cases leftStands
      cases rightStands
      exact LogicalKey.segment_eq_of_sameIgnoringCase sameText

end Scope

namespace Declaration

variable {scope : Scope} {leftDraft rightDraft : Draft}

/-- Assignments whose drafts assign alike share a key. -/
theorem key_eq_of_assignAlike
    (distinct : scope.spec.DistinctNames)
    {left right : Assignment}
    (leftCarried : (assignment left).CarriedBy scope leftDraft)
    (rightCarried : (assignment right).CarriedBy scope rightDraft)
    (alike : leftDraft.AssignAlike rightDraft) :
    leftDraft.key = rightDraft.key := by
  have leftFields := leftCarried.fields
  have rightFields := rightCarried.fields
  simp only [identifyingFields, List.forall_mem_cons]
    at leftFields rightFields
  have sameKind : left.principalKind = right.principalKind := by
    have sameType := alike.principalType
    rw [leftFields.1, rightFields.1, Option.some.injEq,
      Json.string.injEq] at sameType
    exact PrincipalKind.eq_of_name_eq sameType
  have sameAccount : left.account = right.account := by
    have sameTarget := alike.target
    rw [leftFields.2.1, rightFields.2.1, Option.some.injEq,
      Json.string.injEq] at sameTarget
    exact sameTarget
  obtain ⟨leftPrincipal, leftSet, leftStands, leftSetStands,
    leftHeld, leftSetHeld⟩ := leftCarried.assignment_references
  obtain ⟨rightPrincipal, rightSet, rightStands, rightSetStands,
    rightHeld, rightSetHeld⟩ := rightCarried.assignment_references
  have principals := alike.principal
  have sets := alike.permissionSet
  rw [Draft.ReferAlike, leftHeld, rightHeld, Option.rel_some_some]
    at principals
  rw [Draft.ReferAlike, leftSetHeld, rightSetHeld, Option.rel_some_some]
    at sets
  rw [← sameKind] at rightStands
  have samePrincipal :=
    leftStands.segment_eq distinct rightStands principals
  have sameSet := leftSetStands.segment_eq distinct rightSetStands sets
  -- The names may differ in letter case, but no part of the key does.
  rw [leftCarried.key, rightCarried.key]
  simp only [key, Assignment.key, LogicalKey.assignment,
    LogicalKey.compose, LogicalKey.segments, sameKind, sameAccount,
    samePrincipal, sameSet]

/-- Memberships whose drafts join alike share a key. -/
theorem key_eq_of_joinAlike
    (distinct : scope.spec.DistinctNames)
    {leftMember leftContainer rightMember rightContainer : String}
    (leftAsked : scope.spec.Asks (membership leftMember leftContainer))
    (rightAsked : scope.spec.Asks (membership rightMember rightContainer))
    (leftCarried :
      (membership leftMember leftContainer).CarriedBy scope leftDraft)
    (rightCarried :
      (membership rightMember rightContainer).CarriedBy scope rightDraft)
    (alike : leftDraft.JoinAlike rightDraft) :
    leftDraft.key = rightDraft.key := by
  obtain ⟨leftGroup, leftStands, leftHeld, leftUserHeld⟩ :=
    leftCarried.membership_references
  obtain ⟨rightGroup, rightStands, rightHeld, rightUserHeld⟩ :=
    rightCarried.membership_references
  have groups := alike.group
  have users := alike.member
  rw [Draft.ReferAlike, leftHeld, rightHeld, Option.rel_some_some] at groups
  rw [Draft.ReferAlike, leftUserHeld, rightUserHeld,
    Option.rel_some_some] at users
  have sameContainer :=
    leftStands.segment_eq distinct rightStands groups
  obtain ⟨leftUser, leftDeclared, leftName, _⟩ := leftAsked
  obtain ⟨rightUser, rightDeclared, rightName, _⟩ := rightAsked
  have sameMember : leftMember = rightMember := by
    generalize leftKey : LogicalKey.user leftMember = memberKey at users
    cases users
    subst leftName rightName
    rw [distinct.user_eq leftDeclared rightDeclared leftKey]
  rw [leftCarried.key, rightCarried.key]
  simp only [key, LogicalKey.membership, LogicalKey.compose,
    LogicalKey.segments, sameMember, sameContainer]

end Declaration

namespace Composite

variable {composite : Composite} {settings : Settings}
  {rendering : Rendering}

/-- A draft of an assignment carries an assignment of the topology. -/
theorem exists_assignment
    (rendered : composite.render settings = .ok rendering)
    {draft : Draft}
    (drafted : draft ∈ rendering.drafts)
    (isAssignment : draft.kind = .accountAssignment) :
    ∃ binding,
      (Declaration.assignment binding).CarriedBy
        (composite.scope settings) draft := by
  obtain ⟨declaration, listed, rfl⟩ := (mem_drafts_iff rendered).mp drafted
  have carried := carriedBy_of_render rendered listed
  have sameKind := carried.kind.symm.trans isAssignment
  cases declaration with
  | assignment binding =>
      exact ⟨binding, carried⟩
  | _ =>
      cases sameKind

/-- A draft of a membership carries a membership that the topology asks for. -/
theorem exists_membership
    (rendered : composite.render settings = .ok rendering)
    {draft : Draft}
    (drafted : draft ∈ rendering.drafts)
    (isMembership : draft.kind = .groupMembership) :
    ∃ member container,
      composite.spec.Asks (.membership member container) ∧
        (Declaration.membership member container).CarriedBy
          (composite.scope settings) draft := by
  obtain ⟨declaration, listed, rfl⟩ := (mem_drafts_iff rendered).mp drafted
  have carried := carriedBy_of_render rendered listed
  have sameKind := carried.kind.symm.trans isMembership
  cases declaration with
  | membership member container =>
      exact ⟨member, container, (Spec.mem_declarations_iff.mp listed).2,
        carried⟩
  | _ =>
      cases sameKind

/--
No two drafts of a rendering assign one permission set to one principal on one
account, and no two put one user into one group, even where given identifiers
are compared without regard to letter case.
-/
theorem render_binds_once
    (rendered : composite.render settings = .ok rendering) :
    rendering.drafts.Pairwise
      (fun left right =>
        ¬left.AssignAlike right ∧ ¬left.JoinAlike right) := by
  obtain ⟨valid, _⟩ := compiled_of_render rendered
  have distinct : (composite.scope settings).spec.DistinctNames :=
    Spec.distinctNames_of_valid valid
  refine (List.pairwise_map.mp (nodup_keys_of_render rendered)).imp_of_mem ?_
  intro left right leftDrafted rightDrafted keysDiffer
  constructor
  · intro alike
    obtain ⟨leftBinding, leftCarried⟩ :=
      exists_assignment rendered leftDrafted alike.leftKind
    obtain ⟨rightBinding, rightCarried⟩ :=
      exists_assignment rendered rightDrafted alike.rightKind
    exact keysDiffer
      (Declaration.key_eq_of_assignAlike distinct leftCarried rightCarried
        alike)
  · intro alike
    obtain ⟨_, _, leftAsked, leftCarried⟩ :=
      exists_membership rendered leftDrafted alike.leftKind
    obtain ⟨_, _, rightAsked, rightCarried⟩ :=
      exists_membership rendered rightDrafted alike.rightKind
    exact keysDiffer
      (Declaration.key_eq_of_joinAlike distinct leftAsked rightAsked
        leftCarried rightCarried alike)

theorem render_binds_once_sample :
    ∃ rendering,
      sample.render {} = .ok rendering ∧
        rendering.drafts.Pairwise
          (fun left right =>
            ¬left.AssignAlike right ∧ ¬left.JoinAlike right) := by
  obtain ⟨rendering, rendered⟩ := sample_renders
  exact ⟨rendering, rendered, render_binds_once rendered⟩

end Composite

end AccessTopology
