import AccessTopology.Proofs.Rendering.Outcome
import AccessTopology.Proofs.Scope

namespace AccessTopology

/-!
# What every draft carries

The tags of a draft are layered: what the resource itself is given, then the
topology's tags, then the organization's name, then the settings' tags.  A tag
has the value of the first layer that has it.  However a resource is asked for,
the tags that it is given itself are the same, and all drafts carry the
management policies and name the provider configuration that the composite
settles on.
-/

namespace KeyMap

/-- What the first map that has a key holds under it. -/
def firstFound?
    (layers : List (KeyMap α))
    (key : String) :
    Option α :=
  layers.findSome? (fun layer => layer.get? key)

theorem firstFound?_cons
    (layer : KeyMap α)
    (layers : List (KeyMap α))
    (key : String) :
    firstFound? (layer :: layers) key =
      (layer.get? key).or (firstFound? layers key) := by
  rw [firstFound?, List.findSome?_cons]
  cases layer.get? key <;> rfl

theorem get?_ofList_singleton
    (key : String)
    (value : α)
    (query : String) :
    (ofList [(key, value)]).get? query =
      if query = key then some value else none :=
  get?_insert empty key value query

end KeyMap

namespace Spec

/--
The tags that a topology gives a resource itself: those of a group or a user,
none for a membership, those of a permission set for its policies and for every
assignment that names it, and none for an assignment that names no declared
permission set.
-/
inductive OwnTags (spec : Spec) : Declaration → TagMap → Prop
  | group (declared : Group) :
      OwnTags spec (.group declared) declared.tags
  | user (declared : User) :
      OwnTags spec (.user declared) declared.tags
  | membership (member container : String) :
      OwnTags spec (.membership member container) .empty
  | permissionSet (set : PermissionSet) :
      OwnTags spec (.permissionSet set) set.tags
  | inlinePolicy (set : PermissionSet) (document : String) :
      OwnTags spec (.inlinePolicy set document) set.tags
  | managedPolicy (set : PermissionSet) (arn : String) :
      OwnTags spec (.managedPolicy set arn) set.tags
  | customerPolicy (set : PermissionSet) (policy : CustomerPolicy) :
      OwnTags spec (.customerPolicy set policy) set.tags
  | assigned {set : PermissionSet} {binding : Assignment} :
      set ∈ spec.permissionSets →
      set.name = binding.permissionSet →
        OwnTags spec (.assignment binding) set.tags
  | assignedElsewhere {binding : Assignment} :
      ¬spec.DeclaresPermissionSet binding.permissionSet →
        OwnTags spec (.assignment binding) .empty

variable {spec : Spec}

/-- The topology gives every resource some tags, or none. -/
theorem exists_ownTags
    (spec : Spec)
    (declaration : Declaration) :
    ∃ own, spec.OwnTags declaration own := by
  cases declaration with
  | assignment binding =>
      by_cases declares :
          spec.DeclaresPermissionSet binding.permissionSet
      · obtain ⟨set, declared, named⟩ := declares
        exact ⟨set.tags, .assigned declared named⟩
      · exact ⟨.empty, .assignedElsewhere declares⟩
  | group declared =>
      exact ⟨_, .group declared⟩
  | user declared =>
      exact ⟨_, .user declared⟩
  | membership member container =>
      exact ⟨_, .membership member container⟩
  | permissionSet set =>
      exact ⟨_, .permissionSet set⟩
  | inlinePolicy set document =>
      exact ⟨_, .inlinePolicy set document⟩
  | managedPolicy set arn =>
      exact ⟨_, .managedPolicy set arn⟩
  | customerPolicy set policy =>
      exact ⟨_, .customerPolicy set policy⟩

/-- Where declared names are distinct, a declaration has its resource's tags. -/
theorem OwnTags.eq_ownTags
    (distinct : spec.DistinctNames)
    {declaration : Declaration}
    (asked : spec.Asks declaration)
    {own : TagMap}
    (given : spec.OwnTags declaration own) :
    own = declaration.ownTags := by
  cases given with
  | assigned declared named =>
      rw [Declaration.ownTags, tags_of_mem_expandAssignments distinct asked,
        ← named, distinct.permissionSet?_eq declared]
      rfl
  | assignedElsewhere undeclared =>
      rw [Declaration.ownTags, tags_of_mem_expandAssignments distinct asked,
        permissionSet?_eq_none undeclared]
      rfl
  | group | user | membership | permissionSet | inlinePolicy |
      managedPolicy | customerPolicy =>
      rfl

end Spec

namespace Composite

/-- The layers of a resource's tags, the decisive one first. -/
def tagLayers
    (composite : Composite)
    (settings : Settings)
    (organization : String)
    (own : TagMap) :
    List TagMap :=
  [own, composite.spec.tags, .ofList [("organization", organization)],
    settings.baseTags]

variable {composite : Composite} {settings : Settings}
  {rendering : Rendering}

/-- The tags of a draft are those of the first layer that has them. -/
theorem get?_tagsFor
    (composite : Composite)
    (settings : Settings)
    (own : TagMap)
    (tag : String) :
    ((composite.scope settings).tagsFor own).get? tag =
      KeyMap.firstFound?
        (composite.tagLayers settings
          (composite.scope settings).shared.organization own)
        tag := by
  have shared :
      (composite.scope settings).tags.get? tag =
        (composite.spec.tags.get? tag).or
          (if tag = "organization" then
            some (composite.scope settings).shared.organization
          else
            settings.baseTags.get? tag) := by
    rw [scope, Scope.build, Scope.sharedTags, KeyMap.get?_overlay,
      KeyMap.get?_insert]
    rfl
  rw [Scope.tagsFor, KeyMap.get?_overlay, shared, tagLayers,
    KeyMap.firstFound?_cons, KeyMap.firstFound?_cons,
    KeyMap.firstFound?_cons, KeyMap.firstFound?_cons,
    KeyMap.get?_ofList_singleton]
  by_cases isOrganization : tag = "organization"
  · simp [isOrganization]
  · simp [isOrganization, KeyMap.firstFound?]

/-- A draft carries layered tags and what its composite settles on. -/
structure Carries
    (composite : Composite)
    (settings : Settings)
    (shared : Shared)
    (draft : Draft) :
    Prop where
  declared :
    ∃ declaration ∈ composite.spec.declarations,
      declaration.CarriedBy (composite.scope settings) draft ∧
        ∃ own, composite.spec.OwnTags declaration own
  tags :
    ∀ declaration ∈ composite.spec.declarations,
      declaration.key = draft.key →
        ∀ own,
          composite.spec.OwnTags declaration own →
            ∀ tag,
              draft.tags.get? tag =
                KeyMap.firstFound?
                  (composite.tagLayers settings shared.organization own) tag
  managementPolicies :
    draft.managementPolicies = shared.managementPolicies
  providerConfig :
    draft.providerConfig = ⟨shared.providerConfig⟩

/--
A composite settles on an organization, management policies and a provider
configuration.  Every draft of its rendering comes from a declaration.  However
the topology declares it, its tags are those of the first layer that has them,
beginning with what the topology gives the resource itself, and it carries the
policies and names the configuration that are settled on.
-/
theorem render_tags_layered
    (rendered : composite.render settings = .ok rendering) :
    ∃ shared,
      composite.Settles settings shared ∧
        ∀ draft ∈ rendering.drafts,
          composite.Carries settings shared draft := by
  refine ⟨(composite.scope settings).shared, settles_iff.mpr rfl, ?_⟩
  intro draft drafted
  obtain ⟨declaration, listed, rfl⟩ := (mem_drafts_iff rendered).mp drafted
  refine
    { declared :=
        ⟨declaration, listed, carriedBy_of_render rendered listed,
          Spec.exists_ownTags composite.spec declaration⟩
      tags := ?_
      managementPolicies := rfl
      providerConfig := rfl }
  intro other otherListed sameKey own given tag
  obtain ⟨valid, _⟩ := compiled_of_render rendered
  -- A tuple may be asked for in two ways, but that is one declaration.
  have isOther : other = declaration :=
    eq_of_key_eq rendered otherListed listed sameKey
  have isOwn : own = declaration.ownTags :=
    (isOther ▸ given).eq_ownTags (Spec.distinctNames_of_valid valid)
      (Spec.mem_declarations_iff.mp listed).2
  rw [isOwn]
  exact get?_tagsFor composite settings declaration.ownTags tag

/-- The permission set of the sample, tagged. -/
def sampleTaggedSet : PermissionSet :=
  { name := "Admin"
    accounts := ["111111111111"]
    groups := ["Ops"]
    tags := .ofList [("team", "security")] }

/--
The sample with an organization, policies and a provider configuration of its
own, and with tags on its topology and on its permission set.
-/
def sampleTagged : Composite :=
  { sample with
    metadata := { name := "access" }
    spec :=
      { sample.spec with
        organizationName := some " acme "
        managementPolicies := some ["Observe"]
        providerConfigRef := some { name := some "aws-main" }
        permissionSets := [sampleTaggedSet]
        tags := .ofList [("stage", "production"), ("team", "platform")] } }

/-- What the tagged sample's drafts have in common. -/
def sampleShared : Shared :=
  { organization := "acme"
    managementPolicies := ["Observe"]
    providerConfig := "aws-main" }

/-- The assignment of the tagged sample's user, declared on its own. -/
def sampleTaggedBinding : Assignment :=
  DirectAssignment.toAssignment sampleTagged.spec
    ⟨"Jane", .user, "Admin", "222222222222"⟩

theorem render_tags_layered_sample :
    ∃ rendering,
      sampleTagged.render {} = .ok rendering ∧
        sampleTagged.Settles {} sampleShared ∧
          ∃ draft ∈ rendering.drafts,
            sampleTaggedBinding.key = draft.key ∧
              draft.tags.get? "team" = some "security" ∧
                draft.tags.get? "stage" = some "production" ∧
                  draft.tags.get? "organization" = some "acme" ∧
                    draft.tags.get? "owner" = none ∧
                      draft.managementPolicies = ["Observe"] ∧
                        draft.providerConfig = ⟨"aws-main"⟩ := by
  obtain ⟨rendering, rendered⟩ :
      ∃ rendering, sampleTagged.render {} = .ok rendering :=
    exists_rendering_of_isOk (by decide +kernel)
  have settled : sampleTagged.Settles {} sampleShared :=
    settles_iff.mpr rfl
  obtain ⟨shared, alsoSettled, carried⟩ := render_tags_layered rendered
  obtain rfl : sampleShared = shared :=
    (settles_iff.mp settled).symm.trans (settles_iff.mp alsoSettled)
  have listed :
      .assignment sampleTaggedBinding ∈ sampleTagged.spec.declarations := by
    refine Spec.mem_declarations_iff.mpr ⟨fun _ => by decide, ?_⟩
    exact List.mem_append_right _ (List.mem_map_of_mem (by decide))
  have given :
      sampleTagged.spec.OwnTags (.assignment sampleTaggedBinding)
        sampleTaggedSet.tags :=
    .assigned List.mem_cons_self rfl
  obtain ⟨draft, drafted, sameKey⟩ :
      ∃ draft ∈ rendering.drafts, sampleTaggedBinding.key = draft.key :=
    ⟨_, (mem_drafts_iff rendered).mpr ⟨_, listed, rfl⟩, rfl⟩
  have layered := (carried draft drafted).tags _ listed sameKey _ given
  refine ⟨rendering, rendered, settled, draft, drafted, sameKey, ?_, ?_, ?_,
    ?_, ?_, ?_⟩
  · rw [layered]
    decide +kernel
  · rw [layered]
    decide +kernel
  · rw [layered]
    decide +kernel
  · rw [layered]
    decide +kernel
  · exact (carried draft drafted).managementPolicies
  · exact (carried draft drafted).providerConfig

end Composite

end AccessTopology
