import AccessTopology.Proofs.Identity.Spelling
import AccessTopology.Proofs.Topology.Resolution

namespace AccessTopology

/-!
# Names that are taken

A declared name is reported as taken when an earlier declaration of its kind
has a name with the same slug.  Groups, users and permission sets are named
apart: no name of one kind takes a name of another.  A topology in which no
name is taken is one in which all their keys differ, and there no two names of
a kind stand for the same draft.
-/

/-- Whether the value at a place of a list has the label of an earlier one. -/
def labelTaken
    [DecidableEq β]
    (label : α → β)
    (values : List α)
    (placed : α × Nat) :
    Bool :=
  (values.take placed.2).any (fun earlier => label earlier = label placed.1)

/-- The values of a list that have the label of an earlier one, in their order. -/
def repeating
    [DecidableEq β]
    (label : α → β)
    (values : List α) :
    List α :=
  (values.zipIdx.filter (labelTaken label values)).map Prod.fst

section Repeating

variable {α β : Type}

/-- Images are repeated where the values that they come from are. -/
theorem repeats_map
    (key : β → LogicalKey)
    (image : α → β)
    (met : List LogicalKey)
    (values : List α) :
    repeats key met (values.map image) =
      (repeats (fun value => key (image value)) met values).map image := by
  induction values generalizing met with
  | nil =>
      rfl
  | cons value rest inductionHypothesis =>
      by_cases alreadyMet : key (image value) ∈ met
      · simp [repeats, alreadyMet, inductionHypothesis]
      · simp [repeats, alreadyMet, inductionHypothesis]

variable [DecidableEq β]

theorem labelTaken_append_left
    (label : α → β)
    {first : List α}
    {place : Nat}
    (within : place ≤ first.length)
    (second : List α)
    (value : α) :
    labelTaken label (first ++ second) (value, place) =
      labelTaken label first (value, place) := by
  simp only [labelTaken, List.take_append_of_le_length within]

theorem labelTaken_append_right
    (label : α → β)
    (first second : List α)
    (value : α)
    (place : Nat) :
    labelTaken label (first ++ second) (value, first.length + place) =
      (first.any (fun earlier => label earlier = label value) ||
        labelTaken label second (value, place)) := by
  simp only [labelTaken, List.take_length_add_append, List.any_append]

/-- A list is checked from its start on, against the keys that were met. -/
theorem repeats_eq_filter_labelTaken
    {key : α → LogicalKey}
    {met : List LogicalKey}
    {before : List α}
    (sameKeys : ∀ wanted, wanted ∈ met ↔ wanted ∈ before.map key)
    (rest : List α) :
    repeats key met rest =
      ((rest.zipIdx before.length).filter
          (labelTaken key (before ++ rest))).map
        Prod.fst := by
  induction rest generalizing before met with
  | nil =>
      rfl
  | cons value rest inductionHypothesis =>
      -- The value moves to the checked part of the list, met before or not.
      have sameList : before ++ value :: rest = before ++ [value] ++ rest := by
        simp
      have isMet :
          labelTaken key (before ++ value :: rest) (value, before.length) =
            decide (key value ∈ met) := by
        rw [labelTaken, List.take_left, Bool.eq_iff_iff, decide_eq_true_iff,
          sameKeys]
        simp
      rw [repeats, List.zipIdx_cons, List.filter_cons, isMet]
      by_cases alreadyMet : key value ∈ met
      · have stillSame :
            ∀ wanted, wanted ∈ met ↔ wanted ∈ (before ++ [value]).map key := by
          intro wanted
          rw [List.map_append, List.mem_append, ← sameKeys]
          simpa using fun isValue : wanted = key value => isValue ▸ alreadyMet
        rw [if_pos alreadyMet, if_pos (decide_eq_true alreadyMet),
          List.map_cons, inductionHypothesis stillSame, sameList]
        simp
      · have stillSame :
            ∀ wanted,
              wanted ∈ met ++ [key value] ↔
                wanted ∈ (before ++ [value]).map key := by
          intro wanted
          simp [sameKeys]
        rw [if_neg alreadyMet, if_neg (by simpa using alreadyMet),
          inductionHypothesis stillSame, sameList]
        simp

/-- What is reported as repeated has the key of an earlier value. -/
theorem repeats_eq_repeating
    (key : α → LogicalKey)
    (values : List α) :
    repeats key [] values = repeating key values := by
  have nothingMet :
      ∀ wanted, wanted ∈ ([] : List LogicalKey) ↔
        wanted ∈ ([] : List α).map key := by
    simp
  exact repeats_eq_filter_labelTaken nothingMet values

/-- Labels that tell the same values of a list apart repeat the same values. -/
theorem repeating_congr
    {γ : Type}
    [DecidableEq γ]
    {left : α → β}
    {right : α → γ}
    {values : List α}
    (agree :
      ∀ value ∈ values,
        ∀ other ∈ values,
          left value = left other ↔ right value = right other) :
    repeating left values = repeating right values := by
  rw [repeating, repeating]
  congr 1
  refine List.filter_congr ?_
  rintro ⟨value, place⟩ listed
  have valueListed : value ∈ values :=
    List.fst_mem_of_mem_zipIdx listed
  rw [labelTaken, labelTaken, Bool.eq_iff_iff, List.any_eq_true,
    List.any_eq_true]
  simp only [decide_eq_true_eq]
  refine exists_congr fun earlier => and_congr_right fun taken => ?_
  exact agree earlier (List.mem_of_mem_take taken) value valueListed

/-- Lists without a common label repeat what each repeats alone. -/
theorem repeating_append
    {label : α → β}
    {first second : List α}
    (apart :
      ∀ value ∈ first, ∀ other ∈ second, label value ≠ label other) :
    repeating label (first ++ second) =
      repeating label first ++ repeating label second := by
  have firstAlone :
      first.zipIdx.filter (labelTaken label (first ++ second)) =
        first.zipIdx.filter (labelTaken label first) := by
    refine List.filter_congr ?_
    rintro ⟨value, place⟩ listed
    have within : place ≤ first.length :=
      Nat.le_of_lt (List.snd_lt_of_mem_zipIdx listed)
    exact labelTaken_append_left label within second value
  have secondAlone :
      (second.zipIdx first.length).filter (labelTaken label (first ++ second)) =
        (second.zipIdx.filter (labelTaken label second)).map
          (fun placed => (placed.1, first.length + placed.2)) := by
    rw [List.zipIdx_eq_map_add, List.filter_map]
    congr 1
    refine List.filter_congr ?_
    rintro ⟨value, place⟩ listed
    have valueListed : value ∈ second :=
      List.fst_mem_of_mem_zipIdx listed
    have noneAlike :
        first.any (fun earlier => label earlier = label value) = false :=
      List.any_eq_false.mpr fun earlier earlierListed same =>
        apart earlier earlierListed value valueListed (of_decide_eq_true same)
    have noneInFirst :=
      labelTaken_append_right label first second value place
    rw [noneAlike, Bool.false_or] at noneInFirst
    exact noneInFirst
  rw [repeating, List.zipIdx_append, Nat.zero_add, List.filter_append,
    List.map_append, firstAlone, secondAlone, List.map_map, repeating,
    repeating]
  rfl

end Repeating

/-- One name adds the same to a key as another exactly if both have one slug. -/
theorem LogicalKey.segment_eq_iff {left right : String} :
    segment left = segment right ↔
      Text.slugify left = Text.slugify right := by
  have hyphenated : ∀ slug : String, "-" ++ slug ≠ "" := by
    intro slug
    simp
  by_cases leftEmpty : Text.slugify left = ""
  · by_cases rightEmpty : Text.slugify right = ""
    · simp [segment, leftEmpty, rightEmpty]
    · simp [segment, leftEmpty, rightEmpty, Ne.symm (hyphenated _),
        Ne.symm rightEmpty]
  · by_cases rightEmpty : Text.slugify right = ""
    · simp [segment, leftEmpty, rightEmpty]
    · simp [segment, leftEmpty, rightEmpty]

namespace Spec

/-- The kinds and names of a topology's groups, users and permission sets, in order. -/
def named (spec : Spec) : List (ResourceKind × String) :=
  spec.groups.map (fun group => (.group, group.name)) ++
    spec.users.map (fun user => (.user, user.name)) ++
    spec.permissionSets.map (fun set => (.permissionSet, set.name))

/-- What a declared name is known by: its kind and its slug. -/
def kindAndSlug (declared : ResourceKind × String) : ResourceKind × String :=
  (declared.1, Text.slugify declared.2)

/-- The key of a declared name. -/
def namedKey (declared : ResourceKind × String) : LogicalKey :=
  .compose declared.1 [declared.2]

theorem declaredKeys_eq (spec : Spec) :
    spec.declaredKeys =
      spec.named.map (fun declared => (namedKey declared, declared.2)) := by
  simp only [declaredKeys, named, List.map_append, List.map_map]
  rfl

/-- Names are declared for kinds that other resources bind to. -/
theorem identified_of_mem_named
    {spec : Spec}
    {declared : ResourceKind × String}
    (listed : declared ∈ spec.named) :
    declared.1.identifierField?.isSome = true := by
  simp only [named, List.mem_append, List.mem_map] at listed
  rcases listed with (⟨group, _, rfl⟩ | ⟨user, _, rfl⟩) | ⟨set, _, rfl⟩ <;> rfl

/-- The key of a declared name tells its kind and its slug, and nothing else. -/
theorem namedKey_eq_iff
    {left right : ResourceKind × String}
    (leftIdentified : left.1.identifierField?.isSome = true)
    (rightIdentified : right.1.identifierField?.isSome = true) :
    namedKey left = namedKey right ↔ kindAndSlug left = kindAndSlug right := by
  obtain ⟨leftKind, leftName⟩ := left
  obtain ⟨rightKind, rightName⟩ := right
  by_cases sameKind : leftKind = rightKind
  · subst sameKind
    simp [namedKey, kindAndSlug, LogicalKey.compose, LogicalKey.segments,
      LogicalKey.segment_eq_iff]
  · -- No prefix of a kind that others bind to goes on from another one.
    have keysDiffer :
        LogicalKey.compose leftKind [leftName] ≠
          LogicalKey.compose rightKind [rightName] := by
      intro same
      rcases LogicalKey.exists_suffix_of_compose_eq sameKind same with
        ⟨suffix, goesOn⟩ | ⟨suffix, goesOn⟩
      · cases leftKind <;> cases rightKind <;> cases goesOn <;>
          cases rightIdentified
      · cases leftKind <;> cases rightKind <;> cases goesOn <;>
          cases leftIdentified
    simp [namedKey, kindAndSlug, sameKind, keysDiffer]

/-- What is reported of a name that is taken. -/
def taken (declared : ResourceKind × String) : Violation :=
  Rule.error .uniqueNames declared.2
    ("'" ++ declared.2 ++ "' collides with another declaration on key " ++
      (namedKey declared).text)
    "Rename one of the declarations"

/-- A name is reported when an earlier one has its kind and its slug. -/
theorem violations_uniqueNames (spec : Spec) :
    Rule.uniqueNames.violations spec =
      (repeating kindAndSlug spec.named).map taken := by
  have sameRepeats :
      repeating namedKey spec.named = repeating kindAndSlug spec.named :=
    repeating_congr fun left leftListed right rightListed =>
      namedKey_eq_iff (identified_of_mem_named leftListed)
        (identified_of_mem_named rightListed)
  rw [Rule.violations, Rule.uniqueNameViolations, declaredKeys_eq,
    repeats_map, repeats_eq_repeating, sameRepeats, List.map_map]
  rfl

/-- Names of different kinds do not take each other. -/
theorem violations_uniqueNames_eq_append (spec : Spec) :
    Rule.uniqueNames.violations spec =
      Rule.uniqueNames.violations { groups := spec.groups } ++
        Rule.uniqueNames.violations { users := spec.users } ++
        Rule.uniqueNames.violations
          { permissionSets := spec.permissionSets } := by
  have apart :
      ∀ first second : List (ResourceKind × String),
        (∀ left ∈ first, ∀ right ∈ second, left.1 ≠ right.1) →
          repeating kindAndSlug (first ++ second) =
            repeating kindAndSlug first ++ repeating kindAndSlug second := by
    intro first second kindsDiffer
    refine repeating_append fun left leftListed right rightListed same => ?_
    have sameKind : left.1 = right.1 := (Prod.mk.inj same).1
    exact kindsDiffer left leftListed right rightListed sameKind
  simp only [violations_uniqueNames, ← List.map_append]
  congr 1
  rw [named, apart, apart]
  · simp [named]
  · simp only [List.forall_mem_map]
    exact fun _ _ _ _ => nofun
  · simp only [List.mem_append, List.mem_map]
    rintro left (⟨group, _, rfl⟩ | ⟨user, _, rfl⟩) right ⟨set, _, rfl⟩ <;>
      nofun

/-- Two names do not stand for one draft of this pass. -/
def StandApart
    (spec : Spec)
    (left right : String) :
    Prop :=
  ∀ scope : Scope,
    scope.spec = spec →
      ∀ key field,
        (∀ kind,
          scope.resolvePrincipal kind left = .ok (.draft key field) →
            scope.resolvePrincipal kind right ≠ .ok (.draft key field)) ∧
          (scope.resolvePermissionSet left = .ok (.draft key field) →
            scope.resolvePermissionSet right ≠ .ok (.draft key field))

theorem standApart_of_distinctNames
    {spec : Spec}
    (distinct : spec.DistinctNames)
    {left right : String}
    (differ : left ≠ right) :
    spec.StandApart left right := by
  rintro scope rfl key field
  constructor
  · intro kind leftResolves rightResolves
    have leftStands := Scope.resolvePrincipal_eq_ok_iff.mp leftResolves
    have rightStands := Scope.resolvePrincipal_eq_ok_iff.mp rightResolves
    exact differ (leftStands.name_eq distinct rightStands)
  · intro leftResolves rightResolves
    have leftStands := Scope.resolvePermissionSet_eq_ok_iff.mp leftResolves
    have rightStands := Scope.resolvePermissionSet_eq_ok_iff.mp rightResolves
    exact differ (leftStands.name_eq distinct rightStands)

/-- Which names of a topology are reported as taken, and what follows if none is. -/
structure ReportsTakenNames (spec : Spec) : Prop where
  reported :
    Rule.uniqueNames.violations spec =
      (repeating kindAndSlug spec.named).map taken
  kindsApart :
    Rule.uniqueNames.violations spec =
      Rule.uniqueNames.violations { groups := spec.groups } ++
        Rule.uniqueNames.violations { users := spec.users } ++
        Rule.uniqueNames.violations
          { permissionSets := spec.permissionSets }
  noneReported :
    Rule.uniqueNames.violations spec = [] ↔
      (spec.groups.map (fun group => LogicalKey.group group.name) ++
          spec.users.map (fun user => LogicalKey.user user.name) ++
          spec.permissionSets.map
            (fun set => LogicalKey.permissionSet set.name)).Nodup
  draftsDiffer :
    Rule.uniqueNames.violations spec = [] →
      ∀ left right, left ≠ right → spec.StandApart left right

/--
Reported as taken are, in the order of declaration, the names of which an
earlier declaration of the same kind has the slug, each once and whatever the
names of other kinds.  None is reported exactly where the keys of all groups,
users and permission sets differ, and there different names of a kind never
stand for the same draft.
-/
theorem taken_names_reported (spec : Spec) : spec.ReportsTakenNames := by
  refine
    { reported := spec.violations_uniqueNames
      kindsApart := spec.violations_uniqueNames_eq_append
      noneReported := ?_
      draftsDiffer := ?_ }
  · rw [distinctNames_iff, DistinctNames, declaredKeys]
    simp only [List.map_append, List.map_map]
    rfl
  · intro noneTaken left right differ
    exact standApart_of_distinctNames (distinctNames_iff.mp noneTaken) differ

/-- Two groups and a user whose names have one slug. -/
def contested : Spec :=
  { groups := [{ name := "Ops" }, { name := "ops!" }]
    users := [{ name := "OPS" }] }

theorem taken_names_reported_sample :
    Rule.uniqueNames.violations contested = [taken (.group, "ops!")] ∧
      ({ contested with groups := [{ name := "Ops" }, { name := "Dev" }] } :
          Spec).StandApart "Ops" "Dev" := by
  refine ⟨?_, ?_⟩
  · rw [(taken_names_reported contested).reported]
    decide +kernel
  · exact (taken_names_reported _).draftsDiffer (by decide +kernel) "Ops" "Dev"
      (by decide)

end Spec

end AccessTopology
