import AccessTopology.Proofs.Spec.Document
import AccessTopology.Readiness

namespace AccessTopology

/-!
# Status summaries read back

Every status summary reads back from what it is written as, with the known
identifiers of resources and without those that are not known.
-/

namespace ResourceStatus

/-- Columns of a resource's status. -/
def columns : List (Column ResourceStatus) :=
  [.kept .required "state"
      (.named (ResourceState.all.map (fun state => (state.name, state)))
        ResourceState.name (fun state => by cases state <;> decide))
      ResourceStatus.state (fun status value => { status with state := value }),
    .ifPresent "id" .text ResourceStatus.id
      (fun status value => { status with id := value })]

/-- The table of resources' status. -/
def table : Table ResourceStatus where
  initial := ⟨.pending, none⟩
  columns := columns
  starts := by
    simp [columns]
  distinct := by
    decide
  commute := by
    simp [columns, Column.Commute]
  rebuilt := by
    simp [columns, Column.putAll]

theorem toJson_eq (status : ResourceStatus) :
    status.toJson = table.write status := by
  obtain ⟨_, id⟩ := status
  cases id with
  | none =>
      rfl
  | some id =>
      rfl

/-- The status of resources. -/
def codec : Codec ResourceStatus where
  reader := reader
  write := toJson
  layout := table.layout
  Keeps _ := True
  reads := by
    intro status _ shorter abridges
    rw [toJson_eq] at abridges
    apply table.reads _ abridges
    simp [Table.Keeps, table, columns]

@[simp] theorem keeps_codec (status : ResourceStatus) :
    codec.Keeps status :=
  trivial

end ResourceStatus

namespace ReadinessCounts

/-- Columns of counts. -/
def columns : List (Column ReadinessCounts) :=
  [.kept .required "ready" .count ReadinessCounts.ready
      (fun counts value => { counts with ready := value }),
    .kept .required "provisioning" .count ReadinessCounts.provisioning
      (fun counts value => { counts with provisioning := value }),
    .kept .required "pending" .count ReadinessCounts.pending
      (fun counts value => { counts with pending := value })]

/-- The table of counts. -/
def table : Table ReadinessCounts where
  initial := ⟨0, 0, 0⟩
  columns := columns
  starts := by
    simp [columns]
  distinct := by
    decide
  commute := by
    simp [columns, Column.Commute]
  rebuilt := by
    simp [columns, Column.putAll]

/-- Counts. -/
def codec : Codec ReadinessCounts where
  reader := reader
  write := toJson
  layout := table.layout
  Keeps _ := True
  reads := by
    intro counts _ shorter abridges
    apply table.reads _ abridges
    simp [Table.Keeps, table, columns]

@[simp] theorem keeps_codec (counts : ReadinessCounts) :
    codec.Keeps counts :=
  trivial

end ReadinessCounts

namespace StatusSummary

/-- Columns of status summaries. -/
def columns : List (Column StatusSummary) :=
  [.kept .optional "instanceArn" .text? StatusSummary.instanceArn
      (fun summary value => { summary with instanceArn := value }),
    .kept .optional "identityStoreId" .text? StatusSummary.identityStoreId
      (fun summary value => { summary with identityStoreId := value }),
    .kept .required "managementPolicies" .texts
      StatusSummary.managementPolicies
      (fun summary value => { summary with managementPolicies := value }),
    .kept .required "principals" ResourceStatus.codec.keyMap
      StatusSummary.principals
      (fun summary value => { summary with principals := value }),
    .kept .required "permissionSets" ResourceStatus.codec.keyMap
      StatusSummary.permissionSets
      (fun summary value => { summary with permissionSets := value }),
    .kept .required "assignments" ResourceStatus.codec.keyMap
      StatusSummary.assignments
      (fun summary value => { summary with assignments := value }),
    .kept .required "counts" ReadinessCounts.codec StatusSummary.counts
      (fun summary value => { summary with counts := value }),
    .kept .required "ready" .flag StatusSummary.ready
      (fun summary value => { summary with ready := value })]

/-- The table of status summaries. -/
def table : Table StatusSummary where
  initial :=
    { instanceArn := none, identityStoreId := none, managementPolicies := [],
      principals := .empty, permissionSets := .empty, assignments := .empty,
      counts := ⟨0, 0, 0⟩, ready := false }
  columns := columns
  starts := by
    simp [columns]
  distinct := by
    decide
  commute := by
    simp [columns, Column.Commute]
  rebuilt := by
    simp [columns, Column.putAll]

/-- Status summaries. -/
def codec : Codec StatusSummary where
  reader := reader
  write := toJson
  layout := table.layout
  Keeps _ := True
  reads := by
    intro summary _ shorter abridges
    apply table.reads _ abridges
    simp [Table.Keeps, table, columns]

@[simp] theorem keeps_codec (summary : StatusSummary) :
    codec.Keeps summary :=
  trivial

end StatusSummary

end AccessTopology
