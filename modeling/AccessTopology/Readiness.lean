import AccessTopology.Observation
import AccessTopology.Scope
import AccessTopology.Topology.Assignment

namespace AccessTopology

/-!
# Readiness

The state of every group, user, permission set and assignment that a topology
declares. Keys are computed from the topology itself and not from its drafts,
so what was never observed stays apart from what is not ready yet.
-/

/-- How far a declared resource has come. -/
inductive ResourceState
  | pending
  | provisioning
  | ready
  deriving Repr, DecidableEq

/-- The state of a resource, and its identifier if one is known. -/
structure ResourceStatus where
  state : ResourceState
  id : Option String
  deriving Repr, DecidableEq

/-- Number of resources in each state. -/
structure ReadinessCounts where
  ready : Nat
  provisioning : Nat
  pending : Nat
  deriving Repr, DecidableEq

/-- The state of a topology. -/
structure StatusSummary where
  instanceArn : Option String
  identityStoreId : Option String
  managementPolicies : List String
  principals : KeyMap ResourceStatus
  permissionSets : KeyMap ResourceStatus
  assignments : KeyMap ResourceStatus
  counts : ReadinessCounts
  ready : Bool
  deriving DecidableEq

namespace ResourceState

/-- Every state, in the order of declaration. -/
def all : List ResourceState :=
  [pending, provisioning, ready]

/-- The name of a state. -/
def name : ResourceState → String
  | pending => "pending"
  | provisioning => "provisioning"
  | ready => "ready"

end ResourceState

namespace ResourceStatus

/-- The state of a resource of some kind under a key. -/
def ofObservations
    (observations : Observations)
    (kind : ResourceKind)
    (key : LogicalKey) :
    ResourceStatus :=
  match observations.get? key with
  | none => ⟨.pending, none⟩
  | some observation =>
      { state := if observation.ready then .ready else .provisioning
        id := observation.identifier? kind.identifierField? }

end ResourceStatus

namespace ReadinessCounts

/-- Count the states of some resources. -/
def ofStatuses (statuses : List ResourceStatus) : ReadinessCounts :=
  { ready := statuses.countP (·.state = .ready)
    provisioning := statuses.countP (·.state = .provisioning)
    pending := statuses.countP (·.state = .pending) }

/-- Whether there is a resource and every resource is ready. -/
def allReady (counts : ReadinessCounts) : Bool :=
  counts.ready > 0 && counts.provisioning = 0 && counts.pending = 0

end ReadinessCounts

namespace StatusSummary

/-- The states of resources of one kind, by key. -/
def statuses
    (observations : Observations)
    (kind : ResourceKind)
    (keys : List LogicalKey) :
    List (String × ResourceStatus) :=
  keys.map
    (fun key => (key.text, ResourceStatus.ofObservations observations kind key))

/-- The states of principals; none of them is managed without an identity store. -/
def principalStatuses
    (scope : Scope)
    (observations : Observations) :
    KeyMap ResourceStatus :=
  if scope.managesPrincipals then
    .ofList
      (statuses observations .group
          (scope.spec.groups.map (fun group => .group group.name)) ++
        statuses observations .user
          (scope.spec.users.map (fun user => .user user.name)))
  else
    .empty

/-- The states of permission sets. -/
def permissionSetStatuses
    (scope : Scope)
    (observations : Observations) :
    KeyMap ResourceStatus :=
  .ofList
    (statuses observations .permissionSet
      (scope.spec.permissionSets.map (fun set => .permissionSet set.name)))

/-- The states of assignments. -/
def assignmentStatuses
    (scope : Scope)
    (observations : Observations) :
    KeyMap ResourceStatus :=
  .ofList
    (statuses observations .accountAssignment
      (scope.spec.expandAssignments.map Assignment.key))

/-- The state of the topology of a scope. -/
def ofScope
    (scope : Scope)
    (observations : Observations) :
    StatusSummary :=
  let principals := principalStatuses scope observations
  let permissionSets := permissionSetStatuses scope observations
  let assignments := assignmentStatuses scope observations
  let counts :=
    ReadinessCounts.ofStatuses
      (principals.values ++ permissionSets.values ++ assignments.values)
  { instanceArn := scope.instanceArn
    identityStoreId := scope.identityStoreId
    managementPolicies := scope.managementPolicies
    principals := principals
    permissionSets := permissionSets
    assignments := assignments
    counts := counts
    ready := counts.allReady }

end StatusSummary

namespace ResourceStatus

/-- Fields of a resource's status. -/
def fields : List (Field ResourceStatus) :=
  [.required "state"
      (.cases (ResourceState.all.map (fun state => (state.name, state))))
      (fun status value => { status with state := value }),
    .defaulted "id" (.option .string)
      (fun status value => { status with id := value })]

/-- Read a resource's status. -/
def reader : Reader ResourceStatus :=
  .record fields ⟨.pending, none⟩

/-- A resource's status as a document; only a known identifier is written. -/
def toJson (status : ResourceStatus) : Json :=
  .object
    (("state", .string status.state.name) ::
      (status.id.map (fun id => ("id", .string id))).toList)

end ResourceStatus

namespace ReadinessCounts

/-- Fields of the counts. -/
def fields : List (Field ReadinessCounts) :=
  [.required "ready" .count
      (fun counts value => { counts with ready := value }),
    .required "provisioning" .count
      (fun counts value => { counts with provisioning := value }),
    .required "pending" .count
      (fun counts value => { counts with pending := value })]

/-- Read counts. -/
def reader : Reader ReadinessCounts :=
  .record fields ⟨0, 0, 0⟩

/-- Counts as a document. -/
def toJson (counts : ReadinessCounts) : Json :=
  .object
    [("ready", .ofNat counts.ready),
      ("provisioning", .ofNat counts.provisioning),
      ("pending", .ofNat counts.pending)]

end ReadinessCounts

namespace StatusSummary

/-- Fields of a status summary. -/
def fields : List (Field StatusSummary) :=
  [.optional "instanceArn" (.option .string)
      (fun summary value => { summary with instanceArn := value }),
    .optional "identityStoreId" (.option .string)
      (fun summary value => { summary with identityStoreId := value }),
    .required "managementPolicies" (.list .string)
      (fun summary value => { summary with managementPolicies := value }),
    .required "principals" (.map ResourceStatus.reader)
      (fun summary value => { summary with principals := value }),
    .required "permissionSets" (.map ResourceStatus.reader)
      (fun summary value => { summary with permissionSets := value }),
    .required "assignments" (.map ResourceStatus.reader)
      (fun summary value => { summary with assignments := value }),
    .required "counts" ReadinessCounts.reader
      (fun summary value => { summary with counts := value }),
    .required "ready" .bool
      (fun summary value => { summary with ready := value })]

/-- Read a status summary. -/
def reader : Reader StatusSummary :=
  .record fields
    { instanceArn := none, identityStoreId := none, managementPolicies := [],
      principals := .empty, permissionSets := .empty, assignments := .empty,
      counts := ⟨0, 0, 0⟩, ready := false }

/-- A status summary as a document. -/
def toJson (summary : StatusSummary) : Json :=
  .object
    [("instanceArn", .ofString? summary.instanceArn),
      ("identityStoreId", .ofString? summary.identityStoreId),
      ("managementPolicies", .ofStrings summary.managementPolicies),
      ("principals", .ofKeyMap ResourceStatus.toJson summary.principals),
      ("permissionSets",
        .ofKeyMap ResourceStatus.toJson summary.permissionSets),
      ("assignments", .ofKeyMap ResourceStatus.toJson summary.assignments),
      ("counts", summary.counts.toJson),
      ("ready", .bool summary.ready)]

end StatusSummary

end AccessTopology
