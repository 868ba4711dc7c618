import AgentBroker.Lib.Bytes
import AgentBroker.Lib.Sorting
import AgentBroker.Domain.Restore

/-!
# Snapshots

The wire form of a checkpoint (`snapshot_v1.rs`): raw numbers and texts, with the three
states of a task flattened into optional fields.  Reading it back revalidates every
value, and then the checkpoint as a whole.

The JSON of the wire records is not modelled here: `json` stands for any serialiser that
reads back what it wrote.

## Main results

* `taskFromWire_taskToWire`, `groupFromWire_groupToWire` — records survive their wire form.
* `snapshotFromWire_checkpointToWire` — so do the checkpoints of machines with exact
  indexes.
-/

namespace AgentBroker

open Except hiding error

/-- What can be wrong with stored bytes (`error.rs`). -/
inductive StorageError where
  | invalidFormat (message : String)
  | unsupportedSchemaVersion (version : U64)
  | revisionGap (expected actual : Revision)
  | backwardTerm (current incoming : Term)
  | entityRevisionRollback (entity : String)
  | checkpoint (error : CheckpointError)
  deriving DecidableEq, Repr

/-- `Display` of a storage error. -/
def StorageError.display : StorageError → String
  | .invalidFormat message => message
  | .unsupportedSchemaVersion version =>
    "unsupported Broker storage schema version " ++ toString version.get
  | .revisionGap expected actual =>
    "journal revision gap: expected " ++ toString expected.get ++ ", received " ++
      toString actual.get
  | .backwardTerm current incoming =>
    "journal term moved backward: current " ++ toString current.get ++ ", incoming " ++
      toString incoming.get
  | .entityRevisionRollback entity => entity ++ " local revision moved backward during replay"
  | .checkpoint error => "invalid Broker checkpoint: " ++ error.display

/-! ## Wire records -/

structure NamespaceWire where
  namespaceId : String
  revision : U64
  deriving DecidableEq, Repr

structure MemberWire where
  capabilities : List String
  joinedAtMs : U64
  lastHeartbeatAtMs : U64
  memberId : String
  revision : U64
  deriving DecidableEq, Repr

structure GroupWire where
  generation : U64
  groupId : String
  members : List MemberWire
  namespaceId : String
  revision : U64
  deriving DecidableEq, Repr

structure TaskWire where
  completedAtMs : Option U64
  createdAtMs : U64
  leaseEpoch : U64
  leaseExpiresAtMs : Option U64
  leaseGeneration : Option U64
  leaseGroupId : Option String
  leaseId : Option String
  leaseOwnerMemberId : Option String
  namespaceId : String
  objective : String
  result : Option String
  revision : U64
  status : String
  taskId : String
  deriving DecidableEq, Repr

structure SnapshotWire where
  groups : List GroupWire
  namespaces : List NamespaceWire
  revision : U64
  schemaVersion : U64
  tasks : List TaskWire
  term : U64
  deriving DecidableEq, Repr

/-- `SCHEMA_VERSION`. -/
def schemaVersion : U64 := 1

/-! ## Writing -/

/-- `namespace_to_wire`. -/
def namespaceToWire (ns : NamespaceCheckpoint) : NamespaceWire :=
  ⟨ns.namespaceId.asStr, ns.revision.toU64⟩

/-- `member_to_wire`. -/
def memberToWire (member : MemberCheckpoint) : MemberWire where
  capabilities := member.capabilities.asSlice.map Capability.asStr
  joinedAtMs := member.joinedAtMs.toU64
  lastHeartbeatAtMs := member.lastHeartbeatAtMs.toU64
  memberId := member.memberId.asStr
  revision := member.revision.toU64

/-- `group_to_wire`. -/
def groupToWire (group : ConsumerGroupCheckpoint) : GroupWire where
  generation := group.generation.toU64
  groupId := group.groupId.asStr
  members := (group.members.map memberToWire).sortByKey MemberWire.memberId
  namespaceId := group.namespaceId.asStr
  revision := group.revision.toU64

/-- `task_to_wire`. -/
def taskToWire (task : TaskCheckpoint) : TaskWire :=
  let wire : TaskWire :=
    { completedAtMs := none
      createdAtMs := task.createdAtMs.toU64
      leaseEpoch := 0
      leaseExpiresAtMs := none
      leaseGeneration := none
      leaseGroupId := none
      leaseId := none
      leaseOwnerMemberId := none
      namespaceId := task.namespaceId.asStr
      objective := task.objective.asStr
      result := none
      revision := task.revision.toU64
      status := ""
      taskId := task.taskId.asStr }
  match task.state with
  | .queued leaseEpoch => { wire with leaseEpoch := leaseEpoch.toU64, status := "queued" }
  | .leased leaseId ownerMemberId groupId generation leaseEpoch expiresAtMs =>
    { wire with
      leaseEpoch := leaseEpoch.toU64
      leaseExpiresAtMs := some expiresAtMs.toU64
      leaseGeneration := some generation.toU64
      leaseGroupId := some groupId.asStr
      leaseId := some leaseId.asStr
      leaseOwnerMemberId := some ownerMemberId.asStr
      status := "leased" }
  | .completed leaseId ownerMemberId groupId generation leaseEpoch result completedAtMs =>
    { wire with
      completedAtMs := some completedAtMs.toU64
      leaseEpoch := leaseEpoch.toU64
      leaseGeneration := some generation.toU64
      leaseGroupId := some groupId.asStr
      leaseId := some leaseId.asStr
      leaseOwnerMemberId := some ownerMemberId.asStr
      result := some result.asStr
      status := "completed" }

@[simp] theorem taskId_taskToWire (task : TaskCheckpoint) :
    (taskToWire task).taskId = task.taskId.asStr := by
  unfold taskToWire
  cases task.state <;> rfl

/-- `checkpoint_to_wire`. -/
def checkpointToWire (checkpoint : BrokerCheckpoint) : SnapshotWire where
  groups := (checkpoint.groups.map groupToWire).sortByKey GroupWire.groupId
  namespaces := (checkpoint.namespaces.map namespaceToWire).sortByKey NamespaceWire.namespaceId
  revision := checkpoint.revision.toU64
  schemaVersion := schemaVersion
  tasks := (checkpoint.tasks.map taskToWire).sortByKey TaskWire.taskId
  term := checkpoint.term.toU64

/-- `encode_snapshot`. -/
def encodeSnapshot (json : Codec SnapshotWire) (checkpoint : BrokerCheckpoint) : Bytes :=
  json.toVec (checkpointToWire checkpoint)

/-! ## Reading -/

/-- `invalid_value`: the field that did not validate, and why. -/
def invalidValue {ε α : Type} (field : String) (display : ε → String) (x : Except ε α) :
    Except StorageError α :=
  x.mapError fun error => .invalidFormat (field ++ " is invalid: " ++ display error)

@[simp] theorem invalidValue_ok {ε α : Type} (field : String) (display : ε → String) (a : α) :
    invalidValue field display (.ok a) = .ok a := rfl

/-- `positive_revision`. -/
def positiveRevision (value : U64) (field : String) : Except StorageError Revision := do
  Except.require (value.get ≠ 0) (.invalidFormat (field ++ " must be positive"))
  return .new value

/-- `required_u64`, `required_string`. -/
def required {α : Type} (value : Option α) (field : String) : Except StorageError α :=
  .ofOption (.invalidFormat (field ++ " is required")) value

/-- `required_id`. -/
def requiredId (kind : IdentifierKind) (value : Option String) (field : String) :
    Except StorageError (Identifier kind) := do
  let raw ← required value field
  invalidValue field IdentifierError.display (Identifier.new raw)

/-- `namespace_from_wire`. -/
def namespaceFromWire (wire : NamespaceWire) : Except StorageError NamespaceCheckpoint := do
  return {
    namespaceId := ← invalidValue "namespace_id" IdentifierError.display
      (Identifier.new wire.namespaceId)
    revision := ← positiveRevision wire.revision "namespace.revision" }

/-- `member_from_wire`. -/
def memberFromWire (wire : MemberWire) : Except StorageError MemberCheckpoint := do
  return {
    memberId := ← invalidValue "member_id" IdentifierError.display (Identifier.new wire.memberId)
    capabilities := ← invalidValue "member.capabilities" CapabilitiesError.display
      (Capabilities.new wire.capabilities)
    joinedAtMs := .new wire.joinedAtMs
    lastHeartbeatAtMs := .new wire.lastHeartbeatAtMs
    revision := ← positiveRevision wire.revision "member.revision" }

/-- `group_from_wire`. -/
def groupFromWire (wire : GroupWire) : Except StorageError ConsumerGroupCheckpoint := do
  return {
    groupId := ← invalidValue "group_id" IdentifierError.display (Identifier.new wire.groupId)
    namespaceId := ← invalidValue "group.namespace_id" IdentifierError.display
      (Identifier.new wire.namespaceId)
    generation := .new wire.generation
    revision := ← positiveRevision wire.revision "group.revision"
    members := ← wire.members.mapM memberFromWire }

/-- `require_queued_task_fields`. -/
def requireQueuedTaskFields (wire : TaskWire) : Except StorageError Unit :=
  .require (wire.leaseId = none ∧ wire.leaseOwnerMemberId = none ∧ wire.leaseGroupId = none ∧
      wire.leaseGeneration = none ∧ wire.leaseExpiresAtMs = none ∧ wire.completedAtMs = none ∧
      wire.result = none)
    (.invalidFormat "queued task contains lease/completion fields")

/-- `require_leased_task_fields`. -/
def requireLeasedTaskFields (wire : TaskWire) : Except StorageError Unit :=
  .require (wire.result = none ∧ wire.completedAtMs = none)
    (.invalidFormat "leased task contains completion-only fields")

/-- One character of a text that Rust prints with `{:?}`.  Of the characters beyond Latin-1,
which Rust escapes by its tables of unprintable ones, none is escaped here. -/
def debugChar (c : Char) : String :=
  if c = '\x00' then "\\0"
  else if c = '\t' then "\\t"
  else if c = '\r' then "\\r"
  else if c = '\n' then "\\n"
  else if c = '"' then "\\\""
  else if c = '\\' then "\\\\"
  -- The control characters without a short form, and the soft hyphen.
  else if c.toNat < 32 ∨ 127 ≤ c.toNat ∧ c.toNat < 160 ∨ c.toNat = 173 then
    "\\u\x7b" ++ String.ofList (Nat.toDigits 16 c.toNat) ++ "\x7d"
  else String.ofList [c]

/-- A text as Rust prints it with `{:?}`. -/
def debugText (s : String) : String :=
  "\"" ++ String.join (s.toList.map debugChar) ++ "\""

/-- `task_state_from_wire`. -/
def taskStateFromWire (wire : TaskWire) : Except StorageError TaskCheckpointState :=
  let leaseEpoch : LeaseEpoch := .new wire.leaseEpoch
  match wire.status with
  | "queued" => do
      requireQueuedTaskFields wire
      return .queued leaseEpoch
  | "leased" => do
      requireLeasedTaskFields wire
      return .leased (← requiredId .leaseId wire.leaseId "task.lease_id")
        (← requiredId .memberId wire.leaseOwnerMemberId "task.lease_owner_member_id")
        (← requiredId .groupId wire.leaseGroupId "task.lease_group_id")
        (.new (← required wire.leaseGeneration "task.lease_generation")) leaseEpoch
        (.new (← required wire.leaseExpiresAtMs "task.lease_expires_at_ms"))
  | "completed" => do
      Except.require (wire.leaseExpiresAtMs = none)
        (.invalidFormat "completed task must not retain lease_expires_at_ms")
      return .completed (← requiredId .leaseId wire.leaseId "task.lease_id")
        (← requiredId .memberId wire.leaseOwnerMemberId "task.lease_owner_member_id")
        (← requiredId .groupId wire.leaseGroupId "task.lease_group_id")
        (.new (← required wire.leaseGeneration "task.lease_generation")) leaseEpoch
        (← invalidValue "task.result" TaskTextError.display
          (TaskText.new (← required wire.result "task.result")))
        (.new (← required wire.completedAtMs "task.completed_at_ms"))
  | other => .error (.invalidFormat ("unknown task status " ++ debugText other))

/-- `task_from_wire`. -/
def taskFromWire (wire : TaskWire) : Except StorageError TaskCheckpoint := do
  let state ← taskStateFromWire wire
  return {
    taskId := ← invalidValue "task_id" IdentifierError.display (Identifier.new wire.taskId)
    namespaceId := ← invalidValue "task.namespace_id" IdentifierError.display
      (Identifier.new wire.namespaceId)
    objective := ← invalidValue "task.objective" TaskTextError.display
      (TaskText.new wire.objective)
    createdAtMs := .new wire.createdAtMs
    revision := ← positiveRevision wire.revision "task.revision"
    state := state }

/-- `snapshot_from_wire`: the records first, then the checkpoint as a whole. -/
def snapshotFromWire (wire : SnapshotWire) : Except StorageError BrokerCheckpoint := do
  Except.require (wire.schemaVersion = schemaVersion)
    (.unsupportedSchemaVersion wire.schemaVersion)
  let checkpoint : BrokerCheckpoint := {
    term := ← invalidValue "term" FencingValueError.display (Term.new wire.term)
    revision := .new wire.revision
    namespaces := ← wire.namespaces.mapM namespaceFromWire
    tasks := ← wire.tasks.mapM taskFromWire
    groups := ← wire.groups.mapM groupFromWire }
  let _ ← (BrokerStateMachine.fromCheckpoint checkpoint).mapError StorageError.checkpoint
  return checkpoint

/-- `decode_snapshot`. -/
def decodeSnapshot (json : Codec SnapshotWire) (bytes : Bytes) :
    Except StorageError BrokerCheckpoint := do
  let wire ← (json.fromSlice bytes).mapError fun error =>
    StorageError.invalidFormat ("invalid Broker snapshot JSON: " ++ error)
  snapshotFromWire wire

/-! ## Round trips -/

theorem positiveRevision_toU64 {revision : Revision} (field : String)
    (h : 0 < revision.get) : positiveRevision revision.toU64 field = .ok revision := by
  have hne : revision.toU64.get ≠ 0 := Nat.ne_of_gt h
  rw [positiveRevision, require_pos hne]
  rfl

@[simp] theorem required_some {α : Type} (a : α) (field : String) :
    required (some a) field = .ok a := rfl

@[simp] theorem requiredId_asStr {kind : IdentifierKind} (i : Identifier kind) (field : String) :
    requiredId kind (some i.asStr) field = .ok i := by
  rw [requiredId, required_some, ok_bind, Identifier.new_asStr, invalidValue_ok]

theorem namespaceFromWire_namespaceToWire {ns : NamespaceCheckpoint}
    (h : 0 < ns.revision.get) : namespaceFromWire (namespaceToWire ns) = .ok ns := by
  rw [namespaceFromWire, namespaceToWire, Identifier.new_asStr, invalidValue_ok, ok_bind,
    positiveRevision_toU64 _ h]
  rfl

theorem memberFromWire_memberToWire {member : MemberCheckpoint}
    (h : 0 < member.revision.get) : memberFromWire (memberToWire member) = .ok member := by
  simp only [memberFromWire, memberToWire, Identifier.new_asStr, Capabilities.new_asSlice,
    invalidValue_ok, ok_bind, positiveRevision_toU64 _ h]
  rfl

/-- **A task survives its wire form**, in each of its three states. -/
theorem taskFromWire_taskToWire {task : TaskCheckpoint} (h : 0 < task.revision.get) :
    taskFromWire (taskToWire task) = .ok task := by
  have hstate : taskStateFromWire (taskToWire task) = .ok task.state := by
    obtain ⟨taskId, namespaceId, objective, createdAtMs, revision, state⟩ := task
    cases state with
    | queued => rfl
    | leased =>
      simp only [taskStateFromWire, taskToWire, requireLeasedTaskFields, Except.require,
        requiredId_asStr, required_some, ok_bind]
      rfl
    | completed =>
      simp only [taskStateFromWire, taskToWire, Except.require, requiredId_asStr,
        required_some, ok_bind, TaskText.new_asStr, invalidValue_ok]
      rfl
  rw [taskFromWire, hstate]
  obtain ⟨taskId, namespaceId, objective, createdAtMs, revision, state⟩ := task
  cases state <;>
    simp only [taskToWire, Identifier.new_asStr, TaskText.new_asStr, invalidValue_ok,
      ok_bind, positiveRevision_toU64 _ h] <;>
    rfl

/-- **A group survives its wire form**, if its members are in order. -/
theorem groupFromWire_groupToWire {group : ConsumerGroupCheckpoint}
    (hpos : 0 < group.revision.get) (hmembers : ∀ member ∈ group.members, 0 < member.revision.get)
    (hsorted : group.members.Pairwise fun a b => a.memberId < b.memberId) :
    groupFromWire (groupToWire group) = .ok group := by
  have hwire : (group.members.map memberToWire).sortByKey MemberWire.memberId =
      group.members.map memberToWire :=
    List.sortByKey_of_sorted (List.pairwise_map.mpr (hsorted.imp fun hlt => hlt))
  have hread : (group.members.map memberToWire).mapM memberFromWire = .ok group.members :=
    mapM_map_eq_ok fun member hmember =>
      memberFromWire_memberToWire (hmembers member hmember)
  simp only [groupFromWire, groupToWire, hwire, hread, Identifier.new_asStr, invalidValue_ok,
    ok_bind, positiveRevision_toU64 _ hpos]
  rfl

/-- The members of a group are exported in order, with positive revisions. -/
theorem groupFromWire_checkpoint {group : ConsumerGroup} (h : group.WellFormed) :
    groupFromWire (groupToWire group.checkpoint) = .ok group.checkpoint := by
  refine groupFromWire_groupToWire h.revision_pos ?_
    (group.consumers.map_values_sorted fun _ => rfl)
  intro member hmember
  obtain ⟨consumer, hconsumer, rfl⟩ := List.mem_map.mp hmember
  exact h.member_pos (Registry.mem_values.mp hconsumer)

/-! ## Checkpoints -/

section Records

variable {state : BrokerState}

theorem checkpoint_namespaces_sorted (state : BrokerState) :
    state.checkpoint.namespaces.Pairwise fun a b => a.namespaceId < b.namespaceId :=
  state.namespaces.map_values_sorted fun _ => rfl

theorem checkpoint_tasks_sorted (state : BrokerState) :
    state.checkpoint.tasks.Pairwise fun a b => a.taskId < b.taskId :=
  state.tasks.map_values_sorted fun _ => rfl

theorem checkpoint_groups_sorted (state : BrokerState) :
    state.checkpoint.groups.Pairwise fun a b => a.groupId < b.groupId :=
  state.groups.map_values_sorted fun _ => rfl

/-- The records of a state are written in the order of its maps. -/
theorem checkpointToWire_checkpoint (state : BrokerState) :
    checkpointToWire state.checkpoint =
      { groups := state.checkpoint.groups.map groupToWire
        namespaces := state.checkpoint.namespaces.map namespaceToWire
        revision := state.revision.toU64
        schemaVersion := schemaVersion
        tasks := state.checkpoint.tasks.map taskToWire
        term := state.term.toU64 } := by
  have hgroups := List.sortByKey_map (f := groupToWire) (k := GroupWire.groupId)
    (fun _ _ hlt => hlt) (checkpoint_groups_sorted state)
  have hnamespaces := List.sortByKey_map (f := namespaceToWire) (k := NamespaceWire.namespaceId)
    (fun _ _ hlt => hlt) (checkpoint_namespaces_sorted state)
  have htasks := List.sortByKey_map (f := taskToWire) (k := TaskWire.taskId)
    (fun a b hlt => by rwa [taskId_taskToWire, taskId_taskToWire]) (checkpoint_tasks_sorted state)
  rw [checkpointToWire, hgroups, hnamespaces, htasks]
  rfl

theorem mapM_namespaceFromWire (h : state.WellFormed) :
    (state.checkpoint.namespaces.map namespaceToWire).mapM namespaceFromWire =
      .ok state.checkpoint.namespaces := by
  refine mapM_map_eq_ok fun record hrecord => ?_
  obtain ⟨ns, hns, rfl⟩ := List.mem_map.mp hrecord
  exact namespaceFromWire_namespaceToWire (h.namespaces (Registry.mem_values.mp hns))

theorem mapM_taskFromWire (h : state.WellFormed) :
    (state.checkpoint.tasks.map taskToWire).mapM taskFromWire = .ok state.checkpoint.tasks := by
  refine mapM_map_eq_ok fun record hrecord => ?_
  obtain ⟨task, htask, rfl⟩ := List.mem_map.mp hrecord
  exact taskFromWire_taskToWire (h.tasks (Registry.mem_values.mp htask)).1

theorem mapM_groupFromWire (h : state.WellFormed) :
    (state.checkpoint.groups.map groupToWire).mapM groupFromWire =
      .ok state.checkpoint.groups := by
  refine mapM_map_eq_ok fun record hrecord => ?_
  obtain ⟨group, hgroup, rfl⟩ := List.mem_map.mp hrecord
  exact groupFromWire_checkpoint (h.groups (Registry.mem_values.mp hgroup)).1

end Records

/-- **A checkpoint survives its wire form**, if it is that of a machine with exact
indexes. -/
theorem snapshotFromWire_checkpointToWire {m : BrokerStateMachine} (h : m.Indexed) :
    snapshotFromWire (checkpointToWire m.state.checkpoint) = .ok m.state.checkpoint := by
  obtain ⟨r, hr, -⟩ := BrokerStateMachine.fromCheckpoint_checkpoint h
  rw [checkpointToWire_checkpoint, snapshotFromWire]
  simp only [Except.require, if_true, ok_bind, Term.new_toU64, invalidValue_ok,
    mapM_namespaceFromWire h.wellFormed, mapM_taskFromWire h.wellFormed,
    mapM_groupFromWire h.wellFormed]
  show ((BrokerStateMachine.fromCheckpoint m.state.checkpoint).mapError StorageError.checkpoint >>=
    fun _ => Except.ok m.state.checkpoint) = .ok m.state.checkpoint
  rw [hr]
  rfl

theorem decodeSnapshot_encodeSnapshot (json : Codec SnapshotWire) {m : BrokerStateMachine}
    (h : m.Indexed) :
    decodeSnapshot json (encodeSnapshot json m.state.checkpoint) = .ok m.state.checkpoint := by
  rw [decodeSnapshot, encodeSnapshot, json.fromSlice_toVec]
  exact snapshotFromWire_checkpointToWire h

end AgentBroker
