import AgentBroker.Domain.Commands

/-!
# Checkpoints

The logical image of the Broker that storage and replication serialise
(`checkpoint.rs`), with the export of namespaces, tasks and groups and the import
of single records.  A checkpoint lists records; it has none of the state
machine's indexes.
-/

namespace AgentBroker

structure NamespaceCheckpoint where
  namespaceId : NamespaceId
  revision : Revision
  deriving DecidableEq, Repr

structure MemberCheckpoint where
  memberId : ConsumerId
  capabilities : Capabilities
  joinedAtMs : TimestampMs
  lastHeartbeatAtMs : TimestampMs
  revision : Revision
  deriving DecidableEq

structure ConsumerGroupCheckpoint where
  groupId : ConsumerGroupId
  namespaceId : NamespaceId
  generation : Generation
  revision : Revision
  members : List MemberCheckpoint
  deriving DecidableEq

/-- Persisted lifecycle payload. -/
inductive TaskCheckpointState where
  | queued (leaseEpoch : LeaseEpoch)
  | leased (leaseId : LeaseId) (ownerMemberId : ConsumerId) (groupId : ConsumerGroupId)
      (generation : Generation) (leaseEpoch : LeaseEpoch) (expiresAtMs : TimestampMs)
  | completed (leaseId : LeaseId) (ownerMemberId : ConsumerId) (groupId : ConsumerGroupId)
      (generation : Generation) (leaseEpoch : LeaseEpoch) (result : TaskResult)
      (completedAtMs : TimestampMs)
  deriving DecidableEq, Repr

structure TaskCheckpoint where
  taskId : TaskId
  namespaceId : NamespaceId
  objective : TaskObjective
  createdAtMs : TimestampMs
  revision : Revision
  state : TaskCheckpointState
  deriving DecidableEq, Repr

/-- The durable logical Broker image. -/
structure BrokerCheckpoint where
  term : Term
  revision : Revision
  namespaces : List NamespaceCheckpoint
  tasks : List TaskCheckpoint
  groups : List ConsumerGroupCheckpoint
  deriving DecidableEq

/-- Why a checkpoint was refused. -/
inductive CheckpointError where
  | zeroEntityRevision (entity : String)
  | duplicateNamespace (namespaceId : NamespaceId)
  | duplicateTask (taskId : TaskId)
  | duplicateConsumerGroup (groupId : ConsumerGroupId)
  | duplicateMember (memberId : ConsumerId)
  | duplicateActiveLease (leaseId : LeaseId)
  | unknownNamespace (entity : String) (namespaceId : NamespaceId)
  deriving DecidableEq, Repr

/-- `Display` of a checkpoint error. -/
def CheckpointError.display : CheckpointError → String
  | .zeroEntityRevision entity => entity ++ " checkpoint revision must be positive"
  | .duplicateNamespace id => "duplicate namespace " ++ id.asStr ++ " in checkpoint"
  | .duplicateTask id => "duplicate task " ++ id.asStr ++ " in checkpoint"
  | .duplicateConsumerGroup id => "duplicate Consumer Group " ++ id.asStr ++ " in checkpoint"
  | .duplicateMember id => "duplicate member " ++ id.asStr ++ " in checkpoint"
  | .duplicateActiveLease id => "duplicate active lease " ++ id.asStr ++ " in checkpoint"
  | .unknownNamespace entity namespaceId =>
    entity ++ " checkpoint references unknown namespace " ++ namespaceId.asStr

/-! ## Tasks -/

namespace Task

/-- Export a task. -/
def checkpoint (task : Task) : TaskCheckpoint where
  taskId := task.id
  namespaceId := task.namespaceId
  objective := task.objective
  createdAtMs := task.createdAtMs
  revision := task.revision
  state :=
    match task.state with
    | .queued queued => .queued queued.leaseEpoch
    | .leased lease =>
      .leased lease.leaseId lease.ownerMemberId lease.groupId lease.generation
        lease.leaseEpoch lease.expiresAtMs
    | .completed completed =>
      .completed completed.leaseId completed.ownerMemberId completed.groupId
        completed.generation completed.leaseEpoch completed.result completed.completedAtMs

/-- Import a task. -/
def fromCheckpoint (checkpoint : TaskCheckpoint) : Task where
  id := checkpoint.taskId
  namespaceId := checkpoint.namespaceId
  objective := checkpoint.objective
  createdAtMs := checkpoint.createdAtMs
  revision := checkpoint.revision
  state :=
    match checkpoint.state with
    | .queued leaseEpoch => .queued ⟨leaseEpoch⟩
    | .leased leaseId ownerMemberId groupId generation leaseEpoch expiresAtMs =>
      .leased ⟨leaseId, ownerMemberId, groupId, generation, leaseEpoch, expiresAtMs⟩
    | .completed leaseId ownerMemberId groupId generation leaseEpoch result completedAtMs =>
      .completed
        ⟨leaseId, ownerMemberId, groupId, generation, leaseEpoch, result, completedAtMs⟩

@[simp] theorem fromCheckpoint_checkpoint (task : Task) :
    fromCheckpoint task.checkpoint = task := by
  obtain ⟨id, namespaceId, objective, createdAtMs, revision, state⟩ := task
  cases state <;> rfl

@[simp] theorem checkpoint_fromCheckpoint (c : TaskCheckpoint) :
    (fromCheckpoint c).checkpoint = c := by
  obtain ⟨id, namespaceId, objective, createdAtMs, revision, state⟩ := c
  cases state <;> rfl

end Task

/-! ## Groups -/

namespace Consumer

/-- Export a member. -/
def checkpoint (member : Consumer) : MemberCheckpoint where
  memberId := member.id
  capabilities := member.capabilities
  joinedAtMs := member.joinedAtMs
  lastHeartbeatAtMs := member.lastHeartbeatAtMs
  revision := member.revision

/-- Import a member. -/
def fromCheckpoint (checkpoint : MemberCheckpoint) : Consumer where
  id := checkpoint.memberId
  capabilities := checkpoint.capabilities
  joinedAtMs := checkpoint.joinedAtMs
  lastHeartbeatAtMs := checkpoint.lastHeartbeatAtMs
  revision := checkpoint.revision

end Consumer

namespace ConsumerGroup

/-- Export a group. -/
def checkpoint (group : ConsumerGroup) : ConsumerGroupCheckpoint where
  groupId := group.id
  namespaceId := group.namespaceId
  generation := group.generation
  revision := group.revision
  members := group.consumers.values.map Consumer.checkpoint

/-- Import a group, refusing two members of one id. -/
def fromCheckpoint (checkpoint : ConsumerGroupCheckpoint) :
    Except CheckpointError ConsumerGroup := do
  let consumers ← checkpoint.members.foldlM
    (fun consumers member =>
      consumers.putFresh CheckpointError.duplicateMember (Consumer.fromCheckpoint member))
    (∅ : Consumers)
  return {
    id := checkpoint.groupId
    namespaceId := checkpoint.namespaceId
    generation := checkpoint.generation
    revision := checkpoint.revision
    consumers := consumers }

end ConsumerGroup

end AgentBroker
