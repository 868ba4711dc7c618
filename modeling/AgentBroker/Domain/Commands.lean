import AgentBroker.Domain.Task
import AgentBroker.Domain.Group

/-!
# Commands, results and errors

The deterministic commands of the Broker (`commands.rs`), the typed result of
each with the set of changed entities (`results.rs`), and the errors of the
state machine with their texts (`state_machine.rs`).
-/

namespace AgentBroker

/-! ## Commands -/

/-- Ensure that a namespace exists. -/
structure EnsureNamespaceCommand where
  namespaceId : NamespaceId
  maxNamespaces : Usize
  deriving DecidableEq, Repr

/-- Publish a task into a namespace. -/
structure PublishTaskCommand where
  namespaceId : NamespaceId
  taskId : TaskId
  objective : TaskObjective
  createdAtMs : TimestampMs
  maxNamespaceTasks : Usize
  deriving DecidableEq, Repr

/-- Ensure that a Consumer Group exists in a namespace. -/
structure EnsureConsumerGroupCommand where
  namespaceId : NamespaceId
  groupId : ConsumerGroupId
  maxNamespaceGroups : Usize
  deriving DecidableEq, Repr

/-- Join a group, or refresh a membership. -/
structure JoinConsumerGroupCommand where
  groupId : ConsumerGroupId
  memberId : ConsumerId
  capabilities : Capabilities
  nowMs : TimestampMs
  maxGroupMembers : Usize
  deriving DecidableEq

/-- Record a heartbeat. -/
structure HeartbeatCommand where
  groupId : ConsumerGroupId
  memberId : ConsumerId
  expectedGeneration : Generation
  nowMs : TimestampMs
  deriving DecidableEq, Repr

/-- Leave a group. -/
structure LeaveConsumerGroupCommand where
  groupId : ConsumerGroupId
  memberId : ConsumerId
  expectedGeneration : Generation
  deriving DecidableEq, Repr

/-- Reap stale members of all groups in heartbeat order. -/
structure ReapStaleMembersCommand where
  staleBeforeMs : TimestampMs
  maxMembers : Usize
  deriving DecidableEq, Repr

/-- Claim the oldest ready task of the group's namespace. -/
structure ClaimTaskCommand where
  groupId : ConsumerGroupId
  memberId : ConsumerId
  expectedTerm : Term
  expectedGeneration : Generation
  leaseId : LeaseId
  nowMs : TimestampMs
  leaseDurationMs : U64
  deriving DecidableEq, Repr

/-- Renew an active lease. -/
structure RenewTaskLeaseCommand where
  taskId : TaskId
  groupId : ConsumerGroupId
  memberId : ConsumerId
  expectedTerm : Term
  expectedGeneration : Generation
  expectedLeaseEpoch : LeaseEpoch
  leaseId : LeaseId
  nowMs : TimestampMs
  leaseDurationMs : U64
  deriving DecidableEq, Repr

/-- Complete a leased task. -/
structure CompleteTaskCommand where
  taskId : TaskId
  groupId : ConsumerGroupId
  memberId : ConsumerId
  expectedTerm : Term
  expectedGeneration : Generation
  expectedLeaseEpoch : LeaseEpoch
  leaseId : LeaseId
  result : TaskResult
  completedAtMs : TimestampMs
  deriving DecidableEq, Repr

/-- Prune completed tasks up to a cutoff. -/
structure PruneCompletedTasksCommand where
  completedBeforeMs : TimestampMs
  maxTasks : Usize
  deriving DecidableEq, Repr

/-- Advance the Broker term. -/
structure AdvanceTermCommand where
  expectedTerm : Term
  newTerm : Term
  deriving DecidableEq, Repr

/-- The commands of the Broker. -/
inductive BrokerCommand where
  | ensureNamespace (command : EnsureNamespaceCommand)
  | publishTask (command : PublishTaskCommand)
  | ensureConsumerGroup (command : EnsureConsumerGroupCommand)
  | joinConsumerGroup (command : JoinConsumerGroupCommand)
  | heartbeat (command : HeartbeatCommand)
  | leaveConsumerGroup (command : LeaveConsumerGroupCommand)
  | reapStaleMembers (command : ReapStaleMembersCommand)
  | claimTask (command : ClaimTaskCommand)
  | renewTaskLease (command : RenewTaskLeaseCommand)
  | completeTask (command : CompleteTaskCommand)
  | pruneCompletedTasks (command : PruneCompletedTasksCommand)
  | advanceTerm (command : AdvanceTermCommand)
  deriving DecidableEq

/-! ## Results -/

/-- Term and revision after a command. -/
structure MutationMetadata where
  term : Term
  revision : Revision
  deriving DecidableEq, Repr

structure NamespaceResult where
  metadata : MutationMetadata
  namespaceId : NamespaceId
  namespaceRevision : Revision
  deriving DecidableEq, Repr

structure TaskPublishedResult where
  metadata : MutationMetadata
  taskId : TaskId
  taskRevision : Revision
  status : TaskStatus
  deriving DecidableEq, Repr

structure ConsumerGroupResult where
  metadata : MutationMetadata
  groupId : ConsumerGroupId
  generation : Generation
  groupRevision : Revision
  memberCount : Nat
  deriving DecidableEq, Repr

structure HeartbeatResult where
  metadata : MutationMetadata
  groupId : ConsumerGroupId
  memberId : ConsumerId
  generation : Generation
  memberRevision : Revision
  deriving DecidableEq, Repr

structure StaleMembersReapedResult where
  metadata : MutationMetadata
  reapedCount : Nat
  affectedGroupCount : Nat
  deriving DecidableEq, Repr

/-- Without a ready task all optional fields are empty. -/
structure TaskClaimResult where
  metadata : MutationMetadata
  taskId : Option TaskId
  objective : Option TaskObjective
  taskRevision : Option Revision
  leaseId : Option LeaseId
  leaseEpoch : Option LeaseEpoch
  leaseExpiresAtMs : Option TimestampMs
  generation : Generation
  deriving DecidableEq, Repr

structure TaskLeaseRenewedResult where
  metadata : MutationMetadata
  taskId : TaskId
  taskRevision : Revision
  leaseId : LeaseId
  leaseEpoch : LeaseEpoch
  leaseExpiresAtMs : TimestampMs
  generation : Generation
  deriving DecidableEq, Repr

structure TaskCompletedResult where
  metadata : MutationMetadata
  taskId : TaskId
  taskRevision : Revision
  status : TaskStatus
  deriving DecidableEq, Repr

structure CompletedTasksPrunedResult where
  metadata : MutationMetadata
  prunedCount : Nat
  deriving DecidableEq, Repr

structure TermAdvancedResult where
  metadata : MutationMetadata
  deriving DecidableEq, Repr

/-- The entities a command changed, each list in id order. -/
structure StateChangeSet where
  namespaces : List NamespaceId
  tasks : List TaskId
  deletedTasks : List TaskId
  groups : List ConsumerGroupId
  deriving DecidableEq, Repr

/-- The typed results. -/
inductive BrokerMutationResult where
  | namespaceEnsured (result : NamespaceResult)
  | taskPublished (result : TaskPublishedResult)
  | consumerGroup (result : ConsumerGroupResult)
  | heartbeat (result : HeartbeatResult)
  | staleMembersReaped (result : StaleMembersReapedResult)
  | taskClaim (result : TaskClaimResult)
  | taskLeaseRenewed (result : TaskLeaseRenewedResult)
  | taskCompleted (result : TaskCompletedResult)
  | completedTasksPruned (result : CompletedTasksPrunedResult)
  | termAdvanced (result : TermAdvancedResult)
  deriving DecidableEq, Repr

/-- A result together with the changed entities. -/
structure AppliedMutation where
  result : BrokerMutationResult
  changes : StateChangeSet
  deriving DecidableEq, Repr

/-! ## Errors -/

/-- State-machine failures. -/
inductive StateMachineError where
  | invalidCapacity (field : String)
  | capacityExceeded (resource : String) (max : Usize)
  | namespaceNotFound (namespaceId : NamespaceId)
  | taskConflict (taskId : TaskId)
  | taskNotFound (taskId : TaskId)
  | leaseIdConflict (leaseId : LeaseId)
  | staleTerm (expected actual : Term)
  | newTermNotGreater (current proposed : Term)
  | taskCountUnderflow (namespaceId : NamespaceId)
  | timestampOverflow
  | taskTransition (error : TaskTransitionError)
  | consumerGroupConflict (groupId : ConsumerGroupId)
  | consumerGroupNotFound (groupId : ConsumerGroupId)
  | consumerGroupTransition (error : ConsumerGroupError)
  | fencingValue (error : FencingValueError)
  deriving DecidableEq, Repr

namespace StateMachineError

/-- `Display` of a state-machine error. -/
def display : StateMachineError → String
  | .invalidCapacity field => field ++ " must be positive"
  | .capacityExceeded resource max =>
    resource ++ " capacity reached (" ++ toString max.get ++ ")"
  | .namespaceNotFound namespaceId => "namespace " ++ namespaceId.asStr ++ " does not exist"
  | .taskConflict taskId =>
    "task " ++ taskId.asStr ++ " already exists with different content"
  | .taskNotFound taskId => "task " ++ taskId.asStr ++ " does not exist"
  | .leaseIdConflict leaseId => "lease ID " ++ leaseId.asStr ++ " is already in use"
  | .staleTerm expected actual =>
    "Broker term is stale: expected " ++ toString expected.get ++ ", actual " ++
      toString actual.get
  | .newTermNotGreater current proposed =>
    "new Broker term " ++ toString proposed.get ++ " must be greater than current term " ++
      toString current.get
  | .taskCountUnderflow namespaceId =>
    "namespace " ++ namespaceId.asStr ++ " task count underflow during pruning"
  | .timestampOverflow => "timestamp arithmetic overflowed"
  | .taskTransition error => error.display
  | .consumerGroupConflict groupId =>
    "Consumer Group " ++ groupId.asStr ++ " belongs to another namespace"
  | .consumerGroupNotFound groupId => "Consumer Group " ++ groupId.asStr ++ " does not exist"
  | .consumerGroupTransition error => error.display
  | .fencingValue error => error.display

/-- `From<GroupCoordinatorError>`. -/
def ofCoordinator : GroupCoordinatorError → StateMachineError
  | .groupNotFound groupId => .consumerGroupNotFound groupId
  | .transition error => .consumerGroupTransition error

end StateMachineError

end AgentBroker
