import AgentBroker.Lib.Run
import AgentBroker.Domain.Checkpoint

/-!
# The Broker state machine

The deterministic state machine (`state_machine.rs`): the authoritative
`BrokerState`, the heaps and indexes derived from it, and the twelve commands.

A method that takes `&mut self` and returns a `Result` is a `BrokerM` program:
what it changed before a failure stays changed.  Only `claimTask` ever fails
after a change; that this is so is a theorem and not a modelling decision, so
every method is written in the same monad and in the order of the source.

A `BinaryHeap` of `Reverse` tuples is a `MinHeap` of a record with the tuple's
lexicographic order, and a `while let Some(..) = heap.pop()` loop is a
`MinHeap.popLoop`.
-/

namespace AgentBroker

/-! ## Heap entries and index keys -/

/-- A task with a timestamp, ordered by time and then by id: an entry of a ready
heap (publication time) or of the completed heap (completion time). -/
structure TimedTask where
  atMs : TimestampMs
  taskId : TaskId
  deriving Repr

/-- An entry of a lease-expiration heap. -/
structure LeaseExpiration where
  expiresAtMs : TimestampMs
  taskId : TaskId
  leaseEpoch : LeaseEpoch
  deriving Repr

/-- Key of the member-lease index. -/
structure MemberKey where
  groupId : ConsumerGroupId
  memberId : ConsumerId
  deriving Repr

/-- A stale member of some group, in the global reap order. -/
structure ReapCandidate where
  lastHeartbeatAtMs : TimestampMs
  groupId : ConsumerGroupId
  memberId : ConsumerId
  deriving Repr

namespace TimedTask

theorem toLex_injective : Function.Injective fun e : TimedTask => toLex (e.atMs, e.taskId) := by
  refine toLex_pair_injective ?_
  rintro ⟨_, _⟩ ⟨_, _⟩ rfl rfl
  rfl

instance : LinearOrder TimedTask :=
  LinearOrder.lift' (fun e => toLex (e.atMs, e.taskId)) toLex_injective

theorem atMs_le {e e' : TimedTask} (h : e ≤ e') : e.atMs ≤ e'.atMs := by
  rcases Prod.Lex.toLex_le_toLex.mp h with hlt | ⟨heq, -⟩
  · exact hlt.le
  · exact heq.le

end TimedTask

namespace LeaseExpiration

theorem toLex_injective : Function.Injective fun e : LeaseExpiration =>
    toLex (e.expiresAtMs, toLex (e.taskId, e.leaseEpoch)) := by
  refine toLex_pair_injective ?_
  rintro ⟨_, _, _⟩ ⟨_, _, _⟩ rfl hrest
  cases toLex.injective hrest
  rfl

instance : LinearOrder LeaseExpiration :=
  LinearOrder.lift' (fun e => toLex (e.expiresAtMs, toLex (e.taskId, e.leaseEpoch)))
    toLex_injective

end LeaseExpiration

namespace MemberKey

theorem toLex_injective : Function.Injective fun k : MemberKey =>
    toLex (k.groupId, k.memberId) := by
  refine toLex_pair_injective ?_
  rintro ⟨_, _⟩ ⟨_, _⟩ rfl rfl
  rfl

instance : LinearOrder MemberKey :=
  LinearOrder.lift' (fun k => toLex (k.groupId, k.memberId)) toLex_injective

end MemberKey

namespace ReapCandidate

theorem toLex_injective : Function.Injective fun c : ReapCandidate =>
    toLex (c.lastHeartbeatAtMs, toLex (c.groupId, c.memberId)) := by
  refine toLex_pair_injective ?_
  rintro ⟨_, _, _⟩ ⟨_, _, _⟩ rfl hrest
  cases toLex.injective hrest
  rfl

instance : LinearOrder ReapCandidate :=
  LinearOrder.lift' (fun c => toLex (c.lastHeartbeatAtMs, toLex (c.groupId, c.memberId)))
    toLex_injective

end ReapCandidate

/-! ## State -/

/-- A namespace record. -/
structure Namespace where
  id : NamespaceId
  revision : Revision
  deriving DecidableEq, Repr

namespace Namespace

/-- A new namespace. -/
def new (id : NamespaceId) : Namespace := ⟨id, .one⟩

/-- Export a namespace. -/
def checkpoint (ns : Namespace) : NamespaceCheckpoint := ⟨ns.id, ns.revision⟩

/-- Import a namespace. -/
def fromCheckpoint (checkpoint : NamespaceCheckpoint) : Namespace :=
  ⟨checkpoint.namespaceId, checkpoint.revision⟩

end Namespace

abbrev Namespaces := Registry NamespaceId Namespace Namespace.id

abbrev Tasks := Registry TaskId Task Task.id

/-- The authoritative Broker state. -/
structure BrokerState where
  term : Term
  revision : Revision
  namespaces : Namespaces
  tasks : Tasks
  groups : ConsumerGroups
  deriving DecidableEq

namespace BrokerState

/-- `BrokerState::default`. -/
def initial : BrokerState where
  term := .initial
  revision := .zero
  namespaces := ∅
  tasks := ∅
  groups := ∅

/-- Export the state without any index. -/
def checkpoint (state : BrokerState) : BrokerCheckpoint where
  term := state.term
  revision := state.revision
  namespaces := state.namespaces.values.map Namespace.checkpoint
  tasks := state.tasks.values.map Task.checkpoint
  groups := state.groups.values.map ConsumerGroup.checkpoint

end BrokerState

/-- The state machine: the state, its derived indexes, and the entities the
current command has changed. -/
structure BrokerStateMachine where
  state : BrokerState
  readyTasks : OrdMap NamespaceId (MinHeap TimedTask)
  leaseExpirations : OrdMap NamespaceId (MinHeap LeaseExpiration)
  activeLeaseTasks : OrdMap LeaseId TaskId
  memberLeaseTasks : OrdMap MemberKey (OrdSet TaskId)
  completedTasks : MinHeap TimedTask
  namespaceTaskCounts : OrdMap NamespaceId Nat
  namespaceGroupCounts : OrdMap NamespaceId Nat
  changedNamespaces : OrdSet NamespaceId
  changedTasks : OrdSet TaskId
  deletedTasks : OrdSet TaskId
  changedGroups : OrdSet ConsumerGroupId
  deriving DecidableEq

/-- Programs on the state machine; a failure keeps the changes made so far. -/
abbrev BrokerM := EStateM StateMachineError BrokerStateMachine

/-- Go on only if `p` holds. -/
def require (p : Prop) [Decidable p] (error : StateMachineError) : BrokerM Unit :=
  .ofExcept (.require p error)

/-- `?` on a counter. -/
def advance {α : Type} (x : Except FencingValueError α) : BrokerM α :=
  .ofExcept (x.mapError .fencingValue)

/-- `?` on a task transition. -/
def transition {α : Type} (x : Except TaskTransitionError α) : BrokerM α :=
  .ofExcept (x.mapError .taskTransition)

/-- `?` on a coordinator call. -/
def coordinated {α : Type} (x : Except GroupCoordinatorError α) : BrokerM α :=
  .ofExcept (x.mapError .ofCoordinator)

/-- `ok_or_else` on a lookup. -/
def found {α : Type} (error : StateMachineError) (x : Option α) : BrokerM α :=
  .ofExcept (.ofOption error x)

namespace BrokerStateMachine

/-- `BrokerStateMachine::default`. -/
def initial : BrokerStateMachine where
  state := .initial
  readyTasks := ∅
  leaseExpirations := ∅
  activeLeaseTasks := ∅
  memberLeaseTasks := ∅
  completedTasks := ∅
  namespaceTaskCounts := ∅
  namespaceGroupCounts := ∅
  changedNamespaces := ∅
  changedTasks := ∅
  deletedTasks := ∅
  changedGroups := ∅

/-- Term and revision as they are now. -/
def metadata (m : BrokerStateMachine) : MutationMetadata := ⟨m.state.term, m.state.revision⟩

/-- The ready heap of a namespace. -/
def readyHeap (m : BrokerStateMachine) (namespaceId : NamespaceId) : MinHeap TimedTask :=
  m.readyTasks.getD namespaceId ∅

/-- The lease-expiration heap of a namespace. -/
def expirationHeap (m : BrokerStateMachine) (namespaceId : NamespaceId) :
    MinHeap LeaseExpiration :=
  m.leaseExpirations.getD namespaceId ∅

/-- The number of tasks recorded for a namespace. -/
def taskCount (m : BrokerStateMachine) (namespaceId : NamespaceId) : Nat :=
  m.namespaceTaskCounts.getD namespaceId 0

/-- The number of groups recorded for a namespace. -/
def groupCount (m : BrokerStateMachine) (namespaceId : NamespaceId) : Nat :=
  m.namespaceGroupCounts.getD namespaceId 0

/-- The leased tasks recorded for a member. -/
def memberLeases (m : BrokerStateMachine) (key : MemberKey) : OrdSet TaskId :=
  m.memberLeaseTasks.getD key ∅

/-- Forget the changes of the previous command. -/
def clearChanges (m : BrokerStateMachine) : BrokerStateMachine :=
  { m with changedNamespaces := ∅, changedTasks := ∅, deletedTasks := ∅, changedGroups := ∅ }

/-- The changes of the current command. -/
def takeChanges (m : BrokerStateMachine) : StateChangeSet where
  namespaces := OrdSet.toList m.changedNamespaces
  tasks := OrdSet.toList m.changedTasks
  deletedTasks := OrdSet.toList m.deletedTasks
  groups := OrdSet.toList m.changedGroups

/-- `checked_deadline`. -/
def checkedDeadline (nowMs : TimestampMs) (durationMs : U64) :
    Except StateMachineError TimestampMs :=
  .ofOption .timestampOverflow (nowMs.checkedAdd durationMs)

/-- The result of a claim: the lease of the task, if there is one. -/
def taskClaimResult (m : BrokerStateMachine) (generation : Generation) (task : Option Task) :
    TaskClaimResult :=
  let nothing : TaskClaimResult :=
    ⟨m.metadata, none, none, none, none, none, none, generation⟩
  match task with
  | none => nothing
  | some task =>
    match task.state with
    | .leased lease =>
      { metadata := m.metadata
        taskId := some task.id
        objective := some task.objective
        taskRevision := some task.revision
        leaseId := some lease.leaseId
        leaseEpoch := some lease.leaseEpoch
        leaseExpiresAtMs := some lease.expiresAtMs
        generation := generation }
    | _ => nothing

/-- The result of a group command. -/
def consumerGroupResult (metadata : MutationMetadata) (group : ConsumerGroup) :
    ConsumerGroupResult where
  metadata := metadata
  groupId := group.id
  generation := group.generation
  groupRevision := group.revision
  memberCount := group.consumerCount

/-- Drop a task from the lease set of a member; an empty set is dropped too. -/
def removeMemberLeaseTask (index : OrdMap MemberKey (OrdSet TaskId)) (key : MemberKey)
    (taskId : TaskId) : OrdMap MemberKey (OrdSet TaskId) :=
  Index.removeFrom index key taskId

/-! ## Guards -/

/-- The term must be the current one. -/
def requireTerm (expected : Term) : BrokerM Unit := do
  let m ← get
  require (m.state.term = expected) (.staleTerm expected m.state.term)

/-- The member must belong to the group at the generation. -/
def requireGroupMember (groupId : ConsumerGroupId) (memberId : ConsumerId)
    (expectedGeneration : Generation) : BrokerM (NamespaceId × Generation) := do
  let m ← get
  coordinated
    (GroupCoordinator.requireMember m.state.groups groupId memberId expectedGeneration)

/-- The namespace must exist. -/
def requireNamespace (namespaceId : NamespaceId) : BrokerM Unit := do
  let m ← get
  require (m.state.namespaces.get namespaceId ≠ none) (.namespaceNotFound namespaceId)

/-! ## Namespaces, publication and groups -/

/-- `ensure_namespace`. -/
def ensureNamespace (command : EnsureNamespaceCommand) : BrokerM NamespaceResult := do
  let m ← get
  match m.state.namespaces.get command.namespaceId with
  | some ns => return ⟨m.metadata, ns.id, ns.revision⟩
  | none => do
      require (command.maxNamespaces.get ≠ 0) (.invalidCapacity "max_namespaces")
      require (m.state.namespaces.size < command.maxNamespaces.get)
        (.capacityExceeded "Broker namespace" command.maxNamespaces)
      let nextRevision ← advance m.state.revision.next
      let ns := Namespace.new command.namespaceId
      let m' := { m with
        state := { m.state with
          namespaces := m.state.namespaces.put ns
          revision := nextRevision }
        changedNamespaces := OrdSet.add m.changedNamespaces command.namespaceId }
      set m'
      return ⟨m'.metadata, command.namespaceId, ns.revision⟩

/-- `publish_task`. -/
def publishTask (command : PublishTaskCommand) : BrokerM TaskPublishedResult := do
  requireNamespace command.namespaceId
  let m ← get
  match m.state.tasks.get command.taskId with
  | some task => do
      -- A publication may be repeated, at any time.
      require (task.namespaceId = command.namespaceId ∧ task.objective = command.objective)
        (.taskConflict command.taskId)
      return ⟨m.metadata, task.id, task.revision, task.status⟩
  | none => do
      require (command.maxNamespaceTasks.get ≠ 0) (.invalidCapacity "max_namespace_tasks")
      let currentCount := m.taskCount command.namespaceId
      require (currentCount < command.maxNamespaceTasks.get)
        (.capacityExceeded "Broker Task" command.maxNamespaceTasks)
      let nextRevision ← advance m.state.revision.next
      let task := Task.new command.taskId command.namespaceId command.objective
        command.createdAtMs
      let m' := { m with
        state := { m.state with tasks := m.state.tasks.put task, revision := nextRevision }
        namespaceTaskCounts :=
          m.namespaceTaskCounts.insert command.namespaceId (currentCount + 1)
        readyTasks := m.readyTasks.updateD command.namespaceId ∅
          (·.push ⟨command.createdAtMs, command.taskId⟩)
        changedTasks := OrdSet.add m.changedTasks command.taskId }
      set m'
      return ⟨m'.metadata, command.taskId, task.revision, task.status⟩

/-- `ensure_consumer_group`. -/
def ensureConsumerGroup (command : EnsureConsumerGroupCommand) :
    BrokerM ConsumerGroupResult := do
  requireNamespace command.namespaceId
  let m ← get
  match m.state.groups.get command.groupId with
  | some group => do
      require (group.namespaceId = command.namespaceId)
        (.consumerGroupConflict command.groupId)
      return consumerGroupResult m.metadata group
  | none => do
      require (command.maxNamespaceGroups.get ≠ 0) (.invalidCapacity "max_namespace_groups")
      let currentCount := m.groupCount command.namespaceId
      require (currentCount < command.maxNamespaceGroups.get)
        (.capacityExceeded "Broker Consumer Group" command.maxNamespaceGroups)
      let nextRevision ← advance m.state.revision.next
      let m' := { m with
        state := { m.state with
          groups := m.state.groups.put (.new command.groupId command.namespaceId)
          revision := nextRevision }
        namespaceGroupCounts :=
          m.namespaceGroupCounts.insert command.namespaceId (currentCount + 1)
        changedGroups := OrdSet.add m.changedGroups command.groupId }
      set m'
      let group ← found (.consumerGroupConflict command.groupId)
        (m'.state.groups.get command.groupId)
      return consumerGroupResult m'.metadata group

/-- `join_consumer_group`. -/
def joinConsumerGroup (command : JoinConsumerGroupCommand) :
    BrokerM ConsumerGroupResult := do
  let m ← get
  let nextGlobalRevision ← advance m.state.revision.next
  let (outcome, groups) ← coordinated
    (GroupCoordinator.join m.state.groups command.groupId command.memberId
      command.capabilities command.nowMs command.maxGroupMembers)
  let m₁ := { m with state := { m.state with groups := groups } }
  set m₁
  let group ← found (.consumerGroupNotFound command.groupId) (groups.get command.groupId)
  let m₂ :=
    if outcome = .unchanged then m₁
    else { m₁ with
      state := { m₁.state with revision := nextGlobalRevision }
      changedGroups := OrdSet.add m₁.changedGroups group.id }
  set m₂
  return consumerGroupResult m₂.metadata group

/-- `heartbeat`. -/
def heartbeat (command : HeartbeatCommand) : BrokerM HeartbeatResult := do
  let m ← get
  let nextGlobalRevision ← advance m.state.revision.next
  let (outcome, groups) ← coordinated
    (GroupCoordinator.heartbeat m.state.groups command.groupId command.memberId
      command.expectedGeneration command.nowMs)
  let m₁ := { m with state := { m.state with groups := groups } }
  set m₁
  let group ← found (.consumerGroupNotFound command.groupId) (groups.get command.groupId)
  let member ← found (.consumerGroupTransition (.memberNotFound command.memberId))
    (group.consumer command.memberId)
  let m₂ :=
    if outcome = .updated then
      { m₁ with
        state := { m₁.state with revision := nextGlobalRevision }
        changedGroups := OrdSet.add m₁.changedGroups group.id }
    else m₁
  set m₂
  return ⟨m₂.metadata, group.id, command.memberId, group.generation, member.revision⟩

/-! ## Leases of leaving members -/

/-- The lease of a task, if this member holds it. -/
def memberLease (m : BrokerStateMachine) (groupId : ConsumerGroupId) (memberId : ConsumerId)
    (taskId : TaskId) : Option (LeasedTask × Task) :=
  match m.state.tasks.get taskId with
  | none => none
  | some task =>
    match task.state with
    | .leased lease =>
      if lease.groupId ≠ groupId ∨ lease.ownerMemberId ≠ memberId then none
      else some (lease, task)
    | _ => none

/-- `preflight_member_lease_requeue`: every task the member holds can advance its
revision. -/
def preflightMemberLeaseRequeue (m : BrokerStateMachine) (groupId : ConsumerGroupId)
    (memberId : ConsumerId) : Except StateMachineError Unit :=
  forM (OrdSet.toList (m.memberLeases ⟨groupId, memberId⟩)) fun taskId =>
    match m.memberLease groupId memberId taskId with
    | none => .ok ()
    | some (_, task) => do
        let _ ← task.revision.next.mapError .fencingValue
        return ()

/-- One round of the loop of `requeue_member_leases`; the flag tells whether the
task was requeued. -/
def requeueMemberLease (groupId : ConsumerGroupId) (memberId : ConsumerId)
    (taskId : TaskId) : BrokerM Bool := do
  let m ← get
  match m.memberLease groupId memberId taskId with
  | none => return false
  | some (lease, task) => do
      let (didRequeue, task') ← transition (task.requeueForMember groupId memberId)
      if didRequeue then do
        set { m with
          state := { m.state with tasks := m.state.tasks.put task' }
          activeLeaseTasks := m.activeLeaseTasks.erase lease.leaseId
          readyTasks := m.readyTasks.updateD task'.namespaceId ∅
            (·.push ⟨task.createdAtMs, taskId⟩)
          changedTasks := OrdSet.add m.changedTasks taskId }
        return true
      else return false

/-- `requeue_member_leases`. -/
def requeueMemberLeases (groupId : ConsumerGroupId) (memberId : ConsumerId) :
    BrokerM Nat := do
  let m ← get
  let taskIds := OrdSet.toList (m.memberLeases ⟨groupId, memberId⟩)
  -- The whole set of the member goes at once; the loop only sees the tasks.
  set { m with memberLeaseTasks := m.memberLeaseTasks.erase ⟨groupId, memberId⟩ }
  taskIds.foldlM (fun requeued taskId => do
    let didRequeue ← requeueMemberLease groupId memberId taskId
    return if didRequeue then requeued + 1 else requeued) 0

/-- `leave_consumer_group`. -/
def leaveConsumerGroup (command : LeaveConsumerGroupCommand) :
    BrokerM ConsumerGroupResult := do
  let m ← get
  let nextGlobalRevision ← advance m.state.revision.next
  -- Whatever can overflow is tried before the first change.
  EStateM.ofExcept (m.preflightMemberLeaseRequeue command.groupId command.memberId)
  let (_, groups) ← coordinated
    (GroupCoordinator.leave m.state.groups command.groupId command.memberId
      command.expectedGeneration)
  set { m with state := { m.state with groups := groups } }
  let group ← found (.consumerGroupNotFound command.groupId) (groups.get command.groupId)
  let _ ← requeueMemberLeases group.id command.memberId
  let m₁ ← get
  let m₂ := { m₁ with
    state := { m₁.state with revision := nextGlobalRevision }
    changedGroups := OrdSet.add m₁.changedGroups group.id }
  set m₂
  return consumerGroupResult m₂.metadata group

/-! ## Reaping -/

/-- The stale members of all groups in the global reap order. -/
def reapCandidates (state : BrokerState) (staleBeforeMs : TimestampMs) :
    List ReapCandidate :=
  (state.groups.values.flatMap fun group =>
    (group.consumers.values.filter (·.lastHeartbeatAtMs ≤ staleBeforeMs)).map fun member =>
      ⟨member.lastHeartbeatAtMs, group.id, member.id⟩).insertionSort (· ≤ ·)

/-- The selected members by group. -/
def selectedMembers (candidates : List ReapCandidate) :
    OrdMap ConsumerGroupId (List ConsumerId) :=
  candidates.foldl
    (fun selected c => selected.updateD c.groupId [] (· ++ [c.memberId])) ∅

/-- The checks made for one group before any group is touched. -/
def preflightReap (m : BrokerStateMachine) (groupId : ConsumerGroupId)
    (memberIds : List ConsumerId) : Except StateMachineError Unit := do
  let group ← .ofOption (.consumerGroupNotFound groupId) (m.state.groups.get groupId)
  let _ ← group.generation.next.mapError .fencingValue
  let _ ← group.revision.next.mapError .fencingValue
  forM memberIds fun memberId => m.preflightMemberLeaseRequeue groupId memberId

/-- Reap the selected members of one group and requeue their leases. -/
def reapGroup (staleBeforeMs : TimestampMs) (progress : Nat × List ConsumerGroupId)
    (entry : ConsumerGroupId × List ConsumerId) : BrokerM (Nat × List ConsumerGroupId) := do
  let m ← get
  let (removed, groups) ← coordinated
    (GroupCoordinator.reapStaleMembers m.state.groups entry.1 staleBeforeMs entry.2.length)
  set { m with state := { m.state with groups := groups } }
  if removed = [] then return progress
  else do
    removed.foldlM (fun _ member => do
      let _ ← requeueMemberLeases entry.1 member.id
      return ()) ()
    return (progress.1 + removed.length, progress.2 ++ [entry.1])

/-- `reap_stale_members`. -/
def reapStaleMembers (command : ReapStaleMembersCommand) :
    BrokerM StaleMembersReapedResult := do
  require (command.maxMembers.get ≠ 0) (.invalidCapacity "max_members")
  let m ← get
  let candidates := (reapCandidates m.state command.staleBeforeMs).take command.maxMembers.get
  if candidates = [] then return ⟨m.metadata, 0, 0⟩
  else do
    let selected := selectedMembers candidates
    let nextGlobalRevision ← advance m.state.revision.next
    EStateM.ofExcept (forM selected.entries fun entry => m.preflightReap entry.1 entry.2)
    let (reapedCount, affected) ←
      selected.entries.foldlM (reapGroup command.staleBeforeMs) (0, [])
    let m₁ ← get
    let m₂ :=
      if reapedCount > 0 then
        { m₁ with
          state := { m₁.state with revision := nextGlobalRevision }
          changedGroups := affected.foldl OrdSet.add m₁.changedGroups }
      else m₁
    set m₂
    return ⟨m₂.metadata, reapedCount, affected.length⟩

/-! ## Claims -/

/-- One round of the loop of `recover_expired_leases` over the expiration heap.
Entries that name no current lease are dropped. -/
def expirationStep (tasks : Tasks) (nowMs : TimestampMs) (candidates : OrdSet TaskId)
    (entry : LeaseExpiration) : PopDecision (OrdSet TaskId) :=
  if entry.expiresAtMs > nowMs then .keep
  else
    match tasks.get entry.taskId with
    | none => .next candidates
    | some task =>
      match task.state with
      | .leased lease =>
        if lease.leaseEpoch = entry.leaseEpoch ∧ lease.expiresAtMs = entry.expiresAtMs then
          .next (OrdSet.add candidates entry.taskId)
        else .next candidates
      | _ => .next candidates

/-- Take back one expired lease.  The ready entry goes to the namespace of the
claim, which need not be the namespace of the task. -/
def recoverExpiredLease (namespaceId : NamespaceId) (nowMs : TimestampMs)
    (taskId : TaskId) : BrokerM Bool := do
  let m ← get
  match m.state.tasks.get taskId with
  | none => return false
  | some task =>
    match task.state with
    | .leased lease => do
        let (requeued, task') ← transition (task.requeueIfExpired nowMs)
        if requeued then do
          set { m with
            state := { m.state with tasks := m.state.tasks.put task' }
            activeLeaseTasks := m.activeLeaseTasks.erase lease.leaseId
            memberLeaseTasks := removeMemberLeaseTask m.memberLeaseTasks
              ⟨lease.groupId, lease.ownerMemberId⟩ taskId
            readyTasks := m.readyTasks.updateD namespaceId ∅
              (·.push ⟨task.createdAtMs, taskId⟩)
            changedTasks := OrdSet.add m.changedTasks taskId }
          return true
        else return false
    | _ => return false

/-- `recover_expired_leases`. -/
def recoverExpiredLeases (namespaceId : NamespaceId) (nowMs : TimestampMs) :
    BrokerM Nat := do
  let m ← get
  match m.leaseExpirations.get namespaceId with
  | none => return 0
  | some heap => do
      let (candidates, heap') := heap.popLoop (expirationStep m.state.tasks nowMs) ∅
      -- The popped entries are gone, also if a lease cannot be taken back below.
      set { m with leaseExpirations := m.leaseExpirations.insert namespaceId heap' }
      (OrdSet.toList candidates).foldlM (fun recovered taskId => do
        let requeued ← recoverExpiredLease namespaceId nowMs taskId
        return if requeued then recovered + 1 else recovered) 0

/-- One round of the loop of `pop_ready_task`. -/
def readyStep (tasks : Tasks) (_ : Option TaskId) (entry : TimedTask) :
    PopDecision (Option TaskId) :=
  match tasks.get entry.taskId with
  | none => .next none
  | some task => if task.status = .queued then .stop (some entry.taskId) else .next none

/-- `pop_ready_task`. -/
def popReadyTask (namespaceId : NamespaceId) : BrokerM (Option TaskId) := do
  let m ← get
  match m.readyTasks.get namespaceId with
  | none => return none
  | some heap => do
      let (ready, heap') := heap.popLoop (readyStep m.state.tasks) none
      set { m with readyTasks := m.readyTasks.insert namespaceId heap' }
      return ready

/-- The last part of `claim_task`: lease the popped task to the claimant. -/
def leaseReadyTask (command : ClaimTaskCommand) (namespaceId : NamespaceId)
    (generation : Generation) (taskId : TaskId) : BrokerM TaskClaimResult := do
  -- The ready entry was popped before: a failure from here on does not push it back.
  let expiresAtMs ← .ofExcept (checkedDeadline command.nowMs command.leaseDurationMs)
  let m ← get
  let nextGlobalRevision ← advance m.state.revision.next
  let task ← found (.taskNotFound taskId) (m.state.tasks.get taskId)
  let task' ← transition
    (task.claim ⟨command.leaseId, command.memberId, command.groupId, generation, expiresAtMs⟩)
  set { m with state := { m.state with tasks := m.state.tasks.put task' } }
  match task'.state with
  | .leased lease => do
      let m' := { m with
        state := { m.state with
          tasks := m.state.tasks.put task'
          revision := nextGlobalRevision }
        activeLeaseTasks := m.activeLeaseTasks.insert command.leaseId taskId
        memberLeaseTasks := m.memberLeaseTasks.updateD ⟨command.groupId, command.memberId⟩ ∅
          (OrdSet.add · taskId)
        leaseExpirations := m.leaseExpirations.updateD namespaceId ∅
          (·.push ⟨expiresAtMs, taskId, lease.leaseEpoch⟩)
        changedTasks := OrdSet.add m.changedTasks taskId }
      set m'
      let leased ← found (.taskNotFound taskId) (m'.state.tasks.get taskId)
      return { m'.taskClaimResult generation (some leased) with
        taskRevision := some task'.revision }
  | _ => throw (.taskTransition (.notLeased task'.status))

/-- `claim_task`. -/
def claimTask (command : ClaimTaskCommand) : BrokerM TaskClaimResult := do
  requireTerm command.expectedTerm
  let (namespaceId, generation) ← requireGroupMember command.groupId command.memberId
    command.expectedGeneration
  let m ← get
  match m.activeLeaseTasks.get command.leaseId with
  | some existingTaskId => do
      -- The lease id is active: its holder is answered again, anyone else is refused.
      let task ← found (.taskNotFound existingTaskId) (m.state.tasks.get existingTaskId)
      match task.state with
      | .leased lease => do
          require (lease.ownerMemberId = command.memberId ∧ lease.groupId = command.groupId)
            (.leaseIdConflict command.leaseId)
          return m.taskClaimResult generation (some task)
      | _ => throw (.leaseIdConflict command.leaseId)
  | none => do
      -- Expired leases are taken back first, so that their tasks can be claimed at once.
      let recovered ← recoverExpiredLeases namespaceId command.nowMs
      let ready ← popReadyTask namespaceId
      match ready with
      | some taskId => leaseReadyTask command namespaceId generation taskId
      | none => do
          let m₁ ← get
          if recovered > 0 then do
            let nextRevision ← advance m₁.state.revision.next
            let m₂ := { m₁ with state := { m₁.state with revision := nextRevision } }
            set m₂
            return m₂.taskClaimResult generation none
          else return m₁.taskClaimResult generation none

/-! ## Renewal and completion -/

/-- `renew_task_lease`. -/
def renewTaskLease (command : RenewTaskLeaseCommand) : BrokerM TaskLeaseRenewedResult := do
  requireTerm command.expectedTerm
  let (_, generation) ← requireGroupMember command.groupId command.memberId
    command.expectedGeneration
  let expiresAtMs ← .ofExcept (checkedDeadline command.nowMs command.leaseDurationMs)
  let m ← get
  let nextGlobalRevision ← advance m.state.revision.next
  let task ← found (.taskNotFound command.taskId) (m.state.tasks.get command.taskId)
  let task' ← transition (task.renew
    ⟨command.leaseId, command.memberId, command.groupId, command.expectedGeneration,
      command.expectedLeaseEpoch, command.nowMs⟩ expiresAtMs)
  set { m with state := { m.state with tasks := m.state.tasks.put task' } }
  match task'.state with
  | .leased lease => do
      let m' := { m with
        state := { m.state with
          tasks := m.state.tasks.put task'
          revision := nextGlobalRevision }
        leaseExpirations := m.leaseExpirations.updateD task.namespaceId ∅
          (·.push ⟨expiresAtMs, command.taskId, lease.leaseEpoch⟩)
        changedTasks := OrdSet.add m.changedTasks command.taskId }
      set m'
      return ⟨m'.metadata, command.taskId, task'.revision, command.leaseId, lease.leaseEpoch,
        expiresAtMs, generation⟩
  | _ => throw (.taskTransition (.notLeased task'.status))

/-- `complete_task`. -/
def completeTask (command : CompleteTaskCommand) : BrokerM TaskCompletedResult := do
  requireTerm command.expectedTerm
  let _ ← requireGroupMember command.groupId command.memberId command.expectedGeneration
  let m ← get
  let nextGlobalRevision ← advance m.state.revision.next
  let task ← found (.taskNotFound command.taskId) (m.state.tasks.get command.taskId)
  let (outcome, task') ← transition (task.complete
    ⟨command.leaseId, command.memberId, command.groupId, command.expectedGeneration,
      command.expectedLeaseEpoch, command.completedAtMs⟩ command.result)
  let m' :=
    if outcome = .completed then
      { m with
        state := { m.state with
          tasks := m.state.tasks.put task'
          revision := nextGlobalRevision }
        activeLeaseTasks := m.activeLeaseTasks.erase command.leaseId
        memberLeaseTasks := removeMemberLeaseTask m.memberLeaseTasks
          ⟨command.groupId, command.memberId⟩ command.taskId
        completedTasks := m.completedTasks.push ⟨command.completedAtMs, command.taskId⟩
        changedTasks := OrdSet.add m.changedTasks command.taskId }
    else m
  set m'
  return ⟨m'.metadata, command.taskId, task'.revision, task'.status⟩

/-! ## Pruning -/

/-- The namespace of the completed task an entry names, if the entry is current. -/
def completedNamespace (tasks : Tasks) (entry : TimedTask) : Option NamespaceId :=
  match tasks.get entry.taskId with
  | none => none
  | some task =>
    match task.state with
    | .completed completed =>
      if completed.completedAtMs = entry.atMs then some task.namespaceId else none
    | _ => none

/-- One round of the selection loop over the cloned completed heap. -/
def selectStep (tasks : Tasks) (command : PruneCompletedTasksCommand)
    (selected : List (TimedTask × NamespaceId)) (entry : TimedTask) :
    PopDecision (List (TimedTask × NamespaceId)) :=
  if selected.length ≥ command.maxTasks.get then .keep
  else if entry.atMs > command.completedBeforeMs then .stop selected
  else
    match completedNamespace tasks entry with
    | none => .next selected
    | some namespaceId => .next (selected ++ [(entry, namespaceId)])

/-- How far the deletion loop has come. -/
structure PruneProgress where
  machine : BrokerStateMachine
  prunedCount : Nat
  failure : Option StateMachineError

/-- One round of the deletion loop over the completed heap.  An entry after the
cutoff is popped and pushed back. -/
def pruneStep (command : PruneCompletedTasksCommand) (selectedCount : Nat)
    (progress : PruneProgress) (entry : TimedTask) : PopDecision PruneProgress :=
  let m := progress.machine
  if progress.prunedCount ≥ selectedCount then .keep
  else if entry.atMs > command.completedBeforeMs then .keep
  else
    match completedNamespace m.state.tasks entry with
    | none => .next progress
    | some namespaceId =>
      let m₁ := { m with state := { m.state with tasks := m.state.tasks.erase entry.taskId } }
      match m.namespaceTaskCounts.get namespaceId with
      | none =>
        .stop { progress with
          machine := m₁
          failure := some (.taskCountUnderflow namespaceId) }
      | some currentCount =>
        .next
          { machine := { m₁ with
              namespaceTaskCounts :=
                m.namespaceTaskCounts.insert namespaceId (currentCount - 1)
              deletedTasks := OrdSet.add m.deletedTasks entry.taskId }
            prunedCount := progress.prunedCount + 1
            failure := none }

/-- `prune_completed_tasks`. -/
def pruneCompletedTasks (command : PruneCompletedTasksCommand) :
    BrokerM CompletedTasksPrunedResult := do
  require (command.maxTasks.get ≠ 0) (.invalidCapacity "max_tasks")
  let m ← get
  let (selected, _) := m.completedTasks.popLoop (selectStep m.state.tasks command) []
  if selected = [] then return ⟨m.metadata, 0⟩
  else do
    let perNamespace : OrdMap NamespaceId Nat :=
      selected.foldl (fun counts s => counts.updateD s.2 0 (· + 1)) ∅
    -- The counts are checked for each namespace before the first task is deleted.
    EStateM.ofExcept (forM perNamespace.entries fun entry =>
      .require (entry.2 ≤ m.taskCount entry.1)
        (StateMachineError.taskCountUnderflow entry.1))
    let nextGlobalRevision ← advance m.state.revision.next
    -- The first loop ran over a clone of the heap, this one runs over the heap itself.
    let (progress, heap') :=
      m.completedTasks.popLoop (pruneStep command selected.length) ⟨m, 0, none⟩
    let m₁ := { progress.machine with completedTasks := heap' }
    set m₁
    match progress.failure with
    | some error => throw error
    | none => do
        let m₂ :=
          if progress.prunedCount > 0 then
            { m₁ with state := { m₁.state with revision := nextGlobalRevision } }
          else m₁
        set m₂
        return ⟨m₂.metadata, progress.prunedCount⟩

/-- `advance_term`. -/
def advanceTerm (command : AdvanceTermCommand) : BrokerM TermAdvancedResult := do
  requireTerm command.expectedTerm
  let m ← get
  require (m.state.term < command.newTerm) (.newTermNotGreater m.state.term command.newTerm)
  let nextRevision ← advance m.state.revision.next
  let m' := { m with
    state := { m.state with term := command.newTerm, revision := nextRevision } }
  set m'
  return ⟨m'.metadata⟩

/-! ## Applying a command -/

/-- The method a command selects. -/
def dispatch : BrokerCommand → BrokerM BrokerMutationResult
  | .ensureNamespace command => do return .namespaceEnsured (← ensureNamespace command)
  | .publishTask command => do return .taskPublished (← publishTask command)
  | .ensureConsumerGroup command => do return .consumerGroup (← ensureConsumerGroup command)
  | .joinConsumerGroup command => do return .consumerGroup (← joinConsumerGroup command)
  | .heartbeat command => do return .heartbeat (← heartbeat command)
  | .leaveConsumerGroup command => do return .consumerGroup (← leaveConsumerGroup command)
  | .reapStaleMembers command => do return .staleMembersReaped (← reapStaleMembers command)
  | .claimTask command => do return .taskClaim (← claimTask command)
  | .renewTaskLease command => do return .taskLeaseRenewed (← renewTaskLease command)
  | .completeTask command => do return .taskCompleted (← completeTask command)
  | .pruneCompletedTasks command => do
      return .completedTasksPruned (← pruneCompletedTasks command)
  | .advanceTerm command => do return .termAdvanced (← advanceTerm command)

/-- `apply`: the machine afterwards and what the call returned. -/
def apply (m : BrokerStateMachine) (command : BrokerCommand) :
    BrokerStateMachine × Except StateMachineError AppliedMutation :=
  match (dispatch command).run m.clearChanges with
  | .ok result m' => (m', .ok ⟨result, m'.takeChanges⟩)
  | .error error m' => (m', .error error)

/-- The machine after a sequence of commands, succeeding or failing. -/
def run (m : BrokerStateMachine) (commands : List BrokerCommand) : BrokerStateMachine :=
  Run.final apply m commands

end BrokerStateMachine

end AgentBroker
