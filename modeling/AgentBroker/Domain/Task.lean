import AgentBroker.Lib.Effects
import AgentBroker.Domain.Fencing
import AgentBroker.Domain.Identifiers

/-!
# Tasks

The lifecycle of one task (`task.rs`): `Queued` until claimed, `Leased` under a
fenced lease, `Completed` for good.  Each state carries exactly the data it
needs, so a queued task has no lease and a leased one has no result.

The transitions do not mutate on failure, so each returns the updated task or
the error.  One lemma per transition says everything a success implies; the
modules above use only these.

## Main results

* `claim_eq_ok_iff`, `renew_eq_ok_iff`, `complete_eq_ok_iff` — when a transition
  succeeds, and with what.
* `requeueIfExpired_of_expired`, `requeueForMember_of_owner` — the two ways a
  lease is taken back.
-/

namespace AgentBroker

open Except hiding error

/-- Externally observable task status. -/
inductive TaskStatus where
  | queued
  | leased
  | completed
  deriving DecidableEq, Repr

/-- `Debug` of a status. -/
def TaskStatus.debug : TaskStatus → String
  | .queued => "Queued"
  | .leased => "Leased"
  | .completed => "Completed"

/-- Why a task refused a transition. -/
inductive TaskTransitionError where
  | notQueued (status : TaskStatus)
  | notLeased (status : TaskStatus)
  | staleGroup
  | staleOwner
  | staleGeneration
  | staleLeaseEpoch
  | staleLeaseId
  | leaseExpired
  | alreadyCompleted
  | fencingValue (error : FencingValueError)
  deriving DecidableEq, Repr

/-- `Display` of a transition error. -/
def TaskTransitionError.display : TaskTransitionError → String
  | .notQueued status => "task is not queued: " ++ status.debug
  | .notLeased status => "task has no active lease: " ++ status.debug
  | .staleGroup => "task lease belongs to another Consumer Group"
  | .staleOwner => "task lease belongs to another member"
  | .staleGeneration => "task lease generation is stale"
  | .staleLeaseEpoch => "task lease epoch is stale"
  | .staleLeaseId => "task lease identity is stale"
  | .leaseExpired => "task lease has expired"
  | .alreadyCompleted => "task is already completed"
  | .fencingValue error => error.display

/-- Queued-state payload.  The last lease epoch survives a requeue, so that the
next claim fences the old holder. -/
structure QueuedTask where
  leaseEpoch : LeaseEpoch
  deriving DecidableEq, Repr

/-- The lease identity of a leased task. -/
structure LeasedTask where
  leaseId : LeaseId
  ownerMemberId : ConsumerId
  groupId : ConsumerGroupId
  generation : Generation
  leaseEpoch : LeaseEpoch
  expiresAtMs : TimestampMs
  deriving DecidableEq, Repr

/-- The data that moves a queued task into the leased state. -/
structure LeaseGrant where
  leaseId : LeaseId
  ownerMemberId : ConsumerId
  groupId : ConsumerGroupId
  generation : Generation
  expiresAtMs : TimestampMs
  deriving DecidableEq, Repr

/-- The fencing identity a renew or complete command carries. -/
structure LeaseFence where
  leaseId : LeaseId
  ownerMemberId : ConsumerId
  groupId : ConsumerGroupId
  generation : Generation
  leaseEpoch : LeaseEpoch
  observedAtMs : TimestampMs
  deriving DecidableEq, Repr

/-- Whether a completion changed the task or repeated a retained one. -/
inductive CompletionOutcome where
  | completed
  | alreadyCompleted
  deriving DecidableEq, Repr

/-- Completed-state payload: the result and the lease that produced it. -/
structure CompletedTask where
  leaseId : LeaseId
  ownerMemberId : ConsumerId
  groupId : ConsumerGroupId
  generation : Generation
  leaseEpoch : LeaseEpoch
  result : TaskResult
  completedAtMs : TimestampMs
  deriving DecidableEq, Repr

/-- Lifecycle state with its payload. -/
inductive TaskState where
  | queued (payload : QueuedTask)
  | leased (payload : LeasedTask)
  | completed (payload : CompletedTask)
  deriving DecidableEq, Repr

/-- The status of a state. -/
def TaskState.status : TaskState → TaskStatus
  | .queued _ => .queued
  | .leased _ => .leased
  | .completed _ => .completed

/-- The lease epoch a state carries, whichever state it is. -/
def TaskState.leaseEpoch : TaskState → LeaseEpoch
  | .queued payload => payload.leaseEpoch
  | .leased payload => payload.leaseEpoch
  | .completed payload => payload.leaseEpoch

/-- The fence names the lease, and its observation is before the expiry. -/
structure LeaseFence.Fits (fence : LeaseFence) (lease : LeasedTask) : Prop where
  group : lease.groupId = fence.groupId
  owner : lease.ownerMemberId = fence.ownerMemberId
  generation : lease.generation = fence.generation
  epoch : lease.leaseEpoch = fence.leaseEpoch
  leaseId : lease.leaseId = fence.leaseId
  unexpired : fence.observedAtMs < lease.expiresAtMs

/-- The lease a grant creates at an epoch. -/
def LeaseGrant.lease (grant : LeaseGrant) (epoch : LeaseEpoch) : LeasedTask where
  leaseId := grant.leaseId
  ownerMemberId := grant.ownerMemberId
  groupId := grant.groupId
  generation := grant.generation
  leaseEpoch := epoch
  expiresAtMs := grant.expiresAtMs

/-- The completed payload a lease leaves behind. -/
def LeasedTask.completed (lease : LeasedTask) (result : TaskResult)
    (completedAtMs : TimestampMs) : CompletedTask where
  leaseId := lease.leaseId
  ownerMemberId := lease.ownerMemberId
  groupId := lease.groupId
  generation := lease.generation
  leaseEpoch := lease.leaseEpoch
  result := result
  completedAtMs := completedAtMs

/-- The authoritative task record. -/
structure Task where
  id : TaskId
  namespaceId : NamespaceId
  objective : TaskObjective
  createdAtMs : TimestampMs
  revision : Revision
  state : TaskState
  deriving DecidableEq, Repr

namespace Task

/-- A newly published task. -/
def new (taskId : TaskId) (namespaceId : NamespaceId) (objective : TaskObjective)
    (createdAtMs : TimestampMs) : Task where
  id := taskId
  namespaceId := namespaceId
  objective := objective
  createdAtMs := createdAtMs
  revision := .one
  state := .queued ⟨.zero⟩

/-- The status of a task. -/
def status (task : Task) : TaskStatus := task.state.status

/-- Claim a queued task: epoch and revision advance by one. -/
def claim (task : Task) (grant : LeaseGrant) : Except TaskTransitionError Task :=
  match task.state with
  | .queued queued => do
      let nextEpoch ← queued.leaseEpoch.next.mapError .fencingValue
      let nextRevision ← task.revision.next.mapError .fencingValue
      return { task with
        state := .leased (grant.lease nextEpoch)
        revision := nextRevision }
  | _ => .error (.notQueued task.status)

/-- The current lease, if it matches the fence and has not expired. -/
def requireActiveLease (task : Task) (fence : LeaseFence) :
    Except TaskTransitionError LeasedTask :=
  match task.state with
  | .leased lease => do
      -- The order of the checks decides which error a caller sees.
      .require (lease.groupId = fence.groupId) .staleGroup
      .require (lease.ownerMemberId = fence.ownerMemberId) .staleOwner
      .require (lease.generation = fence.generation) .staleGeneration
      .require (lease.leaseEpoch = fence.leaseEpoch) .staleLeaseEpoch
      .require (lease.leaseId = fence.leaseId) .staleLeaseId
      .require (fence.observedAtMs < lease.expiresAtMs) .leaseExpired
      return lease
  | _ => .error (.notLeased task.status)

/-- Move the expiry of a matching lease; the epoch stays. -/
def renew (task : Task) (fence : LeaseFence) (newExpiresAtMs : TimestampMs) :
    Except TaskTransitionError Task := do
  let _ ← task.requireActiveLease fence
  let nextRevision ← task.revision.next.mapError .fencingValue
  match task.state with
  | .leased lease =>
    return { task with
      state := .leased { lease with expiresAtMs := newExpiresAtMs }
      revision := nextRevision }
  | _ => .error (.notLeased task.status)

/-- Complete a matching lease, or recognise a retained identical completion. -/
def complete (task : Task) (fence : LeaseFence) (result : TaskResult) :
    Except TaskTransitionError (CompletionOutcome × Task) :=
  match task.state with
  -- A retry is recognised by its lease id and result alone.
  | .completed completed =>
    if completed.leaseId = fence.leaseId ∧ completed.result = result then
      .ok (.alreadyCompleted, task)
    else .error .alreadyCompleted
  | _ => do
      let lease ← task.requireActiveLease fence
      let nextRevision ← task.revision.next.mapError .fencingValue
      return (.completed, { task with
        state := .completed (lease.completed result fence.observedAtMs)
        revision := nextRevision })

/-- Take an expired lease back, keeping its epoch.  The flag tells whether the
task was requeued. -/
def requeueIfExpired (task : Task) (nowMs : TimestampMs) :
    Except TaskTransitionError (Bool × Task) :=
  match task.state with
  | .leased lease =>
    if lease.expiresAtMs > nowMs then .ok (false, task)
    else do
      let nextRevision ← task.revision.next.mapError .fencingValue
      return (true, { task with
        state := .queued ⟨lease.leaseEpoch⟩
        revision := nextRevision })
  | _ => .ok (false, task)

/-- Take the lease of a member back that left or was reaped. -/
def requeueForMember (task : Task) (groupId : ConsumerGroupId) (memberId : ConsumerId) :
    Except TaskTransitionError (Bool × Task) :=
  match task.state with
  | .leased lease =>
    if lease.groupId ≠ groupId ∨ lease.ownerMemberId ≠ memberId then .ok (false, task)
    else do
      let nextRevision ← task.revision.next.mapError .fencingValue
      return (true, { task with
        state := .queued ⟨lease.leaseEpoch⟩
        revision := nextRevision })
  | _ => .ok (false, task)

/-! ## What a successful transition did -/

/-- The task back in the queue, keeping the epoch of its lease. -/
def toQueued (task : Task) (lease : LeasedTask) (revision : Revision) : Task :=
  { task with state := .queued ⟨lease.leaseEpoch⟩, revision := revision }

/-- The task under a lease. -/
def toLeased (task : Task) (lease : LeasedTask) (revision : Revision) : Task :=
  { task with state := .leased lease, revision := revision }

/-- The task completed. -/
def toCompleted (task : Task) (completed : CompletedTask) (revision : Revision) : Task :=
  { task with state := .completed completed, revision := revision }

variable {task task' : Task} {fence : LeaseFence} {lease : LeasedTask}

theorem claim_eq_ok_iff {grant : LeaseGrant} :
    task.claim grant = .ok task' ↔
      ∃ queued epoch revision, task.state = .queued queued ∧
        queued.leaseEpoch.next = .ok epoch ∧ task.revision.next = .ok revision ∧
        task' = task.toLeased (grant.lease epoch) revision := by
  unfold claim
  cases task.state with
  | queued queued =>
    simp only [bind_eq_ok_iff, mapError_eq_ok_iff, pure, Except.pure,
      Except.ok.injEq, TaskState.queued.injEq]
    constructor
    · rintro ⟨epoch, hepoch, revision, hrevision, rfl⟩
      exact ⟨queued, epoch, revision, rfl, hepoch, hrevision, rfl⟩
    · rintro ⟨_, epoch, revision, rfl, hepoch, hrevision, rfl⟩
      exact ⟨epoch, hepoch, revision, hrevision, rfl⟩
  | leased | completed => simp

/-- A queued task cannot be claimed only if its epoch or its revision is exhausted. -/
theorem claim_error_of_queued {grant : LeaseGrant} {queued : QueuedTask}
    {error : TaskTransitionError} (hstate : task.state = .queued queued)
    (h : task.claim grant = .error error) :
    (∃ e, queued.leaseEpoch.next = .error e) ∨ ∃ e, task.revision.next = .error e := by
  unfold claim at h
  rw [hstate] at h
  rcases bind_eq_error_iff.mp h with hepoch | ⟨epoch, -, h⟩
  · obtain ⟨e, he, -⟩ := mapError_eq_error_iff.mp hepoch
    exact Or.inl ⟨e, he⟩
  · rcases bind_eq_error_iff.mp h with hrevision | ⟨revision, -, h⟩
    · obtain ⟨e, he, -⟩ := mapError_eq_error_iff.mp hrevision
      exact Or.inr ⟨e, he⟩
    · cases h

theorem requireActiveLease_eq_ok_iff :
    task.requireActiveLease fence = .ok lease ↔
      task.state = .leased lease ∧ fence.Fits lease := by
  unfold requireActiveLease
  cases task.state with
  | leased =>
    simp only [bind_eq_ok_iff, require_eq_ok_iff, pure, Except.pure,
      Except.ok.injEq, TaskState.leased.injEq]
    constructor
    · rintro ⟨_, hgroup, _, howner, _, hgeneration, _, hepoch, _, hid, _, htime, rfl⟩
      exact ⟨rfl, hgroup, howner, hgeneration, hepoch, hid, htime⟩
    · rintro ⟨rfl, h⟩
      exact ⟨⟨⟩, h.group, ⟨⟩, h.owner, ⟨⟩, h.generation, ⟨⟩, h.epoch, ⟨⟩, h.leaseId, ⟨⟩,
        h.unexpired, rfl⟩
  | queued | completed => simp

theorem renew_eq_ok_iff {expires : TimestampMs} :
    task.renew fence expires = .ok task' ↔
      ∃ lease revision, task.state = .leased lease ∧ fence.Fits lease ∧
        task.revision.next = .ok revision ∧
        task' = task.toLeased { lease with expiresAtMs := expires } revision := by
  unfold renew
  simp only [bind_eq_ok_iff, requireActiveLease_eq_ok_iff, mapError_eq_ok_iff]
  constructor
  · rintro ⟨lease, ⟨hstate, hfits⟩, revision, hrevision, htask⟩
    rw [hstate] at htask
    cases htask
    exact ⟨lease, revision, hstate, hfits, hrevision, rfl⟩
  · rintro ⟨lease, revision, hstate, hfits, hrevision, rfl⟩
    exact ⟨lease, ⟨hstate, hfits⟩, revision, hrevision, by rw [hstate]; rfl⟩

/-- A completion either finishes the fitting lease or repeats a retained one. -/
theorem complete_eq_ok_iff {result : TaskResult} {outcome : CompletionOutcome} :
    task.complete fence result = .ok (outcome, task') ↔
      (∃ lease revision, task.state = .leased lease ∧ fence.Fits lease ∧
        task.revision.next = .ok revision ∧ outcome = .completed ∧
        task' = task.toCompleted (lease.completed result fence.observedAtMs) revision) ∨
      (∃ completed, task.state = .completed completed ∧ completed.leaseId = fence.leaseId ∧
        completed.result = result ∧ outcome = .alreadyCompleted ∧ task' = task) := by
  unfold complete
  cases hstate : task.state with
  | completed completed =>
    by_cases hsame : completed.leaseId = fence.leaseId ∧ completed.result = result
    · simp [hsame, eq_comm]
    · simp only [if_neg hsame, reduceCtorEq, false_and, exists_false, false_or, false_iff,
        TaskState.completed.injEq, not_exists]
      rintro _ ⟨rfl, hid, hresult, -, -⟩
      exact hsame ⟨hid, hresult⟩
  | leased =>
    simp only [bind_eq_ok_iff, requireActiveLease_eq_ok_iff,
      mapError_eq_ok_iff, hstate, pure, Except.pure, Except.ok.injEq, Prod.mk.injEq,
      reduceCtorEq, false_and, exists_false, or_false]
    constructor
    · rintro ⟨lease', ⟨hlease, hfits⟩, revision, hrevision, rfl, rfl⟩
      exact ⟨lease', revision, hlease, hfits, hrevision, rfl, rfl⟩
    · rintro ⟨lease', revision, hlease, hfits, hrevision, rfl, rfl⟩
      exact ⟨lease', ⟨hlease, hfits⟩, revision, hrevision, rfl, rfl⟩
  | queued =>
    simp [bind_eq_ok_iff, requireActiveLease_eq_ok_iff, hstate]

theorem requeueIfExpired_of_expired {nowMs : TimestampMs} (hstate : task.state = .leased lease)
    (hexpired : lease.expiresAtMs ≤ nowMs) :
    task.requeueIfExpired nowMs =
      (task.revision.next.mapError .fencingValue).map fun revision =>
        (true, task.toQueued lease revision) := by
  unfold requeueIfExpired
  rw [hstate]
  simp only [gt_iff_lt, not_lt.mpr hexpired, if_false]
  cases task.revision.next <;> rfl

theorem requeueForMember_of_owner {groupId : ConsumerGroupId} {memberId : ConsumerId}
    (hstate : task.state = .leased lease) (hgroup : lease.groupId = groupId)
    (howner : lease.ownerMemberId = memberId) :
    task.requeueForMember groupId memberId =
      (task.revision.next.mapError .fencingValue).map fun revision =>
        (true, task.toQueued lease revision) := by
  unfold requeueForMember
  rw [hstate]
  simp only [hgroup, howner, ne_eq, not_true_eq_false, or_self, if_false]
  cases task.revision.next <;> rfl

end Task

end AgentBroker
