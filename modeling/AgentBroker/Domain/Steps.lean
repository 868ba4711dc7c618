import AgentBroker.Domain.Claim
import AgentBroker.Domain.Prune
import AgentBroker.Domain.Reap

/-!
# What one command does

`Succeeds` and `Fails` list every effect a command can have on a machine with exact
indexes: one case for each command, with the checks it has passed and what it answers.  A
command that finds its work done is `Settled` and changes nothing; a command that is
refused changes nothing either, unless it is a claim.

There is one lemma for the code of each command.  All that is proved about runs of the state
machine goes by cases over the two lists; no later module looks at the code of a command
to learn what it does.

## Main results

* `apply_cases` — every command succeeds or fails in one of the listed ways.
* `apply_indexed`, `run_indexed` — the indexes stay exact.
* `run_indexes_exact` — what the indexes hold, in every reachable machine.
-/

namespace AgentBroker

open Except hiding error
open EStateM Registry ConsumerGroup

/-! ## Refusals -/

/-- The group has no room for another member. -/
def ConsumerGroupError.isCapacity : ConsumerGroupError → Bool
  | .memberCapacityReached _ => true
  | _ => false

/-- A new resource is refused for capacity. -/
def StateMachineError.isCapacity : StateMachineError → Bool
  | .capacityExceeded _ _ => true
  | .consumerGroupTransition error => error.isCapacity
  | _ => false

namespace ConsumerGroup

/-- A join is refused for capacity only by a group that has reached it. -/
theorem full_of_join_error {group : ConsumerGroup} {memberId : ConsumerId}
    {capabilities : Capabilities} {nowMs : TimestampMs} {maxMembers : Usize}
    {error : ConsumerGroupError}
    (h : group.join memberId capabilities nowMs maxMembers = .error error)
    (hcapacity : error.isCapacity = true) : maxMembers.get ≤ group.consumers.size := by
  let Right (error : ConsumerGroupError) : Prop :=
    error.isCapacity = true → maxMembers.get ≤ group.consumers.size
  have hfencing : ∀ e, Right (.fencingValue e) := fun _ h => nomatch h
  suffices hraises : Except.Raises Right
      (group.join memberId capabilities nowMs maxMembers) from hraises error h hcapacity
  unfold join
  cases group.consumers.get memberId with
  | some =>
    refine .bind (.require fun h => nomatch h) fun _ _ => ?_
    split_ifs
    · exact .ok _
    · refine .bind ?_ fun _ _ => .ok _
      exact .bind (.mapError hfencing) fun _ _ => .bind (.mapError hfencing) fun _ _ => .ok _
  | none =>
    refine .bind (.require fun h => nomatch h) fun _ _ => .bind ?_ fun _ _ =>
      .bind (.mapError hfencing) fun _ _ => .bind (.mapError hfencing) fun _ _ => .ok _
    intro error herror _
    exact Nat.not_lt.mp (require_eq_error_iff.mp herror).1

end ConsumerGroup

namespace BrokerStateMachine

open EStateM (wp)

variable {m m' : BrokerStateMachine}

/-- A new task can be published: its namespace has room for it. -/
structure CanPublish (m : BrokerStateMachine) (c : PublishTaskCommand) : Prop where
  known : m.state.namespaces.get c.namespaceId ≠ none
  fresh : m.state.tasks.get c.taskId = none
  room : m.taskCount c.namespaceId < c.maxNamespaceTasks.get
  next : ∃ revision, m.state.revision.next = .ok revision

/-- A term advance can go through: it expects the current term, names a later one, and the
revision can advance. -/
def CanAdvanceTerm (m : BrokerStateMachine) (c : AdvanceTermCommand) : Prop :=
  m.state.term = c.expectedTerm ∧ m.state.term < c.newTerm ∧ m.state.revision.get + 1 < u64Size

/-- What is known of a command that is refused: what stood in its way, where later modules
ask for it, and that a refusal for capacity is right.  A claim is not refused but fails. -/
def Refuses (m : BrokerStateMachine) : BrokerCommand → StateMachineError → Prop
  | .ensureNamespace c, error =>
    error.isCapacity = true → ¬m.state.namespaces.size < c.maxNamespaces.get
  | .publishTask c, error => ¬m.CanPublish c ∧
    (error.isCapacity = true → ¬m.taskCount c.namespaceId < c.maxNamespaceTasks.get)
  | .ensureConsumerGroup c, error =>
    error.isCapacity = true → ¬m.groupCount c.namespaceId < c.maxNamespaceGroups.get
  | .joinConsumerGroup c, error => error.isCapacity = true → ∃ group,
    m.state.groups.get c.groupId = some group ∧ c.maxGroupMembers.get ≤ group.consumers.size
  | .leaveConsumerGroup c, _ => ¬m.CanLeave c
  | .advanceTerm c, _ => ¬m.CanAdvanceTerm c
  | .claimTask _, _ => False
  | _, _ => True

/-! ## Effects -/

/-- The work of the command is done, and `result` is what the command answers then. -/
inductive Settled (m : BrokerStateMachine) : BrokerCommand → BrokerMutationResult → Prop
  | ensureNamespace (c : EnsureNamespaceCommand) {ns : Namespace}
      (get : m.state.namespaces.get c.namespaceId = some ns) :
      Settled m (.ensureNamespace c) (.namespaceEnsured ⟨m.metadata, ns.id, ns.revision⟩)
  | publishTask (c : PublishTaskCommand) {task : Task}
      (known : m.state.namespaces.get c.namespaceId ≠ none)
      (get : m.state.tasks.get c.taskId = some task)
      (same : task.namespaceId = c.namespaceId ∧ task.objective = c.objective) :
      Settled m (.publishTask c)
        (.taskPublished ⟨m.metadata, task.id, task.revision, task.status⟩)
  | ensureConsumerGroup (c : EnsureConsumerGroupCommand) {group : ConsumerGroup}
      (known : m.state.namespaces.get c.namespaceId ≠ none)
      (get : m.state.groups.get c.groupId = some group)
      (same : group.namespaceId = c.namespaceId) :
      Settled m (.ensureConsumerGroup c) (.consumerGroup (consumerGroupResult m.metadata group))
  | joinConsumerGroup (c : JoinConsumerGroupCommand) {group : ConsumerGroup} {member : Consumer}
      (get : m.state.groups.get c.groupId = some group)
      (joined : group.consumers.get c.memberId = some member)
      (same : member.capabilities = c.capabilities) (newer : c.nowMs ≤ member.lastHeartbeatAtMs) :
      Settled m (.joinConsumerGroup c) (.consumerGroup (consumerGroupResult m.metadata group))
  | heartbeat (c : HeartbeatCommand) {group : ConsumerGroup} {member : Consumer}
      (get : m.state.groups.get c.groupId = some group)
      (current : group.generation = c.expectedGeneration)
      (joined : group.consumers.get c.memberId = some member)
      (newer : c.nowMs ≤ member.lastHeartbeatAtMs) :
      Settled m (.heartbeat c)
        (.heartbeat ⟨m.metadata, group.id, c.memberId, group.generation, member.revision⟩)
  /-- The lease id is active: nothing is said about its generation and its expiry. -/
  | claimTask (c : ClaimTaskCommand) {ns : NamespaceId} {task : Task} {lease : LeasedTask}
      (term : m.state.term = c.expectedTerm)
      (member : m.CurrentMember c.groupId c.memberId c.expectedGeneration ns)
      (active : m.activeLeaseTasks.get c.leaseId = some task.id)
      (get : m.state.tasks.get task.id = some task) (state : task.state = .leased lease)
      (owner : lease.ownerMemberId = c.memberId ∧ lease.groupId = c.groupId) :
      Settled m (.claimTask c) (.taskClaim (m.taskClaimResult c.expectedGeneration (some task)))
  | completeTask (c : CompleteTaskCommand) {ns : NamespaceId} {task : Task}
      {completed : CompletedTask} (term : m.state.term = c.expectedTerm)
      (member : m.CurrentMember c.groupId c.memberId c.expectedGeneration ns)
      (get : m.state.tasks.get c.taskId = some task)
      (state : task.state = .completed completed)
      (same : completed.leaseId = c.leaseId ∧ completed.result = c.result) :
      Settled m (.completeTask c)
        (.taskCompleted ⟨m.metadata, c.taskId, task.revision, task.status⟩)
  /-- No member is stale. -/
  | reapStaleMembers (c : ReapStaleMembersCommand) (positive : c.maxMembers.get ≠ 0)
      (none : (reapCandidates m.state c.staleBeforeMs).take c.maxMembers.get = []) :
      Settled m (.reapStaleMembers c) (.staleMembersReaped ⟨m.metadata, 0, 0⟩)
  /-- No completion is old enough. -/
  | pruneCompletedTasks (c : PruneCompletedTasksCommand) (positive : c.maxTasks.get ≠ 0)
      (none : (m.completedTasks.popLoop (selectStep m.state.tasks c) []).1 = []) :
      Settled m (.pruneCompletedTasks c) (.completedTasksPruned ⟨m.metadata, 0⟩)

/-- The effects of a command that succeeds. -/
inductive Succeeds (m : BrokerStateMachine) :
    BrokerCommand → BrokerMutationResult → BrokerStateMachine → Prop
  /-- The command found its work done. -/
  | unchanged {c : BrokerCommand} {result : BrokerMutationResult}
      (notClaim : ∀ claim, c ≠ .claimTask claim) (settled : Settled m c result) :
      Succeeds m c result m
  | ensureNamespace (c : EnsureNamespaceCommand) {revision : Revision}
      (fresh : m.state.namespaces.get c.namespaceId = none)
      (room : m.state.namespaces.size < c.maxNamespaces.get)
      (next : m.state.revision.next = .ok revision) :
      Succeeds m (.ensureNamespace c)
        (.namespaceEnsured ⟨⟨m.state.term, revision⟩, c.namespaceId, .one⟩)
        (m.namespaceAdded (.new c.namespaceId) revision)
  | publishTask (c : PublishTaskCommand) {revision : Revision}
      (known : m.state.namespaces.get c.namespaceId ≠ none)
      (fresh : m.state.tasks.get c.taskId = none)
      (room : m.taskCount c.namespaceId < c.maxNamespaceTasks.get)
      (next : m.state.revision.next = .ok revision) :
      Succeeds m (.publishTask c)
        (.taskPublished ⟨⟨m.state.term, revision⟩, c.taskId, .one, .queued⟩)
        (m.published (.new c.taskId c.namespaceId c.objective c.createdAtMs) revision)
  | ensureConsumerGroup (c : EnsureConsumerGroupCommand) {revision : Revision}
      (known : m.state.namespaces.get c.namespaceId ≠ none)
      (fresh : m.state.groups.get c.groupId = none)
      (room : m.groupCount c.namespaceId < c.maxNamespaceGroups.get)
      (next : m.state.revision.next = .ok revision) :
      Succeeds m (.ensureConsumerGroup c) (.consumerGroup
          (consumerGroupResult ⟨m.state.term, revision⟩ (.new c.groupId c.namespaceId)))
        (m.groupAdded (.new c.groupId c.namespaceId) revision)
  | joinConsumerGroup (c : JoinConsumerGroupCommand) {group group' : ConsumerGroup}
      {outcome : JoinOutcome} {revision : Revision}
      (get : m.state.groups.get c.groupId = some group)
      (join : group.join c.memberId c.capabilities c.nowMs c.maxGroupMembers =
        .ok (outcome, group'))
      (moves : group.Moves c.maxGroupMembers.get group')
      (next : m.state.revision.next = .ok revision) :
      Succeeds m (.joinConsumerGroup c)
        (.consumerGroup (consumerGroupResult ⟨m.state.term, revision⟩ group'))
        ((m.groupPut group').groupsRecorded [c.groupId] revision)
  | heartbeat (c : HeartbeatCommand) {group group' : ConsumerGroup} {member : Consumer}
      {revision : Revision} (get : m.state.groups.get c.groupId = some group)
      (heartbeat : group.heartbeat c.memberId c.expectedGeneration c.nowMs =
        .ok (.updated, group'))
      (moves : group.Moves 0 group') (next : m.state.revision.next = .ok revision)
      (present : group'.consumer c.memberId = some member) :
      Succeeds m (.heartbeat c) (.heartbeat ⟨⟨m.state.term, revision⟩, c.groupId, c.memberId,
          group'.generation, member.revision⟩)
        ((m.groupPut group').groupsRecorded [c.groupId] revision)
  | leaveConsumerGroup (c : LeaveConsumerGroupCommand) {result : BrokerMutationResult}
      {group group' : ConsumerGroup} {member : Consumer} {revision : Revision}
      (get : m.state.groups.get c.groupId = some group)
      (leave : group.leave c.memberId c.expectedGeneration = .ok (member, group'))
      (requeueable : m.Requeueable c.groupId c.memberId)
      (next : m.state.revision.next = .ok revision) :
      Succeeds m (.leaveConsumerGroup c) result
        (((m.groupPut group').dropLeases c.groupId c.memberId).groupsRecorded [c.groupId]
          revision)
  | reapStaleMembers (c : ReapStaleMembersCommand)
      {entries : List (ConsumerGroupId × List ConsumerId)} {revision : Revision}
      {s : BrokerStateMachine}
      (selected : entries = (selectedMembers
        ((reapCandidates m.state c.staleBeforeMs).take c.maxMembers.get)).entries)
      (nonempty : entries ≠ []) (next : m.state.revision.next = .ok revision)
      (reaped : m.Reaped c.staleBeforeMs entries s)
      (reapable : ∀ entry ∈ entries, m.Reapable c.staleBeforeMs entry) :
      Succeeds m (.reapStaleMembers c) (.staleMembersReaped ⟨⟨s.state.term, revision⟩,
          (entries.map (·.2.length)).sum, entries.length⟩)
        (s.groupsRecorded (entries.map Prod.fst) revision)
  | claimTask (c : ClaimTaskCommand) {result : TaskClaimResult} {m' : BrokerStateMachine}
      (claimed : Claimed m c result m') : Succeeds m (.claimTask c) (.taskClaim result) m'
  | renewTaskLease (c : RenewTaskLeaseCommand) {result : BrokerMutationResult}
      {ns : NamespaceId} {task : Task} {lease : LeasedTask} {expiresAtMs : TimestampMs}
      {taskRevision revision : Revision} (term : m.state.term = c.expectedTerm)
      (member : m.CurrentMember c.groupId c.memberId c.expectedGeneration ns)
      (expires : c.nowMs.checkedAdd c.leaseDurationMs = some expiresAtMs)
      (get : m.state.tasks.get c.taskId = some task) (state : task.state = .leased lease)
      (fits : c.fence.Fits lease) (taskNext : task.revision.next = .ok taskRevision)
      (next : m.state.revision.next = .ok revision) :
      Succeeds m (.renewTaskLease c) result
        (m.renewed task lease expiresAtMs taskRevision revision)
  | completeTask (c : CompleteTaskCommand)
      {ns : NamespaceId} {task : Task} {lease : LeasedTask} {taskRevision revision : Revision}
      (term : m.state.term = c.expectedTerm)
      (member : m.CurrentMember c.groupId c.memberId c.expectedGeneration ns)
      (get : m.state.tasks.get c.taskId = some task) (state : task.state = .leased lease)
      (fits : c.fence.Fits lease) (taskNext : task.revision.next = .ok taskRevision)
      (next : m.state.revision.next = .ok revision) :
      Succeeds m (.completeTask c)
        (.taskCompleted ⟨⟨m.state.term, revision⟩, c.taskId, taskRevision, .completed⟩)
        (m.completed task lease c.result c.completedAtMs taskRevision revision)
  | pruneCompletedTasks (c : PruneCompletedTasksCommand) {heap : MinHeap TimedTask}
      {revision : Revision} (split : m.oldest c ++ heap.entries = m.completedTasks.entries)
      (nonempty : m.oldest c ≠ []) (next : m.state.revision.next = .ok revision)
      (indexed : Indexed (m.pruned (m.oldest c) heap revision)) :
      Succeeds m (.pruneCompletedTasks c) (.completedTasksPruned
          ⟨(m.pruned (m.oldest c) heap revision).metadata, (m.oldest c).length⟩)
        (m.pruned (m.oldest c) heap revision)
  | advanceTerm (c : AdvanceTermCommand) {revision : Revision}
      (term : m.state.term = c.expectedTerm) (greater : m.state.term < c.newTerm)
      (next : m.state.revision.next = .ok revision) :
      Succeeds m (.advanceTerm c) (.termAdvanced ⟨⟨c.newTerm, revision⟩⟩)
        { m with state := { m.state with term := c.newTerm, revision := revision } }

/-- The effects of a command that fails: only a claim may leave something behind. -/
inductive Fails (m : BrokerStateMachine) :
    BrokerCommand → StateMachineError → BrokerStateMachine → Prop
  | refused {c : BrokerCommand} {error : StateMachineError} (refuses : m.Refuses c error) :
      Fails m c error m
  | claimTask (c : ClaimTaskCommand) {error : StateMachineError} {m' : BrokerStateMachine}
      (failed : ClaimFailed m c m') : Fails m (.claimTask c) error m'

/-! ## One lemma for each command -/

theorem ensureNamespace_wp (c : EnsureNamespaceCommand) :
    wp (ensureNamespace c) m (fun r => Succeeds m (.ensureNamespace c) (.namespaceEnsured r))
      (Fails m (.ensureNamespace c)) := by
  refine wp_get_bind ?_
  cases hget : m.state.namespaces.get c.namespaceId with
  | some ns => exact .unchanged (fun _ => nofun) (.ensureNamespace c hget)
  | none =>
    refine wp_require_bind (fun _ => ?_) fun _ => .refused nofun
    refine wp_require_bind (fun hroom => ?_) fun hfull => .refused fun _ => hfull
    refine wp_advance_bind (fun revision hrevision => ?_) fun _ _ => .refused nofun
    exact .ensureNamespace c hget hroom hrevision

theorem publishTask_wp (c : PublishTaskCommand) :
    wp (publishTask c) m (fun r => Succeeds m (.publishTask c) (.taskPublished r))
      (Fails m (.publishTask c)) := by
  refine wp_requireNamespace_bind (fun hknown => wp_get_bind ?_) fun hunknown =>
    .refused ⟨fun hcan => hcan.known hunknown, nofun⟩
  cases hget : m.state.tasks.get c.taskId with
  | some task =>
    refine wp_require_bind (fun hsame => ?_) fun _ => .refused ⟨fun hcan => ?_, nofun⟩
    · exact .unchanged (fun _ => nofun) (.publishTask c hknown hget hsame)
    · exact nomatch hcan.fresh.symm.trans hget
  | none =>
    refine wp_require_bind (fun _ => ?_) fun hzero => .refused
      ⟨fun hcan => hzero (Nat.ne_of_gt (Nat.zero_lt_of_lt hcan.room)), nofun⟩
    refine wp_require_bind (fun hroom => ?_) fun hfull => .refused
      ⟨fun hcan => hfull hcan.room, fun _ => hfull⟩
    refine wp_advance_bind (fun revision hrevision => ?_) fun error herror => .refused
      ⟨fun hcan => ?_, nofun⟩
    · exact .publishTask c hknown hget hroom hrevision
    · obtain ⟨revision, hrevision⟩ := hcan.next
      exact nomatch herror.symm.trans hrevision

theorem ensureConsumerGroup_wp (c : EnsureConsumerGroupCommand) :
    wp (ensureConsumerGroup c) m
      (fun r => Succeeds m (.ensureConsumerGroup c) (.consumerGroup r))
      (Fails m (.ensureConsumerGroup c)) := by
  refine wp_requireNamespace_bind (fun hknown => wp_get_bind ?_) fun _ => .refused nofun
  cases hget : m.state.groups.get c.groupId with
  | some =>
    refine wp_require_bind (fun hsame => ?_) fun _ => .refused nofun
    exact .unchanged (fun _ => nofun) (.ensureConsumerGroup c hknown hget hsame)
  | none =>
    refine wp_require_bind (fun _ => ?_) fun _ => .refused nofun
    refine wp_require_bind (fun hroom => ?_) fun hfull => .refused fun _ => hfull
    refine wp_advance_bind (fun revision hrevision => ?_) fun _ _ => .refused nofun
    -- The group that was just filed is found.
    have hself : (m.state.groups.put (.new c.groupId c.namespaceId)).get c.groupId =
        some (.new c.groupId c.namespaceId) := get_put_self _ _
    refine wp_set_bind (wp_found_bind (fun group hgroup => ?_) fun hnone => ?_)
    · cases hself.symm.trans hgroup
      exact .ensureConsumerGroup c hknown hget hroom hrevision
    · exact nomatch hself.symm.trans hnone

theorem joinConsumerGroup_wp (c : JoinConsumerGroupCommand) :
    wp (joinConsumerGroup c) m (fun r => Succeeds m (.joinConsumerGroup c) (.consumerGroup r))
      (Fails m (.joinConsumerGroup c)) := by
  refine wp_get_bind (wp_advance_bind (fun revision hrevision => ?_) fun _ _ => .refused nofun)
  refine wp_coordinated_bind (fun r hr => ?_) fun error herror => .refused fun hcapacity => ?_
  · obtain ⟨outcome, groups⟩ := r
    obtain ⟨group, group', hgroup, hjoin, rfl⟩ := GroupCoordinator.withGroup_eq_ok_iff.mp hr
    rcases join_moves hjoin with ⟨rfl, rfl⟩ | ⟨hchanged, hmoves⟩
    · obtain ⟨member, hmember, hcaps, hnow⟩ := get_of_join hjoin
      rw [put_get_self hgroup]
      refine wp_set_bind (wp_found_bind (fun found hfound => ?_) fun hnone => ?_)
      · cases hgroup.symm.trans hfound
        exact .unchanged (fun _ => nofun) (.joinConsumerGroup c hgroup hmember hcaps hnow)
      · exact nomatch hgroup.symm.trans hnone
    · have hself := get_put_moved hgroup hmoves.advances
      have hid : group'.id = c.groupId := key_of_get hself
      refine wp_set_bind (wp_found_bind (fun found hfound => ?_) fun hnone => ?_)
      · cases hself.symm.trans hfound
        simp only [if_neg hchanged, hid]
        exact .joinConsumerGroup c hgroup hjoin hmoves hrevision
      · exact nomatch hself.symm.trans hnone
  · rcases bind_eq_error_iff.mp herror with hfound | ⟨group, hfound, herror⟩
    · obtain ⟨-, rfl⟩ := ofOption_eq_error_iff.mp hfound
      cases hcapacity
    · rcases bind_eq_error_iff.mp herror with herror | ⟨_, -, herror⟩
      · obtain ⟨error, hjoin, rfl⟩ := mapError_eq_error_iff.mp herror
        exact ⟨group, ofOption_eq_ok_iff.mp hfound, full_of_join_error hjoin hcapacity⟩
      · cases herror

theorem heartbeat_wp (c : HeartbeatCommand) :
    wp (heartbeat c) m (fun r => Succeeds m (.heartbeat c) (.heartbeat r))
      (Fails m (.heartbeat c)) := by
  refine wp_get_bind (wp_advance_bind (fun revision hrevision => ?_) fun _ _ => .refused trivial)
  refine wp_coordinated_bind (fun r hr => ?_) fun _ _ => .refused trivial
  obtain ⟨outcome, groups⟩ := r
  obtain ⟨group, group', hgroup, hheartbeat, rfl⟩ := GroupCoordinator.withGroup_eq_ok_iff.mp hr
  obtain ⟨hcurrent, member, hmember, hnow⟩ := get_of_heartbeat hheartbeat
  rcases heartbeat_moves hheartbeat with ⟨rfl, rfl⟩ | ⟨rfl, hmoves⟩
  · rw [put_get_self hgroup]
    refine wp_set_bind (wp_found_bind (fun found hfound => ?_) fun _ => .refused trivial)
    cases hgroup.symm.trans hfound
    refine wp_found_bind (fun found hfound => ?_) fun _ => .refused trivial
    cases hmember.symm.trans hfound
    exact .unchanged (fun _ => nofun) (.heartbeat c hgroup hcurrent hmember hnow)
  · have hself := get_put_moved hgroup hmoves.advances
    have hid : group'.id = c.groupId := key_of_get hself
    refine wp_set_bind (wp_found_bind (fun found hfound => ?_) fun hnone => ?_)
    · cases hself.symm.trans hfound
      refine wp_found_bind (fun found hfound => ?_) fun hnone => ?_
      · simp only [hid, if_true]
        exact .heartbeat c hgroup hheartbeat hmoves hrevision hfound
      · exact nomatch hmember.symm.trans hnone
    · exact nomatch hself.symm.trans hnone

theorem leaveConsumerGroup_wp (h : Indexed m) (c : LeaveConsumerGroupCommand) :
    wp (leaveConsumerGroup c) m (fun r => Succeeds m (.leaveConsumerGroup c) (.consumerGroup r))
      (Fails m (.leaveConsumerGroup c)) := by
  refine wp_get_bind (wp_advance_bind (fun revision hrevision => ?_) fun error herror =>
    .refused fun hcan => ?_)
  · refine wp_ofExcept_bind (fun _ hpreflight => ?_) fun error herror => .refused fun hcan => ?_
    · have hok := (preflightMemberLeaseRequeue_eq_ok_iff h).mp hpreflight
      refine wp_coordinated_bind (fun r hr => ?_) fun error herror => .refused fun hcan => ?_
      · obtain ⟨member, groups⟩ := r
        obtain ⟨group, group', hgroup, hleave, rfl⟩ := GroupCoordinator.withGroup_eq_ok_iff.mp hr
        have hmoves : group.Moves 0 group' := leave_moves hleave
        have hself := get_put_moved hgroup hmoves.advances
        have hid : group'.id = c.groupId := key_of_get hself
        refine wp_set_bind (wp_found_bind (fun found hfound => ?_) fun hnone => ?_)
        · cases hself.symm.trans hfound
          have hput : Indexed (m.groupPut group') :=
            h.putGroup (by rw [key_of_get hgroup, hgroup]) hmoves.advances
          simp only [hid]
          rw [wp_bind]
          refine wp_mono (requeueMemberLeases_wp hput hok) ?_ fun _ _ hfalse => hfalse.elim
          rintro n s rfl
          exact .leaveConsumerGroup c hgroup hleave hok hrevision
        · exact nomatch hself.symm.trans hnone
      · obtain ⟨group, member, group', hgroup, hleave⟩ := hcan.leaves
        have hleft : GroupCoordinator.leave m.state.groups c.groupId c.memberId
            c.expectedGeneration = .ok (member, m.state.groups.put group') :=
          GroupCoordinator.withGroup_eq_ok_iff.mpr ⟨group, group', hgroup, hleave, rfl⟩
        exact nomatch herror.symm.trans hleft
    · have hpreflight : m.preflightMemberLeaseRequeue c.groupId c.memberId = .ok () :=
        (preflightMemberLeaseRequeue_eq_ok_iff h).mpr hcan.requeueable
      exact nomatch herror.symm.trans hpreflight
  · obtain ⟨revision, hrevision⟩ := hcan.next
    exact nomatch herror.symm.trans hrevision

theorem reapStaleMembers_wp (h : Indexed m) (c : ReapStaleMembersCommand) :
    wp (reapStaleMembers c) m
      (fun r => Succeeds m (.reapStaleMembers c) (.staleMembersReaped r))
      (Fails m (.reapStaleMembers c)) := by
  refine wp_require_bind (fun hpositive => wp_get_bind ?_) fun _ => .refused trivial
  dsimp only
  split_ifs with hcandidates
  · exact .unchanged (fun _ => nofun) (.reapStaleMembers c hpositive hcandidates)
  · refine wp_advance_bind (fun revision hrevision => ?_) fun _ _ => .refused trivial
    refine wp_ofExcept_bind (fun _ hpreflight => ?_) fun _ _ => .refused trivial
    have hnonempty := selectedMembers_ne_nil hcandidates
    have hkeys := OrdMap.keys_nodup (selectedMembers
      ((reapCandidates m.state c.staleBeforeMs).take c.maxMembers.get))
    have hok : ∀ entry ∈ (selectedMembers ((reapCandidates m.state c.staleBeforeMs).take
        c.maxMembers.get)).entries, m.Reapable c.staleBeforeMs entry := fun entry hentry =>
      preflightReap_reapable h hentry (forM_eq_ok_iff.mp hpreflight entry hentry)
    rw [wp_bind]
    refine wp_mono (reapGroups_wp h hkeys hok) ?_ fun _ _ hfalse => hfalse.elim
    rintro progress s ⟨hreaped, rfl⟩
    have hpos : (((selectedMembers ((reapCandidates m.state c.staleBeforeMs).take
        c.maxMembers.get)).entries.map (·.2.length)).sum) > 0 := by
      obtain ⟨entry, rest, hcons⟩ := List.exists_cons_of_ne_nil hnonempty
      obtain ⟨-, -, removed, -, -, hremoved, hne⟩ :=
        (hok entry (hcons ▸ List.mem_cons_self)).reaps
      have hlength : 0 < entry.2.length := by
        rw [← hremoved, List.length_map]
        exact List.length_pos_of_ne_nil hne
      rw [hcons, List.map_cons, List.sum_cons]
      omega
    refine wp_get_bind (wp_set_bind ?_)
    rw [if_pos hpos, List.length_map]
    exact .reapStaleMembers c rfl hnonempty hrevision hreaped hok

theorem renewTaskLease_wp (c : RenewTaskLeaseCommand) :
    wp (renewTaskLease c) m (fun r => Succeeds m (.renewTaskLease c) (.taskLeaseRenewed r))
      (Fails m (.renewTaskLease c)) := by
  refine wp_requireTerm_bind (fun hterm => ?_) fun _ => .refused trivial
  refine wp_requireGroupMember_bind (fun ns hmember => ?_) fun _ _ => .refused trivial
  refine wp_ofExcept_bind (fun expires hexpires => ?_) fun _ _ => .refused trivial
  refine wp_get_bind (wp_advance_bind (fun revision hrevision => ?_) fun _ _ => .refused trivial)
  refine wp_found_bind (fun task htask => ?_) fun _ => .refused trivial
  refine wp_transition_bind (fun task' hrenew => ?_) fun _ _ => .refused trivial
  obtain ⟨lease, taskRevision, hstate, hfits, htaskRevision, rfl⟩ :=
    Task.renew_eq_ok_iff.mp hrenew
  have hid : task.id = c.taskId := key_of_get htask
  refine wp_set_bind ?_
  rw [← hid]
  exact .renewTaskLease c hterm hmember (ofOption_eq_ok_iff.mp hexpires) htask hstate hfits
    htaskRevision hrevision

theorem completeTask_wp (c : CompleteTaskCommand) :
    wp (completeTask c) m (fun r => Succeeds m (.completeTask c) (.taskCompleted r))
      (Fails m (.completeTask c)) := by
  refine wp_requireTerm_bind (fun hterm => ?_) fun _ => .refused trivial
  refine wp_requireGroupMember_bind (fun ns hmember => ?_) fun _ _ => .refused trivial
  refine wp_get_bind (wp_advance_bind (fun revision hrevision => ?_) fun _ _ => .refused trivial)
  refine wp_found_bind (fun task htask => ?_) fun _ => .refused trivial
  refine wp_transition_bind (fun r hcomplete => ?_) fun _ _ => .refused trivial
  obtain ⟨outcome, task'⟩ := r
  rcases Task.complete_eq_ok_iff.mp hcomplete with
    ⟨lease, taskRevision, hstate, hfits, htaskRevision, rfl, rfl⟩ |
    ⟨completed, hstate, hlease, hresult, rfl, rfl⟩
  · have hstep :=
      Succeeds.completeTask c hterm hmember htask hstate hfits htaskRevision hrevision
    have hid : task.id = c.taskId := key_of_get htask
    have hgroup : lease.groupId = c.groupId := hfits.group
    have howner : lease.ownerMemberId = c.memberId := hfits.owner
    have hlease : lease.leaseId = c.leaseId := hfits.leaseId
    rw [completed, hid, hgroup, howner, hlease] at hstep
    exact hstep
  · exact .unchanged (fun _ => nofun)
      (.completeTask c hterm hmember htask hstate ⟨hlease, hresult⟩)

theorem pruneCompletedTasks_wp (h : Indexed m) (c : PruneCompletedTasksCommand) :
    wp (pruneCompletedTasks c) m
      (fun r => Succeeds m (.pruneCompletedTasks c) (.completedTasksPruned r))
      (Fails m (.pruneCompletedTasks c)) := by
  refine wp_require_bind (fun hpositive => wp_get_bind ?_) fun _ => .refused trivial
  obtain ⟨heap, hsplit, hloop, hindexed⟩ := prune_loops (c := c) h
  by_cases hnone : (m.completedTasks.popLoop (selectStep m.state.tasks c) []).1 = []
  · dsimp only
    rw [if_pos hnone]
    exact .unchanged (fun _ => nofun) (.pruneCompletedTasks c hpositive hnone)
  · dsimp only
    rw [if_neg hnone]
    refine wp_ofExcept_bind (fun _ _ => ?_) fun _ _ => .refused trivial
    refine wp_advance_bind (fun revision hrevision => ?_) fun _ _ => .refused trivial
    rw [hloop]
    have hgone : m.oldest c ≠ [] := by
      rw [← selected_eq_oldest h]
      simpa using hnone
    refine wp_set_bind (wp_set_bind ?_)
    dsimp only
    rw [if_pos (List.length_pos_of_ne_nil hgone)]
    exact .pruneCompletedTasks c hsplit hgone hrevision
      (hindexed.frame (m.pruneAll (m.oldest c)).state.term revision _ _ _ _)

theorem advanceTerm_wp (c : AdvanceTermCommand) :
    wp (advanceTerm c) m (fun r => Succeeds m (.advanceTerm c) (.termAdvanced r))
      (Fails m (.advanceTerm c)) := by
  refine wp_requireTerm_bind (fun hterm => wp_get_bind ?_) fun hterm =>
    .refused fun hcan => hterm hcan.1
  refine wp_require_bind (fun hlt => ?_) fun hlt => .refused fun hcan => hlt hcan.2.1
  refine wp_advance_bind (fun revision hrevision => ?_) fun error herror =>
    .refused fun hcan => ?_
  · exact .advanceTerm c hterm hlt hrevision
  · obtain ⟨revision, hrevision⟩ := Counter.next_isOk_iff.mpr hcan.2.2
    exact nomatch herror.symm.trans hrevision

theorem dispatch_wp (h : Indexed m) (c : BrokerCommand) :
    wp (dispatch c) m (Succeeds m c) (Fails m c) := by
  cases c with
  | ensureNamespace c => exact wp_bind.mpr (ensureNamespace_wp c)
  | publishTask c => exact wp_bind.mpr (publishTask_wp c)
  | ensureConsumerGroup c => exact wp_bind.mpr (ensureConsumerGroup_wp c)
  | joinConsumerGroup c => exact wp_bind.mpr (joinConsumerGroup_wp c)
  | heartbeat c => exact wp_bind.mpr (heartbeat_wp c)
  | leaveConsumerGroup c => exact wp_bind.mpr (leaveConsumerGroup_wp h c)
  | reapStaleMembers c => exact wp_bind.mpr (reapStaleMembers_wp h c)
  | renewTaskLease c => exact wp_bind.mpr (renewTaskLease_wp c)
  | completeTask c => exact wp_bind.mpr (completeTask_wp c)
  | pruneCompletedTasks c => exact wp_bind.mpr (pruneCompletedTasks_wp h c)
  | advanceTerm c => exact wp_bind.mpr (advanceTerm_wp c)
  | claimTask c =>
    refine wp_bind.mpr (wp_mono (claimTask_wp h c) ?_ ?_)
    · exact fun _ _ hclaimed => .claimTask c hclaimed
    · exact fun _ _ hfailed => .claimTask c hfailed

/-- **Every command succeeds or fails in one of the listed ways.** -/
theorem apply_cases (h : Indexed m) (c : BrokerCommand) :
    (∃ result, (apply m c).2 = .ok ⟨result, (apply m c).1.takeChanges⟩ ∧
      Succeeds m.clearChanges c result (apply m c).1) ∨
    (∃ error, (apply m c).2 = .error error ∧ Fails m.clearChanges c error (apply m c).1) := by
  have hwp := dispatch_wp h.clearChanges c
  unfold EStateM.wp at hwp
  unfold apply
  cases hrun : (dispatch c).run m.clearChanges with
  | ok result s =>
    rw [hrun] at hwp
    exact Or.inl ⟨result, rfl, hwp⟩
  | error error s =>
    rw [hrun] at hwp
    exact Or.inr ⟨error, rfl, hwp⟩

theorem Succeeds.claimed {c : ClaimTaskCommand} {result : BrokerMutationResult}
    (h : Succeeds m (.claimTask c) result m') :
    ∃ claim, result = .taskClaim claim ∧ Claimed m c claim m' := by
  cases h with
  | unchanged notClaim => exact absurd rfl (notClaim c)
  | claimTask _ claimed => exact ⟨_, rfl, claimed⟩

theorem Fails.claimFailed {c : ClaimTaskCommand} {error : StateMachineError}
    (h : Fails m (.claimTask c) error m') : ClaimFailed m c m' := by
  cases h with
  | refused refuses => exact refuses.elim
  | claimTask _ failed => exact failed

/-! ## The indexes stay exact -/

theorem groupsRecorded_indexed (h : Indexed m) (groupIds : List ConsumerGroupId)
    (revision : Revision) : Indexed (m.groupsRecorded groupIds revision) :=
  h.frame m.state.term revision m.changedNamespaces m.changedTasks m.deletedTasks _

theorem groupPut_indexed (h : Indexed m) {groupId : ConsumerGroupId}
    {group group' : ConsumerGroup} {limit : Nat} (hget : m.state.groups.get groupId = some group)
    (hmoves : group.Moves limit group') : Indexed (m.groupPut group') :=
  h.putGroup (by rw [key_of_get hget, hget]) hmoves.advances

theorem Succeeds.indexed (h : Indexed m) {c : BrokerCommand} {result : BrokerMutationResult}
    (hstep : Succeeds m c result m') : Indexed m' := by
  cases hstep with
  | unchanged => exact h
  | ensureNamespace => exact h.addNamespace Nat.one_pos
  | publishTask _ known fresh => exact h.publish fresh rfl Nat.one_pos known
  | ensureConsumerGroup _ known fresh =>
    exact h.addGroup fresh (new_wellFormed _ _) known
  | joinConsumerGroup _ get _ moves | heartbeat _ get _ moves =>
    exact groupsRecorded_indexed (groupPut_indexed h get moves) _ _
  | @leaveConsumerGroup _ _ group group' _ _ get leave =>
    have hmoves : group.Moves 0 group' := leave_moves leave
    exact groupsRecorded_indexed (takeBack_indexed (groupPut_indexed h get hmoves) _) _ _
  | reapStaleMembers _ _ _ _ reaped =>
    exact groupsRecorded_indexed reaped.indexed _ _
  | claimTask c claimed => exact claimed.indexed h
  | renewTaskLease _ _ _ _ get state _ taskNext =>
    exact h.renew _ (by rw [key_of_get get, get]) state (Counter.pos_of_next taskNext)
  | completeTask _ _ _ get state _ taskNext =>
    exact h.complete _ _ (by rw [key_of_get get, get]) state
      (Counter.pos_of_next taskNext)
  | pruneCompletedTasks _ _ _ _ indexed => exact indexed
  | advanceTerm c =>
    exact h.frame c.newTerm _ m.changedNamespaces m.changedTasks m.deletedTasks m.changedGroups

theorem Fails.indexed (h : Indexed m) {c : BrokerCommand} {error : StateMachineError}
    (hstep : Fails m c error m') : Indexed m' := by
  cases hstep with
  | refused => exact h
  | claimTask c failed => exact failed.indexed h

theorem apply_indexed (h : Indexed m) (c : BrokerCommand) : Indexed (apply m c).1 := by
  rcases apply_cases h c with ⟨result, -, hstep⟩ | ⟨error, -, hstep⟩
  · exact hstep.indexed h.clearChanges
  · exact hstep.indexed h.clearChanges

theorem run_indexed (commands : List BrokerCommand) : Indexed (run initial commands) :=
  Run.final_invariant (P := Indexed) (fun _ c h => apply_indexed h c) initial_indexed commands

/-- **Exact lease and count indexes.**  In every machine a run from the initial
machine reaches, with commands that succeed or fail, the indexes hold exactly what
the tasks and groups say. -/
theorem run_indexes_exact (commands : List BrokerCommand) :
    (∀ leaseId taskId, (run initial commands).activeLeaseTasks.get leaseId = some taskId ↔
      ∃ task lease, (run initial commands).state.tasks.get taskId = some task ∧
        task.state = .leased lease ∧ lease.leaseId = leaseId) ∧
    (∀ key taskId, taskId ∈ (run initial commands).memberLeaseTasks.getD key ∅ ↔
      ∃ task lease, (run initial commands).state.tasks.get taskId = some task ∧
        task.state = .leased lease ∧ lease.groupId = key.groupId ∧
        lease.ownerMemberId = key.memberId) ∧
    (∀ key tasks, (run initial commands).memberLeaseTasks.get key = some tasks → tasks ≠ ∅) ∧
    ((run initial commands).completedTasks.entries.Nodup ∧
      ∀ e, e ∈ (run initial commands).completedTasks ↔
        ∃ task completed, (run initial commands).state.tasks.get e.taskId = some task ∧
          task.state = .completed completed ∧ completed.completedAtMs = e.atMs) ∧
    (∀ ns, (run initial commands).namespaceTaskCounts.getD ns 0 =
      (run initial commands).state.tasks.values.countP (·.namespaceId = ns)) ∧
    (∀ ns, (run initial commands).namespaceGroupCounts.getD ns 0 =
      (run initial commands).state.groups.values.countP (·.namespaceId = ns)) := by
  have h := run_indexed commands
  refine ⟨fun leaseId taskId => ?_, fun key taskId => ?_, h.member.nonempty,
    ⟨h.completed.nodup, fun e => ?_⟩, fun ns => ?_, fun ns => ?_⟩
  · rw [h.active leaseId taskId, attr_eq_some_iff]
    simp [Task.activeLeaseId, Task.lease_eq_some_iff]
  · rw [h.member.mem_iff key taskId, attr_eq_some_iff]
    obtain ⟨groupId, memberId⟩ := key
    simp [Task.memberKey, Task.lease_eq_some_iff]
  · rw [h.completed.mem_iff e, attr_eq_some_iff]
    simp [Task.completedAt_eq_some_iff]
  · rw [h.taskCounts ns, countWhere_eq_countP]
  · rw [h.groupCounts ns, countWhere_eq_countP]

end BrokerStateMachine

end AgentBroker
