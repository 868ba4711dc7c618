import AgentBroker.Domain.FailedClaim

/-!
# What a command does to one record

`TaskStep` lists what a command can do to the record of one task.  It is read off
`Succeeds` and `Fails` once; facts about epochs, revisions and namespaces of tasks
then go by cases over it.  Groups only advance.

## Main results

* `apply_taskStep` — every command takes every task one `TaskStep` further.
* `apply_groupStep` — what a command does to a group.
* `apply_group_advances` — no command loses a group or moves it back.
-/

namespace AgentBroker

open Registry ConsumerGroup

/-- The commands that remove members and with them their leases. -/
def BrokerCommand.removesMembers : BrokerCommand → Bool
  | .leaveConsumerGroup _ | .reapStaleMembers _ => true
  | _ => false

namespace BrokerStateMachine

/-- What a command can do to the record of a task. -/
inductive TaskStep (m : BrokerStateMachine) :
    BrokerCommand → TaskId → Option Task → Option Task → Prop
  | kept (c : BrokerCommand) (t : TaskId) (record : Option Task) : TaskStep m c t record record
  | published (c : PublishTaskCommand) :
      TaskStep m (.publishTask c) c.taskId none
        (some (.new c.taskId c.namespaceId c.objective c.createdAtMs))
  /-- The lease is taken back because its holder is removed. -/
  | dropped (c : BrokerCommand) (t : TaskId) {task : Task} {lease : LeasedTask}
      {revision : Revision} (removes : c.removesMembers = true)
      (state : task.state = .leased lease) (next : task.revision.next = .ok revision) :
      TaskStep m c t (some task) (some (task.toQueued lease revision))
  /-- The lease is taken back because it has expired. -/
  | expired (c : ClaimTaskCommand) (t : TaskId) {ns : NamespaceId} {task : Task}
      {lease : LeasedTask} {revision : Revision} (reaches : m.Reaches c ns)
      (due : m.Due ns c.nowMs t) (state : task.state = .leased lease)
      (next : task.revision.next = .ok revision) :
      TaskStep m (.claimTask c) t (some task) (some (task.toQueued lease revision))
  /-- A queued task is leased. -/
  | claimed (c : ClaimTaskCommand) (t : TaskId) {ns : NamespaceId} {task : Task}
      {queued : QueuedTask} {epoch : LeaseEpoch} {expiresAtMs : TimestampMs}
      {revision : Revision} (reaches : m.Reaches c ns)
      (ready : ∃ e ∈ m.readyHeap ns, e.taskId = t) (state : task.state = .queued queued)
      (epochNext : queued.leaseEpoch.next = .ok epoch)
      (next : task.revision.next = .ok revision) :
      TaskStep m (.claimTask c) t (some task)
        (some (task.toLeased (leaseFor c epoch expiresAtMs) revision))
  /-- An expired lease is taken back and the task leased again. -/
  | reclaimed (c : ClaimTaskCommand) (t : TaskId) {ns : NamespaceId} {task : Task}
      {lease : LeasedTask} {epoch : LeaseEpoch} {expiresAtMs : TimestampMs}
      {requeueRevision revision : Revision} (reaches : m.Reaches c ns)
      (due : m.Due ns c.nowMs t) (state : task.state = .leased lease)
      (requeueNext : task.revision.next = .ok requeueRevision)
      (epochNext : lease.leaseEpoch.next = .ok epoch)
      (next : requeueRevision.next = .ok revision) :
      TaskStep m (.claimTask c) t (some task)
        (some ((task.toQueued lease requeueRevision).toLeased (leaseFor c epoch expiresAtMs)
          revision))
  | renewed (c : RenewTaskLeaseCommand) {ns : NamespaceId} {task : Task} {lease : LeasedTask}
      {expiresAtMs : TimestampMs} {revision : Revision} (term : m.state.term = c.expectedTerm)
      (member : m.CurrentMember c.groupId c.memberId c.expectedGeneration ns)
      (state : task.state = .leased lease) (fits : c.fence.Fits lease)
      (next : task.revision.next = .ok revision) :
      TaskStep m (.renewTaskLease c) c.taskId (some task)
        (some (task.toLeased { lease with expiresAtMs := expiresAtMs } revision))
  | completed (c : CompleteTaskCommand) {ns : NamespaceId} {task : Task} {lease : LeasedTask}
      {revision : Revision} (term : m.state.term = c.expectedTerm)
      (member : m.CurrentMember c.groupId c.memberId c.expectedGeneration ns)
      (state : task.state = .leased lease) (fits : c.fence.Fits lease)
      (next : task.revision.next = .ok revision) :
      TaskStep m (.completeTask c) c.taskId (some task)
        (some (task.toCompleted (lease.completed c.result c.completedAtMs) revision))
  | pruned (c : PruneCompletedTasksCommand) (t : TaskId) {task : Task} {payload : CompletedTask}
      (state : task.state = .completed payload) :
      TaskStep m (.pruneCompletedTasks c) t (some task) none

variable {m m' : BrokerStateMachine} {c : BrokerCommand} {error : StateMachineError} {t : TaskId}

/-- A step that takes a lease back, if there is one that can be. -/
theorem TaskStep.takenBack
    (hstep : ∀ task lease revision, m.state.tasks.get t = some task →
      task.state = .leased lease → task.revision.next = .ok revision →
      TaskStep m c t (some task) (some (task.toQueued lease revision))) :
    TaskStep m c t (m.state.tasks.get t) ((m.state.tasks.get t).map Task.takenBack) := by
  cases hget : m.state.tasks.get t with
  | none => exact .kept c t none
  | some task =>
    rw [Option.map_some]
    rcases Task.takenBack_cases task with ⟨lease, revision, hstate, hnext, heq⟩ | heq
    · rw [heq]
      exact hstep task lease revision hget hstate hnext
    · rw [heq]
      exact .kept c t _

theorem TaskStep.removed {s : BrokerStateMachine} (hc : c.removesMembers = true)
    (taskIds : List TaskId) (hs : s.state.tasks = m.state.tasks) :
    TaskStep m c t (m.state.tasks.get t)
      ((s.takeBack Task.namespaceId taskIds).state.tasks.get t) := by
  rw [get_takeBack, hs]
  split_ifs
  · exact .takenBack fun task lease revision _ hstate hnext => .dropped c t hc hstate hnext
  · exact .kept c t _

theorem TaskStep.recovered {c : ClaimTaskCommand} {ns : NamespaceId} (hreaches : m.Reaches c ns)
    {taskIds : List TaskId} (hdue : ∀ t ∈ taskIds, m.Due ns c.nowMs t) :
    TaskStep m (.claimTask c) t (m.state.tasks.get t)
      ((m.recovered ns c.nowMs taskIds).state.tasks.get t) := by
  rw [BrokerStateMachine.recovered, get_takeBack, expirationsPopped_state]
  split_ifs with ht
  · exact .takenBack fun task lease revision _ hstate hnext =>
      .expired c t hreaches (hdue t ht) hstate hnext
  · exact .kept _ t _

/-- Replacing the record of a task. -/
theorem TaskStep.put {task : Task} (task' : Task)
    (hget : m.state.tasks.get task.id = some task) (hid : task'.id = task.id)
    (hstep : TaskStep m c task.id (some task) (some task')) :
    TaskStep m c t (m.state.tasks.get t) ((m.state.tasks.put task').get t) := by
  rw [get_put]
  split_ifs with ht
  · rw [ht, hid, hget]
    exact hstep
  · exact .kept c t _

theorem ClaimFailed.taskStep {c : ClaimTaskCommand} (hfailed : ClaimFailed m c m') (t : TaskId) :
    TaskStep m (.claimTask c) t (m.state.tasks.get t) (m'.state.tasks.get t) := by
  cases hfailed with
  | rejected => exact .kept _ t _
  | @stuck _ _ _ _ reaches due =>
    exact .recovered reaches fun t ht => mem_dueTasks.mp (due ▸ List.mem_append_left _ ht)
  | popped reaches => exact .recovered reaches fun t ht => mem_dueTasks.mp ht

theorem Claimed.taskStep {c : ClaimTaskCommand} {result : TaskClaimResult}
    (hclaimed : Claimed m c result m') (t : TaskId) :
    TaskStep m (.claimTask c) t (m.state.tasks.get t) (m'.state.tasks.get t) := by
  cases hclaimed with
  | retried => exact .kept _ t _
  | idle =>
    rw [expirationsPopped_state]
    exact .kept _ t _
  | @leased ns e rest task queued expiresAtMs epoch taskRevision revision reaches due ready get
      id state expires epochNext taskNext =>
      have hput : ((m.caughtUp ns c.nowMs).state.tasks.put
          (task.toLeased (leaseFor c epoch expiresAtMs) taskRevision)).get t =
            if t = task.id then some (task.toLeased (leaseFor c epoch expiresAtMs) taskRevision)
            else (m.caughtUp ns c.nowMs).state.tasks.get t := get_put _ _ _
      have hoffered : m.Offered ns c.nowMs e := (nextOffered_of_head due ready).1
      refine hput ▸ ?_
      split_ifs with ht
      · subst ht
        rw [caughtUp, recovered, get_takeBack, expirationsPopped_state] at get
        split_ifs at get with hdue
        · obtain ⟨before, hbefore, hback⟩ := Option.map_eq_some_iff.mp get
          obtain ⟨lease, hleased, -⟩ := (mem_dueTasks.mp hdue).leased hbefore
          obtain ⟨requeueRevision, hrequeue⟩ :=
            due task.id (mem_dueTasks.mp hdue) before hbefore
          rw [Task.takenBack_of_leased hleased hrequeue] at hback
          subst hback
          cases state
          rw [hbefore]
          exact .reclaimed c _ reaches (mem_dueTasks.mp hdue) hleased hrequeue epochNext taskNext
        · -- A task that is not due was ready before.
          rcases hoffered with hready | ⟨hdue', -⟩
          · rw [get]
            exact .claimed c _ reaches ⟨e, hready, id.symm⟩ state epochNext taskNext
          · rw [← id] at hdue'
            exact absurd (mem_dueTasks.mpr hdue') hdue
      · exact .recovered reaches fun t ht => mem_dueTasks.mp ht

/-- The task a claim returns is leased to the claimant's group under the claim's
lease id. -/
theorem Claimed.carries {c : ClaimTaskCommand} {result : TaskClaimResult}
    (hclaimed : Claimed m c result m') (htask : result.taskId = some t) :
    ∃ task lease, m'.state.tasks.get t = some task ∧ task.state = .leased lease ∧
      lease.leaseId = c.leaseId ∧ lease.groupId = c.groupId := by
  cases hclaimed with
  | @retried _ task lease _ get state leaseId groupId =>
    have hid : (m.taskClaimResult c.expectedGeneration (some task)).taskId = some task.id := by
      simp [taskClaimResult, state]
    cases hid.symm.trans htask
    exact ⟨task, lease, get, state, leaseId, groupId⟩
  | idle => cases htask
  | @leased _ _ _ _ _ expiresAtMs epoch =>
      cases htask
      exact ⟨_, leaseFor c epoch expiresAtMs, get_put_self _ _, rfl, rfl, rfl⟩

theorem Succeeds.taskStep (h : Indexed m) {result : BrokerMutationResult}
    (hstep : Succeeds m c result m') (t : TaskId) :
    TaskStep m c t (m.state.tasks.get t) (m'.state.tasks.get t) := by
  cases hstep with
  | unchanged | ensureNamespace | ensureConsumerGroup | joinConsumerGroup | heartbeat =>
    exact .kept _ t _
  | publishTask c _ fresh =>
    have hput : (m.state.tasks.put (.new c.taskId c.namespaceId c.objective c.createdAtMs)).get
        t = if t = c.taskId then some (.new c.taskId c.namespaceId c.objective c.createdAtMs)
        else m.state.tasks.get t := get_put _ _ _
    refine hput ▸ ?_
    split_ifs with ht
    · rw [ht, fresh]
      exact .published c
    · exact .kept _ t _
  | leaveConsumerGroup => exact TaskStep.removed rfl _ rfl
  | reapStaleMembers _ _ _ _ reaped =>
    obtain ⟨groups, taskIds, rfl, -, -⟩ := reaped.effect
    exact TaskStep.removed (s := m.withGroups groups) rfl _ rfl
  | claimTask c claimed => exact claimed.taskStep t
  | @renewTaskLease c _ ns task lease expiresAtMs taskRevision revision term member expires get
      state fits taskNext next =>
      have hid : task.id = c.taskId := key_of_get get
      have hself : m.state.tasks.get task.id = some task := by rw [hid, get]
      refine TaskStep.put (task.toLeased { lease with expiresAtMs := expiresAtMs } taskRevision)
        hself rfl ?_
      rw [hid]
      exact .renewed c term member state fits taskNext
  | @completeTask c _ task lease taskRevision _ term member get state fits taskNext =>
      have hid : task.id = c.taskId := key_of_get get
      have hself : m.state.tasks.get task.id = some task := by rw [hid, get]
      refine TaskStep.put (task.toCompleted (lease.completed c.result c.completedAtMs)
        taskRevision) hself rfl ?_
      rw [hid]
      exact .completed c term member state fits taskNext
  | @pruneCompletedTasks c heap revision split =>
    have hget : (m.pruned (m.oldest c) heap revision).state.tasks.get t = _ := get_pruneAll _ t
    rw [hget]
    split_ifs with ht
    -- An entry of the completed heap names a completed task.
    · obtain ⟨e, he, rfl⟩ := List.mem_map.mp ht
      have hmem : e ∈ m.completedTasks := by
        rw [MinHeap.mem_def, ← split]
        exact List.mem_append_left _ he
      obtain ⟨task, hget, hat⟩ :=
        attr_eq_some_iff.mp ((h.completed.mem_iff e).mp hmem)
      obtain ⟨payload, hstate, -⟩ := Task.completedAt_eq_some_iff.mp hat
      rw [hget]
      exact .pruned c _ hstate
    · exact .kept _ t _
  | advanceTerm => exact .kept _ t _

theorem Fails.taskStep (hstep : Fails m c error m') (t : TaskId) :
    TaskStep m c t (m.state.tasks.get t) (m'.state.tasks.get t) := by
  cases hstep with
  | refused => exact .kept _ t _
  | claimTask c failed => exact failed.taskStep t

/-- **Every command takes every task one step further.** -/
theorem apply_taskStep (h : Indexed m) (c : BrokerCommand) (t : TaskId) :
    TaskStep m.clearChanges c t (m.state.tasks.get t) ((apply m c).1.state.tasks.get t) := by
  rcases apply_cases h c with ⟨result, -, hstep⟩ | ⟨error, -, hstep⟩
  · exact hstep.taskStep h.clearChanges t
  · exact hstep.taskStep t

/-- The same work, with the same record or at a later revision. -/
structure Continues (task task' : Task) : Prop where
  work : { task' with revision := task.revision, state := task.state } = task
  record : task' = task ∨ task.revision < task'.revision

theorem Continues.trans {task task' task'' : Task} (h : Continues task task')
    (h' : Continues task' task'') : Continues task task'' where
  work := (congrArg (fun x : Task => { x with revision := task.revision, state := task.state })
    h'.work).trans h.work
  record := by
    rcases h.record with rfl | hlt
    · exact h'.record
    · rcases h'.record with rfl | hlt'
      · exact Or.inr hlt
      · exact Or.inr (hlt.trans hlt')

theorem TaskStep.continues {task task' : Task}
    (h : TaskStep m c t (some task) (some task')) : Continues task task' := by
  cases h with
  | kept => exact ⟨rfl, Or.inl rfl⟩
  | dropped _ _ _ _ next | expired _ _ _ _ _ next | claimed _ _ _ _ _ _ next
  | renewed _ _ _ _ _ next | completed _ _ _ _ _ next =>
    exact ⟨rfl, Or.inr (Counter.lt_next next)⟩
  | reclaimed _ _ _ _ _ requeueNext _ next =>
    exact ⟨rfl, Or.inr ((Counter.lt_next requeueNext).trans (Counter.lt_next next))⟩

/-! ## Groups -/

/-- Taking leases back keeps the groups: after a departure only the group itself is new. -/
theorem groups_of_leave (group : ConsumerGroup) (groupId : ConsumerGroupId)
    (memberId : ConsumerId) :
    ((m.groupPut group).dropLeases groupId memberId).state.groups = m.state.groups.put group :=
  (takeBack_sameFrame _).groups

theorem groups_of_reap (groups : ConsumerGroups) (taskIds : List TaskId) :
    ((m.withGroups groups).takeBack Task.namespaceId taskIds).state.groups = groups :=
  (takeBack_sameFrame _).groups

theorem recovered_groups (ns : NamespaceId) (nowMs : TimestampMs) (taskIds : List TaskId) :
    (m.recovered ns nowMs taskIds).state.groups = m.state.groups := by
  rw [recovered, (takeBack_sameFrame taskIds).groups, expirationsPopped_state]

theorem Claimed.groups {c : ClaimTaskCommand} {result : TaskClaimResult}
    (hclaimed : Claimed m c result m') : m'.state.groups = m.state.groups := by
  cases hclaimed with
  | retried => rfl
  | idle => rw [expirationsPopped_state]
  | leased => exact recovered_groups _ _ _

theorem ClaimFailed.groups {c : ClaimTaskCommand} (hfailed : ClaimFailed m c m') :
    m'.state.groups = m.state.groups := by
  cases hfailed with
  | rejected => rfl
  | stuck | popped => exact recovered_groups _ _ _

/-- The number of members up to which a command adds members. -/
def memberLimit : BrokerCommand → Nat
  | .joinConsumerGroup c => c.maxGroupMembers.get
  | _ => 0

/-- The group whose member a command adds, refreshes or removes. -/
def movedGroup : BrokerCommand → Option ConsumerGroupId
  | .joinConsumerGroup c => some c.groupId
  | .heartbeat c => some c.groupId
  | .leaveConsumerGroup c => some c.groupId
  | _ => none

/-- What a command that succeeds makes of the groups. -/
inductive GroupsStep (m : BrokerStateMachine) : BrokerCommand → ConsumerGroups → Prop
  | kept (c : BrokerCommand) : GroupsStep m c m.state.groups
  | ensured (c : EnsureConsumerGroupCommand) (fresh : m.state.groups.get c.groupId = none) :
      GroupsStep m (.ensureConsumerGroup c) (m.state.groups.put (.new c.groupId c.namespaceId))
  | moved {c : BrokerCommand} {groupId : ConsumerGroupId} {group group' : ConsumerGroup}
      (own : movedGroup c = some groupId) (get : m.state.groups.get groupId = some group)
      (moves : group.Moves (memberLimit c) group') : GroupsStep m c (m.state.groups.put group')
  | reaped (c : ReapStaleMembersCommand) {entries : List (ConsumerGroupId × List ConsumerId)}
      {groups : ConsumerGroups}
      (selected : entries = (selectedMembers
        ((reapCandidates m.state c.staleBeforeMs).take c.maxMembers.get)).entries)
      (reapable : ∀ entry ∈ entries, m.Reapable c.staleBeforeMs entry)
      (reaped : GroupsReaped m.state.groups groups c.staleBeforeMs entries) :
      GroupsStep m (.reapStaleMembers c) groups

theorem Succeeds.groupsStep {result : BrokerMutationResult} (hstep : Succeeds m c result m') :
    GroupsStep m c m'.state.groups := by
  cases hstep with
  | ensureConsumerGroup c _ fresh => exact .ensured c fresh
  | joinConsumerGroup c get _ moves | heartbeat c get _ moves => exact .moved rfl get moves
  | @leaveConsumerGroup c _ _ group' _ _ get leave =>
    show GroupsStep m _ ((m.groupPut group').dropLeases c.groupId c.memberId).state.groups
    rw [groups_of_leave]
    exact .moved rfl get (leave_moves leave)
  | @reapStaleMembers c _ _ _ selected _ _ reaped reapable =>
    obtain ⟨groups, taskIds, rfl, hgroups, -⟩ := reaped.effect
    show GroupsStep m _ ((m.withGroups groups).takeBack Task.namespaceId taskIds).state.groups
    rw [groups_of_reap]
    exact .reaped c selected reapable hgroups
  | claimTask c claimed =>
    rw [claimed.groups]
    exact .kept _
  | @pruneCompletedTasks c =>
    show GroupsStep m _ (m.pruneAll (m.oldest c)).state.groups
    rw [pruneAll_groups]
    exact .kept _
  | _ => exact .kept _

/-- What becomes of the group under one id: it is kept, a transition changes it, or it is
new. -/
inductive GroupStep (c : BrokerCommand) (groupId : ConsumerGroupId) :
    Option ConsumerGroup → Option ConsumerGroup → Prop
  | kept (group : Option ConsumerGroup) : GroupStep c groupId group group
  | moved {group group' : ConsumerGroup} (moves : group.Moves (memberLimit c) group') :
      GroupStep c groupId (some group) (some group')
  | added (ensure : EnsureConsumerGroupCommand) (command : c = .ensureConsumerGroup ensure)
      (id : ensure.groupId = groupId) :
      GroupStep c groupId none (some (.new ensure.groupId ensure.namespaceId))

theorem GroupsStep.groupStep {groups : ConsumerGroups} (h : GroupsStep m c groups)
    (g : ConsumerGroupId) : GroupStep c g (m.state.groups.get g) (groups.get g) := by
  cases h with
  | kept => exact .kept _
  | ensured c fresh =>
    rw [get_put]
    split_ifs with hg
    · rw [hg, show m.state.groups.get (ConsumerGroup.new c.groupId c.namespaceId).id = none
        from fresh]
      exact .added c rfl rfl
    · exact .kept _
  | moved own get moves =>
    rw [get_put]
    split_ifs with hg
    · rw [hg, moves.advances.id, key_of_get get, get]
      exact .moved moves
    · exact .kept _
  | @reaped c entries _ _ _ reaped =>
    by_cases hg : g ∈ entries.map Prod.fst
    · obtain ⟨entry, hentry, rfl⟩ := List.mem_map.mp hg
      obtain ⟨group, group', removed, hget, hget', hreap, hids⟩ := reaped.reaped hentry
      rw [hget, hget']
      exact .moved (reap_moves hreap hids)
    · rw [reaped.kept hg]
      exact .kept _

/-- Only a claim that fails leaves anything behind. -/
theorem Fails.eq_of_not_claim (hstep : Fails m c error m')
    (hc : ∀ claim, c ≠ .claimTask claim) : m' = m := by
  cases hstep with
  | refused => rfl
  | claimTask claim => exact absurd rfl (hc claim)

theorem Fails.groups (hstep : Fails m c error m') : m'.state.groups = m.state.groups := by
  cases hstep with
  | refused => rfl
  | claimTask c failed => exact failed.groups

/-- **What a command does to one group.** -/
theorem apply_groupStep (h : Indexed m) (c : BrokerCommand) (g : ConsumerGroupId) :
    GroupStep c g (m.state.groups.get g) ((apply m c).1.state.groups.get g) := by
  rcases apply_cases h c with ⟨result, -, hstep⟩ | ⟨error, -, hstep⟩
  · exact hstep.groupsStep.groupStep g
  · rw [hstep.groups]
    exact .kept _

/-- Every group is still there and has not gone back. -/
def GroupsAdvance (groups groups' : ConsumerGroups) : Prop :=
  ∀ groupId group, groups.get groupId = some group →
    ∃ group', groups'.get groupId = some group' ∧ group.Advances group'

theorem apply_group_advances (h : Indexed m) (c : BrokerCommand) :
    GroupsAdvance m.state.groups (apply m c).1.state.groups := by
  intro g group hget
  have hstep := apply_groupStep h c g
  rw [hget] at hstep
  generalize (apply m c).1.state.groups.get g = after at hstep
  cases hstep with
  | kept => exact ⟨group, rfl, .refl group⟩
  | moved moves => exact ⟨_, rfl, moves.advances⟩

end BrokerStateMachine

end AgentBroker
