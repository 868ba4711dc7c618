import AgentBroker.Lib.Weight
import AgentBroker.Domain.Counters
import AgentBroker.Domain.LeaseHolders

/-!
# What a command can write

How many records a command writes is not bounded by the command: a member that leaves or
is reaped gives back all its leases, and a claim takes back every lease that has expired.
Besides these, a command writes one task, one group or one namespace of its own.

## Main results

* `apply_footprint` — the records that a command can write, read off the state before.
-/

namespace AgentBroker

open Registry ConsumerGroup

/-- The number of tasks a command may delete. -/
def BrokerCommand.maxDeleted : BrokerCommand → Nat
  | .pruneCompletedTasks c => c.maxTasks.get
  | _ => 0

namespace ConsumerGroup

variable {group group' : ConsumerGroup}

/-- The members of `group'` are members of `group` as they were, except for one. -/
def MembersWithin (group : ConsumerGroup) (own : Option ConsumerId) (group' : ConsumerGroup) :
    Prop :=
  ∀ memberId member, group'.consumers.get memberId = some member →
    own = some memberId ∨ group.consumers.get memberId = some member

theorem MembersWithin.refl : group.MembersWithin none group := fun _ _ => Or.inr

variable {member : Consumer} {nowMs : TimestampMs} {memberId : ConsumerId}

/-- One member is written. -/
theorem MembersWithin.put {member : Consumer}
    (h : group'.consumers = group.consumers.put member) :
    group.MembersWithin (some member.id) group' := by
  intro memberId found hget
  rw [h, get_put] at hget
  split_ifs at hget with hid
  · exact Or.inl (congrArg some hid.symm)
  · exact Or.inr hget

/-- A transition writes at most one member. -/
theorem Moves.membersWithin {limit : Nat} (h : group.Moves limit group') :
    ∃ own, group.MembersWithin own group' := by
  cases h with
  | refreshed | joined => exact ⟨_, .put rfl⟩
  | shrunk kept => exact ⟨none, fun _ _ hget => Or.inr (kept hget)⟩

end ConsumerGroup

namespace BrokerStateMachine

/-- The members a reap removes: the stalest ones, as many as it may. -/
def reaps (m : BrokerStateMachine) (c : ReapStaleMembersCommand) (groupId : ConsumerGroupId)
    (memberId : ConsumerId) : Bool :=
  ((reapCandidates m.state c.staleBeforeMs).take c.maxMembers.get).any fun candidate =>
    candidate.groupId = groupId ∧ candidate.memberId = memberId

/-- The groups a command may write again. -/
def rewrites (m : BrokerStateMachine) (c : BrokerCommand) (group : ConsumerGroup) : Bool :=
  match c with
  | .joinConsumerGroup c => group.id = c.groupId
  | .heartbeat c => group.id = c.groupId
  | .leaveConsumerGroup c => group.id = c.groupId
  | .reapStaleMembers c => group.consumers.values.any fun member => m.reaps c group.id member.id
  | _ => false

/-- The leases a command may take back. -/
def mayEnd (m : BrokerStateMachine) (c : BrokerCommand) (taskId : TaskId) (lease : LeasedTask) :
    Bool :=
  match c with
  | .leaveConsumerGroup c => lease.groupId = c.groupId ∧ lease.ownerMemberId = c.memberId
  | .reapStaleMembers c => m.reaps c lease.groupId lease.ownerMemberId
  | .claimTask c =>
    -- A lease that expired without an entry in this namespace's heap stays as it is.
    lease.expiresAtMs ≤ c.nowMs ∧ (m.state.groups.get c.groupId).any fun group =>
      ⟨lease.expiresAtMs, taskId, lease.leaseEpoch⟩ ∈
        (m.expirationHeap group.namespaceId).entries
  | _ => false

/-- The task is leased and the command may take the lease back. -/
def mayTakeBack (m : BrokerStateMachine) (c : BrokerCommand) (task : Task) : Bool :=
  task.lease.any (m.mayEnd c task.id)

variable {m m' : BrokerStateMachine} {c : BrokerCommand}

/-! ## Tasks -/

theorem mayTakeBack_of_leased {task : Task} {lease : LeasedTask}
    (hstate : task.state = .leased lease) (h : m.mayEnd c task.id lease = true) :
    m.mayTakeBack c task = true := by
  rw [mayTakeBack, Task.lease_of_leased hstate]
  exact h

/-- The tasks that differ were leased and taken back, except for one. -/
def TasksWithin (m : BrokerStateMachine) (c : BrokerCommand) (own : Option TaskId)
    (tasks : Tasks) : Prop :=
  ∀ t task', tasks.get t = some task' → m.state.tasks.get t ≠ some task' → own = some t ∨
    ∃ task, m.state.tasks.get t = some task ∧ m.mayTakeBack c task = true ∧
      task' = task.takenBack

theorem TasksWithin.refl : TasksWithin m c none m.state.tasks :=
  fun _ _ hget hne => absurd hget hne

/-- One more task is written. -/
theorem TasksWithin.put {tasks : Tasks} (h : TasksWithin m c none tasks) (task : Task) :
    TasksWithin m c (some task.id) (tasks.put task) := by
  intro t task' hget hne
  rw [get_put] at hget
  split_ifs at hget with ht
  · exact Or.inl (congrArg some ht.symm)
  · exact Or.inr ((h t task' hget hne).resolve_left nofun)

/-- Leases are taken back. -/
theorem TasksWithin.takeBack {s : BrokerStateMachine} (hs : s.state.tasks = m.state.tasks)
    {place : Task → NamespaceId} {taskIds : List TaskId}
    (h : ∀ t ∈ taskIds, ∃ task lease, m.state.tasks.get t = some task ∧
      task.state = .leased lease ∧ m.mayEnd c t lease = true) :
    TasksWithin m c none (s.takeBack place taskIds).state.tasks := by
  intro t task' hget hne
  rw [get_takeBack, hs] at hget
  split_ifs at hget with ht
  · obtain ⟨task, lease, htask, hstate, hends⟩ := h t ht
    rw [htask, Option.map_some] at hget
    cases hget
    rw [← key_of_get htask] at hends
    exact Or.inr ⟨task, htask, mayTakeBack_of_leased hstate hends, rfl⟩
  · exact absurd hget hne

theorem Claimed.tasksWithin {c : ClaimTaskCommand} {result : TaskClaimResult}
    (h : Claimed m c result m') : ∃ own, TasksWithin m (.claimTask c) own m'.state.tasks := by
  cases h with
  | retried => exact ⟨none, .refl⟩
  | idle =>
    rw [expirationsPopped_state]
    exact ⟨none, .refl⟩
  | @leased _ _ _ _ _ _ _ _ _ reaches =>
      refine ⟨_, TasksWithin.put (TasksWithin.takeBack
        (congrArg BrokerState.tasks expirationsPopped_state) fun t ht => ?_) _⟩
      obtain ⟨entry, hentry, rfl, hexpired, hlive⟩ := mem_dueTasks.mp ht
      obtain ⟨found, lease, hget, hstate, hepoch, hexpires⟩ := LeaseExpiration.live_iff.mp hlive
      obtain ⟨group, member, hgroup, -, -, hnamespace⟩ := reaches.member
      refine ⟨found, lease, hget, hstate, ?_⟩
      rw [mayEnd, hgroup, Option.any_some, hepoch, hexpires, hnamespace]
      exact decide_eq_true ⟨hexpired, decide_eq_true hentry⟩

/-- The members that are selected are those that the reap removes. -/
theorem reaps_of_selected {command : ReapStaleMembersCommand}
    {entry : ConsumerGroupId × List ConsumerId} {memberId : ConsumerId}
    (hentry : entry ∈ (selectedMembers ((reapCandidates m.state command.staleBeforeMs).take
      command.maxMembers.get)).entries) (hmember : memberId ∈ entry.2) :
    m.reaps command entry.1 memberId = true ∧ ∃ group member,
      m.state.groups.get entry.1 = some group ∧ group.consumers.get memberId = some member := by
  have hget := OrdMap.get_eq_some_iff.mpr hentry
  rw [get_selectedMembers] at hget
  split_ifs at hget with hnil
  rw [← Option.some.inj hget] at hmember
  obtain ⟨candidate, hcandidate, rfl⟩ := List.mem_map.mp hmember
  obtain ⟨hin, hgroup⟩ := List.mem_filter.mp hcandidate
  have hgroup := of_decide_eq_true hgroup
  obtain ⟨group, member, hg, hm, -, -⟩ := mem_reapCandidates.mp (List.mem_of_mem_take hin)
  exact ⟨List.any_eq_true.mpr ⟨candidate, hin, decide_eq_true ⟨hgroup, rfl⟩⟩,
    group, member, hgroup ▸ hg, hm⟩

variable {result : BrokerMutationResult}

theorem Succeeds.tasksWithin (h : Indexed m) (hstep : Succeeds m c result m') :
    ∃ own, TasksWithin m c own m'.state.tasks := by
  cases hstep with
  | publishTask | renewTaskLease | completeTask =>
    exact ⟨_, TasksWithin.refl.put _⟩
  | @leaveConsumerGroup _ _ _ group' =>
    refine ⟨none, TasksWithin.takeBack (m := m) (s := m.groupPut group') rfl fun t ht => ?_⟩
    obtain ⟨lease, task, hlease⟩ := (mem_dropped h).mp ht
    obtain ⟨hget, hstate, hgroup, hmember⟩ := memberLease_eq_some_iff.mp hlease
    exact ⟨task, lease, hget, hstate, decide_eq_true ⟨hgroup, hmember⟩⟩
  | @reapStaleMembers _ _ _ s selected _ _ reaped =>
    obtain ⟨groups, taskIds, rfl, -, hholds⟩ := reaped.effect
    refine ⟨none, TasksWithin.takeBack (m := m) (s := m.withGroups groups) rfl fun t ht => ?_⟩
    obtain ⟨entry, hentry, memberId, hmember, lease, task, hlease⟩ := (hholds t).mp ht
    obtain ⟨hget, hstate, hgroup, howner⟩ := memberLease_eq_some_iff.mp hlease
    refine ⟨task, lease, hget, hstate, ?_⟩
    rw [mayEnd, hgroup, howner]
    exact (reaps_of_selected (selected ▸ hentry) hmember).1
  | claimTask c claimed => exact claimed.tasksWithin
  | @pruneCompletedTasks c heap revision =>
    refine ⟨none, fun t task' hget hne => ?_⟩
    have hpruned : (m.pruned (m.oldest c) heap revision).state.tasks.get t = _ := get_pruneAll _ t
    rw [hpruned] at hget
    split_ifs at hget
    exact absurd hget hne
  | unchanged | ensureNamespace | ensureConsumerGroup | joinConsumerGroup | heartbeat
  | advanceTerm => exact ⟨none, .refl⟩

/-! ## Groups -/

/-- The groups that differ were written again.  Only one has a member that it did not have
as it is, or is new and empty. -/
def GroupsWithin (m : BrokerStateMachine) (c : BrokerCommand) (own : Option ConsumerGroupId)
    (groups : ConsumerGroups) : Prop :=
  ∀ g group', groups.get g = some group' → m.state.groups.get g ≠ some group' →
    (own = some g ∧ group'.consumers.values = []) ∨
      ∃ group, m.state.groups.get g = some group ∧ m.rewrites c group = true ∧
        ∃ member, (member = none ∨ own = some g) ∧ group.MembersWithin member group'

theorem GroupsWithin.refl : GroupsWithin m c none m.state.groups :=
  fun _ _ hget hne => absurd hget hne

theorem GroupsReaped.within {command : ReapStaleMembersCommand} {groups : ConsumerGroups}
    {entries : List (ConsumerGroupId × List ConsumerId)}
    (h : GroupsReaped m.state.groups groups command.staleBeforeMs entries)
    (hcan : ∀ entry ∈ entries, m.Reapable command.staleBeforeMs entry)
    (hselected : entries = (selectedMembers
      ((reapCandidates m.state command.staleBeforeMs).take command.maxMembers.get)).entries) :
    GroupsWithin m (.reapStaleMembers command) none groups := by
  intro g group' hget' hne
  by_cases hg : g ∈ entries.map Prod.fst
  · obtain ⟨entry, hentry, rfl⟩ := List.mem_map.mp hg
    obtain ⟨group, found, removed, hget, hfound, hreap, hids⟩ := h.reaped hentry
    cases hfound.symm.trans hget'
    refine Or.inr ⟨group, hget, ?_, none, Or.inl rfl,
      fun _ _ hget => Or.inr (kept_of_reap hreap hget)⟩
    -- A group is only selected for a member that is removed.
    obtain ⟨before, after, gone, hbefore, -, hgone, hnonempty⟩ := (hcan entry hentry).reaps
    cases hget.symm.trans hbefore
    obtain ⟨memberId, hmember⟩ := List.exists_mem_of_ne_nil entry.2 fun hnil => by
      rw [hnil] at hgone
      exact hnonempty (List.map_eq_nil_iff.mp hgone)
    obtain ⟨hreaps, group₁, member, hgroup₁, hconsumer⟩ :=
      reaps_of_selected (hselected ▸ hentry) hmember
    cases hget.symm.trans hgroup₁
    have hid : member.id = memberId := key_of_get hconsumer
    refine List.any_eq_true.mpr ⟨member, Registry.mem_values.mpr (hid ▸ hconsumer), ?_⟩
    rw [hid, key_of_get hget]
    exact hreaps
  · exact absurd ((h.kept hg).symm.trans hget') hne

theorem GroupsStep.within {groups : ConsumerGroups} (h : GroupsStep m c groups) :
    ∃ own, GroupsWithin m c own groups := by
  cases h with
  | kept => exact ⟨none, .refl⟩
  | ensured c =>
    refine ⟨some c.groupId, fun g group' hput hne => ?_⟩
    rw [get_put] at hput
    split_ifs at hput with hg
    · cases hput
      exact Or.inl ⟨congrArg some hg.symm, rfl⟩
    · exact absurd hput hne
  | @moved _ groupId group group' own get moves =>
    obtain ⟨member, hmembers⟩ := moves.membersWithin
    have hrewrites : m.rewrites c group = true := by
      cases c <;> cases own <;> exact decide_eq_true (key_of_get get)
    refine ⟨some groupId, fun k found hfound hne => ?_⟩
    rw [get_put] at hfound
    split_ifs at hfound with hk
    · cases hfound
      rw [moves.advances.id, key_of_get get] at hk
      subst hk
      exact Or.inr ⟨group, get, hrewrites, member, Or.inr rfl, hmembers⟩
    · exact absurd hfound hne
  | reaped c selected reapable reaped => exact ⟨none, reaped.within reapable selected⟩

/-! ## Namespaces and deleted tasks -/

theorem Succeeds.namespacesWithin (hstep : Succeeds m c result m') :
    ∃ own, ∀ ns, m.state.namespaces.Changed m'.state.namespaces ns → own = some ns := by
  rcases hstep.namespaces_cases with hsame | ⟨ensure, -, -, hfresh, hput⟩
  · rw [hsame]
    exact ⟨none, fun ns hchanged => absurd hchanged (not_changed_self _ ns)⟩
  · have hnew : m.state.namespaces.get (Namespace.new ensure.namespaceId).id ≠
        some (.new ensure.namespaceId) := fun hget => by
      cases hfresh.symm.trans hget
    refine ⟨some ensure.namespaceId, fun ns hchanged => ?_⟩
    rw [hput, changed_put hnew] at hchanged
    rw [hchanged]
    rfl

theorem Succeeds.deletedWithin (h : Indexed m) (hstep : Succeeds m c result m') :
    ∃ gone : List TaskId, gone.length ≤ c.maxDeleted ∧
      ∀ t, m.state.tasks.Deleted m'.state.tasks t → t ∈ gone := by
  by_cases hprune : ∃ prune, c = .pruneCompletedTasks prune
  · obtain ⟨prune, rfl⟩ := hprune
    cases hstep with
    | unchanged => exact ⟨[], Nat.zero_le _, fun t hgone => absurd hgone.2 hgone.1⟩
    | @pruneCompletedTasks _ heap revision =>
      refine ⟨(m.oldest prune).map TimedTask.taskId,
        by rw [List.length_map]; exact length_oldest_le, fun t hgone => ?_⟩
      -- A task that is not in the list is kept.
      have hpruned : (m.pruned (m.oldest prune) heap revision).state.tasks.get t = _ :=
        get_pruneAll _ t
      by_contra hkept
      rw [if_neg hkept] at hpruned
      exact hgone.1 (hpruned ▸ hgone.2)
  · refine ⟨[], Nat.zero_le _, fun t hgone => ?_⟩
    have htask := hstep.taskStep h t
    obtain ⟨task, hget⟩ := Option.ne_none_iff_exists'.mp hgone.1
    rw [hget, hgone.2] at htask
    cases htask with
    | pruned c => exact absurd ⟨c, rfl⟩ hprune

/-! ## The command -/

/-- What a command writes, read off the state before: leases it takes back, groups it
writes again, and one task, one group or one namespace of its own. -/
structure Footprint (m : BrokerStateMachine) (c : BrokerCommand) (m' : BrokerStateMachine) :
    Prop where
  tasks : ∃ own, TasksWithin m c own m'.state.tasks
  groups : ∃ own, GroupsWithin m c own m'.state.groups
  namespaces : ∃ own, ∀ ns, m.state.namespaces.Changed m'.state.namespaces ns → own = some ns
  deleted : ∃ gone : List TaskId, gone.length ≤ c.maxDeleted ∧
    ∀ t, m.state.tasks.Deleted m'.state.tasks t → t ∈ gone

/-- **What a command that succeeds can write.** -/
theorem apply_footprint (h : Indexed m) {applied : AppliedMutation}
    (hok : (apply m c).2 = .ok applied) : Footprint m c (apply m c).1 := by
  rcases apply_cases h c with ⟨result, -, hstep⟩ | ⟨error, herror, -⟩
  · have htasks := hstep.tasksWithin h.clearChanges
    have hdeleted := hstep.deletedWithin h.clearChanges
    exact ⟨htasks, hstep.groupsStep.within, hstep.namespacesWithin, hdeleted⟩
  · rw [herror] at hok
    cases hok

end BrokerStateMachine

end AgentBroker
