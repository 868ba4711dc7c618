import AgentBroker.Domain.StateMachine

/-!
# Exact indexes

The state machine keeps heaps and maps beside the authoritative state.  This
module says what they must hold (`Indexed`) and proves that each way in which the
commands change a task keeps them exact.  It does not look at the commands: the
modules about the commands reduce every command to these updates.

An index is described by the attribute of a task it is built from: the active
lease id, the member that holds the lease, the completion time, or the
publication time of a task that is ready.

## Main results

* `Indexed.publish`, `Indexed.requeue`, `Indexed.grant`, `Indexed.renew`,
  `Indexed.complete`, `Indexed.delete` — the updates of a task keep the indexes
  exact.
* `Indexed.putGroup`, `Indexed.addGroup`, `Indexed.addNamespace` — and so do
  the updates of groups and namespaces.
-/

namespace AgentBroker

open Registry Option

/-! ## Attributes of a task -/

namespace Task

/-- The current lease. -/
def lease (task : Task) : Option LeasedTask :=
  match task.state with
  | .leased payload => some payload
  | _ => none

/-- The id of the current lease. -/
def activeLeaseId (task : Task) : Option LeaseId := task.lease.map LeasedTask.leaseId

/-- The member that holds the current lease. -/
def memberKey (task : Task) : Option MemberKey :=
  task.lease.map fun lease => ⟨lease.groupId, lease.ownerMemberId⟩

/-- The completion time. -/
def completedAt (task : Task) : Option TimestampMs :=
  match task.state with
  | .completed payload => some payload.completedAtMs
  | _ => none

/-- The publication time of a task that is ready to be claimed. -/
def readyAt (task : Task) : Option TimestampMs :=
  match task.state with
  | .queued _ => some task.createdAtMs
  | _ => none

variable {task : Task} {lease : LeasedTask}

theorem lease_of_leased (h : task.state = .leased lease) :
    task.lease = some lease := by
  unfold Task.lease
  rw [h]

theorem lease_eq_some_iff :
    task.lease = some lease ↔ task.state = .leased lease := by
  unfold Task.lease
  cases task.state <;> simp

theorem activeLeaseId_of_leased (h : task.state = .leased lease) :
    task.activeLeaseId = some lease.leaseId := by
  rw [activeLeaseId, lease_of_leased h, map_some]

theorem memberKey_of_leased (h : task.state = .leased lease) :
    task.memberKey = some ⟨lease.groupId, lease.ownerMemberId⟩ := by
  rw [memberKey, lease_of_leased h, map_some]

theorem completedAt_of_leased (h : task.state = .leased lease) : task.completedAt = none := by
  unfold completedAt
  rw [h]

theorem readyAt_of_leased (h : task.state = .leased lease) : task.readyAt = none := by
  unfold readyAt
  rw [h]

theorem readyAt_eq_some_iff {atMs : TimestampMs} :
    task.readyAt = some atMs ↔ (∃ queued, task.state = .queued queued) ∧
      task.createdAtMs = atMs := by
  unfold readyAt
  cases task.state <;> simp

theorem completedAt_eq_some_iff {atMs : TimestampMs} :
    task.completedAt = some atMs ↔
      ∃ completed, task.state = .completed completed ∧ completed.completedAtMs = atMs := by
  unfold completedAt
  cases task.state <;> simp

end Task

/-! ## Well-formed states -/

/-- Positive revisions, and every task and group in a known namespace: what
`from_checkpoint` checks of single records. -/
structure BrokerState.WellFormed (state : BrokerState) : Prop where
  namespaces : state.namespaces.Forall fun ns => 0 < ns.revision.get
  tasks : state.tasks.Forall fun task =>
    0 < task.revision.get ∧ state.namespaces.get task.namespaceId ≠ none
  groups : state.groups.Forall fun group =>
    group.WellFormed ∧ state.namespaces.get group.namespaceId ≠ none

/-! ## Ready heaps -/

/-- Every ready entry names a task that is ready, no entry is held twice, and no
task is ready in two namespaces. -/
structure ReadyHeaps (heap : NamespaceId → MinHeap TimedTask)
    (ready : TaskId → Option TimestampMs) : Prop where
  sound : ∀ {ns e}, e ∈ heap ns → ready e.taskId = some e.atMs
  nodup : ∀ ns, (heap ns).entries.Nodup
  unique : ∀ {ns ns' e}, e ∈ heap ns → e ∈ heap ns' → ns = ns'

namespace ReadyHeaps

variable {heap heap' : NamespaceId → MinHeap TimedTask}
variable {ready ready' : TaskId → Option TimestampMs} {namespaceId : NamespaceId}
variable {taskId : TaskId} {atMs : TimestampMs}

theorem congr (h : ReadyHeaps heap ready) (hready : ∀ t, ready' t = ready t) :
    ReadyHeaps heap ready' :=
  ⟨fun he => by rw [hready, h.sound he], h.nodup, h.unique⟩

/-- A task becomes ready. -/
theorem push (h : ReadyHeaps heap ready) (hfresh : ready taskId = none)
    (hready : Index.Updates ready ready' taskId (some atMs))
    (hheap : ∀ ns, heap' ns =
      if ns = namespaceId then (heap namespaceId).push ⟨atMs, taskId⟩ else heap ns) :
    ReadyHeaps heap' ready' := by
  have habsent : ∀ ns, (⟨atMs, taskId⟩ : TimedTask) ∉ heap ns := fun ns hmem => by
    simp [h.sound hmem] at hfresh
  have hmem : ∀ {ns e}, e ∈ heap' ns ↔
      (ns = namespaceId ∧ e = ⟨atMs, taskId⟩) ∨ e ∈ heap ns := by
    intro ns e
    rw [hheap ns]
    split_ifs with hns
    · rw [MinHeap.mem_push, hns]
      simp
    · simp [hns]
  refine ⟨?_, ?_, ?_⟩
  · intro ns e he
    rcases hmem.mp he with ⟨-, rfl⟩ | he
    · exact hready.at_key
    · have hne : e.taskId ≠ taskId := fun heq => by
        have := h.sound he
        rw [heq, hfresh] at this
        cases this
      rw [hready.of_ne hne]
      exact h.sound he
  · intro ns
    rw [hheap ns]
    split_ifs
    · exact MinHeap.nodup_push (h.nodup namespaceId) (habsent namespaceId)
    · exact h.nodup ns
  · intro ns ns' e he he'
    rcases hmem.mp he with ⟨rfl, rfl⟩ | he
    · rcases hmem.mp he' with ⟨rfl, -⟩ | he'
      · rfl
      · exact absurd he' (habsent ns')
    · rcases hmem.mp he' with ⟨-, rfl⟩ | he'
      · exact absurd he (habsent ns)
      · exact h.unique he he'

/-- A task without ready entries stops being ready. -/
theorem retire (h : ReadyHeaps heap ready) (habsent : ∀ ns e, e ∈ heap ns → e.taskId ≠ taskId)
    (hready : Index.Updates ready ready' taskId none) : ReadyHeaps heap ready' :=
  ⟨fun {ns e} he => by rw [hready.of_ne (habsent ns e he), h.sound he], h.nodup, h.unique⟩

/-- Entries are dropped. -/
theorem shrink (h : ReadyHeaps heap ready)
    (hsub : ∀ ns, (heap' ns).entries.Sublist (heap ns).entries) : ReadyHeaps heap' ready :=
  ⟨fun {ns _} he => h.sound ((hsub ns).subset he), fun ns => (h.nodup ns).sublist (hsub ns),
    fun {ns ns' _} he he' => h.unique ((hsub ns).subset he) ((hsub ns').subset he')⟩

end ReadyHeaps

/-! ## The invariant -/

namespace BrokerStateMachine

/-- All indexes but the member index are exact. -/
structure Core (m : BrokerStateMachine) : Prop where
  active : Index.Inverse m.activeLeaseTasks (m.state.tasks.attr Task.activeLeaseId)
  completed : Index.Listing m.completedTasks fun e =>
    m.state.tasks.attr Task.completedAt e.taskId = some e.atMs
  ready : ReadyHeaps m.readyHeap (m.state.tasks.attr Task.readyAt)
  taskCounts : m.state.tasks.Tally m.namespaceTaskCounts Task.namespaceId
  groupCounts : m.state.groups.Tally m.namespaceGroupCounts ConsumerGroup.namespaceId
  wellFormed : m.state.WellFormed

/-- All indexes are exact. -/
structure Indexed (m : BrokerStateMachine) : Prop extends Core m where
  member : Index.Grouping m.memberLeaseTasks (m.state.tasks.attr Task.memberKey)

theorem initial_indexed : Indexed initial where
  active i k := by simp [initial, BrokerState.initial, Registry.attr]
  completed := ⟨List.nodup_nil, fun e => by
    simp [initial, BrokerState.initial, Registry.attr]⟩
  ready := ⟨fun {ns e} he => absurd he (MinHeap.not_mem_empty e), fun _ => List.nodup_nil,
    fun {ns _ e} he => absurd he (MinHeap.not_mem_empty e)⟩
  taskCounts _ := rfl
  groupCounts _ := rfl
  wellFormed := ⟨Registry.Forall.empty, Registry.Forall.empty, Registry.Forall.empty⟩
  member := ⟨fun i k => by simp [initial, BrokerState.initial, Registry.attr, OrdMap.getD],
    fun i records h => by simp [initial] at h⟩

variable {m : BrokerStateMachine}

/-- The invariant does not read the term, the revision and the recorded changes. -/
theorem Indexed.frame (h : Indexed m) (term : Term) (revision : Revision)
    (changedNamespaces : OrdSet NamespaceId) (changedTasks deletedTasks : OrdSet TaskId)
    (changedGroups : OrdSet ConsumerGroupId) :
    Indexed { m with
      state := { m.state with term := term, revision := revision }
      changedNamespaces := changedNamespaces
      changedTasks := changedTasks
      deletedTasks := deletedTasks
      changedGroups := changedGroups } :=
  ⟨⟨h.active, h.completed, h.ready, h.taskCounts, h.groupCounts,
    ⟨h.wellFormed.namespaces, h.wellFormed.tasks, h.wellFormed.groups⟩⟩, h.member⟩

theorem Indexed.clearChanges (h : Indexed m) :
    Indexed m.clearChanges :=
  h.frame m.state.term m.state.revision ∅ ∅ ∅ ∅

/-! ## Updates of namespaces and groups -/

/-- A namespace is added. -/
def namespaceAdded (m : BrokerStateMachine) (ns : Namespace) (revision : Revision) :
    BrokerStateMachine :=
  { m with
    state := { m.state with namespaces := m.state.namespaces.put ns, revision := revision }
    changedNamespaces := OrdSet.add m.changedNamespaces ns.id }

/-- A group is added. -/
def groupAdded (m : BrokerStateMachine) (group : ConsumerGroup) (revision : Revision) :
    BrokerStateMachine :=
  { m with
    state := { m.state with groups := m.state.groups.put group, revision := revision }
    namespaceGroupCounts :=
      m.namespaceGroupCounts.insert group.namespaceId (m.groupCount group.namespaceId + 1)
    changedGroups := OrdSet.add m.changedGroups group.id }

/-- A group is replaced. -/
def groupPut (m : BrokerStateMachine) (group : ConsumerGroup) : BrokerStateMachine :=
  { m with state := { m.state with groups := m.state.groups.put group } }

theorem Indexed.addNamespace (h : Indexed m) {ns : Namespace} {revision : Revision}
    (hpos : 0 < ns.revision.get) : Indexed (m.namespaceAdded ns revision) := by
  -- Known namespaces stay known.
  have hknown : ∀ k, m.state.namespaces.get k ≠ none →
      (m.state.namespaces.put ns).get k ≠ none := by
    intro k hk
    rw [get_put]
    split_ifs
    · exact some_ne_none ns
    · exact hk
  have hwf := h.wellFormed
  refine ⟨⟨h.active, h.completed, h.ready, h.taskCounts, h.groupCounts, ?_⟩, h.member⟩
  exact ⟨hwf.namespaces.put hpos, hwf.tasks.imp fun task ht => ⟨ht.1, hknown _ ht.2⟩,
    hwf.groups.imp fun group hg => ⟨hg.1, hknown _ hg.2⟩⟩

theorem Indexed.addGroup (h : Indexed m) {group : ConsumerGroup} {revision : Revision}
    (hfresh : m.state.groups.get group.id = none) (hgroup : group.WellFormed)
    (hknown : m.state.namespaces.get group.namespaceId ≠ none) :
    Indexed (m.groupAdded group revision) := by
  exact ⟨⟨h.active, h.completed, h.ready, h.taskCounts, h.groupCounts.put_new hfresh,
    ⟨h.wellFormed.namespaces, h.wellFormed.tasks, h.wellFormed.groups.put ⟨hgroup, hknown⟩⟩⟩,
    h.member⟩

theorem Indexed.putGroup (h : Indexed m) {group group' : ConsumerGroup}
    (hget : m.state.groups.get group.id = some group) (hadv : group.Advances group') :
    Indexed (m.groupPut group') := by
  have hget' : m.state.groups.get group'.id = some group := by rw [hadv.id, hget]
  obtain ⟨hwf, hknown⟩ := h.wellFormed.groups hget
  exact ⟨⟨h.active, h.completed, h.ready, h.taskCounts,
    h.groupCounts.put_of_some hget' hadv.namespaceId,
    ⟨h.wellFormed.namespaces, h.wellFormed.tasks,
      h.wellFormed.groups.put ⟨hadv.wellFormed hwf, by rw [hadv.namespaceId]; exact hknown⟩⟩⟩,
    h.member⟩

/-! ## Updates of tasks -/

/-- A task is published. -/
def published (m : BrokerStateMachine) (task : Task) (revision : Revision) :
    BrokerStateMachine :=
  { m with
    state := { m.state with tasks := m.state.tasks.put task, revision := revision }
    namespaceTaskCounts :=
      m.namespaceTaskCounts.insert task.namespaceId (m.taskCount task.namespaceId + 1)
    readyTasks := m.readyTasks.updateD task.namespaceId ∅ (·.push ⟨task.createdAtMs, task.id⟩)
    changedTasks := OrdSet.add m.changedTasks task.id }

/-- A lease is taken back and its task made ready in `namespaceId`.  The member
index is left to the caller. -/
def requeued (m : BrokerStateMachine) (namespaceId : NamespaceId) (task : Task)
    (lease : LeasedTask) (revision : Revision) : BrokerStateMachine :=
  { m with
    state := { m.state with
      tasks := m.state.tasks.put (task.toQueued lease revision) }
    activeLeaseTasks := m.activeLeaseTasks.erase lease.leaseId
    readyTasks := m.readyTasks.updateD namespaceId ∅ (·.push ⟨task.createdAtMs, task.id⟩)
    changedTasks := OrdSet.add m.changedTasks task.id }

/-- A task is leased. -/
def leased (m : BrokerStateMachine) (namespaceId : NamespaceId) (task : Task)
    (lease : LeasedTask) (taskRevision revision : Revision) : BrokerStateMachine :=
  { m with
    state := { m.state with
      tasks := m.state.tasks.put (task.toLeased lease taskRevision)
      revision := revision }
    activeLeaseTasks := m.activeLeaseTasks.insert lease.leaseId task.id
    memberLeaseTasks := m.memberLeaseTasks.updateD ⟨lease.groupId, lease.ownerMemberId⟩ ∅
      (OrdSet.add · task.id)
    leaseExpirations := m.leaseExpirations.updateD namespaceId ∅
      (·.push ⟨lease.expiresAtMs, task.id, lease.leaseEpoch⟩)
    changedTasks := OrdSet.add m.changedTasks task.id }

/-- The expiry of a lease is moved. -/
def renewed (m : BrokerStateMachine) (task : Task) (lease : LeasedTask)
    (expiresAtMs : TimestampMs) (taskRevision revision : Revision) : BrokerStateMachine :=
  { m with
    state := { m.state with
      tasks := m.state.tasks.put
        (task.toLeased { lease with expiresAtMs := expiresAtMs } taskRevision)
      revision := revision }
    leaseExpirations := m.leaseExpirations.updateD task.namespaceId ∅
      (·.push ⟨expiresAtMs, task.id, lease.leaseEpoch⟩)
    changedTasks := OrdSet.add m.changedTasks task.id }

/-- A lease is completed. -/
def completed (m : BrokerStateMachine) (task : Task) (lease : LeasedTask) (result : TaskResult)
    (completedAtMs : TimestampMs) (taskRevision revision : Revision) : BrokerStateMachine :=
  { m with
    state := { m.state with
      tasks := m.state.tasks.put
        (task.toCompleted (lease.completed result completedAtMs) taskRevision)
      revision := revision }
    activeLeaseTasks := m.activeLeaseTasks.erase lease.leaseId
    memberLeaseTasks := removeMemberLeaseTask m.memberLeaseTasks
      ⟨lease.groupId, lease.ownerMemberId⟩ task.id
    completedTasks := m.completedTasks.push ⟨completedAtMs, task.id⟩
    changedTasks := OrdSet.add m.changedTasks task.id }

/-- A completed task is deleted; the completed heap is left to the caller. -/
def deleted (m : BrokerStateMachine) (task : Task) : BrokerStateMachine :=
  { m with
    state := { m.state with tasks := m.state.tasks.erase task.id }
    namespaceTaskCounts :=
      m.namespaceTaskCounts.insert task.namespaceId (m.taskCount task.namespaceId - 1)
    deletedTasks := OrdSet.add m.deletedTasks task.id }

/-- The machine with another completed heap. -/
def withCompleted (m : BrokerStateMachine) (heap : MinHeap TimedTask) : BrokerStateMachine :=
  { m with completedTasks := heap }

section TaskUpdates

variable {m : BrokerStateMachine} {task : Task} {lease : LeasedTask}

/-- An attribute that a replaced task keeps is kept by all tasks. -/
theorem attr_put_of_eq {β : Type} {h : Task → Option β} {tasks : Tasks} {task : Task}
    (task' : Task) (hget : tasks.get task'.id = some task) (heq : h task' = h task) (t : TaskId) :
    (tasks.put task').attr h t = tasks.attr h t :=
  (tasks.attr_put h task').eq_of_eq (by rw [attr_of_get hget, heq]) t

/-- An attribute that a new task does not have is kept by all tasks. -/
theorem attr_put_of_none {β : Type} {h : Task → Option β} {tasks : Tasks} {task' : Task}
    (hget : tasks.get task'.id = none) (heq : h task' = none) (t : TaskId) :
    (tasks.put task').attr h t = tasks.attr h t :=
  (tasks.attr_put h task').eq_of_eq (by rw [attr_of_none hget, heq]) t

theorem readyHeap_updateD (m : BrokerStateMachine) (namespaceId ns : NamespaceId)
    (f : MinHeap TimedTask → MinHeap TimedTask) :
    (m.readyTasks.updateD namespaceId ∅ f).getD ns ∅ =
      if ns = namespaceId then f (m.readyHeap namespaceId) else m.readyHeap ns :=
  OrdMap.getD_updateD _ _ _ _ _

/-- Counts and well-formedness after a task is replaced within its namespace. -/
theorem Core.replace (h : Core m) (task' : Task) (hget : m.state.tasks.get task'.id = some task)
    (hns : task'.namespaceId = task.namespaceId) (hpos : 0 < task'.revision.get) :
    (m.state.tasks.put task').Tally m.namespaceTaskCounts Task.namespaceId ∧
      ∀ revision, BrokerState.WellFormed
        { m.state with tasks := m.state.tasks.put task', revision := revision } := by
  refine ⟨h.taskCounts.put_of_some hget hns, fun revision => ?_⟩
  have hknown := (h.wellFormed.tasks hget).2
  exact ⟨h.wellFormed.namespaces, h.wellFormed.tasks.put ⟨hpos, by rw [hns]; exact hknown⟩,
    h.wellFormed.groups⟩

variable {revision taskRevision : Revision}

theorem Indexed.publish (h : Indexed m) (hfresh : m.state.tasks.get task.id = none)
    {queued : QueuedTask} (hstate : task.state = .queued queued) (hpos : 0 < task.revision.get)
    (hknown : m.state.namespaces.get task.namespaceId ≠ none) :
    Indexed (m.published task revision) := by
  have hlease : task.lease = none := by rw [Task.lease, hstate]
  have hactive := attr_put_of_none (h := Task.activeLeaseId) hfresh
    (by rw [Task.activeLeaseId, hlease, map_none])
  have hmember := attr_put_of_none (h := Task.memberKey) hfresh
    (by rw [Task.memberKey, hlease, map_none])
  have hcompleted := attr_put_of_none (h := Task.completedAt) hfresh
    (by rw [Task.completedAt, hstate])
  have hready : task.readyAt = some task.createdAtMs := by rw [Task.readyAt, hstate]
  refine ⟨⟨h.active.congr hactive, h.completed.congr fun e => by
    rw [BrokerStateMachine.published, hcompleted], ?_, h.taskCounts.put_new hfresh,
    h.groupCounts, ?_⟩, h.member.congr hmember⟩
  · refine h.ready.push (attr_of_none hfresh) ?_
      (fun ns => readyHeap_updateD m task.namespaceId ns _)
    have hput := m.state.tasks.attr_put Task.readyAt task
    rw [hready] at hput
    exact hput
  · exact ⟨h.wellFormed.namespaces, h.wellFormed.tasks.put ⟨hpos, hknown⟩, h.wellFormed.groups⟩

theorem Core.requeue (h : Core m) (namespaceId : NamespaceId)
    (hget : m.state.tasks.get task.id = some task) (hstate : task.state = .leased lease)
    (hpos : 0 < revision.get) : Core (m.requeued namespaceId task lease revision) := by
  obtain ⟨hcounts, hwf⟩ := h.replace (task.toQueued lease revision) hget rfl hpos
  have hcompleted := attr_put_of_eq (h := Task.completedAt) (task.toQueued lease revision)
    hget (by rw [Task.completedAt_of_leased hstate]; rfl)
  refine ⟨?_, h.completed.congr fun e => by rw [BrokerStateMachine.requeued, hcompleted],
    ?_, hcounts, h.groupCounts, hwf m.state.revision⟩
  · refine h.active.erase ?_ (m.state.tasks.attr_put Task.activeLeaseId _)
    exact (attr_of_get hget).trans (Task.activeLeaseId_of_leased hstate)
  · refine h.ready.push ?_ (m.state.tasks.attr_put Task.readyAt _)
      (fun ns => readyHeap_updateD m namespaceId ns _)
    exact (attr_of_get hget).trans (Task.readyAt_of_leased hstate)

theorem Indexed.requeue (h : Indexed m) (namespaceId : NamespaceId)
    (hget : m.state.tasks.get task.id = some task) (hstate : task.state = .leased lease)
    (hpos : 0 < revision.get) :
    Indexed { m.requeued namespaceId task lease revision with
      memberLeaseTasks := removeMemberLeaseTask m.memberLeaseTasks
        ⟨lease.groupId, lease.ownerMemberId⟩ task.id } := by
  have hcore := h.toCore.requeue namespaceId hget hstate hpos
  refine ⟨⟨hcore.active, hcore.completed, hcore.ready, hcore.taskCounts, hcore.groupCounts,
    hcore.wellFormed⟩, ?_⟩
  refine h.member.remove ?_ (m.state.tasks.attr_put Task.memberKey _)
  exact (attr_of_get hget).trans (Task.memberKey_of_leased hstate)

theorem Indexed.grant (h : Indexed m) (namespaceId : NamespaceId) {queued : QueuedTask}
    (hget : m.state.tasks.get task.id = some task) (hstate : task.state = .queued queued)
    (hfresh : m.activeLeaseTasks.get lease.leaseId = none)
    (hnotReady : ∀ ns e, e ∈ m.readyHeap ns → e.taskId ≠ task.id) (hpos : 0 < taskRevision.get) :
    Indexed (m.leased namespaceId task lease taskRevision revision) := by
  obtain ⟨hcounts, hwf⟩ := h.replace (task.toLeased lease taskRevision) hget rfl hpos
  have hlease : task.lease = none := by rw [Task.lease, hstate]
  have hcompleted := attr_put_of_eq (h := Task.completedAt) (task.toLeased lease taskRevision)
    hget (by rw [Task.completedAt, Task.completedAt, hstate]; rfl)
  refine ⟨⟨?_, h.completed.congr fun e => by rw [BrokerStateMachine.leased, hcompleted],
    ?_, hcounts, h.groupCounts, hwf revision⟩, ?_⟩
  · refine h.active.insert hfresh ?_ (m.state.tasks.attr_put Task.activeLeaseId _)
    exact (attr_of_get hget).trans (by rw [Task.activeLeaseId, hlease, map_none])
  · exact h.ready.retire hnotReady (m.state.tasks.attr_put Task.readyAt _)
  · refine h.member.add ?_ (m.state.tasks.attr_put Task.memberKey _)
    exact (attr_of_get hget).trans (by rw [Task.memberKey, hlease, map_none])

theorem Indexed.renew (h : Indexed m) (expiresAtMs : TimestampMs)
    (hget : m.state.tasks.get task.id = some task) (hstate : task.state = .leased lease)
    (hpos : 0 < taskRevision.get) :
    Indexed (m.renewed task lease expiresAtMs taskRevision revision) := by
  obtain ⟨hcounts, hwf⟩ := h.replace
    (task.toLeased { lease with expiresAtMs := expiresAtMs } taskRevision) hget rfl hpos
  have hkeep : ∀ {β : Type} {attr : Task → Option β},
      attr (task.toLeased { lease with expiresAtMs := expiresAtMs } taskRevision) = attr task →
      ∀ t, (m.renewed task lease expiresAtMs taskRevision revision).state.tasks.attr attr t =
        m.state.tasks.attr attr t := by
    intro β attr heq t
    exact attr_put_of_eq
      (task.toLeased { lease with expiresAtMs := expiresAtMs } taskRevision) hget heq t
  refine ⟨⟨h.active.congr (hkeep ?_), h.completed.congr fun e => ?_, h.ready.congr (hkeep ?_),
    hcounts, h.groupCounts, hwf revision⟩, h.member.congr (hkeep ?_)⟩
  · rw [Task.activeLeaseId_of_leased hstate]
    rfl
  · rw [hkeep]
    rw [Task.completedAt_of_leased hstate]
    rfl
  · rw [Task.readyAt_of_leased hstate]
    rfl
  · rw [Task.memberKey_of_leased hstate]
    rfl

theorem Indexed.complete (h : Indexed m) (result : TaskResult) (completedAtMs : TimestampMs)
    (hget : m.state.tasks.get task.id = some task) (hstate : task.state = .leased lease)
    (hpos : 0 < taskRevision.get) :
    Indexed (m.completed task lease result completedAtMs taskRevision revision) := by
  obtain ⟨hcounts, hwf⟩ := h.replace
    (task.toCompleted (lease.completed result completedAtMs) taskRevision) hget rfl hpos
  have hready := attr_put_of_eq (h := Task.readyAt)
    (task.toCompleted (lease.completed result completedAtMs) taskRevision)
    hget (by rw [Task.readyAt_of_leased hstate]; rfl)
  refine ⟨⟨?_, ?_, h.ready.congr hready, hcounts, h.groupCounts, hwf revision⟩, ?_⟩
  · refine h.active.erase ?_ (m.state.tasks.attr_put Task.activeLeaseId _)
    exact (attr_of_get hget).trans (Task.activeLeaseId_of_leased hstate)
  · have hbefore : m.state.tasks.attr Task.completedAt task.id = none := by
      rw [attr_of_get hget, Task.completedAt_of_leased hstate]
    have hput := m.state.tasks.attr_put Task.completedAt
      (task.toCompleted (lease.completed result completedAtMs) taskRevision)
    refine h.completed.push (by rw [hbefore]; simp) fun e => ?_
    by_cases he : e.taskId = task.id
    · have hafter : (m.completed task lease result completedAtMs taskRevision
          revision).state.tasks.attr Task.completedAt e.taskId = some completedAtMs := by
        rw [he]
        exact hput.at_key
      rw [hafter, he, hbefore]
      obtain ⟨atMs, taskId⟩ := e
      cases he
      simp [eq_comm]
    · have hafter : (m.completed task lease result completedAtMs taskRevision
          revision).state.tasks.attr Task.completedAt e.taskId =
            m.state.tasks.attr Task.completedAt e.taskId := hput.of_ne he
      have hne : e ≠ ⟨completedAtMs, task.id⟩ := fun heq => he (by rw [heq])
      rw [hafter]
      simp [hne]
  · refine h.member.remove ?_ (m.state.tasks.attr_put Task.memberKey _)
    exact (attr_of_get hget).trans (Task.memberKey_of_leased hstate)

/-- The task at the head of the completed heap is deleted and its entry popped. -/
theorem Indexed.delete {e : TimedTask} {rest : List TimedTask}
    {hsorted : (e :: rest).Pairwise (· ≤ ·)} {hrest : rest.Pairwise (· ≤ ·)}
    (h : Indexed (m.withCompleted ⟨e :: rest, hsorted⟩))
    (hget : m.state.tasks.get task.id = some task) (hid : e.taskId = task.id) :
    Indexed ((m.deleted task).withCompleted ⟨rest, hrest⟩) := by
  have hcompleted : m.state.tasks.attr Task.completedAt e.taskId = some e.atMs :=
    (h.completed.mem_iff e).mp List.mem_cons_self
  obtain ⟨payload, hstate, hatMs⟩ := Task.completedAt_eq_some_iff.mp
    ((attr_of_get (by rw [hid, hget])).symm.trans hcompleted)
  have hlease : task.lease = none := by rw [Task.lease, hstate]
  have hready : task.readyAt = none := by rw [Task.readyAt, hstate]
  -- A completed task has no other attribute to lose.
  have hkeep : ∀ {β : Type} {attr : Task → Option β}, attr task = none →
      ∀ t, (m.state.tasks.erase task.id).attr attr t = m.state.tasks.attr attr t := by
    intro β attr hnone t
    refine (m.state.tasks.attr_erase attr task.id).eq_of_eq ?_ t
    rw [attr_of_get hget, hnone]
  refine ⟨⟨h.active.congr (hkeep ?_), h.completed.pop fun b => ?_, h.ready.congr (hkeep hready),
    h.taskCounts.erase hget, h.groupCounts, ?_⟩, h.member.congr (hkeep ?_)⟩
  · rw [Task.activeLeaseId, hlease, map_none]
  · have herase := m.state.tasks.attr_erase Task.completedAt task.id
    show (m.state.tasks.erase task.id).attr Task.completedAt b.taskId = some b.atMs ↔
      b ≠ e ∧ m.state.tasks.attr Task.completedAt b.taskId = some b.atMs
    by_cases hb : b.taskId = task.id
    · rw [hb, herase.at_key, ← hid, hcompleted]
      obtain ⟨atMs, taskId⟩ := b
      obtain ⟨atMs', taskId'⟩ := e
      dsimp only at hb hid
      subst hid
      subst hb
      simp [eq_comm]
    · rw [herase.of_ne hb]
      have hne : b ≠ e := fun heq => hb (by rw [heq, hid])
      simp [hne]
  · exact ⟨h.wellFormed.namespaces, h.wellFormed.tasks.erase task.id, h.wellFormed.groups⟩
  · rw [Task.memberKey, hlease, map_none]

end TaskUpdates

end BrokerStateMachine

end AgentBroker
