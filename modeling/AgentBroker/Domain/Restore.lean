import AgentBroker.Domain.Steps

/-!
# Restoring a checkpoint

`from_checkpoint` reads the records of a checkpoint back, one by one and with
checks, and rebuilds every index from the tasks and groups it read.

## Main results

* `restoreState_checkpoint` — a well-formed state is read back as it was.
* `fromCheckpoint_checkpoint` — restoring the checkpoint of a machine with exact
  indexes succeeds, and gives the same state with exact and complete indexes.
-/

namespace AgentBroker

open Except Registry List

/-- The indexes `from_checkpoint` rebuilds. -/
structure RestoredIndexes where
  readyTasks : OrdMap NamespaceId (MinHeap TimedTask)
  leaseExpirations : OrdMap NamespaceId (MinHeap LeaseExpiration)
  activeLeaseTasks : OrdMap LeaseId TaskId
  memberLeaseTasks : OrdMap MemberKey (OrdSet TaskId)
  completedTasks : MinHeap TimedTask
  namespaceTaskCounts : OrdMap NamespaceId Nat
  namespaceGroupCounts : OrdMap NamespaceId Nat

namespace BrokerStateMachine

/-! ## Reading the records -/

/-- `require_positive_revision`. -/
def requirePositiveRevision (entity : String) (revision : Revision) :
    Except CheckpointError Unit :=
  .require (revision.get ≠ 0) (.zeroEntityRevision entity)

/-- The namespace of a record must have been read. -/
def requireKnownNamespace (state : BrokerState) (entity : String) (namespaceId : NamespaceId) :
    Except CheckpointError Unit :=
  .require (state.namespaces.get namespaceId ≠ none) (.unknownNamespace entity namespaceId)

/-- `restore_namespace`. -/
def restoreNamespace (state : BrokerState) (checkpoint : NamespaceCheckpoint) :
    Except CheckpointError BrokerState := do
  requirePositiveRevision "namespace" checkpoint.revision
  let namespaces ← state.namespaces.putFresh CheckpointError.duplicateNamespace
    (Namespace.fromCheckpoint checkpoint)
  return { state with namespaces := namespaces }

/-- `restore_group`. -/
def restoreGroup (state : BrokerState) (checkpoint : ConsumerGroupCheckpoint) :
    Except CheckpointError BrokerState := do
  requirePositiveRevision "Consumer Group" checkpoint.revision
  forM checkpoint.members fun member => requirePositiveRevision "member" member.revision
  requireKnownNamespace state "Consumer Group" checkpoint.namespaceId
  let group ← ConsumerGroup.fromCheckpoint checkpoint
  let groups ← state.groups.putFresh CheckpointError.duplicateConsumerGroup group
  return { state with groups := groups }

/-- `restore_task`. -/
def restoreTask (state : BrokerState) (checkpoint : TaskCheckpoint) :
    Except CheckpointError BrokerState := do
  requirePositiveRevision "task" checkpoint.revision
  requireKnownNamespace state "task" checkpoint.namespaceId
  let tasks ← state.tasks.putFresh CheckpointError.duplicateTask
    (Task.fromCheckpoint checkpoint)
  return { state with tasks := tasks }

/-- `restore_state`: namespaces first, then groups, then tasks. -/
def restoreState (checkpoint : BrokerCheckpoint) : Except CheckpointError BrokerState := do
  let state ← checkpoint.namespaces.foldlM restoreNamespace
    ⟨checkpoint.term, checkpoint.revision, ∅, ∅, ∅⟩
  let state ← checkpoint.groups.foldlM restoreGroup state
  checkpoint.tasks.foldlM restoreTask state

/-! ## Rebuilding the indexes -/

/-- `RestoredIndexes::default`. -/
def emptyIndexes : RestoredIndexes where
  readyTasks := ∅
  leaseExpirations := ∅
  activeLeaseTasks := ∅
  memberLeaseTasks := ∅
  completedTasks := ∅
  namespaceTaskCounts := ∅
  namespaceGroupCounts := ∅

/-- `rebuild_task_indexes`. -/
def rebuildTaskIndexes (indexes : RestoredIndexes) (task : Task) :
    Except CheckpointError RestoredIndexes :=
  match task.state with
  | .queued _ =>
    .ok { indexes with
      readyTasks := indexes.readyTasks.updateD task.namespaceId ∅
        (·.push ⟨task.createdAtMs, task.id⟩) }
  | .leased lease => do
      Except.require (indexes.activeLeaseTasks.get lease.leaseId = none)
        (CheckpointError.duplicateActiveLease lease.leaseId)
      return { indexes with
        activeLeaseTasks := indexes.activeLeaseTasks.insert lease.leaseId task.id
        memberLeaseTasks := indexes.memberLeaseTasks.updateD
          ⟨lease.groupId, lease.ownerMemberId⟩ ∅ (OrdSet.add · task.id)
        leaseExpirations := indexes.leaseExpirations.updateD task.namespaceId ∅
          (·.push ⟨lease.expiresAtMs, task.id, lease.leaseEpoch⟩) }
  | .completed completed =>
    .ok { indexes with
      completedTasks := indexes.completedTasks.push ⟨completed.completedAtMs, task.id⟩ }

/-- One round of the first loop of `rebuild_indexes`. -/
def countGroup (indexes : RestoredIndexes) (group : ConsumerGroup) : RestoredIndexes :=
  { indexes with
    namespaceGroupCounts := indexes.namespaceGroupCounts.updateD group.namespaceId 0 (· + 1) }

/-- One round of the second loop of `rebuild_indexes`. -/
def indexTask (indexes : RestoredIndexes) (task : Task) :
    Except CheckpointError RestoredIndexes :=
  rebuildTaskIndexes { indexes with
    namespaceTaskCounts := indexes.namespaceTaskCounts.updateD task.namespaceId 0 (· + 1) } task

/-- `rebuild_indexes`. -/
def rebuildIndexes (state : BrokerState) : Except CheckpointError RestoredIndexes :=
  state.tasks.values.foldlM indexTask (state.groups.values.foldl countGroup emptyIndexes)

/-- The machine with the given state and indexes and no recorded changes. -/
def ofIndexes (state : BrokerState) (indexes : RestoredIndexes) : BrokerStateMachine where
  state := state
  readyTasks := indexes.readyTasks
  leaseExpirations := indexes.leaseExpirations
  activeLeaseTasks := indexes.activeLeaseTasks
  memberLeaseTasks := indexes.memberLeaseTasks
  completedTasks := indexes.completedTasks
  namespaceTaskCounts := indexes.namespaceTaskCounts
  namespaceGroupCounts := indexes.namespaceGroupCounts
  changedNamespaces := ∅
  changedTasks := ∅
  deletedTasks := ∅
  changedGroups := ∅

/-- `from_checkpoint`. -/
def fromCheckpoint (checkpoint : BrokerCheckpoint) :
    Except CheckpointError BrokerStateMachine := do
  let state ← restoreState checkpoint
  let indexes ← rebuildIndexes state
  return ofIndexes state indexes

/-! ## The records of a well-formed state -/

variable {revision : Revision} {state state' : BrokerState} {term : Term}
  {namespaces : Namespaces}

theorem requirePositiveRevision_of_pos (entity : String) (h : 0 < revision.get) :
    requirePositiveRevision entity revision = .ok () :=
  require_pos (Nat.ne_of_gt h)

theorem requireKnownNamespace_of_get (entity : String) {namespaceId : NamespaceId}
    (h : state.namespaces.get namespaceId ≠ none) :
    requireKnownNamespace state entity namespaceId = .ok () :=
  require_pos h

theorem restoreNamespaces_eq (hpos : namespaces.Forall fun ns => 0 < ns.revision.get) :
    (namespaces.values.map Namespace.checkpoint).foldlM restoreNamespace
      ⟨term, revision, ∅, ∅, ∅⟩ = .ok ⟨term, revision, namespaces, ∅, ∅⟩ := by
  have hread := foldlM_eq_ok_putAll (f := restoreNamespace) Namespace.checkpoint
    (fun namespaces => ⟨term, revision, namespaces, ∅, ∅⟩) namespaces.values ∅
    namespaces.fresh_values ?_
  · rwa [putAll_values] at hread
  · intro r ns hns hfresh
    have hns := requirePositiveRevision_of_pos "namespace" (hpos (Registry.mem_values.mp hns))
    refine bind_eq_ok_iff.mpr ⟨_, hns, ?_⟩
    exact bind_eq_ok_iff.mpr ⟨_, putFresh_of_none hfresh, rfl⟩

/-- A group is read back as it was. -/
theorem fromCheckpoint_group (group : ConsumerGroup) :
    ConsumerGroup.fromCheckpoint group.checkpoint = .ok group := by
  have hread := foldlM_eq_ok_putAll
    (f := fun consumers member => consumers.putFresh CheckpointError.duplicateMember
      (Consumer.fromCheckpoint member)) Consumer.checkpoint
    (fun consumers => consumers) group.consumers.values ∅ group.consumers.fresh_values
    fun r member _ hfresh => putFresh_of_none hfresh
  rw [putAll_values] at hread
  exact bind_eq_ok_iff.mpr ⟨_, hread, rfl⟩

theorem restoreGroups_eq {groups : ConsumerGroups}
    (hgroups : groups.Forall fun group =>
      group.WellFormed ∧ namespaces.get group.namespaceId ≠ none) :
    (groups.values.map ConsumerGroup.checkpoint).foldlM restoreGroup
      ⟨term, revision, namespaces, ∅, ∅⟩ = .ok ⟨term, revision, namespaces, ∅, groups⟩ := by
  have hread := foldlM_eq_ok_putAll (f := restoreGroup) ConsumerGroup.checkpoint
    (fun groups => ⟨term, revision, namespaces, ∅, groups⟩) groups.values ∅
    groups.fresh_values ?_
  · rwa [putAll_values] at hread
  · intro r group hmem hfresh
    obtain ⟨hwf, hknown⟩ := hgroups (Registry.mem_values.mp hmem)
    refine bind_eq_ok_iff.mpr ⟨_, requirePositiveRevision_of_pos _ hwf.revision_pos, ?_⟩
    refine bind_eq_ok_iff.mpr ⟨(), forM_eq_ok_iff.mpr ?_, ?_⟩
    · intro member hmember
      obtain ⟨consumer, hconsumer, rfl⟩ := List.mem_map.mp hmember
      exact requirePositiveRevision_of_pos _ (hwf.member_pos (Registry.mem_values.mp hconsumer))
    · refine bind_eq_ok_iff.mpr ⟨_, requireKnownNamespace_of_get _ hknown, ?_⟩
      refine bind_eq_ok_iff.mpr ⟨_, fromCheckpoint_group group, ?_⟩
      exact bind_eq_ok_iff.mpr ⟨_, putFresh_of_none hfresh, rfl⟩

theorem restoreTasks_eq {tasks : Tasks} {groups : ConsumerGroups}
    (htasks : tasks.Forall fun task =>
      0 < task.revision.get ∧ namespaces.get task.namespaceId ≠ none) :
    (tasks.values.map Task.checkpoint).foldlM restoreTask
      ⟨term, revision, namespaces, ∅, groups⟩ =
        .ok ⟨term, revision, namespaces, tasks, groups⟩ := by
  have hread := foldlM_eq_ok_putAll (f := restoreTask) Task.checkpoint
    (fun tasks => ⟨term, revision, namespaces, tasks, groups⟩) tasks.values ∅
    tasks.fresh_values ?_
  · rwa [putAll_values] at hread
  · intro r task hmem hfresh
    obtain ⟨hpos, hknown⟩ := htasks (Registry.mem_values.mp hmem)
    have hput : r.putFresh CheckpointError.duplicateTask (Task.fromCheckpoint task.checkpoint) =
        .ok (r.put task) := by
      rw [Task.fromCheckpoint_checkpoint]
      exact putFresh_of_none hfresh
    refine bind_eq_ok_iff.mpr ⟨_, requirePositiveRevision_of_pos _ hpos, ?_⟩
    refine bind_eq_ok_iff.mpr ⟨_, requireKnownNamespace_of_get _ hknown, ?_⟩
    exact bind_eq_ok_iff.mpr ⟨_, hput, rfl⟩

/-- **A well-formed state is read back as it was.** -/
theorem restoreState_checkpoint (h : state.WellFormed) :
    restoreState state.checkpoint = .ok state := by
  refine bind_eq_ok_iff.mpr ⟨_, restoreNamespaces_eq h.namespaces, ?_⟩
  exact bind_eq_ok_iff.mpr ⟨_, restoreGroups_eq h.groups, restoreTasks_eq h.tasks⟩

/-! ## Complete heaps -/

/-- The task has its entry in the ready or the expiration heap of its namespace. -/
def Entered (m : BrokerStateMachine) (task : Task) : Prop :=
  match task.state with
  | .queued _ => ⟨task.createdAtMs, task.id⟩ ∈ m.readyHeap task.namespaceId
  | .leased lease =>
    ⟨lease.expiresAtMs, task.id, lease.leaseEpoch⟩ ∈ m.expirationHeap task.namespaceId
  | .completed _ => True

/-- Every queued task can be claimed and every lease can expire, in the namespace of
the task. -/
def Complete (m : BrokerStateMachine) : Prop := m.state.tasks.Forall m.Entered

variable {m m' : BrokerStateMachine} {task : Task}

theorem Entered.mono (h : m.Entered task)
    (hready : ∀ ns e, e ∈ m.readyHeap ns → e ∈ m'.readyHeap ns)
    (hexpirations : ∀ ns e, e ∈ m.expirationHeap ns → e ∈ m'.expirationHeap ns) :
    m'.Entered task := by
  unfold Entered at h ⊢
  cases hstate : task.state with
  | queued =>
    rw [hstate] at h
    exact hready _ _ h
  | leased =>
    rw [hstate] at h
    exact hexpirations _ _ h
  | completed => trivial

theorem initial_complete : Complete initial := Registry.Forall.empty

/-- Every expiration entry names the current lease of a task of its namespace. -/
def Current (m : BrokerStateMachine) : Prop :=
  ∀ ns e, e ∈ m.expirationHeap ns → ∃ task lease, m.state.tasks.get e.taskId = some task ∧
    task.namespaceId = ns ∧ task.state = .leased lease ∧
    e = ⟨lease.expiresAtMs, task.id, lease.leaseEpoch⟩

/-- Entries stay current when other tasks are put. -/
theorem Current.put (h : Current m) (hfresh : m.state.tasks.get task.id = none)
    (htasks : m'.state.tasks = m.state.tasks.put task)
    (hexpirations : ∀ ns e, e ∈ m'.expirationHeap ns → e ∈ m.expirationHeap ns ∨
      ∃ lease, task.namespaceId = ns ∧ task.state = .leased lease ∧
        e = ⟨lease.expiresAtMs, task.id, lease.leaseEpoch⟩) : Current m' := by
  intro ns e he
  rw [htasks]
  rcases hexpirations ns e he with hold | ⟨lease, hns, hstate, rfl⟩
  · obtain ⟨other, lease, hget, hother⟩ := h ns e hold
    have hne : e.taskId ≠ task.id := fun heq => by
      rw [heq, hfresh] at hget
      cases hget
    exact ⟨other, lease, by rw [get_put_of_ne _ hne, hget], hother⟩
  · exact ⟨task, lease, get_put_self _ _, hns, hstate, rfl⟩

/-! ## The rebuilt indexes -/

/-- A leased task is added, with a lease id that is not active. -/
def leasedAdded (m : BrokerStateMachine) (task : Task) (lease : LeasedTask) :
    BrokerStateMachine :=
  { m with
    state := { m.state with tasks := m.state.tasks.put task }
    namespaceTaskCounts := m.namespaceTaskCounts.updateD task.namespaceId 0 (· + 1)
    activeLeaseTasks := m.activeLeaseTasks.insert lease.leaseId task.id
    memberLeaseTasks := m.memberLeaseTasks.updateD ⟨lease.groupId, lease.ownerMemberId⟩ ∅
      (OrdSet.add · task.id)
    leaseExpirations := m.leaseExpirations.updateD task.namespaceId ∅
      (·.push ⟨lease.expiresAtMs, task.id, lease.leaseEpoch⟩) }

/-- A completed task is added. -/
def completedAdded (m : BrokerStateMachine) (task : Task) (payload : CompletedTask) :
    BrokerStateMachine :=
  { m with
    state := { m.state with tasks := m.state.tasks.put task }
    namespaceTaskCounts := m.namespaceTaskCounts.updateD task.namespaceId 0 (· + 1)
    completedTasks := m.completedTasks.push ⟨payload.completedAtMs, task.id⟩ }

/-- An attribute that a new task has. -/
theorem attr_put_some {β : Type} {h : Task → Option β} {b : β} (tasks : Tasks) {task : Task}
    (hb : h task = some b) :
    Index.Updates (tasks.attr h) ((tasks.put task).attr h) task.id (some b) := by
  rw [← hb]
  exact tasks.attr_put h task

theorem Indexed.addLeased (h : Indexed m) {lease : LeasedTask}
    (hfresh : m.state.tasks.get task.id = none) (hstate : task.state = .leased lease)
    (hlease : m.activeLeaseTasks.get lease.leaseId = none) (hpos : 0 < task.revision.get)
    (hknown : m.state.namespaces.get task.namespaceId ≠ none) :
    Indexed (m.leasedAdded task lease) := by
  have hcompleted := attr_put_of_none (h := Task.completedAt) hfresh
    (Task.completedAt_of_leased hstate)
  have hready := attr_put_of_none (h := Task.readyAt) hfresh (Task.readyAt_of_leased hstate)
  refine ⟨⟨?_, h.completed.congr fun e => by rw [leasedAdded, hcompleted],
    h.ready.congr hready, h.taskCounts.put_new hfresh, h.groupCounts, ?_⟩, ?_⟩
  · exact h.active.insert hlease (attr_of_none hfresh)
      (attr_put_some m.state.tasks (Task.activeLeaseId_of_leased hstate))
  · exact ⟨h.wellFormed.namespaces, h.wellFormed.tasks.put ⟨hpos, hknown⟩, h.wellFormed.groups⟩
  · exact h.member.add (attr_of_none hfresh)
      (attr_put_some m.state.tasks (Task.memberKey_of_leased hstate))

theorem Indexed.addCompleted (h : Indexed m) {payload : CompletedTask}
    (hfresh : m.state.tasks.get task.id = none) (hstate : task.state = .completed payload)
    (hpos : 0 < task.revision.get) (hknown : m.state.namespaces.get task.namespaceId ≠ none) :
    Indexed (m.completedAdded task payload) := by
  have hlease : task.lease = none := by rw [Task.lease, hstate]
  have hat : task.completedAt = some payload.completedAtMs := by rw [Task.completedAt, hstate]
  have hactive := attr_put_of_none (h := Task.activeLeaseId) hfresh
    (by rw [Task.activeLeaseId, hlease, Option.map_none])
  have hmember := attr_put_of_none (h := Task.memberKey) hfresh
    (by rw [Task.memberKey, hlease, Option.map_none])
  have hready := attr_put_of_none (h := Task.readyAt) hfresh (by rw [Task.readyAt, hstate])
  have hbefore : m.state.tasks.attr Task.completedAt task.id = none :=
    attr_of_none hfresh
  have hput := attr_put_some m.state.tasks hat
  refine ⟨⟨h.active.congr hactive, ?_, h.ready.congr hready, h.taskCounts.put_new hfresh,
    h.groupCounts, ?_⟩, h.member.congr hmember⟩
  · refine h.completed.push (by rw [hbefore]; simp) fun e => ?_
    show (m.state.tasks.put task).attr Task.completedAt e.taskId = some e.atMs ↔ _
    by_cases he : e.taskId = task.id
    · rw [he, hput.at_key, hbefore]
      obtain ⟨atMs, taskId⟩ := e
      cases he
      simp [eq_comm]
    · have hne : e ≠ ⟨payload.completedAtMs, task.id⟩ := fun heq => he (by rw [heq])
      rw [hput.of_ne he]
      simp [hne]
  · exact ⟨h.wellFormed.namespaces, h.wellFormed.tasks.put ⟨hpos, hknown⟩, h.wellFormed.groups⟩

/-- A task that is put with its entry joins the others, if no entry is lost. -/
theorem Complete.put (h : Complete m) (htasks : m'.state.tasks = m.state.tasks.put task)
    (hready : ∀ ns e, e ∈ m.readyHeap ns → e ∈ m'.readyHeap ns)
    (hexpirations : ∀ ns e, e ∈ m.expirationHeap ns → e ∈ m'.expirationHeap ns)
    (htask : m'.Entered task) : Complete m' := by
  unfold Complete
  rw [htasks]
  exact (h.imp fun other hother => hother.mono hready hexpirations).put htask

/-- One round over the tasks keeps the indexes exact and complete. -/
theorem indexTask_ok {indexes : RestoredIndexes} (h : Indexed (ofIndexes state indexes))
    (hcomplete : Complete (ofIndexes state indexes)) (hcurrent : Current (ofIndexes state indexes))
    (hfresh : state.tasks.get task.id = none) (hpos : 0 < task.revision.get)
    (hknown : state.namespaces.get task.namespaceId ≠ none)
    (hlease : ∀ lease, task.state = .leased lease →
      indexes.activeLeaseTasks.get lease.leaseId = none) :
    ∃ indexes', indexTask indexes task = .ok indexes' ∧
      Indexed (ofIndexes { state with tasks := state.tasks.put task } indexes') ∧
      Complete (ofIndexes { state with tasks := state.tasks.put task } indexes') ∧
      Current (ofIndexes { state with tasks := state.tasks.put task } indexes') := by
  unfold indexTask rebuildTaskIndexes
  cases hstate : task.state with
  | queued queued =>
    refine ⟨_, rfl, ?_, hcomplete.put rfl (fun ns e he => ?_) (fun ns e he => he) ?_,
      hcurrent.put hfresh rfl fun ns e he => Or.inl he⟩
    · -- Restoring a queued task has the effect of publishing it.
      have hpublished : Indexed ((ofIndexes state indexes).published task state.revision) :=
        h.publish hfresh hstate hpos hknown
      exact hpublished.frame state.term state.revision ∅ ∅ ∅ ∅
    · exact Index.mem_getD_push.mpr (Or.inr he)
    · unfold Entered
      rw [hstate]
      exact Index.mem_getD_push.mpr (Or.inl ⟨rfl, rfl⟩)
  | leased lease =>
    have hactive := hlease lease hstate
    refine ⟨_, bind_eq_ok_iff.mpr ⟨_, require_pos hactive, rfl⟩, ?_, ?_, ?_⟩
    · exact h.addLeased hfresh hstate hactive hpos hknown
    · refine hcomplete.put rfl (fun ns e he => he) (fun ns e he => ?_) ?_
      · exact Index.mem_getD_push.mpr (Or.inr he)
      · unfold Entered
        rw [hstate]
        exact Index.mem_getD_push.mpr (Or.inl ⟨rfl, rfl⟩)
    · refine hcurrent.put hfresh rfl fun ns e he => ?_
      rcases Index.mem_getD_push.mp he with ⟨rfl, rfl⟩ | hold
      · exact Or.inr ⟨lease, rfl, hstate, rfl⟩
      · exact Or.inl hold
  | completed =>
    refine ⟨_, rfl, h.addCompleted hfresh hstate hpos hknown, ?_,
      hcurrent.put hfresh rfl fun ns e he => Or.inl he⟩
    refine hcomplete.put rfl (fun ns e he => he) (fun ns e he => he) ?_
    unfold Entered
    rw [hstate]
    trivial

/-- The first loop only counts. -/
theorem foldl_countGroup (groups : List ConsumerGroup) :
    groups.foldl countGroup emptyIndexes = { emptyIndexes with
      namespaceGroupCounts := groups.foldl
        (fun counts group => counts.updateD group.namespaceId 0 (· + 1)) ∅ } :=
  foldl_hom (fun counts => ({ emptyIndexes with
    namespaceGroupCounts := counts } : RestoredIndexes)) fun _ _ => rfl

/-- The indexes before any task is read: only the groups are counted. -/
theorem indexed_without_tasks (h : state.WellFormed) :
    Indexed (ofIndexes { state with tasks := ∅ }
      (state.groups.values.foldl countGroup emptyIndexes)) := by
  have hcounts : (∅ : ConsumerGroups).Tally (∅ : OrdMap NamespaceId Nat)
      ConsumerGroup.namespaceId := fun _ => rfl
  have htally := hcounts.putAll state.groups.fresh_values
  rw [putAll_values] at htally
  rw [foldl_countGroup]
  have hinit := initial_indexed
  exact ⟨⟨hinit.active, hinit.completed, hinit.ready, hinit.taskCounts, htally,
    ⟨h.namespaces, Registry.Forall.empty, h.groups⟩⟩, hinit.member⟩

theorem current_without_tasks (state : BrokerState) :
    Current (ofIndexes { state with tasks := ∅ }
      (state.groups.values.foldl countGroup emptyIndexes)) := by
  rw [foldl_countGroup]
  intro ns e he
  exact absurd he (MinHeap.not_mem_empty e)

/-- The indexes describe `tasks`, those read so far, and `rest` is still to be read. -/
structure ReadSoFar (state : BrokerState) (tasks : Tasks) (rest : List Task)
    (indexes : RestoredIndexes) : Prop where
  all : tasks.putAll rest = state.tasks
  fresh : tasks.Fresh rest
  indexed : Indexed (ofIndexes { state with tasks := tasks } indexes)
  complete : Complete (ofIndexes { state with tasks := tasks } indexes)
  current : Current (ofIndexes { state with tasks := tasks } indexes)

namespace ReadSoFar

variable {state : BrokerState} {tasks : Tasks} {rest : List Task} {indexes : RestoredIndexes}

theorem start (h : state.WellFormed) : ReadSoFar state ∅ state.tasks.values
    (state.groups.values.foldl countGroup emptyIndexes) where
  all := putAll_values _
  fresh := fresh_values _
  indexed := indexed_without_tasks h
  complete := Registry.Forall.empty
  current := current_without_tasks state

theorem get (h : ReadSoFar state tasks (task :: rest) indexes) :
    state.tasks.get task.id = some task := by
  rw [← h.all]
  exact get_putAll_of_mem _ _ h.fresh.nodup mem_cons_self

/-- The next task is read. -/
theorem next (h : ReadSoFar state tasks (task :: rest) indexes) (hwf : state.WellFormed)
    (hlease : ∀ lease, task.state = .leased lease →
      indexes.activeLeaseTasks.get lease.leaseId = none) :
    ∃ indexes', indexTask indexes task = .ok indexes' ∧
      ReadSoFar state (tasks.put task) rest indexes' := by
  obtain ⟨hpos, hknown⟩ := hwf.tasks h.get
  obtain ⟨indexes', hok, hindexed, hcomplete, hcurrent⟩ := indexTask_ok h.indexed h.complete
    h.current (h.fresh.absent task mem_cons_self) hpos hknown hlease
  exact ⟨indexes', hok, h.all, h.fresh.put, hindexed, hcomplete, hcurrent⟩

theorem done (h : ReadSoFar state tasks [] indexes) :
    Indexed (ofIndexes state indexes) ∧ Complete (ofIndexes state indexes) ∧
      Current (ofIndexes state indexes) := by
  have hall : tasks = state.tasks := h.all
  subst hall
  exact ⟨h.indexed, h.complete, h.current⟩

end ReadSoFar

/-- **The rebuilt indexes are exact and complete**, and no expiration entry is stale, for a
state of which no two tasks hold a lease of one id. -/
theorem rebuildIndexes_of_leases (hwf : state.WellFormed)
    (hleases : ∀ {leaseId taskId taskId'},
      state.tasks.attr Task.activeLeaseId taskId = some leaseId →
      state.tasks.attr Task.activeLeaseId taskId' = some leaseId → taskId = taskId') :
    ∃ indexes, rebuildIndexes state = .ok indexes ∧ Indexed (ofIndexes state indexes) ∧
      Complete (ofIndexes state indexes) ∧ Current (ofIndexes state indexes) := by
  have hloop := foldlM_rule (f := indexTask)
    (I := fun rest indexes => ∃ tasks, ReadSoFar state tasks rest indexes) ?_
    ⟨∅, .start hwf⟩
  · obtain ⟨indexes, hok, tasks, hread⟩ := hloop
    exact ⟨indexes, hok, hread.done⟩
  · rintro task rest indexes ⟨tasks, hread⟩
    -- A task that was read before would hold the lease id too.
    have hactive : ∀ lease, task.state = .leased lease →
        indexes.activeLeaseTasks.get lease.leaseId = none := by
      intro lease hstate
      refine hread.indexed.active.get_eq_none fun t ht => ?_
      obtain ⟨other, hother, hleaseId⟩ := attr_eq_some_iff.mp ht
      have hsame : t = task.id := hleases
        ((attr_of_get (hread.all ▸ hread.fresh.get_putAll hother)).trans hleaseId)
        ((attr_of_get hread.get).trans (Task.activeLeaseId_of_leased hstate))
      subst hsame
      cases (hread.fresh.absent task mem_cons_self).symm.trans hother
    obtain ⟨indexes', hok, hread'⟩ := hread.next hwf hactive
    exact ⟨indexes', hok, tasks.put task, hread'⟩

/-- With exact indexes, no two tasks hold a lease of one id. -/
theorem Indexed.lease_injective (h : Indexed m) {leaseId : LeaseId} {taskId taskId' : TaskId}
    (hone : m.state.tasks.attr Task.activeLeaseId taskId = some leaseId)
    (hother : m.state.tasks.attr Task.activeLeaseId taskId' = some leaseId) :
    taskId = taskId' :=
  Option.some.inj (((h.active _ _).mpr hone).symm.trans ((h.active _ _).mpr hother))

/-- **Restoring the checkpoint of a machine with exact indexes** succeeds, with the
same state, with exact and complete indexes and without stale expiration entries. -/
theorem fromCheckpoint_checkpoint (h : Indexed m) :
    ∃ r, fromCheckpoint m.state.checkpoint = .ok r ∧ r.state = m.state ∧ Indexed r ∧
      Complete r ∧ Current r := by
  obtain ⟨indexes, hok, hindexed, hcomplete⟩ := rebuildIndexes_of_leases h.wellFormed
    h.lease_injective
  refine ⟨ofIndexes m.state indexes, ?_, rfl, hindexed, hcomplete⟩
  refine bind_eq_ok_iff.mpr ⟨_, restoreState_checkpoint h.wellFormed, ?_⟩
  exact bind_eq_ok_iff.mpr ⟨_, hok, rfl⟩

/-! ## Accepted checkpoints -/

theorem restoreNamespace_wellFormed {record : NamespaceCheckpoint} (h : state.WellFormed)
    (hok : restoreNamespace state record = .ok state') :
    state'.WellFormed := by
  obtain ⟨_, hpos, hrest⟩ := bind_eq_ok_iff.mp hok
  obtain ⟨namespaces, hput, hstate⟩ := bind_eq_ok_iff.mp hrest
  obtain ⟨-, rfl⟩ := putFresh_eq_ok_iff.mp hput
  cases hstate
  have hrevision : 0 < record.revision.get :=
    Nat.pos_of_ne_zero (require_eq_ok_iff.mp hpos)
  -- Known namespaces stay known.
  have hknown : ∀ k, state.namespaces.get k ≠ none →
      (state.namespaces.put (Namespace.fromCheckpoint record)).get k ≠ none := by
    intro k hk
    rw [get_put]
    split_ifs
    · exact Option.some_ne_none _
    · exact hk
  exact ⟨h.namespaces.put hrevision, h.tasks.imp fun task ht => ⟨ht.1, hknown _ ht.2⟩,
    h.groups.imp fun group hg => ⟨hg.1, hknown _ hg.2⟩⟩

/-- The members of an accepted group are those of its checkpoint. -/
theorem fromCheckpoint_group_wellFormed {record : ConsumerGroupCheckpoint} {group : ConsumerGroup}
    (hpos : 0 < record.revision.get) (hmembers : ∀ member ∈ record.members, 0 < member.revision.get)
    (hok : ConsumerGroup.fromCheckpoint record = .ok group) :
    group.WellFormed ∧ group.namespaceId = record.namespaceId := by
  obtain ⟨consumers, hloop, hgroup⟩ := bind_eq_ok_iff.mp hok
  cases hgroup
  have hconsumers : (∀ member ∈ ([] : List MemberCheckpoint), 0 < member.revision.get) ∧
      consumers.Forall fun member => 0 < member.revision.get := by
    refine foldlM_ok_rule (I := fun rest (consumers : Consumers) =>
      (∀ member ∈ rest, 0 < member.revision.get) ∧
        consumers.Forall fun member => 0 < member.revision.get) ?_
      ⟨hmembers, Registry.Forall.empty⟩ hloop
    rintro member rest consumers after ⟨hrest, hconsumers⟩ hput
    obtain ⟨-, rfl⟩ := putFresh_eq_ok_iff.mp hput
    exact ⟨fun other hother => hrest other (mem_cons_of_mem _ hother),
      hconsumers.put (hrest member mem_cons_self)⟩
  exact ⟨⟨hpos, fun hget => hconsumers.2 hget⟩, rfl⟩

theorem restoreGroup_wellFormed {record : ConsumerGroupCheckpoint} (h : state.WellFormed)
    (hok : restoreGroup state record = .ok state') :
    state'.WellFormed := by
  obtain ⟨_, hpos, hrest⟩ := bind_eq_ok_iff.mp hok
  obtain ⟨_, hmembers, hrest⟩ := bind_eq_ok_iff.mp hrest
  obtain ⟨_, hknown, hrest⟩ := bind_eq_ok_iff.mp hrest
  obtain ⟨group, hgroup, hrest⟩ := bind_eq_ok_iff.mp hrest
  obtain ⟨groups, hput, hstate⟩ := bind_eq_ok_iff.mp hrest
  obtain ⟨-, rfl⟩ := putFresh_eq_ok_iff.mp hput
  cases hstate
  obtain ⟨hwellFormed, hnamespace⟩ := fromCheckpoint_group_wellFormed
    (Nat.pos_of_ne_zero (require_eq_ok_iff.mp hpos))
    (fun member hmember => Nat.pos_of_ne_zero
      (require_eq_ok_iff.mp (forM_eq_ok_iff.mp hmembers member hmember))) hgroup
  refine ⟨h.namespaces, h.tasks, h.groups.put ⟨hwellFormed, ?_⟩⟩
  rw [hnamespace]
  exact require_eq_ok_iff.mp hknown

theorem restoreTask_wellFormed {record : TaskCheckpoint} (h : state.WellFormed)
    (hok : restoreTask state record = .ok state') : state'.WellFormed := by
  obtain ⟨_, hpos, hrest⟩ := bind_eq_ok_iff.mp hok
  obtain ⟨_, hknown, hrest⟩ := bind_eq_ok_iff.mp hrest
  obtain ⟨tasks, hput, hstate⟩ := bind_eq_ok_iff.mp hrest
  obtain ⟨-, rfl⟩ := putFresh_eq_ok_iff.mp hput
  cases hstate
  exact ⟨h.namespaces, h.tasks.put ⟨Nat.pos_of_ne_zero (require_eq_ok_iff.mp hpos),
    require_eq_ok_iff.mp hknown⟩, h.groups⟩

theorem restoreState_wellFormed {checkpoint : BrokerCheckpoint}
    (hok : restoreState checkpoint = .ok state) : state.WellFormed := by
  obtain ⟨first, hnamespaces, hrest⟩ := bind_eq_ok_iff.mp hok
  obtain ⟨second, hgroups, htasks⟩ := bind_eq_ok_iff.mp hrest
  have hfirst : first.WellFormed := by
    refine foldlM_ok_rule (I := fun _ (state : BrokerState) => state.WellFormed)
      (fun _ _ _ _ h hround => restoreNamespace_wellFormed h hround) ?_ hnamespaces
    exact ⟨Registry.Forall.empty, Registry.Forall.empty, Registry.Forall.empty⟩
  have hsecond : second.WellFormed :=
    foldlM_ok_rule (I := fun _ (state : BrokerState) => state.WellFormed)
      (fun _ _ _ _ h hround => restoreGroup_wellFormed h hround) hfirst hgroups
  exact foldlM_ok_rule (I := fun _ (state : BrokerState) => state.WellFormed)
    (fun _ _ _ _ h hround => restoreTask_wellFormed h hround) hsecond htasks

/-- A round that accepts a leased task has not seen its lease id. -/
theorem lease_fresh_of_indexTask {indexes indexes' : RestoredIndexes} {lease : LeasedTask}
    (hok : indexTask indexes task = .ok indexes') (hstate : task.state = .leased lease) :
    indexes.activeLeaseTasks.get lease.leaseId = none := by
  unfold indexTask rebuildTaskIndexes at hok
  rw [hstate] at hok
  obtain ⟨_, hrequire, -⟩ := bind_eq_ok_iff.mp hok
  exact require_eq_ok_iff.mp hrequire

/-- **The machine restored from an accepted checkpoint** has exact and complete indexes
and no stale expiration entry. -/
theorem fromCheckpoint_ok {checkpoint : BrokerCheckpoint} {r : BrokerStateMachine}
    (hok : fromCheckpoint checkpoint = .ok r) : Indexed r ∧ Complete r ∧ Current r := by
  obtain ⟨state, hstate, hrest⟩ := bind_eq_ok_iff.mp hok
  obtain ⟨indexes, hindexes, hr⟩ := bind_eq_ok_iff.mp hrest
  cases hr
  have hwf := restoreState_wellFormed hstate
  have hloop := foldlM_ok_rule (f := indexTask)
    (I := fun rest indexes => ∃ tasks, ReadSoFar state tasks rest indexes) ?_
    ⟨∅, .start hwf⟩ hindexes
  · obtain ⟨tasks, hread⟩ := hloop
    exact hread.done
  · rintro task rest indexes indexes' ⟨tasks, hread⟩ hround
    obtain ⟨found, hfound, hread'⟩ := hread.next hwf fun lease hleased =>
      lease_fresh_of_indexTask hround hleased
    rw [hround] at hfound
    cases hfound
    exact ⟨tasks.put task, hread'⟩

end BrokerStateMachine

end AgentBroker
