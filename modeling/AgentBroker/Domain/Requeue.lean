import AgentBroker.Domain.Indexes

/-!
# Taking leases back

Leases are taken back in two places: a claim takes back the expired leases it
finds, and a member that leaves or is reaped loses its leases.  Both loops do the
same to a task and differ only in the ready heap they push to.  `takeBack` is
that common effect as a function of the list of tasks; the modules about the
commands show that the loops compute it.

## Main results

* `get_takeBack` — the tasks afterwards.
* `takeBack_indexed` — the indexes stay exact.
* `mem_readyHeap_takeBack`, `mem_changedTasks_takeBack` — the ready entries and the
  recorded changes afterwards.
-/

namespace AgentBroker

open Registry Option

namespace Task

/-- The task without its lease, if its revision can advance. -/
def takenBack (task : Task) : Task :=
  match task.state, task.revision.next with
  | .leased lease, .ok revision => task.toQueued lease revision
  | _, _ => task

variable {task : Task}

theorem takenBack_of_leased {lease : LeasedTask} {revision : Revision}
    (hstate : task.state = .leased lease) (hrevision : task.revision.next = .ok revision) :
    task.takenBack = task.toQueued lease revision := by
  unfold takenBack
  rw [hstate, hrevision]

theorem takenBack_ne_of_leased {lease : LeasedTask} {revision : Revision}
    (hstate : task.state = .leased lease) (hrevision : task.revision.next = .ok revision) :
    task.takenBack ≠ task := by
  rw [takenBack_of_leased hstate hrevision]
  intro hsame
  have hqueued : (task.toQueued lease revision).state = task.state := by rw [hsame]
  rw [hstate] at hqueued
  cases hqueued

theorem takenBack_of_lease_none (h : task.lease = none) :
    task.takenBack = task := by
  unfold takenBack
  unfold Task.lease at h
  cases hstate : task.state with
  | leased => simp [hstate] at h
  | queued | completed => rfl

theorem takenBack_of_error {error : FencingValueError} (h : task.revision.next = .error error) :
    task.takenBack = task := by
  unfold takenBack
  rw [h]
  cases task.state <;> rfl

/-- A task is either taken back or left alone. -/
theorem takenBack_cases (task : Task) :
    (∃ lease revision, task.state = .leased lease ∧ task.revision.next = .ok revision ∧
      task.takenBack = task.toQueued lease revision) ∨ task.takenBack = task := by
  cases hlease : task.lease with
  | none => exact Or.inr (takenBack_of_lease_none hlease)
  | some lease =>
    have hstate := lease_eq_some_iff.mp hlease
    cases hrevision : task.revision.next with
    | ok revision =>
      exact Or.inl ⟨lease, revision, hstate, rfl, takenBack_of_leased hstate hrevision⟩
    | error => exact Or.inr (takenBack_of_error hrevision)

@[simp] theorem takenBack_namespaceId (task : Task) :
    task.takenBack.namespaceId = task.namespaceId := by
  rcases takenBack_cases task with ⟨lease, revision, -, -, h⟩ | h <;> rw [h]
  rfl

@[simp] theorem takenBack_leaseEpoch (task : Task) :
    task.takenBack.state.leaseEpoch = task.state.leaseEpoch := by
  rcases takenBack_cases task with ⟨lease, revision, hstate, -, h⟩ | h
  · rw [h, hstate]
    rfl
  · rw [h]

@[simp] theorem takenBack_takenBack (task : Task) : task.takenBack.takenBack = task.takenBack := by
  rcases takenBack_cases task with ⟨lease, revision, -, -, h⟩ | h
  · rw [h]
    exact takenBack_of_lease_none rfl
  · rw [h, h]

end Task

namespace BrokerStateMachine

/-- Take one lease back and make the task ready in the namespace `place` says. -/
def takeBackOne (place : Task → NamespaceId) (m : BrokerStateMachine) (taskId : TaskId) :
    BrokerStateMachine :=
  match m.state.tasks.get taskId with
  | none => m
  | some task =>
    match task.state, task.revision.next with
    | .leased lease, .ok revision =>
      { m.requeued (place task) task lease revision with
        memberLeaseTasks := removeMemberLeaseTask m.memberLeaseTasks
          ⟨lease.groupId, lease.ownerMemberId⟩ task.id }
    | _, _ => m

/-- Take a list of leases back. -/
def takeBack (place : Task → NamespaceId) (m : BrokerStateMachine) (taskIds : List TaskId) :
    BrokerStateMachine :=
  taskIds.foldl (takeBackOne place) m

variable {place : Task → NamespaceId} {m : BrokerStateMachine} {taskId : TaskId}

@[simp] theorem takeBack_nil : m.takeBack place [] = m := rfl

@[simp] theorem takeBack_cons (taskIds : List TaskId) :
    m.takeBack place (taskId :: taskIds) = (m.takeBackOne place taskId).takeBack place taskIds :=
  rfl

theorem takeBack_append (l l' : List TaskId) :
    m.takeBack place (l ++ l') = (m.takeBack place l).takeBack place l' :=
  List.foldl_append

theorem takeBackOne_of_leased {task : Task} {lease : LeasedTask} {revision : Revision}
    (hget : m.state.tasks.get taskId = some task) (hstate : task.state = .leased lease)
    (hrevision : task.revision.next = .ok revision) :
    m.takeBackOne place taskId =
      { m.requeued (place task) task lease revision with
        memberLeaseTasks := removeMemberLeaseTask m.memberLeaseTasks
          ⟨lease.groupId, lease.ownerMemberId⟩ task.id } := by
  rw [takeBackOne, hget]
  dsimp only
  rw [hstate, hrevision]

/-- A task is taken back, or the machine is left alone. -/
theorem takeBackOne_cases (place : Task → NamespaceId) (m : BrokerStateMachine) (taskId : TaskId) :
    (∃ task lease revision, m.state.tasks.get taskId = some task ∧ task.id = taskId ∧
      task.state = .leased lease ∧ task.revision.next = .ok revision ∧
      m.takeBackOne place taskId =
        { m.requeued (place task) task lease revision with
          memberLeaseTasks := removeMemberLeaseTask m.memberLeaseTasks
            ⟨lease.groupId, lease.ownerMemberId⟩ task.id }) ∨
    (m.takeBackOne place taskId = m ∧
      ∀ task, m.state.tasks.get taskId = some task → task.takenBack = task) := by
  cases hget : m.state.tasks.get taskId with
  | none => exact Or.inr ⟨by rw [takeBackOne, hget], fun task htask => by cases htask⟩
  | some task =>
    cases hlease : task.lease with
    | none =>
      refine Or.inr ⟨?_, fun other hother => ?_⟩
      · rw [takeBackOne, hget]
        unfold Task.lease at hlease
        dsimp only
        cases hstate : task.state with
        | leased => simp [hstate] at hlease
        | queued | completed => rfl
      · cases hother
        exact Task.takenBack_of_lease_none hlease
    | some lease =>
      have hstate := Task.lease_eq_some_iff.mp hlease
      cases hrevision : task.revision.next with
      | ok revision =>
        exact Or.inl ⟨task, lease, revision, rfl, key_of_get hget, hstate,
          hrevision, takeBackOne_of_leased hget hstate hrevision⟩
      -- A revision that is used up leaves the task as it is.
      | error =>
        refine Or.inr ⟨?_, fun other hother => ?_⟩
        · rw [takeBackOne, hget]
          dsimp only
          rw [hrevision]
          cases task.state <;> rfl
        · cases hother
          exact Task.takenBack_of_error hrevision

theorem takeBackOne_indexed (h : Indexed m) : Indexed (m.takeBackOne place taskId) := by
  rcases takeBackOne_cases place m taskId with
    ⟨task, lease, revision, hget, hid, hstate, hrevision, heq⟩ | ⟨heq, -⟩
  · rw [heq]
    exact h.requeue (place task) (by rw [hid, hget]) hstate (Counter.pos_of_next hrevision)
  · rw [heq]
    exact h

theorem takeBack_indexed (h : Indexed m) (taskIds : List TaskId) :
    Indexed (m.takeBack place taskIds) := by
  induction taskIds generalizing m with
  | nil => exact h
  | cons _ _ ih => exact ih (takeBackOne_indexed h)

/-! ## What stays as it was -/

/-- The parts of the machine that taking leases back does not touch. -/
structure SameFrame (m m' : BrokerStateMachine) : Prop where
  term : m'.state.term = m.state.term
  revision : m'.state.revision = m.state.revision
  namespaces : m'.state.namespaces = m.state.namespaces
  groups : m'.state.groups = m.state.groups
  leaseExpirations : m'.leaseExpirations = m.leaseExpirations
  completedTasks : m'.completedTasks = m.completedTasks
  namespaceTaskCounts : m'.namespaceTaskCounts = m.namespaceTaskCounts
  namespaceGroupCounts : m'.namespaceGroupCounts = m.namespaceGroupCounts
  changedNamespaces : m'.changedNamespaces = m.changedNamespaces
  deletedTasks : m'.deletedTasks = m.deletedTasks
  changedGroups : m'.changedGroups = m.changedGroups

theorem SameFrame.refl (m : BrokerStateMachine) : SameFrame m m :=
  ⟨rfl, rfl, rfl, rfl, rfl, rfl, rfl, rfl, rfl, rfl, rfl⟩

theorem SameFrame.trans {m m' m'' : BrokerStateMachine} (h : SameFrame m m')
    (h' : SameFrame m' m'') : SameFrame m m'' :=
  ⟨h'.term.trans h.term, h'.revision.trans h.revision, h'.namespaces.trans h.namespaces,
    h'.groups.trans h.groups, h'.leaseExpirations.trans h.leaseExpirations,
    h'.completedTasks.trans h.completedTasks, h'.namespaceTaskCounts.trans h.namespaceTaskCounts,
    h'.namespaceGroupCounts.trans h.namespaceGroupCounts,
    h'.changedNamespaces.trans h.changedNamespaces, h'.deletedTasks.trans h.deletedTasks,
    h'.changedGroups.trans h.changedGroups⟩

theorem takeBackOne_sameFrame : SameFrame m (m.takeBackOne place taskId) := by
  rcases takeBackOne_cases place m taskId with
    ⟨task, lease, revision, -, -, -, -, heq⟩ | ⟨heq, -⟩
  · rw [heq]
    exact ⟨rfl, rfl, rfl, rfl, rfl, rfl, rfl, rfl, rfl, rfl, rfl⟩
  · rw [heq]
    exact SameFrame.refl m

theorem takeBack_sameFrame (taskIds : List TaskId) :
    SameFrame m (m.takeBack place taskIds) := by
  induction taskIds generalizing m with
  | nil => exact SameFrame.refl m
  | cons _ _ ih => exact takeBackOne_sameFrame.trans ih

/-! ## Tasks -/

theorem get_takeBackOne (t : TaskId) :
    (m.takeBackOne place taskId).state.tasks.get t =
      if t = taskId then (m.state.tasks.get t).map Task.takenBack
      else m.state.tasks.get t := by
  rcases takeBackOne_cases place m taskId with
    ⟨task, lease, revision, hget, hid, hstate, hrevision, heq⟩ | ⟨heq, hkeep⟩
  · rw [heq]
    have hput : (m.state.tasks.put (task.toQueued lease revision)).get t =
        if t = task.id then some (task.toQueued lease revision) else m.state.tasks.get t :=
      get_put _ _ _
    rw [hid] at hput
    refine hput.trans ?_
    split_ifs with ht
    · rw [ht, hget, map_some, Task.takenBack_of_leased hstate hrevision]
    · rfl
  · rw [heq]
    split_ifs with ht
    · subst ht
      cases hget : m.state.tasks.get t with
      | none => rfl
      | some task => rw [map_some, hkeep task hget]
    · rfl

/-- **The tasks afterwards**: those listed are taken back, the others unchanged. -/
theorem get_takeBack (taskIds : List TaskId) (t : TaskId) :
    (m.takeBack place taskIds).state.tasks.get t =
      if t ∈ taskIds then (m.state.tasks.get t).map Task.takenBack
      else m.state.tasks.get t := by
  induction taskIds generalizing m with
  | nil => simp
  | cons taskId rest ih =>
    rw [takeBack_cons, ih, get_takeBackOne]
    by_cases ht : t = taskId
    · simp [ht, Function.comp_def]
    · simp [ht]

variable {taskIds : List TaskId} {t : TaskId}

/-- A lease that is there after others were taken back was there before. -/
theorem get_of_takeBack_leased {task : Task} {lease : LeasedTask}
    (hget : (m.takeBack place taskIds).state.tasks.get t = some task)
    (hstate : task.state = .leased lease) : m.state.tasks.get t = some task := by
  rw [get_takeBack] at hget
  split_ifs at hget with hmem
  · obtain ⟨old, hold, hback⟩ := map_eq_some_iff.mp hget
    rcases Task.takenBack_cases old with ⟨oldLease, revision, -, -, hqueued⟩ | hkeep
    · -- A task that was taken back is queued.
      rw [← hback, hqueued] at hstate
      cases hstate
    · rw [hold, ← hback, hkeep]
  · exact hget

/-- No lease id becomes active by taking leases back. -/
theorem activeLeaseTasks_takeBack_eq_none (h : Indexed m) {leaseId : LeaseId}
    (hnone : m.activeLeaseTasks.get leaseId = none) :
    (m.takeBack place taskIds).activeLeaseTasks.get leaseId = none := by
  refine (takeBack_indexed h taskIds).active.get_eq_none fun t ht => ?_
  obtain ⟨task, hget, hactive⟩ := attr_eq_some_iff.mp ht
  obtain ⟨lease, hlease, hleaseId⟩ := map_eq_some_iff.mp hactive
  have hbefore := get_of_takeBack_leased hget (Task.lease_eq_some_iff.mp hlease)
  have hindex := (h.active leaseId t).mpr ((attr_of_get hbefore).trans hactive)
  rw [hnone] at hindex
  cases hindex

/-! ## Ready entries -/

theorem mem_readyHeap_takeBackOne {ns : NamespaceId} {e : TimedTask} :
    e ∈ (m.takeBackOne place taskId).readyHeap ns ↔
      e ∈ m.readyHeap ns ∨
        ∃ task, m.state.tasks.get taskId = some task ∧ task.takenBack ≠ task ∧
          place task = ns ∧ e = ⟨task.createdAtMs, taskId⟩ := by
  rcases takeBackOne_cases place m taskId with
    ⟨task, lease, revision, hget, hid, hstate, hrevision, heq⟩ | ⟨heq, hkeep⟩
  · have hheap : (m.takeBackOne place taskId).readyHeap ns =
        if ns = place task then (m.readyHeap (place task)).push ⟨task.createdAtMs, task.id⟩
        else m.readyHeap ns := by
      rw [heq]
      exact readyHeap_updateD m (place task) ns _
    have hchanged := Task.takenBack_ne_of_leased hstate hrevision
    rw [hheap, hid]
    by_cases hns : ns = place task
    · rw [if_pos hns, MinHeap.mem_push, hns]
      simp [hget, hchanged, or_comm]
    · rw [if_neg hns]
      simp [hget, Ne.symm hns]
  · rw [heq]
    constructor
    · exact Or.inl
    · rintro (he | ⟨task, hget, hchanged, -⟩)
      · exact he
      · exact absurd (hkeep task hget) hchanged

/-- **The ready entries afterwards**: the old ones and one for each task that was
taken back. -/
theorem mem_readyHeap_takeBack {ns : NamespaceId} {e : TimedTask} :
    e ∈ (m.takeBack place taskIds).readyHeap ns ↔
      e ∈ m.readyHeap ns ∨
        ∃ taskId ∈ taskIds, ∃ task, m.state.tasks.get taskId = some task ∧
          task.takenBack ≠ task ∧ place task = ns ∧ e = ⟨task.createdAtMs, taskId⟩ := by
  induction taskIds generalizing m with
  | nil => simp
  | cons taskId rest ih =>
    rw [takeBack_cons, ih, mem_readyHeap_takeBackOne]
    constructor
    · rintro ((he | ⟨task, hget, hchanged, hns, he⟩) | ⟨t, ht, task, hget, hchanged, hns, he⟩)
      · exact Or.inl he
      · exact Or.inr ⟨taskId, List.mem_cons_self, task, hget, hchanged, hns, he⟩
      · rw [get_takeBackOne] at hget
        split_ifs at hget with heq
        · -- A task listed twice is taken back only once.
          obtain ⟨old, hold, rfl⟩ := map_eq_some_iff.mp hget
          exact absurd old.takenBack_takenBack hchanged
        · exact Or.inr ⟨t, List.mem_cons_of_mem _ ht, task, hget, hchanged, hns, he⟩
    · rintro (he | ⟨t, ht, task, hget, hchanged, hns, he⟩)
      · exact Or.inl (Or.inl he)
      · by_cases heq : t = taskId
        · subst heq
          exact Or.inl (Or.inr ⟨task, hget, hchanged, hns, he⟩)
        · rcases List.mem_cons.mp ht with h | h
          · exact absurd h heq
          · refine Or.inr ⟨t, h, task, ?_, hchanged, hns, he⟩
            rw [get_takeBackOne, if_neg heq, hget]

/-! ## Recorded changes -/

theorem mem_changedTasks_takeBackOne :
    t ∈ (m.takeBackOne place taskId).changedTasks ↔
      t ∈ m.changedTasks ∨
        (t = taskId ∧ ∃ task, m.state.tasks.get taskId = some task ∧ task.takenBack ≠ task) := by
  rcases takeBackOne_cases place m taskId with
    ⟨task, lease, revision, hget, hid, hstate, hrevision, heq⟩ | ⟨heq, hkeep⟩
  · have hchanges : (m.takeBackOne place taskId).changedTasks =
        OrdSet.add m.changedTasks taskId := by
      rw [heq, ← hid]
      rfl
    rw [hchanges, OrdSet.mem_add, or_comm]
    simp [hget, Task.takenBack_ne_of_leased hstate hrevision]
  · rw [heq]
    constructor
    · exact Or.inl
    · rintro (ht | ⟨-, task, hget, hchanged⟩)
      · exact ht
      · exact absurd (hkeep task hget) hchanged

/-- **The recorded changes afterwards**: the tasks that were taken back are added. -/
theorem mem_changedTasks_takeBack :
    t ∈ (m.takeBack place taskIds).changedTasks ↔
      t ∈ m.changedTasks ∨
        (t ∈ taskIds ∧ ∃ task, m.state.tasks.get t = some task ∧ task.takenBack ≠ task) := by
  induction taskIds generalizing m with
  | nil => simp
  | cons taskId rest ih =>
    rw [takeBack_cons, ih, mem_changedTasks_takeBackOne, get_takeBackOne]
    by_cases ht : t = taskId
    · subst ht
      constructor
      · rintro ((h | ⟨-, h⟩) | ⟨-, task, hget, hchanged⟩)
        · exact Or.inl h
        · exact Or.inr ⟨List.mem_cons_self, h⟩
        · rw [if_pos rfl] at hget
          obtain ⟨old, hold, rfl⟩ := map_eq_some_iff.mp hget
          exact absurd old.takenBack_takenBack hchanged
      · rintro (h | ⟨-, h⟩)
        · exact Or.inl (Or.inl h)
        · exact Or.inl (Or.inr ⟨rfl, h⟩)
    · simp [ht]

end BrokerStateMachine

end AgentBroker
