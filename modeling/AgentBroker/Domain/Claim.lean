import AgentBroker.Domain.Transitions

/-!
# Claims

A claim that passes its guards first takes back the expired leases its namespace's
expiration heap names, then pops the ready heap, and only then makes the checks
that can still fail.  What it has done by then stays done.

## Main results

* `mem_dueTasks` — the leases a claim takes back.
* `recoverExpiredLeases_wp`, `popReadyTask_wp` — the two loops.
* `claimTask_wp` — the effect of a claim, with every way it can fail.
-/

namespace AgentBroker

open EStateM Registry OrdMap List

/-- The entry names the current lease of its task: the same epoch and expiry. -/
def LeaseExpiration.live (tasks : Tasks) (e : LeaseExpiration) : Bool :=
  match tasks.attr Task.lease e.taskId with
  | some lease => lease.leaseEpoch = e.leaseEpoch ∧ lease.expiresAtMs = e.expiresAtMs
  | none => false

/-- The entry names a task that is ready. -/
def TimedTask.live (tasks : Tasks) (e : TimedTask) : Bool :=
  (tasks.attr Task.readyAt e.taskId).isSome

theorem LeaseExpiration.live_iff {tasks : Tasks} {e : LeaseExpiration} :
    e.live tasks = true ↔ ∃ task lease, tasks.get e.taskId = some task ∧
      task.state = .leased lease ∧ lease.leaseEpoch = e.leaseEpoch ∧
      lease.expiresAtMs = e.expiresAtMs := by
  unfold live
  cases hlease : tasks.attr Task.lease e.taskId with
  | none =>
    simp only [Bool.false_eq_true, false_iff, not_exists]
    rintro task lease ⟨hget, hstate, -⟩
    rw [attr_of_get hget, Task.lease_of_leased hstate] at hlease
    cases hlease
  | some lease =>
    obtain ⟨task, hget, hstate⟩ := attr_eq_some_iff.mp hlease
    have hstate := Task.lease_eq_some_iff.mp hstate
    simp only [decide_eq_true_eq]
    constructor
    · rintro ⟨hepoch, hexpires⟩
      exact ⟨task, lease, hget, hstate, hepoch, hexpires⟩
    · rintro ⟨_, _, hget', hstate', hepoch, hexpires⟩
      rw [hget] at hget'
      cases hget'
      rw [hstate] at hstate'
      cases hstate'
      exact ⟨hepoch, hexpires⟩

namespace BrokerStateMachine

open EStateM (wp)

variable {m : BrokerStateMachine} {ns : NamespaceId} {nowMs : TimestampMs} {taskId : TaskId}

/-! ## Expired leases -/

theorem expirationStep_eq (tasks : Tasks) (nowMs : TimestampMs) (candidates : OrdSet TaskId)
    (e : LeaseExpiration) :
    expirationStep tasks nowMs candidates e =
      if decide (e.expiresAtMs ≤ nowMs) then
        .next (if e.live tasks then OrdSet.add candidates e.taskId else candidates)
      else .keep := by
  unfold expirationStep
  by_cases hdue : e.expiresAtMs ≤ nowMs
  · rw [if_neg (not_lt.mpr hdue), if_pos (decide_eq_true hdue)]
    unfold LeaseExpiration.live Registry.attr
    cases tasks.get e.taskId with
    | none => rfl
    | some task =>
      rw [Option.bind_some]
      unfold Task.lease
      dsimp only
      cases task.state with
      | queued | completed => rfl
      | leased =>
        simp only [decide_eq_true_eq]
        split_ifs <;> rfl
  · rw [if_pos (not_le.mp hdue), if_neg (by simpa using hdue)]

/-- The lease of the task has expired and an entry of the namespace's heap says so. -/
def Due (m : BrokerStateMachine) (ns : NamespaceId) (nowMs : TimestampMs) (taskId : TaskId) :
    Prop :=
  ∃ e ∈ m.expirationHeap ns, e.taskId = taskId ∧ e.expiresAtMs ≤ nowMs ∧
    e.live m.state.tasks = true

/-- The loop over the expiration heap pops the entries up to `nowMs`. -/
theorem popList_expirationStep (tasks : Tasks) (nowMs : TimestampMs)
    (heap : MinHeap LeaseExpiration) :
    MinHeap.popList (expirationStep tasks nowMs) ∅ heap.entries =
      ((heap.entries.filter (·.expiresAtMs ≤ nowMs)).foldl
          (fun candidates e => if e.live tasks then OrdSet.add candidates e.taskId else candidates)
          ∅,
        heap.entries.filter (fun e => !decide (e.expiresAtMs ≤ nowMs))) := by
  refine MinHeap.popList_downset (expirationStep_eq tasks nowMs) ?_ ∅ heap.sorted
  intro e e' hle hdue
  have hle' : e.expiresAtMs ≤ e'.expiresAtMs := by
    rcases Prod.Lex.toLex_le_toLex.mp hle with h | ⟨h, -⟩
    · exact h.le
    · exact h.le
  exact decide_eq_true (hle'.trans (of_decide_eq_true hdue))

/-- The tasks whose leases a claim takes back, in the order it does. -/
def dueTasks (m : BrokerStateMachine) (ns : NamespaceId) (nowMs : TimestampMs) : List TaskId :=
  OrdSet.toList ((m.expirationHeap ns).popLoop (expirationStep m.state.tasks nowMs) ∅).1

theorem mem_foldl_live {tasks : Tasks} {l : List LeaseExpiration} {s : OrdSet TaskId} :
    taskId ∈ l.foldl (fun candidates e =>
        if e.live tasks then OrdSet.add candidates e.taskId else candidates) s ↔
      taskId ∈ s ∨ ∃ e ∈ l, e.taskId = taskId ∧ e.live tasks = true := by
  induction l generalizing s with
  | nil => simp
  | cons e rest ih =>
    rw [foldl_cons, ih]
    by_cases hlive : e.live tasks = true
    · simp only [hlive, if_true, OrdSet.mem_add, mem_cons, exists_eq_or_imp, and_true]
      rw [eq_comm (a := taskId)]
      tauto
    · simp [hlive]

/-- **The leases a claim takes back** are those that are due. -/
theorem mem_dueTasks : taskId ∈ m.dueTasks ns nowMs ↔ m.Due ns nowMs taskId := by
  rw [dueTasks, OrdSet.mem_toList]
  show taskId ∈ (MinHeap.popList (expirationStep m.state.tasks nowMs) ∅
    (m.expirationHeap ns).entries).1 ↔ _
  rw [popList_expirationStep]
  refine mem_foldl_live.trans ?_
  simp only [OrdSet.not_mem_empty, false_or, mem_filter, decide_eq_true_eq, Due, MinHeap.mem_def]
  constructor
  · rintro ⟨e, ⟨he, hdue⟩, hid, hlive⟩
    exact ⟨e, he, hid, hdue, hlive⟩
  · rintro ⟨e, he, hid, hdue, hlive⟩
    exact ⟨e, ⟨he, hdue⟩, hid, hlive⟩

theorem dueTasks_nodup : (m.dueTasks ns nowMs).Nodup := OrdSet.toList_nodup _

/-- A lease that is due has expired. -/
theorem Due.exists_lease (h : m.Due ns nowMs taskId) :
    ∃ task lease, m.state.tasks.get taskId = some task ∧ task.state = .leased lease ∧
      lease.expiresAtMs ≤ nowMs := by
  obtain ⟨e, -, rfl, hdue, hlive⟩ := h
  obtain ⟨task, lease, hget, hstate, -, hexpires⟩ := LeaseExpiration.live_iff.mp hlive
  exact ⟨task, lease, hget, hstate, by rw [hexpires]; exact hdue⟩

variable {task : Task} {c : ClaimTaskCommand}

theorem Due.leased (h : m.Due ns nowMs taskId) (hget : m.state.tasks.get taskId = some task) :
    ∃ lease, task.state = .leased lease ∧ lease.expiresAtMs ≤ nowMs := by
  obtain ⟨found, lease, hfound, hstate, hexpired⟩ := h.exists_lease
  cases hget.symm.trans hfound
  exact ⟨lease, hstate, hexpired⟩

theorem Due.expired (h : m.Due ns nowMs taskId) {lease : LeasedTask}
    (hget : m.state.tasks.get taskId = some task) (hstate : task.state = .leased lease) :
    lease.expiresAtMs ≤ nowMs := by
  obtain ⟨current, hcurrent, hexpired⟩ := h.leased hget
  rw [hstate] at hcurrent
  cases hcurrent
  exact hexpired

/-- The entries up to `nowMs` are popped off the expiration heap of a namespace. -/
def expirationsPopped (m : BrokerStateMachine) (ns : NamespaceId) (nowMs : TimestampMs) :
    BrokerStateMachine :=
  match m.leaseExpirations.get ns with
  | none => m
  | some heap =>
    { m with leaseExpirations :=
        m.leaseExpirations.insert ns (heap.popLoop (expirationStep m.state.tasks nowMs) ∅).2 }

theorem expirationsPopped_of_get {heap : MinHeap LeaseExpiration}
    (h : m.leaseExpirations.get ns = some heap) :
    m.expirationsPopped ns nowMs =
      { m with leaseExpirations := m.leaseExpirations.insert ns
                 (heap.popLoop (expirationStep m.state.tasks nowMs) ∅).2 } := by
  rw [expirationsPopped, h]

theorem expirationHeap_expirationsPopped (ns' : NamespaceId) :
    ((m.expirationsPopped ns nowMs).expirationHeap ns').entries =
      if ns' = ns then
        (m.expirationHeap ns).entries.filter (fun e => !decide (e.expiresAtMs ≤ nowMs))
      else (m.expirationHeap ns').entries := by
  unfold expirationsPopped expirationHeap
  cases hheap : m.leaseExpirations.get ns with
  | none =>
    split_ifs with hns
    · rw [hns, getD_of_none hheap]
      rfl
    · rfl
  | some heap =>
    dsimp only
    rw [getD_insert]
    split_ifs with hns
    · rw [getD_of_get hheap, MinHeap.popLoop]
      exact congrArg Prod.snd (popList_expirationStep m.state.tasks nowMs heap)
    · rfl

theorem expirationsPopped_cases (m : BrokerStateMachine) (ns : NamespaceId) (nowMs : TimestampMs) :
    ∃ expirations, m.expirationsPopped ns nowMs = { m with leaseExpirations := expirations } := by
  unfold expirationsPopped
  cases m.leaseExpirations.get ns with
  | none => exact ⟨m.leaseExpirations, rfl⟩
  | some => exact ⟨_, rfl⟩

@[simp] theorem expirationsPopped_state : (m.expirationsPopped ns nowMs).state = m.state := by
  obtain ⟨expirations, heq⟩ := expirationsPopped_cases m ns nowMs
  rw [heq]

theorem readyHeap_expirationsPopped (ns' : NamespaceId) :
    (m.expirationsPopped ns nowMs).readyHeap ns' = m.readyHeap ns' := by
  obtain ⟨expirations, heq⟩ := expirationsPopped_cases m ns nowMs
  rw [heq]
  rfl

/-- The indexes do not read the expiration heaps. -/
theorem Indexed.setExpirations (h : Indexed m)
    (expirations : OrdMap NamespaceId (MinHeap LeaseExpiration)) :
    Indexed { m with leaseExpirations := expirations } :=
  ⟨⟨h.active, h.completed, h.ready, h.taskCounts, h.groupCounts, h.wellFormed⟩, h.member⟩

theorem Indexed.popExpirations (h : Indexed m) : Indexed (m.expirationsPopped ns nowMs) := by
  obtain ⟨expirations, heq⟩ := expirationsPopped_cases m ns nowMs
  rw [heq]
  exact h.setExpirations expirations

/-- One expired lease is taken back; it fails only if the task's revision cannot
advance. -/
theorem recoverExpiredLease_wp {lease : LeasedTask} (hget : m.state.tasks.get taskId = some task)
    (hstate : task.state = .leased lease) (hexpired : lease.expiresAtMs ≤ nowMs) :
    wp (recoverExpiredLease ns nowMs taskId) m
      (fun requeued m' => requeued = true ∧ m' = m.takeBackOne (fun _ => ns) taskId ∧
        ∃ revision, task.revision.next = .ok revision)
      (fun _ m' => m' = m ∧ ∃ error, task.revision.next = .error error) := by
  have hid : task.id = taskId := key_of_get hget
  have hrequeue := Task.requeueIfExpired_of_expired hstate hexpired
  refine wp_get_bind ?_
  rw [hget]
  dsimp only
  rw [hstate]
  refine wp_transition_bind (fun r hr => ?_) fun e he => ?_
  · cases hrevision : task.revision.next with
    | ok revision =>
      rw [hrequeue, hrevision] at hr
      cases hr
      refine ⟨rfl, ?_, revision, rfl⟩
      rw [takeBackOne_of_leased hget hstate hrevision, requeued, hid]
    | error =>
      rw [hrequeue, hrevision] at hr
      cases hr
  · cases hrevision : task.revision.next with
    | ok =>
      rw [hrequeue, hrevision] at he
      cases he
    | error error => exact ⟨rfl, error, rfl⟩

/-- A claim's machine after it has taken back the first leases that are due. -/
def recovered (m : BrokerStateMachine) (ns : NamespaceId) (nowMs : TimestampMs)
    (taskIds : List TaskId) : BrokerStateMachine :=
  (m.expirationsPopped ns nowMs).takeBack (fun _ => ns) taskIds

/-- The revision of the task can advance. -/
def CanRequeue (m : BrokerStateMachine) (taskId : TaskId) : Prop :=
  ∀ task, m.state.tasks.get taskId = some task → ∃ revision, task.revision.next = .ok revision

theorem recoverLoop_wp {taskIds : List TaskId} (hnodup : taskIds.Nodup)
    (hexpired : ∀ t ∈ taskIds, ∃ task lease, m.state.tasks.get t = some task ∧
      task.state = .leased lease ∧ lease.expiresAtMs ≤ nowMs) :
    wp (taskIds.foldlM (fun recovered t => do
        let requeued ← recoverExpiredLease ns nowMs t
        return if requeued then recovered + 1 else recovered) 0) m
      (fun n m' => m' = m.takeBack (fun _ => ns) taskIds ∧ n = taskIds.length ∧
        ∀ t ∈ taskIds, m.CanRequeue t)
      (fun _ m' => ∃ done stuck rest, taskIds = done ++ stuck :: rest ∧
        m' = m.takeBack (fun _ => ns) done ∧ ¬m.CanRequeue stuck) := by
  refine wp_foldlM (I := fun rest n s => ∃ done, done ++ rest = taskIds ∧
    s = m.takeBack (fun _ => ns) done ∧ n = done.length ∧ ∀ t ∈ done, m.CanRequeue t)
    ⟨[], rfl, rfl, rfl, by simp⟩ ?_ ?_
  · rintro t rest n s ⟨done, hdone, rfl, rfl, hok⟩
    obtain ⟨task, lease, hget, hstate, hdue⟩ :=
      hexpired t (hdone ▸ mem_append_right done mem_cons_self)
    -- A task that is still to come has not been touched.
    have hfresh : t ∉ done := fun hmem =>
      (nodup_append.mp (hdone ▸ hnodup)).2.2 t hmem t mem_cons_self rfl
    have hsame : (m.takeBack (fun _ => ns) done).state.tasks.get t = some task := by
      rw [get_takeBack, if_neg hfresh, hget]
    rw [wp_bind]
    refine wp_mono (recoverExpiredLease_wp hsame hstate hdue) ?_ ?_
    · rintro requeued s ⟨rfl, rfl, revision, hrevision⟩
      refine ⟨done ++ [t], by rw [append_assoc, singleton_append, hdone], ?_,
        by simp, ?_⟩
      · rw [takeBack_append, takeBack_cons, takeBack_nil]
      · intro t' ht'
        rcases mem_append.mp ht' with hold | hlast
        · exact hok t' hold
        · intro task' hget'
          rw [mem_singleton.mp hlast, hget] at hget'
          cases hget'
          exact ⟨revision, hrevision⟩
    · rintro e s ⟨rfl, error, herror⟩
      refine ⟨done, t, rest, hdone.symm, rfl, fun hcan => ?_⟩
      obtain ⟨revision, hrevision⟩ := hcan task hget
      rw [herror] at hrevision
      cases hrevision
  · rintro n s ⟨done, hdone, rfl, rfl, hok⟩
    rw [append_nil] at hdone
    subst hdone
    exact ⟨rfl, rfl, hok⟩

theorem recoverExpiredLeases_wp :
    wp (recoverExpiredLeases ns nowMs) m
      (fun n m' => m' = m.recovered ns nowMs (m.dueTasks ns nowMs) ∧
        n = (m.dueTasks ns nowMs).length ∧ ∀ t, m.Due ns nowMs t → m.CanRequeue t)
      (fun _ m' => ∃ done stuck rest, m.dueTasks ns nowMs = done ++ stuck :: rest ∧
        m' = m.recovered ns nowMs done ∧ ¬m.CanRequeue stuck) := by
  refine wp_get_bind ?_
  cases hheap : m.leaseExpirations.get ns with
  | none =>
    -- A namespace without a heap is left without one.
    have hempty : m.expirationHeap ns = ∅ := getD_of_none hheap ∅
    have hnone : m.dueTasks ns nowMs = [] := by
      rw [dueTasks, hempty]
      rfl
    refine ⟨?_, ?_, ?_⟩
    · rw [hnone, recovered, expirationsPopped, hheap]
      rfl
    · rw [hnone]
      rfl
    · intro t ht
      rw [← mem_dueTasks, hnone] at ht
      cases ht
  | some heap =>
    have hheap' : m.expirationHeap ns = heap := getD_of_get hheap ∅
    have hdue : OrdSet.toList (heap.popLoop (expirationStep m.state.tasks nowMs) ∅).1 =
        m.dueTasks ns nowMs := by rw [dueTasks, hheap']
    refine wp_set_bind ?_
    show wp ((OrdSet.toList
        (heap.popLoop (expirationStep m.state.tasks nowMs) ∅).1).foldlM _ 0)
      { m with leaseExpirations :=
          m.leaseExpirations.insert ns (heap.popLoop (expirationStep m.state.tasks nowMs) ∅).2 }
      _ _
    rw [hdue, ← expirationsPopped_of_get hheap]
    have hexpired : ∀ t ∈ m.dueTasks ns nowMs, ∃ task lease,
        (m.expirationsPopped ns nowMs).state.tasks.get t = some task ∧
        task.state = .leased lease ∧ lease.expiresAtMs ≤ nowMs := fun t ht => by
      rw [expirationsPopped_state]
      exact (mem_dueTasks.mp ht).exists_lease
    refine wp_mono (recoverLoop_wp dueTasks_nodup hexpired) ?_ ?_
    · rintro n s ⟨rfl, rfl, hok⟩
      refine ⟨rfl, rfl, fun t ht task hget => hok t (mem_dueTasks.mpr ht) task ?_⟩
      rw [expirationsPopped_state, hget]
    · rintro e s ⟨done, stuck, rest, hsplit, rfl, hstuck⟩
      refine ⟨done, stuck, rest, hsplit, rfl, fun hcan => hstuck fun task hget => hcan task ?_⟩
      rwa [expirationsPopped_state] at hget

/-! ## The ready task -/

/-- The least entry is popped off the ready heap of a namespace. -/
def readyPopped (m : BrokerStateMachine) (ns : NamespaceId) : BrokerStateMachine :=
  { m with readyTasks := m.readyTasks.insert ns (m.readyHeap ns).tail }

theorem readyHeap_readyPopped (ns ns' : NamespaceId) :
    (m.readyPopped ns).readyHeap ns' =
      if ns' = ns then (m.readyHeap ns).tail else m.readyHeap ns' :=
  getD_insert _ _ _ _ _

theorem Indexed.popReady (h : Indexed m) (ns : NamespaceId) : Indexed (m.readyPopped ns) := by
  refine ⟨⟨h.active, h.completed, h.ready.shrink fun ns' => ?_, h.taskCounts, h.groupCounts,
    h.wellFormed⟩, h.member⟩
  rw [readyHeap_readyPopped]
  split_ifs with hns
  · rw [hns]
    exact tail_sublist _
  · exact List.Sublist.refl _

/-- The popped task has no other ready entry. -/
theorem notReady_readyPopped (h : Indexed m) {e : TimedTask} {rest : List TimedTask}
    (hready : (m.readyHeap ns).entries = e :: rest) {ns' : NamespaceId} {e' : TimedTask}
    (he' : e' ∈ (m.readyPopped ns).readyHeap ns') : e'.taskId ≠ e.taskId := by
  intro hsame
  have he : e ∈ m.readyHeap ns := by
    rw [MinHeap.mem_def, hready]
    exact mem_cons_self
  have hold : e' ∈ m.readyHeap ns' := by
    rw [readyHeap_readyPopped] at he'
    split_ifs at he' with hns
    · rw [hns]
      exact mem_of_mem_tail he'
    · exact he'
  -- Both entries carry the publication time of the task.
  have hat : e' = e := by
    have hsound := h.ready.sound hold
    rw [hsame, h.ready.sound he] at hsound
    obtain ⟨atMs, taskId⟩ := e
    obtain ⟨atMs', taskId'⟩ := e'
    cases hsound
    cases hsame
    rfl
  subst hat
  have hns := h.ready.unique hold he
  subst hns
  have hnodup := h.ready.nodup ns'
  rw [hready] at hnodup
  rw [readyHeap_readyPopped, if_pos rfl] at he'
  have htail : e' ∈ (m.readyHeap ns').entries.tail := he'
  rw [hready] at htail
  exact (nodup_cons.mp hnodup).1 htail

/-- The head of a ready heap names a queued task, so the loop stops at once. -/
theorem popReadyTask_wp (h : Indexed m) :
    wp (popReadyTask ns) m
      (fun ready m' =>
        (ready = none ∧ (m.readyHeap ns).entries = [] ∧ m' = m) ∨
        (∃ e rest task queued, (m.readyHeap ns).entries = e :: rest ∧ ready = some e.taskId ∧
          m.state.tasks.get e.taskId = some task ∧ task.state = .queued queued ∧
          m' = m.readyPopped ns))
      (fun _ _ => False) := by
  refine wp_get_bind ?_
  cases hheap : m.readyTasks.get ns with
  | none => exact Or.inl ⟨rfl, congrArg MinHeap.entries (getD_of_none hheap ∅), rfl⟩
  | some heap =>
    have hsame : m.readyHeap ns = heap := getD_of_get hheap ∅
    dsimp only
    cases hentries : (m.readyHeap ns).entries with
    | nil =>
      rw [← hsame, MinHeap.popLoop_of_nil _ _ hentries]
      refine wp_set_bind (Or.inl ⟨rfl, rfl, ?_⟩)
      rw [hsame, insert_get_self hheap]
    | cons e rest =>
      have he : e ∈ m.readyHeap ns := by
        rw [MinHeap.mem_def, hentries]
        exact mem_cons_self
      obtain ⟨task, hget, hready⟩ := attr_eq_some_iff.mp (h.ready.sound he)
      obtain ⟨⟨queued, hstate⟩, -⟩ := Task.readyAt_eq_some_iff.mp hready
      have hstop : readyStep m.state.tasks none e = .stop (some e.taskId) := by
        simp [readyStep, hget, Task.status, hstate, TaskState.status]
      rw [← hsame, MinHeap.popLoop_of_stop hentries hstop]
      exact wp_set_bind (Or.inr ⟨e, rest, task, queued, rfl, rfl, hget, hstate, rfl⟩)

/-! ## The lease -/

/-- The lease a claim asks for. -/
def leaseFor (c : ClaimTaskCommand) (epoch : LeaseEpoch) (expiresAtMs : TimestampMs) :
    LeasedTask where
  leaseId := c.leaseId
  ownerMemberId := c.memberId
  groupId := c.groupId
  generation := c.expectedGeneration
  leaseEpoch := epoch
  expiresAtMs := expiresAtMs

/-- One of the checks made after the ready heap was popped fails: the deadline
overflows, or the revision of the broker, the epoch or the revision of the task is
exhausted. -/
def Blocked (c : ClaimTaskCommand) (revision : Revision) (task : Task) (queued : QueuedTask) :
    Prop :=
  c.nowMs.checkedAdd c.leaseDurationMs = none ∨ (∃ error, revision.next = .error error) ∨
    (∃ error, queued.leaseEpoch.next = .error error) ∨ ∃ error, task.revision.next = .error error

theorem leaseReadyTask_wp {queued : QueuedTask} (hget : m.state.tasks.get taskId = some task)
    (hstate : task.state = .queued queued) :
    wp (leaseReadyTask c ns c.expectedGeneration taskId) m
      (fun result m' => ∃ expiresAtMs epoch taskRevision revision,
        c.nowMs.checkedAdd c.leaseDurationMs = some expiresAtMs ∧
        m.state.revision.next = .ok revision ∧ queued.leaseEpoch.next = .ok epoch ∧
        task.revision.next = .ok taskRevision ∧
        m' = m.leased ns task (leaseFor c epoch expiresAtMs) taskRevision revision ∧
        result = m'.taskClaimResult c.expectedGeneration
          (some (task.toLeased (leaseFor c epoch expiresAtMs) taskRevision)))
      (fun _ m' => m' = m ∧ Blocked c m.state.revision task queued) := by
  have hid : task.id = taskId := key_of_get hget
  refine wp_ofExcept_bind (fun expiresAtMs hexpires => ?_) fun error herror => ?_
  · refine wp_get_bind ?_
    refine wp_advance_bind (fun revision hrevision => ?_) fun error herror => ?_
    · refine wp_found_bind (fun found hfound => ?_) fun hnone => ?_
      · rw [hget] at hfound
        cases hfound
        refine wp_transition_bind (fun task' hclaim => ?_) fun error herror => ?_
        · obtain ⟨_, epoch, taskRevision, hstate', hepoch, htaskRevision, rfl⟩ :=
            Task.claim_eq_ok_iff.mp hclaim
          rw [hstate] at hstate'
          cases hstate'
          -- The source looks the task up again, and finds what it has just written.
          have hself : (m.state.tasks.put (task.toLeased (leaseFor c epoch expiresAtMs)
              taskRevision)).get taskId = some (task.toLeased (leaseFor c epoch expiresAtMs)
              taskRevision) := by
            rw [← hid]
            exact get_put_self _ _
          refine wp_set_bind (wp_set_bind (wp_found_bind (fun leased hleased => ?_)
            fun hnone => ?_))
          · refine ⟨expiresAtMs, epoch, taskRevision, revision,
              Except.ofOption_eq_ok_iff.mp hexpires, hrevision, hepoch, htaskRevision, ?_, ?_⟩
            · rw [BrokerStateMachine.leased, hid]
              rfl
            · cases hself.symm.trans hleased
              rfl
          · cases hself.symm.trans hnone
        · exact ⟨rfl, Or.inr (Or.inr (Task.claim_error_of_queued hstate herror))⟩
      · rw [hget] at hnone
        cases hnone
    · exact ⟨rfl, Or.inr (Or.inl ⟨error, herror⟩)⟩
  · exact ⟨rfl, Or.inl (Except.ofOption_eq_error_iff.mp herror).1⟩

/-! ## The command -/

/-- The claim gets past its guards, to the tasks of the namespace. -/
structure Reaches (m : BrokerStateMachine) (c : ClaimTaskCommand) (ns : NamespaceId) : Prop where
  term : m.state.term = c.expectedTerm
  member : m.CurrentMember c.groupId c.memberId c.expectedGeneration ns
  fresh : m.activeLeaseTasks.get c.leaseId = none

/-- The machine after all leases that are due were taken back. -/
def caughtUp (m : BrokerStateMachine) (ns : NamespaceId) (nowMs : TimestampMs) :
    BrokerStateMachine :=
  m.recovered ns nowMs (m.dueTasks ns nowMs)

/-- The result and the effect of a claim that succeeds. -/
inductive Claimed (m : BrokerStateMachine) (c : ClaimTaskCommand) :
    TaskClaimResult → BrokerStateMachine → Prop
  /-- The lease is already held: the claim is a retry. -/
  | retried {ns : NamespaceId} {task : Task} {lease : LeasedTask}
      (member : m.CurrentMember c.groupId c.memberId c.expectedGeneration ns)
      (get : m.state.tasks.get task.id = some task) (state : task.state = .leased lease)
      (leaseId : lease.leaseId = c.leaseId) (groupId : lease.groupId = c.groupId)
      (settled : m.state.term = c.expectedTerm ∧ m.activeLeaseTasks.get c.leaseId = some task.id ∧
        lease.ownerMemberId = c.memberId) :
      Claimed m c (m.taskClaimResult c.expectedGeneration (some task)) m
  /-- Nothing is ready. -/
  | idle {ns : NamespaceId} (reaches : m.Reaches c ns) (due : m.dueTasks ns c.nowMs = [])
      (ready : (m.readyHeap ns).entries = []) :
      Claimed m c ((m.expirationsPopped ns c.nowMs).taskClaimResult c.expectedGeneration none)
        (m.expirationsPopped ns c.nowMs)
  /-- The oldest ready task is leased. -/
  | leased {ns : NamespaceId} {e : TimedTask} {rest : List TimedTask} {task : Task}
      {queued : QueuedTask} {expiresAtMs : TimestampMs} {epoch : LeaseEpoch}
      {taskRevision revision : Revision} (reaches : m.Reaches c ns)
      (due : ∀ t, m.Due ns c.nowMs t → m.CanRequeue t)
      (ready : ((m.caughtUp ns c.nowMs).readyHeap ns).entries = e :: rest)
      (get : (m.caughtUp ns c.nowMs).state.tasks.get task.id = some task)
      (id : task.id = e.taskId) (state : task.state = .queued queued)
      (expires : c.nowMs.checkedAdd c.leaseDurationMs = some expiresAtMs)
      (epochNext : queued.leaseEpoch.next = .ok epoch)
      (taskNext : task.revision.next = .ok taskRevision)
      (next : m.state.revision.next = .ok revision) :
      Claimed m c
        ((((m.caughtUp ns c.nowMs).readyPopped ns).leased ns task
          (leaseFor c epoch expiresAtMs) taskRevision revision).taskClaimResult
            c.expectedGeneration (some (task.toLeased (leaseFor c epoch expiresAtMs) taskRevision)))
        (((m.caughtUp ns c.nowMs).readyPopped ns).leased ns task
          (leaseFor c epoch expiresAtMs) taskRevision revision)

/-- What a claim that fails leaves behind. -/
inductive ClaimFailed (m : BrokerStateMachine) (c : ClaimTaskCommand) : BrokerStateMachine → Prop
  /-- A guard rejects the claim. -/
  | rejected (reaches : ∀ ns, ¬m.Reaches c ns) : ClaimFailed m c m
  /-- A lease that is due cannot be taken back; those before it were. -/
  | stuck {ns : NamespaceId} {done : List TaskId} {taskId : TaskId} {rest : List TaskId}
      (reaches : m.Reaches c ns) (due : m.dueTasks ns c.nowMs = done ++ taskId :: rest)
      (blocked : ¬m.CanRequeue taskId) : ClaimFailed m c (m.recovered ns c.nowMs done)
  /-- A check fails after the oldest ready task was popped. -/
  | popped {ns : NamespaceId} {e : TimedTask} {rest : List TimedTask} {task : Task}
      {queued : QueuedTask} (reaches : m.Reaches c ns)
      (due : ∀ t, m.Due ns c.nowMs t → m.CanRequeue t)
      (ready : ((m.caughtUp ns c.nowMs).readyHeap ns).entries = e :: rest)
      (get : (m.caughtUp ns c.nowMs).state.tasks.get task.id = some task)
      (id : task.id = e.taskId) (state : task.state = .queued queued)
      (blocked : Blocked c m.state.revision task queued) :
      ClaimFailed m c ((m.caughtUp ns c.nowMs).readyPopped ns)

theorem Indexed.recovered (h : Indexed m) (taskIds : List TaskId) :
    Indexed (m.recovered ns nowMs taskIds) :=
  takeBack_indexed h.popExpirations taskIds

/-- A lease that is taken back makes its task ready. -/
theorem readyHeap_caughtUp_ne_nil (hdue : m.dueTasks ns nowMs ≠ [])
    (hcan : ∀ t, m.Due ns nowMs t → m.CanRequeue t) :
    ((m.caughtUp ns nowMs).readyHeap ns).entries ≠ [] := by
  obtain ⟨t, rest, hcons⟩ := exists_cons_of_ne_nil hdue
  have ht : m.Due ns nowMs t := mem_dueTasks.mp (hcons ▸ mem_cons_self)
  obtain ⟨task, lease, hget, hstate, -⟩ := ht.exists_lease
  obtain ⟨revision, hrevision⟩ := hcan t ht task hget
  have hmem : (⟨task.createdAtMs, t⟩ : TimedTask) ∈ (m.caughtUp ns nowMs).readyHeap ns :=
    mem_readyHeap_takeBack.mpr (Or.inr ⟨t, mem_dueTasks.mpr ht, task,
      by rw [expirationsPopped_state, hget], Task.takenBack_ne_of_leased hstate hrevision, rfl,
      rfl⟩)
  exact ne_nil_of_mem hmem

/-- The part of the claim that works on the queue. -/
theorem claimQueue_wp (h : Indexed m) (hreaches : m.Reaches c ns) :
    wp (do
      let recovered ← recoverExpiredLeases ns c.nowMs
      let ready ← popReadyTask ns
      match ready with
      | some taskId => leaseReadyTask c ns c.expectedGeneration taskId
      | none => do
          let m₁ ← get
          if recovered > 0 then do
            let nextRevision ← advance m₁.state.revision.next
            let m₂ := { m₁ with state := { m₁.state with revision := nextRevision } }
            set m₂
            return m₂.taskClaimResult c.expectedGeneration none
          else return m₁.taskClaimResult c.expectedGeneration none) m
      (Claimed m c) (fun _ => ClaimFailed m c) := by
  rw [wp_bind]
  refine wp_mono recoverExpiredLeases_wp ?_ ?_
  · rintro n s ⟨rfl, rfl, hcan⟩
    rw [wp_bind]
    refine wp_mono (popReadyTask_wp (h.recovered _)) ?_ fun _ _ hfalse => hfalse.elim
    rintro ready s (⟨rfl, hnil, rfl⟩ | ⟨e, rest, task, queued, hready, rfl, hget, hstate, rfl⟩)
    · -- The ready heap is empty, so no lease was taken back.
      have hdue : m.dueTasks ns c.nowMs = [] := by
        by_contra hne
        exact readyHeap_caughtUp_ne_nil hne hcan hnil
      rw [hdue] at hnil ⊢
      refine wp_get_bind ?_
      rw [if_neg (show ¬([] : List TaskId).length > 0 from Nat.lt_irrefl 0)]
      refine .idle hreaches hdue ?_
      rw [← hnil, recovered, takeBack_nil, readyHeap_expirationsPopped]
    · have hid : task.id = e.taskId := key_of_get hget
      have hrevision : (m.caughtUp ns c.nowMs).state.revision = m.state.revision := by
        rw [caughtUp, recovered, (takeBack_sameFrame _).revision, expirationsPopped_state]
      refine wp_mono
        (leaseReadyTask_wp (m := (m.caughtUp ns c.nowMs).readyPopped ns) hget hstate) ?_ ?_
      -- The revision of the state is not touched before the lease.
      · rintro result s ⟨expiresAtMs, epoch, taskRevision, revision, hexpires, hnext, hepoch,
          htaskNext, rfl, rfl⟩
        exact .leased hreaches hcan hready (by rw [hid]; exact hget) hid hstate hexpires hepoch
          htaskNext (by rw [← hrevision]; exact hnext)
      · rintro error s ⟨rfl, hblocked⟩
        exact .popped hreaches hcan hready (by rw [hid]; exact hget) hid hstate
          (by rw [← hrevision]; exact hblocked)
  · rintro e s ⟨done, stuck, rest, hsplit, rfl, hstuck⟩
    exact .stuck hreaches hsplit hstuck

theorem claimTask_wp (h : Indexed m) (c : ClaimTaskCommand) :
    wp (claimTask c) m (Claimed m c) (fun _ => ClaimFailed m c) := by
  refine wp_requireTerm_bind (fun hterm => ?_) fun hterm => ?_
  · refine wp_requireGroupMember_bind (fun ns hmember => ?_) fun e he => ?_
    · refine wp_get_bind ?_
      cases hactive : m.activeLeaseTasks.get c.leaseId with
      | none => exact claimQueue_wp h ⟨hterm, hmember, hactive⟩
      | some taskId =>
        have hrejected : ClaimFailed m c m := .rejected fun ns hreaches => by
          rw [hreaches.fresh] at hactive
          cases hactive
        obtain ⟨task, hget, hlease⟩ :=
          attr_eq_some_iff.mp ((h.active c.leaseId taskId).mp hactive)
        obtain ⟨lease, hlease, hleaseId⟩ := Option.map_eq_some_iff.mp hlease
        have hstate := Task.lease_eq_some_iff.mp hlease
        have hid : task.id = taskId := key_of_get hget
        dsimp only
        rw [hget]
        refine wp_found_bind (fun found hfound => ?_) fun hnone => by cases hnone
        cases hfound
        rw [hstate]
        refine wp_require_bind (fun howner => ?_) fun _ => hrejected
        exact .retried hmember (by rw [hid, hget]) hstate hleaseId howner.2
          ⟨hterm, hactive.trans (congrArg some hid.symm), howner.1⟩
    · refine .rejected fun ns hreaches => ?_
      rw [hreaches.member.requireMember_eq_ok] at he
      cases he
  · exact .rejected fun ns hreaches => hterm hreaches.term

/-! ## The indexes after a claim -/

theorem Claimed.indexed (h : Indexed m) {result : TaskClaimResult} {m' : BrokerStateMachine}
    (hclaimed : Claimed m c result m') : Indexed m' := by
  cases hclaimed with
  | retried => exact h
  | idle => exact h.popExpirations
  | @leased ns _ _ _ _ _ _ _ _ reaches _ ready get id state _ _ taskNext =>
      have hcaught : Indexed (m.caughtUp ns c.nowMs) := h.recovered _
      have hfresh : (m.caughtUp ns c.nowMs).activeLeaseTasks.get c.leaseId = none := by
        refine activeLeaseTasks_takeBack_eq_none h.popExpirations ?_
        obtain ⟨expirations, heq⟩ := expirationsPopped_cases m ns c.nowMs
        rw [heq]
        exact reaches.fresh
      refine (hcaught.popReady ns).grant ns get state hfresh ?_ (Counter.pos_of_next taskNext)
      intro ns' e' he'
      rw [id]
      exact notReady_readyPopped hcaught ready he'

theorem ClaimFailed.indexed (h : Indexed m) {m' : BrokerStateMachine}
    (hfailed : ClaimFailed m c m') : Indexed m' := by
  cases hfailed with
  | rejected => exact h
  | stuck => exact h.recovered _
  | popped => exact (h.recovered _).popReady _

end BrokerStateMachine

end AgentBroker
