import AgentBroker.Domain.LeaseHolders
import AgentBroker.Domain.RestoredRuns

/-!
# What a claim is for

`ExpireThenOldest` says what a successful claim does without heaps and entries: first
every expired lease of the namespace is taken back, then the oldest queued task of the
namespace is leased.  A machine restored from a checkpoint does exactly that, since its
expiration entries are those of the current leases and its ready entries those of the
queued tasks.

## Main results

* `due_iff_expired` — the tasks a restored machine finds due are those with an expired
  lease.
* `claim_expires_then_oldest` — a successful claim on a restored machine meets the
  specification.
-/

namespace AgentBroker

open Registry

/-! ## The specification -/

namespace BrokerState

/-- The task is leased in the namespace and its lease has expired. -/
def Expired (state : BrokerState) (ns : NamespaceId) (nowMs : TimestampMs) (t : TaskId) : Prop :=
  ∃ task lease, state.tasks.get t = some task ∧ task.namespaceId = ns ∧
    task.state = .leased lease ∧ lease.expiresAtMs ≤ nowMs

/-- The tasks after exactly the expired leases of a namespace were taken back: the
tasks are queued with the epochs they had, at the next revision. -/
structure LeasesExpired (before : BrokerState) (ns : NamespaceId) (nowMs : TimestampMs)
    (tasks : Tasks) : Prop where
  expired : ∀ {t task lease}, before.tasks.get t = some task → task.namespaceId = ns →
    task.state = .leased lease → lease.expiresAtMs ≤ nowMs →
    ∃ revision, task.revision.next = .ok revision ∧
      tasks.get t = some { task with state := .queued ⟨lease.leaseEpoch⟩, revision := revision }
  others : ∀ {t}, ¬before.Expired ns nowMs t → tasks.get t = before.tasks.get t

end BrokerState

/-- The task is queued in the namespace. -/
def Tasks.QueuedIn (tasks : Tasks) (ns : NamespaceId) (task : Task) : Prop :=
  tasks.get task.id = some task ∧ task.namespaceId = ns ∧ ∃ queued, task.state = .queued queued

/-- The task is queued in the namespace, and none that is was created before it; of
those created at one time it has the least id. -/
def Tasks.OldestIn (tasks : Tasks) (ns : NamespaceId) (task : Task) : Prop :=
  tasks.QueuedIn ns task ∧ ∀ other, tasks.QueuedIn ns other →
    task.createdAtMs < other.createdAtMs ∨
      (task.createdAtMs = other.createdAtMs ∧ task.id ≤ other.id)

/-- **The purpose of a claim.**  Exactly the expired leases of the namespace are taken
back; of the tasks queued then, the oldest is leased to the claimant. -/
structure ExpireThenOldest (before after : BrokerState) (c : ClaimTaskCommand)
    (ns : NamespaceId) (claimed : Option TaskId) : Prop where
  tasks : ∃ middle : Tasks, before.LeasesExpired ns c.nowMs middle ∧
    ((claimed = none ∧ (∀ task, ¬middle.QueuedIn ns task) ∧ after.tasks = middle) ∨
      ∃ task queued epoch revision expiresAtMs, claimed = some task.id ∧
        middle.OldestIn ns task ∧ task.state = .queued queued ∧
        epoch.get = queued.leaseEpoch.get + 1 ∧ task.revision.next = .ok revision ∧
        expiresAtMs.get = c.nowMs.get + c.leaseDurationMs.get ∧
        after.tasks = middle.put { task with
          state := .leased ⟨c.leaseId, c.memberId, c.groupId, c.expectedGeneration, epoch,
            expiresAtMs⟩
          revision := revision })
  groups : after.groups = before.groups
  namespaces : after.namespaces = before.namespaces
  term : after.term = before.term
  revision : (after.tasks = before.tasks ∧ after.revision = before.revision) ∨
    (after.tasks ≠ before.tasks ∧ after.revision.get = before.revision.get + 1)

namespace BrokerStateMachine

variable {m m' : BrokerStateMachine} {c : ClaimTaskCommand} {ns : NamespaceId}
  {nowMs : TimestampMs} {t : TaskId}

/-! ## What is due and what is ready -/

/-- With complete and current entries, the due tasks are those with an expired lease. -/
theorem due_iff_expired (hcomplete : Complete m) (hcurrent : Current m) :
    m.Due ns nowMs t ↔ m.state.Expired ns nowMs t := by
  constructor
  · rintro ⟨e, he, rfl, hexpired, -⟩
    obtain ⟨task, lease, hget, hns, hstate, heq⟩ := hcurrent ns e he
    refine ⟨task, lease, hget, hns, hstate, ?_⟩
    rw [heq] at hexpired
    exact hexpired
  · rintro ⟨task, lease, hget, rfl, hstate, hexpired⟩
    have hid : task.id = t := key_of_get hget
    have hmem := hcomplete hget
    unfold Entered at hmem
    rw [hstate] at hmem
    exact ⟨_, hmem, hid, hexpired,
      LeaseExpiration.live_iff.mpr ⟨task, lease, by rw [hid, hget], hstate, rfl, rfl⟩⟩

/-- The due tasks of a restored machine are tasks of the namespace. -/
theorem namespace_of_due (hcomplete : Complete m) (hcurrent : Current m) {task : Task}
    (hdue : m.Due ns nowMs t) (hget : m.state.tasks.get t = some task) :
    task.namespaceId = ns := by
  obtain ⟨found, lease, hfound, hns, -⟩ := (due_iff_expired hcomplete hcurrent).mp hdue
  cases hget.symm.trans hfound
  exact hns

/-- Taking back what is due expires exactly the leases that have expired. -/
theorem caughtUp_leasesExpired (hcomplete : Complete m) (hcurrent : Current m)
    (hcan : ∀ t, m.Due ns nowMs t → m.CanRequeue t) :
    m.state.LeasesExpired ns nowMs (m.caughtUp ns nowMs).state.tasks := by
  have hget : ∀ t, (m.caughtUp ns nowMs).state.tasks.get t =
      if t ∈ m.dueTasks ns nowMs then (m.state.tasks.get t).map Task.takenBack
      else m.state.tasks.get t := by
    intro t
    rw [caughtUp, recovered, get_takeBack, expirationsPopped_state]
  refine ⟨fun {t task lease} htask hns hstate hexpired => ?_, fun {t} hkept => ?_⟩
  · have hdue : m.Due ns nowMs t :=
      (due_iff_expired hcomplete hcurrent).mpr ⟨task, lease, htask, hns, hstate, hexpired⟩
    obtain ⟨revision, hnext⟩ := hcan t hdue task htask
    refine ⟨revision, hnext, ?_⟩
    rw [hget t, if_pos (mem_dueTasks.mpr hdue), htask, Option.map_some,
      Task.takenBack_of_leased hstate hnext]
    rfl
  · have hnot : t ∉ m.dueTasks ns nowMs := fun hmem =>
      hkept ((due_iff_expired hcomplete hcurrent).mp (mem_dueTasks.mp hmem))
    rw [hget t, if_neg hnot]

/-- Without expired leases the tasks are as they were. -/
theorem leasesExpired_of_no_due (hcomplete : Complete m) (hcurrent : Current m)
    (hdue : m.dueTasks ns nowMs = []) : m.state.LeasesExpired ns nowMs m.state.tasks := by
  refine ⟨fun {t task lease} htask hns hstate hexpired => ?_, fun _ => rfl⟩
  have hmem := mem_dueTasks.mpr
    ((due_iff_expired hcomplete hcurrent).mpr ⟨task, lease, htask, hns, hstate, hexpired⟩)
  rw [hdue] at hmem
  cases hmem

/-- Complete ready entries are the queued tasks of the namespace. -/
theorem mem_readyHeap_iff_queuedIn (h : Indexed m) (hcomplete : Complete m) {task : Task}
    (hget : m.state.tasks.get task.id = some task) :
    ⟨task.createdAtMs, task.id⟩ ∈ m.readyHeap ns ↔ m.state.tasks.QueuedIn ns task := by
  rw [mem_readyHeap_iff h hcomplete]
  constructor
  · rintro ⟨found, hfound, hns, hready⟩
    cases hget.symm.trans hfound
    exact ⟨hget, hns, (Task.readyAt_eq_some_iff.mp hready).1⟩
  · rintro ⟨-, hns, hqueued⟩
    exact ⟨task, hget, hns, Task.readyAt_eq_some_iff.mpr ⟨hqueued, rfl⟩⟩

/-- The least ready entry names the oldest queued task. -/
theorem oldestIn_of_head (h : Indexed m) (hcomplete : Complete m) {e : TimedTask}
    {rest : List TimedTask} {task : Task} (hready : (m.readyHeap ns).entries = e :: rest)
    (hget : m.state.tasks.get task.id = some task) (hid : task.id = e.taskId) :
    m.state.tasks.OldestIn ns task := by
  have hmem : e ∈ m.readyHeap ns := by
    rw [MinHeap.mem_def, hready]
    exact List.mem_cons_self
  obtain ⟨found, hfound, hns, hat⟩ := (mem_readyHeap_iff h hcomplete).mp hmem
  rw [← hid] at hfound
  cases hget.symm.trans hfound
  obtain ⟨hqueued, hcreated⟩ := Task.readyAt_eq_some_iff.mp hat
  refine ⟨⟨hget, hns, hqueued⟩, fun other hother => ?_⟩
  have hother' := (mem_readyHeap_iff_queuedIn h hcomplete hother.1).mpr hother
  have hsorted := (m.readyHeap ns).sorted
  rw [hready] at hsorted
  rw [MinHeap.mem_def, hready] at hother'
  have hle : e ≤ ⟨other.createdAtMs, other.id⟩ := by
    rcases List.mem_cons.mp hother' with heq | hrest
    · exact heq.ge
    · exact (List.pairwise_cons.mp hsorted).1 _ hrest
  have hlex : toLex (e.atMs, e.taskId) ≤ toLex (other.createdAtMs, other.id) := hle
  rw [hid, hcreated]
  exact Prod.Lex.toLex_le_toLex.mp hlex

/-! ## Claims on a restored machine -/

theorem Claimed.expireThenOldest (h : Indexed m) (hcomplete : Complete m) (hcurrent : Current m)
    {result : TaskClaimResult} (hclaimed : Claimed m c result m')
    (hinactive : m.activeLeaseTasks.get c.leaseId = none) :
    ∃ group, m.state.groups.get c.groupId = some group ∧
      ExpireThenOldest m.state m'.state c group.namespaceId result.taskId := by
  cases hclaimed with
  | @retried _ task lease _ get state leaseId =>
    -- The lease id of a retry is active.
    have hactive := (h.active c.leaseId task.id).mpr
      ((attr_of_get get).trans (by rw [← leaseId]; exact Task.activeLeaseId_of_leased state))
    rw [hinactive] at hactive
    cases hactive
  | @idle ns reaches due ready =>
    obtain ⟨group, member, hgroup, -, -, rfl⟩ := reaches.member
    refine ⟨group, hgroup, ?_⟩
    rw [expirationsPopped_state]
    refine ⟨⟨m.state.tasks, leasesExpired_of_no_due hcomplete hcurrent due,
      Or.inl ⟨rfl, fun task hqueued => ?_, rfl⟩⟩, rfl, rfl, rfl, Or.inl ⟨rfl, rfl⟩⟩
    have hmem := (mem_readyHeap_iff_queuedIn h hcomplete hqueued.1).mpr hqueued
    rw [MinHeap.mem_def, ready] at hmem
    cases hmem
  | @leased ns e rest task queued expiresAtMs epoch taskRevision revision reaches due ready get
      id state expires epochNext taskNext next =>
      obtain ⟨group, member, hgroup, -, -, rfl⟩ := reaches.member
      have hframe : SameFrame (m.expirationsPopped group.namespaceId c.nowMs)
          (m.caughtUp group.namespaceId c.nowMs) := takeBack_sameFrame _
      have hpopped : (m.expirationsPopped group.namespaceId c.nowMs).state = m.state :=
        expirationsPopped_state
      have hindexed : Indexed (m.caughtUp group.namespaceId c.nowMs) := h.recovered _
      have hcaughtUp : Complete (m.caughtUp group.namespaceId c.nowMs) :=
        caughtUp_complete hcomplete
          (fun t task hdue hget => namespace_of_due hcomplete hcurrent hdue hget) due
      -- The new lease has a revision that the task did not have.
      have hchanged : (m.caughtUp group.namespaceId c.nowMs).state.tasks.put
          (task.toLeased (leaseFor c epoch expiresAtMs) taskRevision) ≠ m.state.tasks := by
        intro heq
        have hne : m.state.tasks.get task.id ≠
            some (task.toLeased (leaseFor c epoch expiresAtMs) taskRevision) :=
          get_ne_leased get taskNext
        rw [← heq] at hne
        exact hne (get_put_self _ _)
      refine ⟨group, hgroup, ⟨⟨_, caughtUp_leasesExpired hcomplete hcurrent due, Or.inr
        ⟨task, queued, epoch, taskRevision, expiresAtMs, rfl,
          oldestIn_of_head hindexed hcaughtUp ready get id, state, Counter.next_get epochNext,
          taskNext, TimestampMs.checkedAdd_eq_some_iff.mp expires, rfl⟩⟩, ?_, ?_, ?_,
        Or.inr ⟨hchanged, Counter.next_get next⟩⟩⟩
      · exact hframe.groups.trans (congrArg BrokerState.groups hpopped)
      · exact hframe.namespaces.trans (congrArg BrokerState.namespaces hpopped)
      · exact hframe.term.trans (congrArg BrokerState.term hpopped)

/-- **A claim expires leases, then takes the oldest task.**  On a machine restored from
any accepted checkpoint, a claim that succeeds under a lease id that no task holds does
what `ExpireThenOldest` says, in the namespace of its group. -/
theorem claim_expires_then_oldest (checkpoint : BrokerCheckpoint) (r : BrokerStateMachine)
    (c : ClaimTaskCommand) (applied : AppliedMutation)
    (hrestored : fromCheckpoint checkpoint = .ok r)
    (hinactive : ∀ t task lease, r.state.tasks.get t = some task →
      task.state = .leased lease → lease.leaseId ≠ c.leaseId)
    (hok : (apply r (.claimTask c)).2 = .ok applied) :
    ∃ group result, r.state.groups.get c.groupId = some group ∧
      applied.result = .taskClaim result ∧
      ExpireThenOldest r.state (apply r (.claimTask c)).1.state c group.namespaceId
        result.taskId := by
  obtain ⟨hindexed, hcomplete, hcurrent⟩ := fromCheckpoint_ok hrestored
  have hnone : r.activeLeaseTasks.get c.leaseId = none := by
    refine hindexed.active.get_eq_none fun t ht => ?_
    obtain ⟨task, hget, hactive⟩ := attr_eq_some_iff.mp ht
    obtain ⟨lease, hlease, hleaseId⟩ := Option.map_eq_some_iff.mp hactive
    exact hinactive t task lease hget (Task.lease_eq_some_iff.mp hlease) hleaseId
  rcases apply_cases hindexed (.claimTask c) with ⟨result, hresult, hstep⟩ | ⟨error, herror, -⟩
  · rw [hresult] at hok
    cases hok
    obtain ⟨claim, rfl, hclaimed⟩ := hstep.claimed
    obtain ⟨group, hgroup, hspec⟩ :=
      hclaimed.expireThenOldest hindexed.clearChanges hcomplete hcurrent hnone
    exact ⟨group, claim, hgroup, rfl, hspec⟩
  · rw [herror] at hok
    cases hok

/-- The later claim on the machine restored with the brief lease finds it expired and
leases the task again. -/
theorem restored_claim_expires_brief_lease :
    ∃ r applied group result,
      fromCheckpoint (run initial briefLease).state.checkpoint = .ok r ∧
      (apply r (.claimTask laterClaim)).2 = .ok applied ∧
      r.state.groups.get laterClaim.groupId = some group ∧
      applied.result = .taskClaim result ∧
      ExpireThenOldest r.state (apply r (.claimTask laterClaim)).1.state laterClaim
        group.namespaceId result.taskId := by
  obtain ⟨r, hrestored, -, hindexed, -⟩ := fromCheckpoint_checkpoint (run_indexed briefLease)
  have hruns : (fromCheckpoint (run initial briefLease).state.checkpoint).map (fun r =>
      ((apply r (.claimTask laterClaim)).2.isOk, r.activeLeaseTasks.get laterClaim.leaseId)) =
        .ok (true, none) := by decide +kernel
  rw [hrestored] at hruns
  obtain ⟨hisOk, hnone⟩ := Prod.mk.inj (Except.ok.inj hruns)
  have hinactive : ∀ t task lease, r.state.tasks.get t = some task →
      task.state = .leased lease → lease.leaseId ≠ laterClaim.leaseId := by
    intro t task lease hget hstate hsame
    have hactive := (hindexed.active laterClaim.leaseId t).mpr
      ((attr_of_get hget).trans
        (by rw [← hsame]; exact Task.activeLeaseId_of_leased hstate))
    rw [hnone] at hactive
    cases hactive
  cases hok : (apply r (.claimTask laterClaim)).2 with
  | error error =>
    rw [hok] at hisOk
    cases hisOk
  | ok applied =>
    obtain ⟨group, result, hgroup, hresult, hspec⟩ :=
      claim_expires_then_oldest _ r laterClaim applied hrestored hinactive hok
    exact ⟨r, applied, group, result, hrestored, hok, hgroup, hresult, hspec⟩

end BrokerStateMachine

end AgentBroker
