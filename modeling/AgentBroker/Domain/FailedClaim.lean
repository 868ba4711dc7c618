import AgentBroker.Domain.Steps

/-!
# Claims that fail

A claim takes expired leases back and pops the ready heap before its last checks.
This module says exactly which claims can fail without leaving anything behind:
those that a guard rejects, and those whose last checks cannot fail.

## Main results

* `mem_readyHeap_caughtUp` — the tasks a claim can choose from.
* `failed_claim_changes_nothing_iff` — when a claim that fails changes nothing.
-/

namespace AgentBroker

open List Counter

namespace BrokerStateMachine

variable {m m' : BrokerStateMachine} {ns : NamespaceId} {nowMs : TimestampMs}

/-! ## The task a claim hands out -/

/-- The task is ready in the namespace, or its lease is due there. -/
def Offered (m : BrokerStateMachine) (ns : NamespaceId) (nowMs : TimestampMs) (e : TimedTask) :
    Prop :=
  e ∈ m.readyHeap ns ∨ (m.Due ns nowMs e.taskId ∧
    ∃ task, m.state.tasks.get e.taskId = some task ∧ task.createdAtMs = e.atMs)

/-- The oldest task on offer. -/
def NextOffered (m : BrokerStateMachine) (ns : NamespaceId) (nowMs : TimestampMs)
    (e : TimedTask) : Prop :=
  m.Offered ns nowMs e ∧ ∀ e', m.Offered ns nowMs e' → e ≤ e'

theorem mem_readyHeap_caughtUp (hcan : ∀ t, m.Due ns nowMs t → m.CanRequeue t) {e : TimedTask} :
    e ∈ (m.caughtUp ns nowMs).readyHeap ns ↔ m.Offered ns nowMs e := by
  rw [caughtUp, recovered, mem_readyHeap_takeBack, readyHeap_expirationsPopped,
    expirationsPopped_state]
  refine or_congr_right ⟨?_, ?_⟩
  · rintro ⟨t, ht, task, hget, -, -, rfl⟩
    exact ⟨mem_dueTasks.mp ht, task, hget, rfl⟩
  · rintro ⟨hdue, task, hget, hat⟩
    obtain ⟨lease, hstate, -⟩ := hdue.leased hget
    obtain ⟨revision, hrevision⟩ := hcan e.taskId hdue task hget
    refine ⟨e.taskId, mem_dueTasks.mpr hdue, task, hget,
      Task.takenBack_ne_of_leased hstate hrevision, rfl, ?_⟩
    rw [hat]

/-- The head of the ready heap is the oldest task on offer. -/
theorem nextOffered_of_head (hcan : ∀ t, m.Due ns nowMs t → m.CanRequeue t) {e : TimedTask}
    {rest : List TimedTask} (hready : ((m.caughtUp ns nowMs).readyHeap ns).entries = e :: rest) :
    m.NextOffered ns nowMs e := by
  have hsorted := ((m.caughtUp ns nowMs).readyHeap ns).sorted
  rw [hready] at hsorted
  refine ⟨(mem_readyHeap_caughtUp hcan).mp ?_, fun e' he' => ?_⟩
  · rw [MinHeap.mem_def, hready]
    exact mem_cons_self
  · have hmem := (mem_readyHeap_caughtUp hcan).mpr he'
    rw [MinHeap.mem_def, hready] at hmem
    rcases mem_cons.mp hmem with heq | hrest
    · exact heq.ge
    · exact (pairwise_cons.mp hsorted).1 e' hrest

theorem NextOffered.unique {e e' : TimedTask} (h : m.NextOffered ns nowMs e)
    (h' : m.NextOffered ns nowMs e') : e = e' :=
  le_antisymm (h.2 e' h'.1) (h'.2 e h.1)

/-- The task at the head of the ready heap, as it was before the claim: the same
epoch, and one revision less if its lease was taken back. -/
theorem get_before_caughtUp (hcan : ∀ t, m.Due ns nowMs t → m.CanRequeue t) {task : Task}
    {queued : QueuedTask} (hget : (m.caughtUp ns nowMs).state.tasks.get task.id = some task)
    (hstate : task.state = .queued queued) :
    ∃ before, m.state.tasks.get task.id = some before ∧
      before.state.leaseEpoch = queued.leaseEpoch ∧
      task.revision.get = before.revision.get + if before.status = .leased then 1 else 0 := by
  rw [caughtUp, recovered, get_takeBack, expirationsPopped_state] at hget
  split_ifs at hget with hdue
  · obtain ⟨before, hbefore, hback⟩ := Option.map_eq_some_iff.mp hget
    obtain ⟨lease, hleased, -⟩ := (mem_dueTasks.mp hdue).leased hbefore
    obtain ⟨revision, hrevision⟩ := hcan task.id (mem_dueTasks.mp hdue) before hbefore
    rw [Task.takenBack_of_leased hleased hrevision] at hback
    refine ⟨before, hbefore, ?_, ?_⟩
    · rw [← hback] at hstate
      cases hstate
      rw [hleased]
      rfl
    · rw [← hback, Task.status, hleased]
      exact next_get hrevision
  · refine ⟨task, hget, ?_, ?_⟩
    · rw [hstate]
      rfl
    · rw [Task.status, hstate]
      rfl

/-! ## Claims that cannot fail late -/

/-- None of the counters a claim advances is exhausted and its deadline does not
overflow: every lease that is due can be taken back, and the oldest task on offer
can be leased. -/
def CanFinish (m : BrokerStateMachine) (c : ClaimTaskCommand) (ns : NamespaceId) : Prop :=
  (∀ t task, m.Due ns c.nowMs t → m.state.tasks.get t = some task →
    task.revision.get + 1 < u64Size) ∧
  ∀ e task, m.NextOffered ns c.nowMs e → m.state.tasks.get e.taskId = some task →
    c.nowMs.get + c.leaseDurationMs.get < u64Size ∧ m.state.revision.get + 1 < u64Size ∧
    task.state.leaseEpoch.get + 1 < u64Size ∧
    (task.revision.get + if task.status = .leased then 1 else 0) + 1 < u64Size

theorem CanFinish.canRequeue {c : ClaimTaskCommand} (h : m.CanFinish c ns) {t : TaskId}
    (hdue : m.Due ns c.nowMs t) : m.CanRequeue t := fun task hget =>
  next_isOk_iff.mpr (h.1 t task hdue hget)

/-- A claim that finishes could. -/
theorem Claimed.canFinish (h : Indexed m) {c : ClaimTaskCommand} {result : TaskClaimResult}
    (hclaimed : Claimed m c result m') (hreaches : m.Reaches c ns) : m.CanFinish c ns := by
  cases hclaimed with
  | @retried _ task lease _ get state leaseId =>
    -- The lease id would be active.
    have hactive : m.activeLeaseTasks.get c.leaseId = some task.id :=
      (h.active _ _).mpr ((Registry.attr_of_get get).trans (by
        rw [Task.activeLeaseId_of_leased state, leaseId]))
    rw [hreaches.fresh] at hactive
    cases hactive
  | @idle ns' reaches due ready =>
    have hns : ns' = ns := reaches.member.unique hreaches.member
    subst hns
    have hnone : ∀ t, ¬m.Due ns' c.nowMs t := fun t ht => by
      rw [← mem_dueTasks, due] at ht
      cases ht
    refine ⟨fun t task hdue _ => absurd hdue (hnone t), fun e task hnext _ => ?_⟩
    rcases hnext.1 with hmem | ⟨hdue, -⟩
    · rw [MinHeap.mem_def, ready] at hmem
      cases hmem
    · exact absurd hdue (hnone e.taskId)
  | @leased ns' e rest task queued expiresAtMs epoch taskRevision revision reaches due ready
      get id state expires epochNext taskNext next =>
      have hns : ns' = ns := reaches.member.unique hreaches.member
      subst hns
      refine ⟨fun t task hdue hget => next_isOk_iff.mp (due t hdue task hget),
        fun e' task' hnext hget' => ?_⟩
      -- The head of the heap is the one task that can be offered next.
      have heq : e' = e := hnext.unique (nextOffered_of_head due ready)
      subst heq
      obtain ⟨before, hbefore, hepoch, hrevision⟩ := get_before_caughtUp due get state
      rw [id, hget'] at hbefore
      cases hbefore
      refine ⟨?_, next_isOk_iff.mp ⟨revision, next⟩, ?_, ?_⟩
      · rw [← TimestampMs.checkedAdd_eq_some_iff.mp expires]
        exact expiresAtMs.isLt
      · rw [hepoch]
        exact next_isOk_iff.mp ⟨epoch, epochNext⟩
      · rw [← hrevision]
        exact next_isOk_iff.mp ⟨taskRevision, taskNext⟩

/-- A claim that can finish does not fail late. -/
theorem ClaimFailed.of_canFinish {c : ClaimTaskCommand} (hfailed : ClaimFailed m c m')
    (hcan : ∀ ns, m.Reaches c ns → m.CanFinish c ns) : m' = m ∧ ∀ ns, ¬m.Reaches c ns := by
  cases hfailed with
  | rejected reaches => exact ⟨rfl, reaches⟩
  | @stuck ns done t rest reaches due blocked =>
    have ht : m.Due ns c.nowMs t :=
      mem_dueTasks.mp (due ▸ mem_append_right done mem_cons_self)
    exact absurd ((hcan ns reaches).canRequeue ht) blocked
  | @popped ns e _ _ _ reaches due ready get id state blocked =>
    obtain ⟨before, hbefore, hepoch, hrevision⟩ := get_before_caughtUp due get state
    rw [id] at hbefore
    obtain ⟨hdeadline, hglobal, hepochs, hrevisions⟩ :=
      (hcan ns reaches).2 e before (nextOffered_of_head due ready) hbefore
    rw [hepoch] at hepochs
    rw [← hrevision] at hrevisions
    rcases blocked with hnone | ⟨error, herror⟩ | ⟨error, herror⟩ | ⟨error, herror⟩
    · simp [TimestampMs.checkedAdd, hdeadline] at hnone
    · obtain ⟨next, hnext⟩ := next_isOk_iff.mpr hglobal
      rw [herror] at hnext
      cases hnext
    · obtain ⟨next, hnext⟩ := next_isOk_iff.mpr hepochs
      rw [herror] at hnext
      cases hnext
    · obtain ⟨next, hnext⟩ := next_isOk_iff.mpr hrevisions
      rw [herror] at hnext
      cases hnext

/-! ## What a failed claim loses -/

/-- The same state and lease indexes, and the same heaps up to stale entries. -/
def SameUpToStale (m m' : BrokerStateMachine) : Prop :=
  m'.state = m.state ∧ m'.activeLeaseTasks = m.activeLeaseTasks ∧
  m'.memberLeaseTasks = m.memberLeaseTasks ∧
  (∀ ns, (m'.readyHeap ns).entries.filter (·.live m'.state.tasks) =
    (m.readyHeap ns).entries.filter (·.live m.state.tasks)) ∧
  ∀ ns, (m'.expirationHeap ns).entries.filter (·.live m'.state.tasks) =
    (m.expirationHeap ns).entries.filter (·.live m.state.tasks)

/-- A lease that is due loses its expiration entry. -/
theorem not_sameUpToStale_of_due {t : TaskId} (hdue : m.Due ns nowMs t)
    (hheap : (m'.expirationHeap ns).entries = ((m.expirationsPopped ns nowMs).expirationHeap
      ns).entries) : ¬SameUpToStale m m' := by
  rintro ⟨-, -, -, -, hsame⟩
  obtain ⟨e, he, -, hexpired, hlive⟩ := hdue
  have hbefore : e ∈ (m.expirationHeap ns).entries.filter (·.live m.state.tasks) :=
    mem_filter.mpr ⟨he, hlive⟩
  rw [← hsame ns, hheap, expirationHeap_expirationsPopped, if_pos rfl] at hbefore
  have hlater := (mem_filter.mp (mem_filter.mp hbefore).1).2
  simp [hexpired] at hlater

/-- A claim that fails late loses the entry of a lease or of a ready task. -/
theorem ClaimFailed.not_sameUpToStale (h : Indexed m) {c : ClaimTaskCommand}
    (hfailed : ClaimFailed m c m') (hreaches : m.Reaches c ns) : ¬SameUpToStale m m' := by
  cases hfailed with
  | rejected reaches => exact absurd hreaches (reaches ns)
  | @stuck ns' done t _ _ due =>
    have ht : m.Due ns' c.nowMs t :=
      mem_dueTasks.mp (due ▸ mem_append_right done mem_cons_self)
    refine not_sameUpToStale_of_due ht ?_
    rw [expirationHeap, recovered, (takeBack_sameFrame _).leaseExpirations]
    rfl
  | @popped ns' e _ _ _ _ due ready _ _ state =>
    by_cases hdue : m.dueTasks ns' c.nowMs = []
    · -- Nothing was due: the ready heap was popped.
      have hcaught : m.caughtUp ns' c.nowMs = m.expirationsPopped ns' c.nowMs := by
        rw [caughtUp, recovered, hdue, takeBack_nil]
      rw [hcaught, readyHeap_expirationsPopped] at ready
      rintro ⟨-, -, -, hsame, -⟩
      have he : e ∈ m.readyHeap ns' := by
        rw [MinHeap.mem_def, ready]
        exact mem_cons_self
      have hlive : e.live m.state.tasks = true := by
        rw [TimedTask.live, h.ready.sound he]
        rfl
      have hbefore : e ∈ (m.readyHeap ns').entries.filter (·.live m.state.tasks) :=
        mem_filter.mpr ⟨he, hlive⟩
      rw [← hsame ns', hcaught] at hbefore
      have hpopped : (m.expirationsPopped ns' c.nowMs).readyHeap ns' = m.readyHeap ns' :=
        readyHeap_expirationsPopped ns'
      exact notReady_readyPopped h.popExpirations (hpopped ▸ ready)
        (mem_filter.mp hbefore).1 rfl
    · obtain ⟨t, rest', hcons⟩ := exists_cons_of_ne_nil hdue
      have ht : m.Due ns' c.nowMs t := mem_dueTasks.mp (hcons ▸ mem_cons_self)
      refine not_sameUpToStale_of_due ht ?_
      show ((m.caughtUp ns' c.nowMs).expirationHeap ns').entries = _
      rw [caughtUp, expirationHeap, recovered, (takeBack_sameFrame _).leaseExpirations]
      rfl

theorem reaches_clearChanges {c : ClaimTaskCommand} :
    m.clearChanges.Reaches c ns ↔ m.Reaches c ns :=
  ⟨fun h => ⟨h.term, h.member, h.fresh⟩, fun h => ⟨h.term, h.member, h.fresh⟩⟩

/-- **Failed claims.**  A claim that fails leaves the state and the lease indexes,
and the heaps up to stale entries, as they were, exactly if it is rejected by a guard
or none of its later checks can fail. -/
theorem failed_claim_changes_nothing_iff (commands : List BrokerCommand) (c : ClaimTaskCommand) :
    (∀ error, (apply (run initial commands) (.claimTask c)).2 = .error error →
      SameUpToStale (run initial commands) (apply (run initial commands) (.claimTask c)).1) ↔
    ∀ ns, (run initial commands).Reaches c ns → (run initial commands).CanFinish c ns := by
  have h := run_indexed commands
  generalize run initial commands = m at h ⊢
  constructor
  · intro hsame ns hreaches
    rcases apply_cases h (.claimTask c) with ⟨result, -, hstep⟩ | ⟨error, herror, hstep⟩
    · obtain ⟨claim, -, hclaimed⟩ := hstep.claimed
      exact hclaimed.canFinish h.clearChanges (reaches_clearChanges.mpr hreaches)
    · have hlost := hstep.claimFailed.not_sameUpToStale h.clearChanges
        (reaches_clearChanges.mpr hreaches)
      exact absurd (hsame error herror) hlost
  · intro hcan error herror
    rcases apply_cases h (.claimTask c) with ⟨result, hok, -⟩ | ⟨error, -, hstep⟩
    · rw [herror] at hok
      cases hok
    · rw [(hstep.claimFailed.of_canFinish fun ns hreaches =>
        hcan ns (reaches_clearChanges.mp hreaches)).1]
      exact ⟨rfl, rfl, rfl, fun _ => rfl, fun _ => rfl⟩

/-! ## A run in which a failed claim loses a task -/

/-- The identifiers and the texts of the sample commands. -/
def namespaceA : NamespaceId := ⟨"a", by decide⟩
def groupG : ConsumerGroupId := ⟨"g", by decide⟩
def workerW : ConsumerId := ⟨"w", by decide⟩
def workerV : ConsumerId := ⟨"v", by decide⟩
def taskT : TaskId := ⟨"t", by decide⟩
def leaseL : LeaseId := ⟨"l", by decide⟩
def someObjective : TaskObjective := ⟨"work", by decide⟩
def someResult : TaskResult := ⟨"done", by decide⟩

/-- Commands that set up a namespace with one group, which has one member. -/
def setUp (ns : NamespaceId) (group : ConsumerGroupId) (member : ConsumerId) :
    List BrokerCommand :=
  [.ensureNamespace ⟨ns, 8⟩,
    .ensureConsumerGroup ⟨ns, group, 8⟩,
    .joinConsumerGroup
      ⟨group, member, ⟨∅, Capabilities.bounded_empty⟩, 0, 8⟩]

/-- Publish a task at time zero. -/
def publish (ns : NamespaceId) (task : TaskId) : BrokerCommand :=
  .publishTask ⟨ns, task, someObjective, 0, 8⟩

/-- The claim of the only member a group has had. -/
def claimBy (group : ConsumerGroupId) (member : ConsumerId) (lease : LeaseId)
    (nowMs : TimestampMs) (durationMs : U64) : ClaimTaskCommand :=
  ⟨group, member, 1, 1, lease, nowMs, durationMs⟩

/-- One queued task. -/
def oneTask : List BrokerCommand :=
  setUp namespaceA groupG workerW ++
    [publish namespaceA taskT]

/-- A claim whose deadline does not fit a timestamp. -/
def overflowingClaim : ClaimTaskCommand :=
  claimBy groupG workerW leaseL
    ⟨u64Size - 1, by decide⟩ 1

/-- The claim fails because its deadline overflows, and the queued task is no longer
in the ready heap of its namespace. -/
theorem overflowing_claim_loses_ready_task :
    (apply (run initial oneTask) (.claimTask overflowingClaim)).2 =
        .error .timestampOverflow ∧
      ¬SameUpToStale (run initial oneTask)
        (apply (run initial oneTask) (.claimTask overflowingClaim)).1 := by
  refine ⟨by decide +kernel, ?_⟩
  rintro ⟨-, -, -, hready, -⟩
  have hlost := hready namespaceA
  revert hlost
  decide +kernel

end BrokerStateMachine

end AgentBroker
