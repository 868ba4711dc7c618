import AgentBroker.Domain.Agreement

/-!
# Runs after a restore

A machine restored from a checkpoint should behave like the machine it was taken
from.  It does as long as the heaps are complete: every queued task has its ready
entry and every lease its expiration entry, in the namespace of the task.  Only a
claim can break that, in two ways: it fails after it has popped an entry, or it takes
back a lease of another namespace.

## Main results

* `apply_complete` — a command that does neither keeps the heaps complete.
* `restart_heals_heaps` — the heaps of a restored machine are exact.
* `Restored.step` — a restored machine answers each such command like the original.
* `restore_unobservable` — and so it answers whole runs.
-/

namespace AgentBroker

open Registry

namespace BrokerStateMachine

variable {m m' r : BrokerStateMachine} {c : BrokerCommand}

/-! ## Complete heaps along a run -/

/-- A claim that gets past its guards takes back leases of its own namespace only, and
none of its later checks can fail. -/
def Undisturbed (m : BrokerStateMachine) (c : BrokerCommand) : Prop :=
  m.OwnLeasesDue c ∧
    ∀ claim ns, c = .claimTask claim → m.Reaches claim ns → m.CanFinish claim ns

theorem takeBack_complete (h : Complete m) (taskIds : List TaskId) :
    Complete (m.takeBack Task.namespaceId taskIds) := by
  induction taskIds generalizing m with
  | nil => exact h
  | cons taskId rest ih =>
    refine ih ?_
    rcases takeBackOne_cases Task.namespaceId m taskId with
      ⟨task, lease, revision, -, -, -, -, heq⟩ | ⟨heq, -⟩
    · rw [heq]
      refine h.put rfl (fun ns e he => ?_) (fun ns e he => he) ?_
      · exact Index.mem_getD_push.mpr (Or.inr he)
      · exact Index.mem_getD_push.mpr (Or.inl ⟨rfl, rfl⟩)
    · rw [heq]
      exact h

variable {ns : NamespaceId} {nowMs : TimestampMs}

/-- After all leases that are due were taken back, the heaps are complete again. -/
theorem caughtUp_complete (h : Complete m)
    (hown : ∀ t task, m.Due ns nowMs t → m.state.tasks.get t = some task →
      task.namespaceId = ns) (hcan : ∀ t, m.Due ns nowMs t → m.CanRequeue t) :
    Complete (m.caughtUp ns nowMs) := by
  intro t task hget
  have hready : ∀ ns' e, e ∈ m.readyHeap ns' → e ∈ (m.caughtUp ns nowMs).readyHeap ns' := by
    intro ns' e he
    refine mem_readyHeap_takeBack.mpr (Or.inl ?_)
    rw [readyHeap_expirationsPopped]
    exact he
  -- Taking leases back pushes ready entries and leaves the expiration heaps alone.
  have hheap : ∀ ns', (m.caughtUp ns nowMs).expirationHeap ns' =
      (m.expirationsPopped ns nowMs).expirationHeap ns' := by
    intro ns'
    rw [caughtUp, expirationHeap, recovered, (takeBack_sameFrame _).leaseExpirations]
    rfl
  rw [caughtUp, recovered, get_takeBack, expirationsPopped_state] at hget
  split_ifs at hget with hdue
  · -- A lease that was due is queued now, in its own namespace.
    obtain ⟨old, hold, rfl⟩ := Option.map_eq_some_iff.mp hget
    have hdue := mem_dueTasks.mp hdue
    obtain ⟨lease, hstate, -⟩ := hdue.leased hold
    obtain ⟨revision, hrevision⟩ := hcan t hdue old hold
    rw [Task.takenBack_of_leased hstate hrevision]
    show (⟨old.createdAtMs, old.id⟩ : TimedTask) ∈
      (m.caughtUp ns nowMs).readyHeap old.namespaceId
    rw [hown t old hdue hold, key_of_get hold]
    exact mem_readyHeap_takeBack.mpr (Or.inr ⟨t, mem_dueTasks.mpr hdue, old,
      by rw [expirationsPopped_state, hold], Task.takenBack_ne_of_leased hstate hrevision, rfl,
      rfl⟩)
  · have hentered := h hget
    unfold Entered at hentered ⊢
    cases hstate : task.state with
    | queued =>
      rw [hstate] at hentered
      exact hready _ _ hentered
    | completed => trivial
    | leased lease =>
      rw [hstate] at hentered
      dsimp only at hentered ⊢
      rw [hheap, MinHeap.mem_def, expirationHeap_expirationsPopped]
      split_ifs with hns
      · -- An entry that was popped would have been due.
        rw [hns] at hentered
        refine List.mem_filter.mpr ⟨hentered, ?_⟩
        by_contra hexpired
        have hid : task.id = t := key_of_get hget
        refine hdue (mem_dueTasks.mpr ⟨_, hentered, hid, ?_, ?_⟩)
        · simpa using hexpired
        · exact LeaseExpiration.live_iff.mpr ⟨task, lease, by rw [hid, hget], hstate, rfl, rfl⟩
      · exact hentered

/-- The oldest ready task is leased in its own namespace. -/
theorem leased_complete (hm : Indexed m) (h : Complete m) {e : TimedTask} {rest : List TimedTask}
    {task : Task} {queued : QueuedTask} {lease : LeasedTask} {taskRevision revision : Revision}
    (hready : (m.readyHeap ns).entries = e :: rest) (hget : m.state.tasks.get task.id = some task)
    (hid : task.id = e.taskId) (hstate : task.state = .queued queued) :
    Complete ((m.readyPopped ns).leased ns task lease taskRevision revision) := by
  have he : e ∈ m.readyHeap ns := by
    rw [MinHeap.mem_def, hready]
    exact List.mem_cons_self
  -- The task has one ready entry, in its own namespace.
  have hns : task.namespaceId = ns := by
    have hentered := h hget
    unfold Entered at hentered
    rw [hstate] at hentered
    have hsound := hm.ready.sound he
    rw [← hid, attr_of_get hget, Task.readyAt_eq_some_iff.mpr ⟨⟨queued, hstate⟩, rfl⟩]
      at hsound
    have heq : e = ⟨task.createdAtMs, task.id⟩ := by
      obtain ⟨atMs, taskId⟩ := e
      cases hsound
      cases hid
      rfl
    exact (hm.ready.unique (heq ▸ he) hentered).symm
  intro t other hother
  have hput : (m.state.tasks.put (task.toLeased lease taskRevision)).get t = some other := hother
  rw [get_put] at hput
  split_ifs at hput with ht
  · cases hput
    exact Index.mem_getD_push.mpr (Or.inl ⟨hns, rfl⟩)
  · have hentered := h hput
    unfold Entered at hentered ⊢
    cases hkind : other.state with
    | completed => trivial
    | leased =>
      rw [hkind] at hentered
      exact Index.mem_getD_push.mpr (Or.inr hentered)
    | queued =>
      rw [hkind] at hentered
      show _ ∈ (m.readyPopped ns).readyHeap other.namespaceId
      rw [readyHeap_readyPopped]
      split_ifs with hsame
      · -- Only the entry of the leased task was popped.
        rw [hsame, MinHeap.mem_def, hready] at hentered
        rcases List.mem_cons.mp hentered with heq | hmem
        · have hid' : other.id = t := key_of_get hput
          rw [← heq] at hid
          exact absurd (hid'.symm.trans hid.symm) ht
        · show _ ∈ (m.readyHeap ns).entries.tail
          rw [hready]
          exact hmem
      · exact hentered

theorem pruneAll_complete (h : Complete m) (entries : List TimedTask) :
    Complete (m.pruneAll entries) := by
  induction entries generalizing m with
  | nil => exact h
  | cons e rest ih =>
    refine ih ?_
    unfold pruneOne
    cases m.state.tasks.get e.taskId with
    | none => exact h
    | some task => exact h.erase task.id

theorem Claimed.complete (hm : Indexed m) (h : Complete m) {claim : ClaimTaskCommand}
    {result : TaskClaimResult} (hown : m.OwnLeasesDue (.claimTask claim))
    (hclaimed : Claimed m claim result m') : Complete m' := by
  cases hclaimed with
  | retried => exact h
  | @idle ns _ due =>
    have hcaught : m.caughtUp ns claim.nowMs = m.expirationsPopped ns claim.nowMs := by
      rw [caughtUp, recovered, due, takeBack_nil]
    have hnone : ∀ t, ¬m.Due ns claim.nowMs t := fun t ht => by
      rw [← mem_dueTasks, due] at ht
      cases ht
    rw [← hcaught]
    exact caughtUp_complete h (fun t task ht => absurd ht (hnone t))
      fun t ht => absurd ht (hnone t)
  | leased reaches due ready get id state =>
    have hcaught := caughtUp_complete h
      (fun t task ht => hown claim _ t task rfl reaches ht) due
    exact leased_complete (hm.recovered _) hcaught ready get id state

theorem Succeeds.complete (hm : Indexed m) (h : Complete m) (hown : m.OwnLeasesDue c)
    {result : BrokerMutationResult} (hstep : Succeeds m c result m') : Complete m' := by
  cases hstep with
  | unchanged | ensureNamespace | ensureConsumerGroup | joinConsumerGroup | heartbeat
  | advanceTerm => exact h
  | publishTask =>
    refine h.put rfl (fun ns e he => ?_) (fun ns e he => he) ?_
    · exact Index.mem_getD_push.mpr (Or.inr he)
    · exact Index.mem_getD_push.mpr (Or.inl ⟨rfl, rfl⟩)
  | @leaveConsumerGroup _ _ _ group' =>
    exact takeBack_complete (m := m.groupPut group') h _
  | reapStaleMembers _ _ _ _ reaped =>
    obtain ⟨groups, taskIds, rfl, -, -⟩ := reaped.effect
    exact takeBack_complete (m := m.withGroups groups) h taskIds
  | claimTask c claimed => exact claimed.complete hm h hown
  | @renewTaskLease _ _ ns =>
    refine h.put rfl (fun ns e he => he) (fun ns e he => ?_) ?_
    · exact Index.mem_getD_push.mpr (Or.inr he)
    · exact Index.mem_getD_push.mpr (Or.inl ⟨rfl, rfl⟩)
  | completeTask => exact h.put rfl (fun ns e he => he) (fun ns e he => he) trivial
  | pruneCompletedTasks => exact pruneAll_complete h _

/-- **A command that is not disturbed keeps the heaps complete.** -/
theorem apply_complete (hm : Indexed m) (h : Complete m) (hok : m.Undisturbed c) :
    Complete (apply m c).1 := by
  have hcleared : Complete m.clearChanges := h
  rcases apply_cases hm c with ⟨result, -, hstep⟩ | ⟨error, -, hstep⟩
  · exact hstep.complete hm.clearChanges hcleared (ownLeasesDue_clearChanges.mpr hok.1)
  · generalize (apply m c).1 = after at hstep
    cases hstep with
    | refused => exact hcleared
    | claimTask claim failed =>
      -- A claim that can finish is rejected by a guard or does not fail.
      rw [(failed.of_canFinish fun ns hreaches =>
        hok.2 claim ns rfl (reaches_clearChanges.mp hreaches)).1]
      exact hcleared

/-! ## The restored machine -/

/-- The machines have one state and exact, complete indexes; `r` may miss expiration
entries that `m` kept. -/
structure Restored (m r : BrokerStateMachine) : Prop where
  state : r.state = m.state
  indexed : Indexed m
  indexed' : Indexed r
  complete : Complete m
  complete' : Complete r
  expirations : ∀ ns e, e ∈ r.expirationHeap ns → e ∈ m.expirationHeap ns

/-- A complete ready heap lists the queued tasks of its namespace. -/
theorem mem_readyHeap_iff (hm : Indexed m) (h : Complete m) {e : TimedTask} :
    e ∈ m.readyHeap ns ↔ ∃ task, m.state.tasks.get e.taskId = some task ∧
      task.namespaceId = ns ∧ task.readyAt = some e.atMs := by
  have hentered : ∀ task, m.state.tasks.get e.taskId = some task →
      task.readyAt = some e.atMs → e ∈ m.readyHeap task.namespaceId := by
    intro task hget hready
    obtain ⟨⟨queued, hstate⟩, hat⟩ := Task.readyAt_eq_some_iff.mp hready
    have hid : task.id = e.taskId := key_of_get hget
    have hmem := h hget
    unfold Entered at hmem
    rw [hstate, hat, hid] at hmem
    exact hmem
  constructor
  · intro he
    obtain ⟨task, hget, hready⟩ := attr_eq_some_iff.mp (hm.ready.sound he)
    exact ⟨task, hget, hm.ready.unique (hentered task hget hready) he, hready⟩
  · rintro ⟨task, hget, rfl, hready⟩
    exact hentered task hget hready

theorem Restored.readyHeap (h : Restored m r) (ns : NamespaceId) :
    r.readyHeap ns = m.readyHeap ns := by
  refine Index.Listing.unique (p := fun e => e ∈ m.readyHeap ns) ⟨h.indexed'.ready.nodup ns, ?_⟩
    ⟨h.indexed.ready.nodup ns, fun _ => Iff.rfl⟩
  intro e
  rw [mem_readyHeap_iff h.indexed' h.complete', mem_readyHeap_iff h.indexed h.complete, h.state]

/-- The machines agree once the recorded changes are forgotten. -/
theorem Restored.agree (h : Restored m r) : Agree m.clearChanges r.clearChanges := by
  have hactive := h.indexed'.active
  have hmember := h.indexed'.member
  have hcompleted := h.indexed'.completed
  have htasks := h.indexed'.taskCounts
  have hgroups := h.indexed'.groupCounts
  rw [h.state] at hactive hmember hcompleted htasks hgroups
  refine ⟨⟨r.readyTasks, r.leaseExpirations, r.namespaceTaskCounts, r.namespaceGroupCounts⟩,
    ?_, h.readyHeap, h.expirations, ?_, ?_⟩
  · unfold clearChanges withLoose
    rw [h.state, hactive.unique h.indexed.active, hmember.unique h.indexed.member,
      hcompleted.unique h.indexed.completed]
  · exact fun ns => (htasks ns).trans (h.indexed.taskCounts ns).symm
  · exact fun ns => (hgroups ns).trans (h.indexed.groupCounts ns).symm

/-- A claim that takes back leases of its own namespace only takes back the same on
both machines. -/
theorem Restored.due_iff (h : Restored m r)
    (hown : ∀ t task, m.Due ns nowMs t → m.state.tasks.get t = some task →
      task.namespaceId = ns) (t : TaskId) : r.Due ns nowMs t ↔ m.Due ns nowMs t := by
  constructor
  · rintro ⟨e, he, hid, hexpired, hlive⟩
    rw [h.state] at hlive
    exact ⟨e, h.expirations ns e he, hid, hexpired, hlive⟩
  · intro hdue
    obtain ⟨task, lease, hget, hstate, hexpired⟩ := hdue.exists_lease
    have hid : task.id = t := key_of_get hget
    rw [← h.state] at hget
    have hmem := h.complete' hget
    unfold Entered at hmem
    rw [hstate, hown t task hdue (h.state ▸ hget)] at hmem
    exact ⟨_, hmem, hid, hexpired,
      LeaseExpiration.live_iff.mpr ⟨task, lease, by rw [hid, hget], hstate, rfl, rfl⟩⟩

theorem dueTasks_congr (h : ∀ t, r.Due ns nowMs t ↔ m.Due ns nowMs t) :
    r.dueTasks ns nowMs = m.dueTasks ns nowMs := by
  refine congrArg OrdSet.toList (OrdSet.ext_mem fun t => ?_)
  rw [← OrdSet.mem_toList, ← OrdSet.mem_toList]
  exact mem_dueTasks.trans ((h t).trans mem_dueTasks.symm)

theorem Restored.reaches_iff (h : Restored m r) {claim : ClaimTaskCommand} :
    r.Reaches claim ns ↔ m.Reaches claim ns := by
  have hactive := h.indexed'.active
  rw [h.state] at hactive
  have hindex := hactive.unique h.indexed.active
  constructor
  · rintro ⟨hterm, hmember, hfresh⟩
    rw [CurrentMember, h.state] at hmember
    exact ⟨h.state ▸ hterm, hmember, hindex ▸ hfresh⟩
  · rintro ⟨hterm, hmember, hfresh⟩
    refine ⟨h.state ▸ hterm, ?_, hindex ▸ hfresh⟩
    rw [CurrentMember, h.state]
    exact hmember

/-- A command that is not disturbed on the original is not on the restored machine. -/
theorem Restored.undisturbed (h : Restored m r) (hok : m.Undisturbed c) : r.Undisturbed c := by
  have hdue : ∀ claim ns, c = .claimTask claim → r.Reaches claim ns →
      ∀ t, r.Due ns claim.nowMs t ↔ m.Due ns claim.nowMs t := fun claim ns hc hreaches =>
    h.due_iff fun t task => hok.1 claim ns t task hc (h.reaches_iff.mp hreaches)
  constructor
  · intro claim ns t task hc hreaches ht hget
    rw [h.state] at hget
    exact hok.1 claim ns t task hc (h.reaches_iff.mp hreaches)
      ((hdue claim ns hc hreaches t).mp ht) hget
  · intro claim ns hc hreaches
    obtain ⟨hrequeue, hlease⟩ := hok.2 claim ns hc (h.reaches_iff.mp hreaches)
    have hoffered : ∀ e, r.Offered ns claim.nowMs e ↔ m.Offered ns claim.nowMs e := by
      intro e
      unfold Offered
      rw [h.readyHeap, hdue claim ns hc hreaches, h.state]
    refine ⟨fun t task ht hget => ?_, fun e task he hget => ?_⟩
    · rw [h.state] at hget
      exact hrequeue t task ((hdue claim ns hc hreaches t).mp ht) hget
    · rw [h.state] at hget ⊢
      exact hlease e task ⟨(hoffered e).mp he.1, fun e' he' => he.2 e' ((hoffered e').mpr he')⟩
        hget

/-- The two machines answer alike and agree afterwards. -/
theorem Restored.apply_agree (h : Restored m r) (hok : m.Undisturbed c) :
    (apply m c).2 = (apply r c).2 ∧ Agree (apply m c).1 (apply r c).1 := by
  have hrel := dispatch_agree h.indexed.clearChanges h.indexed'.clearChanges h.agree c
    fun claim ns hc hreaches => dueTasks_congr (m := m) (r := r) (h.due_iff fun t task =>
      hok.1 claim ns t task hc (reaches_clearChanges.mp hreaches))
  unfold EStateM.Rel at hrel
  unfold apply
  cases hm : (dispatch c).run m.clearChanges with
  | ok =>
    cases hr : (dispatch c).run r.clearChanges with
    | ok =>
      rw [hm, hr] at hrel
      obtain ⟨rfl, l, rfl, hl⟩ := hrel
      exact ⟨rfl, l, rfl, hl⟩
    | error =>
      rw [hm, hr] at hrel
      exact hrel.elim
  | error error s =>
    cases hr : (dispatch c).run r.clearChanges with
    | ok =>
      rw [hm, hr] at hrel
      exact hrel.elim
    | error =>
      rw [hm, hr] at hrel
      obtain ⟨rfl, hagree⟩ := hrel
      exact ⟨rfl, hagree⟩

/-- **One step of the simulation.** -/
theorem Restored.step (h : Restored m r) (hok : m.Undisturbed c) :
    (apply m c).2 = (apply r c).2 ∧ Restored (apply m c).1 (apply r c).1 := by
  obtain ⟨hanswer, hagree⟩ := h.apply_agree hok
  have hcomplete' := apply_complete h.indexed' h.complete' (h.undisturbed hok)
  have hindexed' := apply_indexed h.indexed' c
  refine ⟨hanswer, ?_, apply_indexed h.indexed c, hindexed',
    apply_complete h.indexed h.complete hok, hcomplete', ?_⟩
  · obtain ⟨l, heq, -⟩ := hagree
    rw [heq]
    rfl
  · obtain ⟨l, heq, hl⟩ := hagree
    rw [heq]
    exact hl.2.1

/-- **Restoring a checkpoint is unobservable.**  The checkpoint of every machine a run
reaches can be restored and gives its state.  If no command of the run and of what
follows is disturbed, the restored machine also answers every further command like the
original and ends in the same state. -/
theorem restore_unobservable (past : List BrokerCommand) :
    ∃ r, fromCheckpoint (run initial past).state.checkpoint = .ok r ∧
      r.state = (run initial past).state ∧
      ∀ future, Run.Meets apply Undisturbed initial (past ++ future) →
        Run.answers apply r future = Run.answers apply (run initial past) future ∧
        (run r future).state = (run (run initial past) future).state := by
  obtain ⟨r, hok, hstate, hindexed, hcomplete, hcurrent⟩ :=
    fromCheckpoint_checkpoint (run_indexed past)
  refine ⟨r, hok, hstate, fun future hmeets => ?_⟩
  obtain ⟨hpast, hfuture⟩ := Run.meets_append.mp hmeets
  have hlive : Indexed (run initial past) ∧ Complete (run initial past) :=
    Run.final_invariant_of_meets (P := fun m => Indexed m ∧ Complete m)
      (fun m c h hc => ⟨apply_indexed h.1 c, apply_complete h.1 h.2 hc⟩)
      ⟨initial_indexed, initial_complete⟩ hpast
  have hrestored : Restored (run initial past) r := by
    refine ⟨hstate, hlive.1, hindexed, hlive.2, hcomplete, fun ns e he => ?_⟩
    obtain ⟨task, lease, hget, rfl, hleased, rfl⟩ := hcurrent ns e he
    rw [hstate] at hget
    have hentered := hlive.2 hget
    unfold Entered at hentered
    rw [hleased] at hentered
    exact hentered
  have hstep : ∀ m r c, Restored m r → m.Undisturbed c →
      (apply m c).2 = (apply r c).2 ∧ Restored (apply m c).1 (apply r c).1 :=
    fun m r c h hc => h.step hc
  obtain ⟨hanswers, hend⟩ := Run.simulation hstep hrestored hfuture
  exact ⟨hanswers.symm, hend.state⟩

/-- A restart heals the heaps.  Whatever entries a machine has lost, the one that is restored
from its checkpoint has the same state, and its heaps list exactly the queued tasks and the
current leases of each namespace. -/
theorem restart_heals_heaps (commands : List BrokerCommand) :
    ∃ r, fromCheckpoint (run initial commands).state.checkpoint = .ok r ∧
      r.state = (run initial commands).state ∧
      (∀ ns e, e ∈ r.readyHeap ns ↔ ∃ task, r.state.tasks.get e.taskId = some task ∧
        task.namespaceId = ns ∧ task.readyAt = some e.atMs) ∧
      ∀ ns e, e ∈ r.expirationHeap ns ↔ ∃ task lease, r.state.tasks.get e.taskId = some task ∧
        task.namespaceId = ns ∧ task.state = .leased lease ∧
        e = ⟨lease.expiresAtMs, task.id, lease.leaseEpoch⟩ := by
  obtain ⟨r, hok, hstate, hindexed, hcomplete, hcurrent⟩ :=
    fromCheckpoint_checkpoint (run_indexed commands)
  refine ⟨r, hok, hstate, fun ns e => mem_readyHeap_iff hindexed hcomplete, fun ns e =>
    ⟨hcurrent ns e, ?_⟩⟩
  rintro ⟨task, lease, hget, rfl, hleased, rfl⟩
  have hentered := hcomplete hget
  simp only [Entered, hleased] at hentered
  exact hentered

/-- A command that succeeds finishes. -/
theorem undisturbed_of_ok (hm : Indexed m) (hown : m.OwnLeasesDue c) {applied : AppliedMutation}
    (hok : (apply m c).2 = .ok applied) : m.Undisturbed c := by
  refine ⟨hown, ?_⟩
  rintro claim ns rfl hreaches
  rcases apply_cases hm (.claimTask claim) with ⟨result, -, hstep⟩ | ⟨error, herror, -⟩
  · obtain ⟨claimed, -, hclaimed⟩ := hstep.claimed
    exact hclaimed.canFinish hm.clearChanges (reaches_clearChanges.mpr hreaches)
  · rw [hok] at herror
    cases herror

theorem expiring_undisturbed : Run.Meets apply Undisturbed initial expiring := by
  have hplain : ∀ {m : BrokerStateMachine} {c : BrokerCommand},
      (∀ claim, c ≠ .claimTask claim) → m.Undisturbed c := fun hc =>
    ⟨ownLeasesDue_of_ne_claim hc, fun claim _ heq => absurd heq (hc claim)⟩
  refine Run.meets_append.mpr ⟨Run.meets_append.mpr ⟨?_, ?_⟩, ?_⟩
  · exact ⟨hplain fun _ => nofun, hplain fun _ => nofun, hplain fun _ => nofun,
      hplain fun _ => nofun, trivial⟩
  · refine ⟨?_, trivial⟩
    have hok : (apply (run initial oneTask) firstClaim).2.toOption.isSome = true := by
      decide +kernel
    cases hanswer : (apply (run initial oneTask) firstClaim).2 with
    | error =>
      rw [hanswer] at hok
      cases hok
    | ok =>
      exact undisturbed_of_ok (run_indexed oneTask)
        (ownLeasesDue_of_entriesNative (by decide +kernel)) hanswer
  · refine ⟨?_, trivial⟩
    have hok : (apply (run initial (oneTask ++ [firstClaim])) secondClaim).2.toOption.isSome =
        true := by
      decide +kernel
    cases hanswer : (apply (run initial (oneTask ++ [firstClaim])) secondClaim).2 with
    | error =>
      rw [hanswer] at hok
      cases hok
    | ok =>
      exact undisturbed_of_ok (run_indexed (oneTask ++ [firstClaim]))
        (ownLeasesDue_of_entriesNative (by decide +kernel)) hanswer

/-- Restored after the first claim, the machine answers the second like the original. -/
theorem expiring_restored :
    Run.Meets apply Undisturbed initial (oneTask ++ [firstClaim] ++ [secondClaim]) ∧
      ∃ r, fromCheckpoint (run initial (oneTask ++ [firstClaim])).state.checkpoint = .ok r ∧
        Run.answers apply r [secondClaim] =
          Run.answers apply (run initial (oneTask ++ [firstClaim])) [secondClaim] := by
  obtain ⟨r, hok, -, hsame⟩ := restore_unobservable (oneTask ++ [firstClaim])
  exact ⟨expiring_undisturbed, r, hok, (hsame [secondClaim] expiring_undisturbed).1⟩

/-- After a claim whose deadline overflowed, the machine no longer hands out its only
queued task; the machine restored from its checkpoint does. -/
theorem restore_observed_after_failed_claim :
    ¬∃ r, fromCheckpoint (run initial
        (oneTask ++ [.claimTask overflowingClaim])).state.checkpoint = .ok r ∧
      r.state = (run initial (oneTask ++ [.claimTask overflowingClaim])).state ∧
      ∀ future,
        Run.answers apply r future = Run.answers apply
          (run initial (oneTask ++ [.claimTask overflowingClaim])) future ∧
        (run r future).state =
          (run (run initial (oneTask ++ [.claimTask overflowingClaim])) future).state := by
  rintro ⟨r, hrestore, -, hsame⟩
  have hend := congrArg (·.revision.get) (hsame [firstClaim]).2
  have hrestored : (fromCheckpoint (run initial
      (oneTask ++ [.claimTask overflowingClaim])).state.checkpoint).map
        (fun r => (run r [firstClaim]).state.revision.get) = .ok 5 := by
    decide +kernel
  have hlive : (run (run initial (oneTask ++ [.claimTask overflowingClaim]))
      [firstClaim]).state.revision.get = 4 := by
    decide +kernel
  rw [hrestore] at hrestored
  cases (Except.ok.inj hrestored).symm.trans (hend.trans hlive)

end BrokerStateMachine

end AgentBroker
