import AgentBroker.Domain.LeaseFencing

/-!
# Namespaces

Tasks and groups belong to a namespace, and a group should only lease tasks of its
own.  A claim takes back the expired leases that the expiration heap of its
namespace names, by task id, epoch and expiry.  When a task is pruned and its id
published again in another namespace, an old entry can name the new task's lease:
then the claim takes that lease back, makes the task ready in the wrong namespace
and leases it there.  This is the only way out: runs in which no claim meets such
an entry keep the namespaces apart.

## Main results

* `Isolated.step` — a command keeps the namespaces apart.
* `namespaces_isolated` — and so does every run.
-/

namespace AgentBroker

open Registry

namespace BrokerStateMachine

variable {m m' : BrokerStateMachine} {c : BrokerCommand} {t : TaskId}

/-- The leases and the ready entries of a machine stay within the namespaces. -/
structure Isolated (m : BrokerStateMachine) : Prop where
  lease : ∀ {t task lease}, m.state.tasks.get t = some task → task.state = .leased lease →
    ∃ group, m.state.groups.get lease.groupId = some group ∧
      group.namespaceId = task.namespaceId
  ready : ∀ {ns e task}, e ∈ m.readyHeap ns → m.state.tasks.get e.taskId = some task →
    task.namespaceId = ns

/-- A claim meets no expired entry of another namespace's lease: each entry of the
claim's namespace that is due names a task of that namespace. -/
def OwnLeasesDue (m : BrokerStateMachine) (c : BrokerCommand) : Prop :=
  ∀ claim ns t task, c = .claimTask claim → m.Reaches claim ns → m.Due ns claim.nowMs t →
    m.state.tasks.get t = some task → task.namespaceId = ns

theorem ownLeasesDue_clearChanges : m.clearChanges.OwnLeasesDue c ↔ m.OwnLeasesDue c :=
  ⟨fun h claim ns t task hc hreaches => h claim ns t task hc (reaches_clearChanges.mpr hreaches),
    fun h claim ns t task hc hreaches =>
      h claim ns t task hc (reaches_clearChanges.mp hreaches)⟩

theorem initial_isolated : Isolated initial where
  lease hget := by simp [initial, BrokerState.initial] at hget
  ready he := absurd he (MinHeap.not_mem_empty _)

/-! ## Tasks -/

variable {task : Task} {claim : ClaimTaskCommand} {ns : NamespaceId} {e : TimedTask}

/-- No step moves a task to another namespace. -/
theorem TaskStep.namespaceId {task' : Task} (h : TaskStep m c t (some task) (some task')) :
    task'.namespaceId = task.namespaceId := by
  cases h <;> rfl

/-- What a claim changes belongs to its own namespace. -/
theorem TaskStep.claim_native (hm : Isolated m) (hown : m.OwnLeasesDue (.claimTask claim))
    {record : Option Task} (hget : m.state.tasks.get t = some task)
    (h : TaskStep m (.claimTask claim) t (some task) record) (hchanged : record ≠ some task) :
    ∃ ns, m.Reaches claim ns ∧ task.namespaceId = ns := by
  cases h with
  | kept => exact absurd rfl hchanged
  | dropped _ _ removes => cases removes
  | expired _ _ reaches due | reclaimed _ _ reaches due =>
    exact ⟨_, reaches, hown claim _ t task rfl reaches due hget⟩
  | claimed _ _ reaches ready =>
    obtain ⟨e, he, rfl⟩ := ready
    exact ⟨_, reaches, hm.ready he hget⟩

/-- A leased task is leased to a group of its namespace after the step. -/
theorem TaskStep.lease_native (hm : Isolated m) (hown : m.OwnLeasesDue c)
    (hgroups : GroupsAdvance m.state.groups m'.state.groups) {task' : Task}
    {lease' : LeasedTask} (h : TaskStep m c t (m.state.tasks.get t) (some task'))
    (hstate : task'.state = .leased lease') :
    ∃ group, m'.state.groups.get lease'.groupId = some group ∧
      group.namespaceId = task'.namespaceId := by
  -- A group that owned the task before still does.
  have hkeep : ∀ {task : Task} {lease : LeasedTask}, m.state.tasks.get t = some task →
      task.state = .leased lease → ∃ group, m'.state.groups.get lease.groupId = some group ∧
        group.namespaceId = task.namespaceId := by
    intro task lease hget hleased
    obtain ⟨group, hgroup, hns⟩ := hm.lease hget hleased
    obtain ⟨group', hgroup', hadv⟩ := hgroups _ group hgroup
    exact ⟨group', hgroup', by rw [hadv.namespaceId, hns]⟩
  -- A claim leases to a group of the namespace it reached.
  have hclaim : ∀ {claim : ClaimTaskCommand} {ns : NamespaceId}, m.Reaches claim ns →
      ∃ group, m'.state.groups.get claim.groupId = some group ∧ group.namespaceId = ns := by
    intro claim ns hreaches
    obtain ⟨group, -, hgroup, -, -, hns⟩ := hreaches.member
    obtain ⟨group', hgroup', hadv⟩ := hgroups _ group hgroup
    exact ⟨group', hgroup', by rw [hadv.namespaceId, hns]⟩
  generalize hbefore : m.state.tasks.get t = before at h
  cases h with
  | kept => exact hkeep hbefore hstate
  | published | dropped | expired | completed => cases hstate
  | claimed _ _ reaches ready =>
    cases hstate
    obtain ⟨e, he, rfl⟩ := ready
    have hns := hm.ready he hbefore
    obtain ⟨group, hgroup, hgns⟩ := hclaim reaches
    exact ⟨group, hgroup, hgns.trans hns.symm⟩
  | reclaimed claim _ reaches due =>
    cases hstate
    have hns := hown claim _ t _ rfl reaches due hbefore
    obtain ⟨group, hgroup, hgns⟩ := hclaim reaches
    exact ⟨group, hgroup, hgns.trans hns.symm⟩
  | renewed _ _ _ state =>
    cases hstate
    have howner := hkeep hbefore state
    exact howner

/-! ## Ready entries -/

/-- The entry is old, or its task is of the heap's namespace. -/
def OldOrNative (m m' : BrokerStateMachine) (ns : NamespaceId) (e : TimedTask) : Prop :=
  e ∈ m.readyHeap ns ∨ ∀ task, m'.state.tasks.get e.taskId = some task → task.namespaceId = ns

/-- Leases are taken back into the namespaces of their tasks. -/
theorem oldOrNative_takeBack {place : Task → NamespaceId} {taskIds : List TaskId}
    (hplace : ∀ t ∈ taskIds, ∀ task, m.state.tasks.get t = some task →
      task.namespaceId = place task) (he : e ∈ (m.takeBack place taskIds).readyHeap ns) :
    OldOrNative m (m.takeBack place taskIds) ns e := by
  rcases mem_readyHeap_takeBack.mp he with hold | ⟨t, ht, task, hget, -, rfl, rfl⟩
  · exact Or.inl hold
  · refine Or.inr fun task' hget' => ?_
    rw [get_takeBack, if_pos ht, hget, Option.map_some] at hget'
    cases hget'
    rw [Task.takenBack_namespaceId]
    exact hplace t ht task hget

theorem oldOrNative_recovered {ns' : NamespaceId} (hown : m.OwnLeasesDue (.claimTask claim))
    (hreaches : m.Reaches claim ns) {taskIds : List TaskId}
    (hdue : ∀ t ∈ taskIds, m.Due ns claim.nowMs t)
    (he : e ∈ (m.recovered ns claim.nowMs taskIds).readyHeap ns') :
    OldOrNative m (m.recovered ns claim.nowMs taskIds) ns' e := by
  have hplace : ∀ t ∈ taskIds, ∀ task,
      (m.expirationsPopped ns claim.nowMs).state.tasks.get t = some task →
        task.namespaceId = ns := by
    intro t ht task hget
    rw [expirationsPopped_state] at hget
    exact hown claim ns t task rfl hreaches (hdue t ht) hget
  rcases oldOrNative_takeBack hplace he with hold | hnative
  · exact Or.inl (by rwa [readyHeap_expirationsPopped] at hold)
  · exact Or.inr hnative

theorem mem_of_mem_readyPopped {ns' : NamespaceId} (he : e ∈ (m.readyPopped ns).readyHeap ns') :
    e ∈ m.readyHeap ns' := by
  rw [readyHeap_readyPopped] at he
  split_ifs at he with hns
  · rw [hns]
    exact List.mem_of_mem_tail he
  · exact he

theorem ClaimFailed.oldOrNative (hown : m.OwnLeasesDue (.claimTask claim))
    (hfailed : ClaimFailed m claim m') (he : e ∈ m'.readyHeap ns) : OldOrNative m m' ns e := by
  cases hfailed with
  | rejected => exact Or.inl he
  | stuck reaches due =>
    refine oldOrNative_recovered hown reaches (fun t ht => ?_) he
    exact mem_dueTasks.mp (due ▸ List.mem_append_left _ ht)
  | popped reaches =>
    exact oldOrNative_recovered hown reaches (fun t ht => mem_dueTasks.mp ht)
      (mem_of_mem_readyPopped he)

theorem Claimed.oldOrNative {result : TaskClaimResult} (h : Indexed m)
    (hown : m.OwnLeasesDue (.claimTask claim)) (hclaimed : Claimed m claim result m')
    (he : e ∈ m'.readyHeap ns) : OldOrNative m m' ns e := by
  cases hclaimed with
  | retried => exact Or.inl he
  | idle => exact Or.inl (by rwa [readyHeap_expirationsPopped] at he)
  | @leased ns' head rest task queued expiresAtMs epoch taskRevision revision reaches due ready
      get id state expires epochNext taskNext next =>
      have hcaught : Indexed (m.caughtUp ns' claim.nowMs) := h.recovered _
      have hother : e.taskId ≠ task.id := by
        rw [id]
        exact notReady_readyPopped hcaught ready he
      have hsame : (((m.caughtUp ns' claim.nowMs).readyPopped ns').leased ns' task
          (leaseFor claim epoch expiresAtMs) taskRevision revision).state.tasks.get e.taskId =
            (m.caughtUp ns' claim.nowMs).state.tasks.get e.taskId :=
        get_put_of_ne _ hother
      rcases oldOrNative_recovered hown reaches (fun t ht => mem_dueTasks.mp ht)
        (mem_of_mem_readyPopped he) with hold | hnative
      · exact Or.inl hold
      · exact Or.inr fun found hfound => hnative found (hsame.symm.trans hfound)

theorem pruneAll_readyTasks (entries : List TimedTask) :
    (m.pruneAll entries).readyTasks = m.readyTasks :=
  pruneAll_untouched (·.readyTasks) (fun _ _ => rfl) entries

theorem Succeeds.oldOrNative (h : Indexed m) (hown : m.OwnLeasesDue c)
    {result : BrokerMutationResult} (hstep : Succeeds m c result m') (he : e ∈ m'.readyHeap ns) :
    OldOrNative m m' ns e := by
  cases hstep with
  | unchanged | ensureNamespace | ensureConsumerGroup | joinConsumerGroup | heartbeat
  | renewTaskLease | completeTask | advanceTerm => exact Or.inl he
  | publishTask c =>
    have hheap : e ∈ (m.readyTasks.updateD c.namespaceId ∅
        (·.push ⟨c.createdAtMs, c.taskId⟩)).getD ns ∅ := he
    rw [readyHeap_updateD] at hheap
    split_ifs at hheap with hns
    · rcases MinHeap.mem_push.mp hheap with rfl | hold
      · refine Or.inr fun task hget => ?_
        have hself := (get_put_self m.state.tasks
          (.new c.taskId c.namespaceId c.objective c.createdAtMs)).symm.trans hget
        cases hself
        exact hns.symm
      · exact Or.inl (by rw [hns]; exact hold)
    · exact Or.inl hheap
  | @leaveConsumerGroup _ _ _ group' =>
    exact oldOrNative_takeBack (m := m.groupPut group') (fun _ _ _ _ => rfl) he
  | reapStaleMembers _ _ _ _ reaped =>
    obtain ⟨groups, taskIds, rfl, -, -⟩ := reaped.effect
    exact oldOrNative_takeBack (m := m.withGroups groups) (fun _ _ _ _ => rfl) he
  | claimTask c claimed => exact claimed.oldOrNative h hown he
  | pruneCompletedTasks c =>
    have hheap : e ∈ (m.pruneAll (m.oldest c)).readyHeap ns := he
    rw [readyHeap, pruneAll_readyTasks] at hheap
    exact Or.inl hheap

theorem Fails.oldOrNative (hown : m.OwnLeasesDue c) {error : StateMachineError}
    (hstep : Fails m c error m') (he : e ∈ m'.readyHeap ns) : OldOrNative m m' ns e := by
  cases hstep with
  | refused => exact Or.inl he
  | claimTask c failed => exact failed.oldOrNative hown he

/-! ## Runs -/

/-- A step keeps the namespaces apart if its tasks, groups and ready entries do. -/
theorem Isolated.of_parts (hm : Isolated m) (h : Indexed m) (hown : m.OwnLeasesDue c)
    (htasks : ∀ t, TaskStep m c t (m.state.tasks.get t) (m'.state.tasks.get t))
    (hgroups : GroupsAdvance m.state.groups m'.state.groups)
    (hready : ∀ {ns e}, e ∈ m'.readyHeap ns → OldOrNative m m' ns e) : Isolated m' := by
  refine ⟨fun {t task lease} hget hstate => ?_, fun {ns e task} he hget => ?_⟩
  · have hstep := htasks t
    rw [hget] at hstep
    exact hstep.lease_native hm hown hgroups hstate
  · rcases hready he with hold | hnative
    · obtain ⟨before, hbefore, -⟩ := attr_eq_some_iff.mp (h.ready.sound hold)
      have hstep := htasks e.taskId
      rw [hget, hbefore] at hstep
      rw [hstep.namespaceId]
      exact hm.ready hold hbefore
    · exact hnative task hget

theorem Isolated.clearChanges (hm : Isolated m) : Isolated m.clearChanges := ⟨hm.lease, hm.ready⟩

theorem Isolated.step (hm : Isolated m) (h : Indexed m) (hown : m.OwnLeasesDue c) :
    Isolated (apply m c).1 := by
  have hown' := ownLeasesDue_clearChanges.mpr hown
  refine hm.clearChanges.of_parts h.clearChanges hown' (apply_taskStep h c)
    (apply_group_advances h c) fun he => ?_
  rcases apply_cases h c with ⟨result, -, hstep⟩ | ⟨error, -, hstep⟩
  · exact hstep.oldOrNative h.clearChanges hown' he
  · exact hstep.oldOrNative hown' he

theorem run_isolated {commands : List BrokerCommand}
    (hown : Run.Meets apply OwnLeasesDue initial commands) : Isolated (run initial commands) :=
  (Run.final_invariant_of_meets (P := fun m => Isolated m ∧ Indexed m)
    (fun _ c hm hc => ⟨hm.1.step hm.2 hc, apply_indexed hm.2 c⟩)
    ⟨initial_isolated, initial_indexed⟩ hown).1

/-- A claim that carries a task carries one of the claiming group's namespace. -/
theorem claim_result_native (hm : Isolated m) (h : Indexed m)
    (hown : m.OwnLeasesDue (.claimTask claim)) {result : TaskClaimResult} {changes : StateChangeSet}
    (hanswer : (apply m (.claimTask claim)).2 = .ok ⟨.taskClaim result, changes⟩)
    (htask : result.taskId = some t) :
    ∃ task group, (apply m (.claimTask claim)).1.state.tasks.get t = some task ∧
      m.state.groups.get claim.groupId = some group ∧
      task.namespaceId = group.namespaceId := by
  rcases apply_cases h (.claimTask claim) with ⟨result', hok, hstep⟩ | ⟨error, herror, -⟩
  · obtain ⟨claimed, rfl, hclaimed⟩ := hstep.claimed
    rw [hok] at hanswer
    cases hanswer
    obtain ⟨task, lease, hget, hstate, -, hgroupId⟩ := hclaimed.carries htask
    obtain ⟨group, hgroup, hns⟩ := (hm.step h hown).lease hget hstate
    rw [hclaimed.groups, hgroupId] at hgroup
    exact ⟨task, group, hget, hgroup, hns.symm⟩
  · rw [herror] at hanswer
    cases hanswer

/-- A claim leaves the tasks of other namespaces alone. -/
theorem claim_keeps_foreign (hm : Isolated m) (h : Indexed m)
    (hown : m.OwnLeasesDue (.claimTask claim)) (hget : m.state.tasks.get t = some task)
    (hforeign : ∀ group, m.state.groups.get claim.groupId = some group →
      task.namespaceId ≠ group.namespaceId) :
    (apply m (.claimTask claim)).1.state.tasks.get t = some task := by
  by_contra hchanged
  have hstep := apply_taskStep h (.claimTask claim) t
  rw [hget] at hstep
  obtain ⟨ns, hreaches, hns⟩ := hstep.claim_native hm.clearChanges
    (ownLeasesDue_clearChanges.mpr hown) hget hchanged
  obtain ⟨group, -, hgroup, -, -, hgns⟩ := hreaches.member
  exact hforeign group hgroup (hns.trans hgns.symm)

/-- **Namespace isolation.**  In a run in which no claim meets an expired entry for the
lease of another namespace's task: every lease belongs to a group of the task's
namespace; and if the last command is a claim, the task it returns is of the claiming
group's namespace and the tasks of other namespaces are as before. -/
theorem namespaces_isolated (commands : List BrokerCommand)
    (hown : Run.Meets apply OwnLeasesDue initial commands) :
    (∀ t task lease, (run initial commands).state.tasks.get t = some task →
      task.state = .leased lease →
      ∃ group, (run initial commands).state.groups.get lease.groupId = some group ∧
        group.namespaceId = task.namespaceId) ∧
    ∀ past claim, commands = past ++ [.claimTask claim] →
      (∀ result changes t,
        (apply (run initial past) (.claimTask claim)).2 = .ok ⟨.taskClaim result, changes⟩ →
        result.taskId = some t →
        ∃ task group, (run initial commands).state.tasks.get t = some task ∧
          (run initial past).state.groups.get claim.groupId = some group ∧
          task.namespaceId = group.namespaceId) ∧
      ∀ t task, (run initial past).state.tasks.get t = some task →
        (∀ group, (run initial past).state.groups.get claim.groupId = some group →
          task.namespaceId ≠ group.namespaceId) →
        (run initial commands).state.tasks.get t = some task := by
  refine ⟨fun t task lease hget hstate => (run_isolated hown).lease hget hstate, ?_⟩
  rintro past claim rfl
  obtain ⟨hpast, hlast⟩ := Run.meets_append.mp hown
  have hm := run_isolated hpast
  have h := run_indexed past
  have hclaim : (run initial past).OwnLeasesDue (.claimTask claim) := hlast.1
  have hrun : run initial (past ++ [.claimTask claim]) =
      (apply (run initial past) (.claimTask claim)).1 := Run.final_append _ _ _ _
  rw [hrun]
  exact ⟨fun result changes t hanswer htask => claim_result_native hm h hclaim hanswer htask,
    fun t task hget hforeign => claim_keeps_foreign hm h hclaim hget hforeign⟩

theorem ownLeasesDue_of_ne_claim (hc : ∀ claim, c ≠ .claimTask claim) : m.OwnLeasesDue c :=
  fun claim _ _ _ heq => absurd heq (hc claim)

/-- Every entry of every expiration heap is for a task of the heap's namespace. -/
def entriesNative (m : BrokerStateMachine) : Bool :=
  m.leaseExpirations.entries.all fun heap => heap.2.entries.all fun e =>
    (m.state.tasks.get e.taskId).all fun task => task.namespaceId = heap.1

theorem ownLeasesDue_of_entriesNative (h : m.entriesNative = true) : m.OwnLeasesDue c := by
  rintro claim ns t task - - ⟨e, he, rfl, -, -⟩ hget
  unfold expirationHeap at he
  cases hheap : m.leaseExpirations.get ns with
  | none =>
    rw [OrdMap.getD_of_none hheap] at he
    exact absurd he (MinHeap.not_mem_empty e)
  | some =>
    rw [OrdMap.getD_of_get hheap] at he
    have hall := List.all_eq_true.mp (List.all_eq_true.mp h _ (OrdMap.get_eq_some_iff.mp hheap))
      e he
    rw [hget] at hall
    exact of_decide_eq_true hall

/-- A claim at time zero. -/
def firstClaim : BrokerCommand :=
  .claimTask (claimBy groupG workerW
    ⟨"l1", by decide +kernel⟩ 0 10)

/-- A claim after the lease of the first has expired. -/
def secondClaim : BrokerCommand :=
  .claimTask (claimBy groupG workerW
    ⟨"l2", by decide +kernel⟩ 20 10)

/-- A task whose first lease expires and is leased again in its own namespace. -/
def expiring : List BrokerCommand := oneTask ++ [firstClaim] ++ [secondClaim]

theorem expiring_ownLeasesDue : Run.Meets apply OwnLeasesDue initial expiring := by
  refine Run.meets_append.mpr ⟨Run.meets_append.mpr ⟨?_, ?_⟩, ?_⟩
  · exact ⟨ownLeasesDue_of_ne_claim fun _ => nofun, ownLeasesDue_of_ne_claim fun _ => nofun,
      ownLeasesDue_of_ne_claim fun _ => nofun, ownLeasesDue_of_ne_claim fun _ => nofun, trivial⟩
  · exact ⟨ownLeasesDue_of_entriesNative (by decide +kernel), trivial⟩
  · exact ⟨ownLeasesDue_of_entriesNative (by decide +kernel), trivial⟩

/-- The second lease of the task belongs to a group of its namespace. -/
theorem expiring_isolated :
    Run.Meets apply OwnLeasesDue initial expiring ∧
      ∀ t task lease, (run initial expiring).state.tasks.get t = some task →
        task.state = .leased lease →
        ∃ group, (run initial expiring).state.groups.get lease.groupId = some group ∧
          group.namespaceId = task.namespaceId :=
  ⟨expiring_ownLeasesDue, (namespaces_isolated expiring expiring_ownLeasesDue).1⟩

/-! ## A run in which a lease crosses namespaces -/

/-- A task is leased, completed and pruned in namespace `a`; its id is published again
and leased in namespace `b` with the same epoch and expiry; then namespace `a` claims. -/
def crossing : List BrokerCommand :=
  setUp namespaceA groupG workerW ++
  setUp ⟨"b", by decide +kernel⟩ ⟨"h", by decide +kernel⟩ workerV ++
  [publish namespaceA taskT,
    .claimTask (claimBy groupG workerW
      ⟨"l1", by decide +kernel⟩ 0 10),
    .completeTask ⟨taskT, groupG,
      workerW, 1, 1, 1,
      ⟨"l1", by decide +kernel⟩, someResult, 1⟩,
    .pruneCompletedTasks ⟨5, 8⟩,
    publish ⟨"b", by decide +kernel⟩ taskT,
    .claimTask (claimBy ⟨"h", by decide +kernel⟩ workerV
      ⟨"l2", by decide +kernel⟩ 0 10),
    .claimTask (claimBy groupG workerW
      ⟨"l3", by decide +kernel⟩ 10 5)]

/-- The task of namespace `b` ends up leased to a group of namespace `a`. -/
theorem lease_crosses_namespaces :
    ∃ t task lease group, (run initial crossing).state.tasks.get t = some task ∧
      task.state = .leased lease ∧
      (run initial crossing).state.groups.get lease.groupId = some group ∧
      group.namespaceId ≠ task.namespaceId := by
  have htask : (run initial crossing).state.tasks.attr
      (fun task => task.lease.map fun lease => (task.namespaceId, lease.groupId))
      taskT = some (⟨"b", by decide +kernel⟩, groupG) := by
    decide +kernel
  have hgroup : (run initial crossing).state.groups.attr (fun group => some group.namespaceId)
      groupG = some namespaceA := by
    decide +kernel
  obtain ⟨task, hget, hlease⟩ := attr_eq_some_iff.mp htask
  obtain ⟨lease, hlease, hpair⟩ := Option.map_eq_some_iff.mp hlease
  obtain ⟨group, hgroup, hns⟩ := attr_eq_some_iff.mp hgroup
  obtain ⟨htaskNs, hgroupId⟩ := Prod.mk.inj hpair
  refine ⟨_, task, lease, group, hget, Task.lease_eq_some_iff.mp hlease, ?_, ?_⟩
  · rw [hgroupId, hgroup]
  · rw [htaskNs, Option.some.inj hns]
    decide +kernel

end BrokerStateMachine

end AgentBroker
