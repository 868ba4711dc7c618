import AgentBroker.Domain.History

/-!
# Lease epochs

From its publication to its pruning a task's lease epoch only grows, by one, when a
claim newly leases the task.  Two leases of the same epoch are therefore the same
grant: a holder that shows the epoch of the current lease is the holder.

## Main results

* `newlyLeases_iff` — the epoch grows exactly when a claim newly leases the task.
* `run_task_invariant` — what every step of a task keeps, a run keeps while the task
  stays; used at the epoch and at `HeldSince`.
* `lease_epoch_fencing` — the guarantees for all runs of the broker together.
-/

namespace AgentBroker

/-- Two leases with the same id, member, group and generation. -/
structure LeasedTask.SameHolder (lease lease' : LeasedTask) : Prop where
  leaseId : lease'.leaseId = lease.leaseId
  owner : lease'.ownerMemberId = lease.ownerMemberId
  group : lease'.groupId = lease.groupId
  generation : lease'.generation = lease.generation

namespace BrokerStateMachine

variable {m m' : BrokerStateMachine} {c : BrokerCommand} {t : TaskId} {task task' : Task}

/-! ## One step -/

theorem next_ne_self {epoch : LeaseEpoch} : epoch.next ≠ .ok epoch := fun h =>
  lt_irrefl epoch (Counter.lt_next h)

/-- A step keeps the epoch, and with it the holder, or a claim advances it by one. -/
theorem TaskStep.epoch (h : TaskStep m c t (some task) (some task')) :
    (task'.state.leaseEpoch = task.state.leaseEpoch ∧
      ∀ lease', task'.state = .leased lease' →
        ∃ lease, task.state = .leased lease ∧ lease.SameHolder lease') ∨
    task.state.leaseEpoch.next = .ok task'.state.leaseEpoch := by
  cases h with
  | kept => exact Or.inl ⟨rfl, fun lease hlease => ⟨lease, hlease, rfl, rfl, rfl, rfl⟩⟩
  | dropped _ _ _ state | expired _ _ _ _ state | completed _ _ _ state =>
    rw [state]
    exact Or.inl ⟨rfl, fun lease' hlease' => by cases hlease'⟩
  | claimed _ _ _ _ state epochNext | reclaimed _ _ _ _ state _ epochNext =>
    rw [state]
    exact Or.inr epochNext
  | renewed _ _ _ state =>
    rw [state]
    refine Or.inl ⟨rfl, fun lease' hlease' => ?_⟩
    cases hlease'
    exact ⟨_, rfl, rfl, rfl, rfl, rfl⟩

/-- Only claims advance an epoch. -/
theorem TaskStep.claim_of_next (h : TaskStep m c t (some task) (some task'))
    (hnext : task.state.leaseEpoch.next = .ok task'.state.leaseEpoch) :
    ∃ claim, c = .claimTask claim := by
  cases h with
  | kept => exact absurd hnext next_ne_self
  | dropped _ _ _ state | renewed _ _ _ state | completed _ _ _ state =>
    rw [state] at hnext
    exact absurd hnext next_ne_self
  | expired c | claimed c | reclaimed c => exact ⟨c, rfl⟩

/-- The command is a claim that newly leases the task: it succeeds with the task and
its lease id was not active. -/
def NewlyLeases (m : BrokerStateMachine) (c : BrokerCommand) (t : TaskId) : Prop :=
  ∃ claim result changes, c = .claimTask claim ∧
    m.activeLeaseTasks.get claim.leaseId = none ∧
    (apply m c).2 = .ok ⟨.taskClaim result, changes⟩ ∧ result.taskId = some t

/-- Taking leases back leaves epochs alone. -/
theorem leaseEpoch_takeBack {place : Task → NamespaceId} {taskIds : List TaskId}
    (hget : m.state.tasks.get t = some task)
    (hget' : (m.takeBack place taskIds).state.tasks.get t = some task') :
    task'.state.leaseEpoch = task.state.leaseEpoch := by
  rw [get_takeBack, hget] at hget'
  split_ifs at hget'
  · cases hget'
    exact task.takenBack_leaseEpoch
  · cases hget'
    rfl

/-- A successful claim advances the epoch of the task it newly leases, and no other. -/
theorem Claimed.epoch_next_iff (h : Indexed m) {claim : ClaimTaskCommand}
    {result : TaskClaimResult} (hclaimed : Claimed m claim result m')
    (hget : m.state.tasks.get t = some task) (hget' : m'.state.tasks.get t = some task') :
    task.state.leaseEpoch.next = .ok task'.state.leaseEpoch ↔
      m.activeLeaseTasks.get claim.leaseId = none ∧ result.taskId = some t := by
  cases hclaimed with
  | @retried _ held _ _ get state leaseId =>
    rw [hget] at hget'
    cases hget'
    have hactive : m.activeLeaseTasks.get claim.leaseId = some held.id :=
      (h.active _ _).mpr ((Registry.attr_of_get get).trans (by
        rw [Task.activeLeaseId_of_leased state, leaseId]))
    simp [hactive, next_ne_self]
  | idle =>
    rw [expirationsPopped_state, hget] at hget'
    cases hget'
    refine ⟨fun hnext => absurd hnext next_ne_self, fun ⟨_, hnone⟩ => ?_⟩
    cases hnone
  | @leased ns e rest claimed queued expiresAtMs epoch taskRevision revision reaches due ready
      get id state expires epochNext taskNext next =>
      have hput : ((m.caughtUp ns claim.nowMs).state.tasks.put
          (claimed.toLeased (leaseFor claim epoch expiresAtMs) taskRevision)).get t =
            if t = claimed.id then
              some (claimed.toLeased (leaseFor claim epoch expiresAtMs) taskRevision)
            else (m.caughtUp ns claim.nowMs).state.tasks.get t := Registry.get_put _ _ _
      have hafter := hput.symm.trans hget'
      by_cases ht : t = claimed.id
      · -- Taking an expired lease back keeps the epoch, so the claim advances it by one.
        obtain ⟨before, hbefore, hepoch, -⟩ := get_before_caughtUp due get state
        rw [← ht, hget] at hbefore
        cases hbefore
        rw [if_pos ht] at hafter
        cases hafter
        rw [hepoch]
        exact ⟨fun _ => ⟨reaches.fresh, congrArg some ht.symm⟩, fun _ => epochNext⟩
      · rw [if_neg ht] at hafter
        have hsame : task'.state.leaseEpoch = task.state.leaseEpoch :=
          leaseEpoch_takeBack (m := m.expirationsPopped ns claim.nowMs)
            (by rw [expirationsPopped_state, hget]) hafter
        rw [hsame]
        refine ⟨fun hnext => absurd hnext next_ne_self, fun ⟨_, hsome⟩ => ?_⟩
        exact absurd (Option.some.inj hsome).symm ht

/-- A claim that fails leaves epochs alone. -/
theorem ClaimFailed.leaseEpoch {claim : ClaimTaskCommand} (hfailed : ClaimFailed m claim m')
    (hget : m.state.tasks.get t = some task) (hget' : m'.state.tasks.get t = some task') :
    task'.state.leaseEpoch = task.state.leaseEpoch := by
  cases hfailed with
  | rejected =>
    rw [hget] at hget'
    cases hget'
    rfl
  | @stuck ns | @popped ns =>
    exact leaseEpoch_takeBack (m := m.expirationsPopped ns claim.nowMs)
      (by rw [expirationsPopped_state, hget]) hget'

/-- **The epoch grows exactly when a claim newly leases the task.** -/
theorem newlyLeases_iff (h : Indexed m) (c : BrokerCommand) (hget : m.state.tasks.get t = some task)
    (hget' : (apply m c).1.state.tasks.get t = some task') :
    task.state.leaseEpoch.next = .ok task'.state.leaseEpoch ↔ m.NewlyLeases c t := by
  constructor
  · intro hnext
    have hstep := apply_taskStep h c t
    rw [hget, hget'] at hstep
    obtain ⟨claim, rfl⟩ := hstep.claim_of_next hnext
    rcases apply_cases h (.claimTask claim) with ⟨result, hok, hsucceeds⟩ | ⟨error, -, hfails⟩
    · obtain ⟨result, rfl, hclaimed⟩ := hsucceeds.claimed
      obtain ⟨hactive, htask⟩ :=
        (hclaimed.epoch_next_iff h.clearChanges hget hget').mp hnext
      exact ⟨claim, result, _, rfl, hactive, hok, htask⟩
    · have hsame := hfails.claimFailed.leaseEpoch hget hget'
      rw [hsame] at hnext
      exact absurd hnext next_ne_self
  · rintro ⟨claim, result, changes, rfl, hactive, hanswer, htask⟩
    rcases apply_cases h (.claimTask claim) with ⟨result', hok, hsucceeds⟩ | ⟨error, herror, -⟩
    · obtain ⟨claim', rfl, hclaimed⟩ := hsucceeds.claimed
      rw [hok] at hanswer
      cases hanswer
      exact (hclaimed.epoch_next_iff h.clearChanges hget hget').mpr ⟨hactive, htask⟩
    · rw [herror] at hanswer
      cases hanswer

/-! ## Whole runs -/

/-- Since `lease` was current, the epoch has grown or the holder is the same. -/
def HeldSince (lease : LeasedTask) (task : Task) : Prop :=
  lease.leaseEpoch < task.state.leaseEpoch ∨
    (task.state.leaseEpoch = lease.leaseEpoch ∧
      ∀ lease', task.state = .leased lease' → lease.SameHolder lease')

theorem HeldSince.step {lease : LeasedTask} (h : HeldSince lease task)
    (hstep : TaskStep m c t (some task) (some task')) : HeldSince lease task' := by
  rcases hstep.epoch with ⟨hepoch, hholder⟩ | hnext
  · rcases h with hlt | ⟨heq, hsame⟩
    · exact Or.inl (by rw [hepoch]; exact hlt)
    · refine Or.inr ⟨by rw [hepoch, heq], fun lease' hlease' => ?_⟩
      obtain ⟨middle, hmiddle, hthen⟩ := hholder lease' hlease'
      have hfirst := hsame middle hmiddle
      exact ⟨hthen.leaseId.trans hfirst.leaseId, hthen.owner.trans hfirst.owner,
        hthen.group.trans hfirst.group, hthen.generation.trans hfirst.generation⟩
  · have hlt := Counter.lt_next hnext
    rcases h with hbefore | ⟨heq, -⟩
    · exact Or.inl (hbefore.trans hlt)
    · exact Or.inl (by rw [← heq]; exact hlt)

/-- The task is there after every initial part of the run: it is not pruned. -/
def Stays (m : BrokerStateMachine) (commands : List BrokerCommand) (t : TaskId) : Prop :=
  ∀ first, first <+: commands → (run m first).state.tasks.get t ≠ none

theorem Stays.tail {rest : List BrokerCommand} (h : m.Stays (c :: rest) t) :
    (apply m c).1.Stays rest t := fun first hfirst =>
  h (c :: first) (List.prefix_cons_inj c |>.mpr hfirst)

/-- What every step of a task keeps, a run keeps while the task stays. -/
theorem run_task_invariant (h : Indexed m) {P : Task → Prop}
    (hkeep : ∀ {m c task task'}, TaskStep m c t (some task) (some task') → P task → P task')
    {commands : List BrokerCommand} (hstays : m.Stays commands t)
    (hget : m.state.tasks.get t = some task) (hP : P task)
    (hget' : (run m commands).state.tasks.get t = some task') : P task' := by
  induction commands generalizing m task with
  | nil =>
    have hsame := hget.symm.trans hget'
    cases hsame
    exact hP
  | cons c rest ih =>
    have hpresent : (apply m c).1.state.tasks.get t ≠ none := hstays.tail [] List.nil_prefix
    obtain ⟨next, hnext⟩ := Option.ne_none_iff_exists'.mp hpresent
    have hstep := apply_taskStep h c t
    rw [hget, hnext] at hstep
    exact ih (apply_indexed h c) hstays.tail hnext (hkeep hstep hP) hget'

theorem TaskStep.epoch_le (h : TaskStep m c t (some task) (some task')) :
    task.state.leaseEpoch ≤ task'.state.leaseEpoch := by
  rcases h.epoch with ⟨hepoch, -⟩ | hnext
  · exact hepoch.ge
  · exact (Counter.lt_next hnext).le

/-- What a renewal or a completion must show to change a task. -/
structure Fenced (m : BrokerStateMachine) (term : Term) (fence : LeaseFence) (task : Task) :
    Prop where
  term : m.state.term = term
  lease : ∃ lease, task.state = .leased lease ∧ lease.leaseId = fence.leaseId ∧
    lease.leaseEpoch = fence.leaseEpoch ∧ lease.ownerMemberId = fence.ownerMemberId ∧
    lease.groupId = fence.groupId ∧ lease.generation = fence.generation ∧
    fence.observedAtMs < lease.expiresAtMs
  member : ∃ group member, m.state.groups.get fence.groupId = some group ∧
    group.generation = fence.generation ∧
    group.consumers.get fence.ownerMemberId = some member

theorem Fenced.of_fits {term : Term} {fence : LeaseFence} {ns : NamespaceId} {lease : LeasedTask}
    (hterm : m.state.term = term)
    (hmember : m.CurrentMember fence.groupId fence.ownerMemberId fence.generation ns)
    (hstate : task.state = .leased lease) (hfits : fence.Fits lease) :
    m.Fenced term fence task := by
  obtain ⟨group, member, hgroup, hgeneration, hconsumer, -⟩ := hmember
  exact ⟨hterm, ⟨lease, hstate, hfits.leaseId, hfits.epoch, hfits.owner, hfits.group,
    hfits.generation, hfits.unexpired⟩, group, member, hgroup, hgeneration, hconsumer⟩

theorem renew_fenced (h : Indexed m) (c : RenewTaskLeaseCommand)
    (hchanged : (apply m (.renewTaskLease c)).1.state.tasks.get t ≠ m.state.tasks.get t) :
    t = c.taskId ∧ ∃ task, m.state.tasks.get t = some task ∧
      m.Fenced c.expectedTerm c.fence task := by
  have hstep := apply_taskStep h (.renewTaskLease c) t
  generalize (apply m (.renewTaskLease c)).1.state.tasks.get t = after at hstep hchanged
  generalize hbefore : m.state.tasks.get t = before at hstep hchanged
  cases hstep with
  | kept => exact absurd rfl hchanged
  | dropped _ _ removes => cases removes
  | renewed _ term member state fits =>
    exact ⟨rfl, _, rfl, .of_fits term member state fits⟩

theorem complete_fenced (h : Indexed m) (c : CompleteTaskCommand)
    (hchanged : (apply m (.completeTask c)).1.state.tasks.get t ≠ m.state.tasks.get t) :
    t = c.taskId ∧ ∃ task, m.state.tasks.get t = some task ∧
      m.Fenced c.expectedTerm c.fence task := by
  have hstep := apply_taskStep h (.completeTask c) t
  generalize (apply m (.completeTask c)).1.state.tasks.get t = after at hstep hchanged
  generalize hbefore : m.state.tasks.get t = before at hstep hchanged
  cases hstep with
  | kept => exact absurd rfl hchanged
  | dropped _ _ removes => cases removes
  | completed _ term member state fits =>
    exact ⟨rfl, _, rfl, .of_fits term member state fits⟩

/-- **Lease epoch fencing.**  From every machine a run reaches: a command keeps the
epoch of a task or advances it by one, and advances it exactly when it is a claim that
newly leases the task; while the task stays, its epoch does not decrease and one epoch
has one holder; and a renewal or completion that changes a task shows the current lease
before its expiry, in the current term, as a current member of the group. -/
theorem lease_epoch_fencing (commands : List BrokerCommand) :
    (∀ c t task task', (run initial commands).state.tasks.get t = some task →
      (apply (run initial commands) c).1.state.tasks.get t = some task' →
      (task'.state.leaseEpoch.get = task.state.leaseEpoch.get ∨
        task'.state.leaseEpoch.get = task.state.leaseEpoch.get + 1) ∧
      (task'.state.leaseEpoch.get = task.state.leaseEpoch.get + 1 ↔
        (run initial commands).NewlyLeases c t)) ∧
    (∀ later t task task', (run initial commands).Stays later t →
      (run initial commands).state.tasks.get t = some task →
      (run (run initial commands) later).state.tasks.get t = some task' →
      task.state.leaseEpoch ≤ task'.state.leaseEpoch ∧
      ∀ lease lease', task.state = .leased lease → task'.state = .leased lease' →
        lease.leaseEpoch = lease'.leaseEpoch → lease.SameHolder lease') ∧
    (∀ c t, (apply (run initial commands) (.renewTaskLease c)).1.state.tasks.get t ≠
        (run initial commands).state.tasks.get t →
      t = c.taskId ∧ ∃ task, (run initial commands).state.tasks.get t = some task ∧
        (run initial commands).Fenced c.expectedTerm c.fence task) ∧
    (∀ c t, (apply (run initial commands) (.completeTask c)).1.state.tasks.get t ≠
        (run initial commands).state.tasks.get t →
      t = c.taskId ∧ ∃ task, (run initial commands).state.tasks.get t = some task ∧
        (run initial commands).Fenced c.expectedTerm c.fence task) := by
  have h := run_indexed commands
  generalize run initial commands = m at h ⊢
  refine ⟨fun c t task task' hget hget' => ⟨?_, ?_⟩,
    fun later t task task' hstays hget hget' => ⟨?_, ?_⟩,
    fun c t hchanged => renew_fenced h c hchanged,
    fun c t hchanged => complete_fenced h c hchanged⟩
  · have hstep := apply_taskStep h c t
    rw [hget, hget'] at hstep
    rcases hstep.epoch with ⟨hepoch, -⟩ | hnext
    · exact Or.inl (by rw [hepoch])
    · exact Or.inr (Counter.next_get hnext)
  · rw [← newlyLeases_iff h c hget hget', Counter.next_eq_ok_iff]
  · exact run_task_invariant (P := fun next => task.state.leaseEpoch ≤ next.state.leaseEpoch) h
      (fun hstep hle => hle.trans hstep.epoch_le) hstays hget le_rfl hget'
  · intro lease lease' hlease hlease' hepoch
    -- Since then the epoch has advanced, or the holder is the same.
    have hheld : HeldSince lease task := Or.inr ⟨by rw [hlease]; rfl, fun current hcurrent => by
      rw [hlease] at hcurrent
      cases hcurrent
      exact ⟨rfl, rfl, rfl, rfl⟩⟩
    have hthen := run_task_invariant (P := HeldSince lease) h
      (fun hstep hbefore => hbefore.step hstep) hstays hget hheld hget'
    rcases hthen with hlt | ⟨-, hsame⟩
    · rw [hlease', hepoch] at hlt
      exact absurd hlt (lt_irrefl _)
    · exact hsame lease' hlease'

end BrokerStateMachine

end AgentBroker
