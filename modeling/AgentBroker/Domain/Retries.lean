import AgentBroker.Domain.ChangeSets

/-!
# Retries

A client that did not hear the answer to a command sends the command again.  Each
command that may be sent again has a branch of its own for the case that its work is
already done.  `Settled` lists these cases with the answer the branch gives: a command
that succeeds leaves the machine settled for itself, and a settled command changes
nothing and answers the same.

A claim is answered again as long as its lease id is active, which does not mean that
the lease can still be completed: another member may have joined since, or the lease
may have expired without having been taken back.

## Main results

* `Settled.dispatch` — a settled command is answered without a change.
* `Succeeds.settled` — a command that may be retried leaves the machine settled.
* `immediate_retry_idempotent` — the two together, for every run.
* `returned_claim_usable_iff` — when a claim that was answered with a task can be
  completed.
-/

namespace AgentBroker

open EStateM Registry ConsumerGroup

namespace BrokerStateMachine

variable {m m' : BrokerStateMachine} {c : BrokerCommand} {result : BrokerMutationResult}

/-! ## A settled command is answered without a change -/

/-- The recorded changes play no part. -/
theorem Settled.clearChanges (h : Settled m c result) : Settled m.clearChanges c result := by
  cases h <;> constructor <;> assumption

/-- A settled command is answered without a change, if the revision could advance. -/
theorem Settled.dispatch (h : Settled m c result)
    (hnext : ∃ revision, m.state.revision.next = .ok revision) :
    (dispatch c).run m = .ok result m := by
  rw [run_eq_ok_iff]
  cases h with
  | ensureNamespace c get =>
    refine wp_bind.mpr (wp_get_bind ?_)
    rw [get]
    exact ⟨rfl, rfl⟩
  | publishTask c known get same | ensureConsumerGroup c known get same =>
    refine wp_bind.mpr (wp_requireNamespace_bind (fun _ => wp_get_bind ?_)
      fun hunknown => known hunknown)
    rw [get]
    exact wp_require_bind (fun _ => ⟨rfl, rfl⟩) fun hdiffers => hdiffers same
  | @joinConsumerGroup c group member get joined same newer =>
    obtain ⟨revision, hrevision⟩ := hnext
    have hjoin : group.join c.memberId c.capabilities c.nowMs c.maxGroupMembers =
        .ok (.unchanged, group) :=
      join_eq_ok_iff.mpr (.inl ⟨member, joined, same, .inl ⟨newer, rfl, rfl⟩⟩)
    have hcoordinated : GroupCoordinator.join m.state.groups c.groupId c.memberId c.capabilities
        c.nowMs c.maxGroupMembers = .ok (.unchanged, m.state.groups) :=
      GroupCoordinator.withGroup_unchanged get hjoin
    refine wp_bind.mpr (wp_get_bind ?_)
    rw [hrevision, hcoordinated]
    refine wp_advance_bind (fun _ _ => ?_) fun _ herror => nomatch herror
    refine wp_coordinated_bind (fun r hr => ?_) fun _ herror => nomatch herror
    cases hr
    refine wp_set_bind (wp_found_bind (fun found hfound => ?_) fun hnone => ?_)
    · cases get.symm.trans hfound
      exact ⟨rfl, rfl⟩
    · exact nomatch get.symm.trans hnone
  | @heartbeat c group member get current joined newer =>
    obtain ⟨revision, hrevision⟩ := hnext
    have hheartbeat : group.heartbeat c.memberId c.expectedGeneration c.nowMs =
        .ok (.unchanged, group) :=
      heartbeat_eq_ok_iff.mpr
        ⟨current, member, joined, .inl ⟨newer, rfl, rfl⟩⟩
    have hcoordinated : GroupCoordinator.heartbeat m.state.groups c.groupId c.memberId
        c.expectedGeneration c.nowMs = .ok (.unchanged, m.state.groups) :=
      GroupCoordinator.withGroup_unchanged get hheartbeat
    refine wp_bind.mpr (wp_get_bind ?_)
    rw [hrevision, hcoordinated]
    refine wp_advance_bind (fun _ _ => ?_) fun _ herror => nomatch herror
    refine wp_coordinated_bind (fun r hr => ?_) fun _ herror => nomatch herror
    cases hr
    refine wp_set_bind (wp_found_bind (fun found hfound => ?_) fun hnone => ?_)
    · cases get.symm.trans hfound
      refine wp_found_bind (fun found hfound => ?_) fun hnone => ?_
      · cases joined.symm.trans hfound
        exact ⟨rfl, rfl⟩
      · exact nomatch joined.symm.trans hnone
    · exact nomatch get.symm.trans hnone
  | @claimTask _ _ _ _ term member active get state owner =>
    refine wp_bind.mpr (wp_requireTerm_bind (fun _ => ?_) fun hstale => hstale term)
    refine wp_requireGroupMember_bind (fun _ _ => wp_get_bind ?_) fun error herror => ?_
    · rw [active]
      refine wp_found_bind (fun found hfound => ?_) fun hnone => nomatch get.symm.trans hnone
      cases get.symm.trans hfound
      rw [state]
      exact wp_require_bind (fun _ => ⟨rfl, rfl⟩) fun hother => hother owner
    · rw [member.requireMember_eq_ok] at herror
      cases herror
  | @completeTask c ns task completed term member get state same =>
    obtain ⟨revision, hrevision⟩ := hnext
    have hcomplete : task.complete c.fence c.result = .ok (.alreadyCompleted, task) :=
      Task.complete_eq_ok_iff.mpr (.inr ⟨completed, state, same.1, same.2, rfl, rfl⟩)
    refine wp_bind.mpr (wp_requireTerm_bind (fun _ => ?_) fun hstale => hstale term)
    refine wp_requireGroupMember_bind (fun _ _ => wp_get_bind ?_) fun error herror => ?_
    · rw [hrevision, get]
      refine wp_advance_bind (fun _ _ => ?_) fun _ herror => nomatch herror
      refine wp_found_bind (fun found hfound => ?_) fun hnone => nomatch hnone
      cases hfound
      refine wp_transition_bind (fun r hr => ?_) fun e he => ?_
      · cases hcomplete.symm.trans hr
        exact ⟨rfl, rfl⟩
      · exact nomatch hcomplete.symm.trans he
    · rw [member.requireMember_eq_ok] at herror
      cases herror
  | reapStaleMembers c positive none | pruneCompletedTasks c positive none =>
    refine wp_bind.mpr (wp_require_bind (fun _ => wp_get_bind ?_) fun hzero => hzero positive)
    dsimp only
    rw [if_pos none]
    exact ⟨rfl, rfl⟩

/-! ## A command that succeeds is settled -/

/-- The answers after which a command may be sent again: a claim must have been given a
task. -/
def Retryable : BrokerCommand → BrokerMutationResult → Prop
  | .ensureNamespace _, _ | .publishTask _, _ | .ensureConsumerGroup _, _
  | .joinConsumerGroup _, _ | .heartbeat _, _ | .completeTask _, _ => True
  | .claimTask _, .taskClaim claim => claim.taskId ≠ none
  | _, _ => False

variable {taskId : TaskId} {task : Task} {claim : ClaimTaskCommand}

/-- A lease that a claim was answered with is found under its id. -/
theorem Claimed.settled {answer : TaskClaimResult} (h : Claimed m claim answer m')
    (htask : answer.taskId ≠ none) : Settled m' (.claimTask claim) (.taskClaim answer) := by
  cases h with
  | retried member get state leaseId groupId settled =>
    exact .claimTask claim settled.1 member settled.2.1 get state ⟨settled.2.2, groupId⟩
  | idle => exact absurd rfl htask
  | @leased ns e rest task queued expiresAtMs epoch taskRevision revision reaches =>
    -- Taking leases back keeps the term and the groups.
    have hframe : SameFrame (m.expirationsPopped ns claim.nowMs) (m.caughtUp ns claim.nowMs) :=
      takeBack_sameFrame _
    have hterm : (m.caughtUp ns claim.nowMs).state.term = claim.expectedTerm := by
      rw [hframe.term, expirationsPopped_state, reaches.term]
    have hmember : (m.caughtUp ns claim.nowMs).CurrentMember claim.groupId claim.memberId
        claim.expectedGeneration ns := by
      unfold CurrentMember
      rw [hframe.groups, expirationsPopped_state]
      exact reaches.member
    exact .claimTask claim hterm hmember (OrdMap.get_insert_self _ _ _) (get_put_self _ _) rfl
      ⟨rfl, rfl⟩

/-- **A command that may be sent again leaves the machine settled for itself.** -/
theorem Succeeds.settled (h : Succeeds m c result m') (hretryable : Retryable c result) :
    Settled m' c result := by
  cases h with
  | unchanged _ settled => exact settled
  | @ensureNamespace c revision =>
    have hself : (m.namespaceAdded (.new c.namespaceId) revision).state.namespaces.get
        c.namespaceId = some (.new c.namespaceId) := get_put_self _ _
    exact .ensureNamespace c hself
  | @publishTask c revision known =>
    exact .publishTask
      (m := m.published (.new c.taskId c.namespaceId c.objective c.createdAtMs) revision)
      c known (get_put_self _ _) ⟨rfl, rfl⟩
  | @ensureConsumerGroup c revision known =>
    have hself : (m.groupAdded (.new c.groupId c.namespaceId) revision).state.groups.get
        c.groupId = some (.new c.groupId c.namespaceId) := get_put_self _ _
    exact .ensureConsumerGroup c known hself rfl
  | joinConsumerGroup c get join moves =>
    obtain ⟨member, hmember, hcaps, hnow⟩ := get_of_join join
    exact .joinConsumerGroup c (get_put_moved get moves.advances) hmember hcaps hnow
  | @heartbeat c group group' member revision get heartbeat moves _ present =>
    obtain ⟨hgeneration, found, hfound, hnow⟩ := get_of_heartbeat heartbeat
    cases present.symm.trans hfound
    have hself := get_put_moved get moves.advances
    have hsettled := Settled.heartbeat
      (m := (m.groupPut group').groupsRecorded [c.groupId] revision) c hself hgeneration hfound hnow
    rw [show group'.id = c.groupId from key_of_get hself] at hsettled
    exact hsettled
  | claimTask c claimed => exact claimed.settled hretryable
  | @completeTask c ns task lease taskRevision revision term member get _ fits =>
    -- The completion that was just written is the one a retry finds.
    have hself : (m.state.tasks.put (task.toCompleted
        (lease.completed c.result c.completedAtMs) taskRevision)).get c.taskId =
          some (task.toCompleted (lease.completed c.result c.completedAtMs) taskRevision) := by
      rw [← key_of_get get]
      exact get_put_self _ _
    exact .completeTask (m := m.completed task lease c.result c.completedAtMs taskRevision revision)
      c term member hself rfl ⟨fits.leaseId, rfl⟩
  | leaveConsumerGroup | renewTaskLease => cases result <;> exact False.elim hretryable
  | reapStaleMembers | pruneCompletedTasks | advanceTerm => exact False.elim hretryable

/-! ## Immediate retries -/

/-- What the machine holds after a command that may be sent again. -/
theorem apply_settled (h : Indexed m) {applied : AppliedMutation}
    (hok : (apply m c).2 = .ok applied) (hretryable : Retryable c applied.result) :
    Settled (apply m c).1 c applied.result := by
  rcases apply_cases h c with ⟨result, hresult, hstep⟩ | ⟨error, herror, -⟩
  · cases hresult.symm.trans hok
    exact hstep.settled hretryable
  · cases herror.symm.trans hok

/-- A settled command is applied without a change. -/
theorem Settled.apply (h : Settled m c result)
    (hnext : ∃ revision, m.state.revision.next = .ok revision) :
    apply m c = (m.clearChanges, .ok ⟨result, noChanges⟩) := by
  have hrun := h.clearChanges.dispatch hnext
  unfold BrokerStateMachine.apply
  rw [hrun]
  rfl

/-- **Immediate retries are idempotent.**  A command that succeeds and may be sent again
is answered the second time with the same result, changes nothing and records no
change, as long as the revision is not exhausted.  The capacity the command carries
plays no part. -/
theorem immediate_retry_idempotent (commands : List BrokerCommand) (c : BrokerCommand)
    (applied : AppliedMutation) (hok : (apply (run initial commands) c).2 = .ok applied)
    (hretryable : Retryable c applied.result)
    (hrevision : (apply (run initial commands) c).1.state.revision.get < u64Size - 1) :
    (apply (apply (run initial commands) c).1 c).2 = .ok ⟨applied.result, noChanges⟩ ∧
      (apply (apply (run initial commands) c).1 c).1.state =
        (apply (run initial commands) c).1.state := by
  have hsettled := apply_settled (run_indexed commands) hok hretryable
  have hnext := Counter.next_isOk_iff.mpr (Nat.add_lt_of_lt_sub hrevision)
  rw [hsettled.apply hnext]
  exact ⟨rfl, rfl⟩

/-- A namespace command that fills the only slot, sent twice. -/
theorem last_slot_retry_idempotent :
    ∃ applied, (apply (run initial []) (.ensureNamespace
          ⟨namespaceA, 1⟩)).2 = .ok applied ∧
      applied.changes ≠ noChanges ∧
      (apply (apply (run initial []) (.ensureNamespace
          ⟨namespaceA, 1⟩)).1 (.ensureNamespace
          ⟨namespaceA, 1⟩)).2 = .ok ⟨applied.result, noChanges⟩ := by
  have hok : (apply (run initial []) (.ensureNamespace
      ⟨namespaceA, 1⟩)).2 =
        .ok ⟨.namespaceEnsured ⟨⟨.initial, .one⟩, namespaceA, .one⟩,
          ⟨[namespaceA], [], [], []⟩⟩ := by decide +kernel
  exact ⟨_, hok, by decide +kernel,
    (immediate_retry_idempotent [] _ _ hok trivial (by decide +kernel)).1⟩

/-! ## Completing what a claim was answered with -/

/-- The completion that shows what the claim was answered with, at the time of the
claim. -/
def completionOf (claim : ClaimTaskCommand) (answer : TaskClaimResult) (taskId : TaskId)
    (leaseId : LeaseId) (leaseEpoch : LeaseEpoch) (result : TaskResult) :
    CompleteTaskCommand where
  taskId := taskId
  groupId := claim.groupId
  memberId := claim.memberId
  expectedTerm := claim.expectedTerm
  expectedGeneration := answer.generation
  expectedLeaseEpoch := leaseEpoch
  leaseId := leaseId
  result := result
  completedAtMs := claim.nowMs

/-- The guards of a completion. -/
structure Completable (m : BrokerStateMachine) (c : CompleteTaskCommand) : Prop where
  term : m.state.term = c.expectedTerm
  member : ∃ ns, m.CurrentMember c.groupId c.memberId c.expectedGeneration ns
  next : ∃ revision, m.state.revision.next = .ok revision
  task : ∃ task outcome, m.state.tasks.get c.taskId = some task ∧
    task.complete c.fence c.result = .ok outcome

theorem completeTask_completable (c : CompleteTaskCommand) :
    wp (completeTask c) m (fun _ _ => m.Completable c) (fun _ _ => ¬m.Completable c) := by
  refine wp_requireTerm_bind (fun hterm => ?_) fun hstale hcan => hstale hcan.term
  refine wp_requireGroupMember_bind (fun ns hmember => wp_get_bind ?_) fun error herror hcan => ?_
  · refine wp_advance_bind (fun revision hrevision => ?_) fun error herror hcan => ?_
    · refine wp_found_bind (fun task htask => ?_) fun hnone hcan => ?_
      · refine wp_transition_bind (fun outcome houtcome => ?_) fun error herror hcan => ?_
        · exact ⟨hterm, ⟨ns, hmember⟩, ⟨revision, hrevision⟩, task, outcome, htask, houtcome⟩
        · obtain ⟨task', outcome, htask', houtcome⟩ := hcan.task
          cases htask.symm.trans htask'
          exact nomatch herror.symm.trans houtcome
      · obtain ⟨task, -, htask, -⟩ := hcan.task
        exact nomatch hnone.symm.trans htask
    · obtain ⟨revision, hrevision⟩ := hcan.next
      exact nomatch herror.symm.trans hrevision
  · obtain ⟨ns, hmember⟩ := hcan.member
    exact nomatch herror.symm.trans hmember.requireMember_eq_ok

/-- A completion succeeds exactly if it passes its guards. -/
theorem apply_completeTask_ok_iff (c : CompleteTaskCommand) :
    (∃ applied, (apply m (.completeTask c)).2 = .ok applied) ↔ m.Completable c := by
  have hwp : wp (dispatch (.completeTask c)) m.clearChanges
      (fun _ _ => m.clearChanges.Completable c) (fun _ _ => ¬m.clearChanges.Completable c) :=
    wp_bind.mpr (completeTask_completable c)
  have hsame : m.clearChanges.Completable c ↔ m.Completable c :=
    ⟨fun h => ⟨h.term, h.member, h.next, h.task⟩, fun h => ⟨h.term, h.member, h.next, h.task⟩⟩
  rw [hsame] at hwp
  unfold EStateM.wp at hwp
  unfold apply
  cases hrun : (BrokerStateMachine.dispatch (.completeTask c)).run m.clearChanges with
  | ok =>
    rw [hrun] at hwp
    exact ⟨fun _ => hwp, fun _ => ⟨_, rfl⟩⟩
  | error =>
    rw [hrun] at hwp
    exact ⟨fun ⟨_, hok⟩ => (nomatch hok), fun hcan => absurd hcan hwp⟩

/-- A claim that was answered with a task is completed if its lease is of the generation
the claim shows and not expired; the term, the member and the rest of the lease fit. -/
theorem Settled.completable_iff {answer : TaskClaimResult}
    (h : Settled m (.claimTask claim) (.taskClaim answer)) (htask : answer.taskId = some taskId) :
    ∃ task lease, m.state.tasks.get taskId = some task ∧ task.state = .leased lease ∧
      answer.leaseId = some lease.leaseId ∧ answer.leaseEpoch = some lease.leaseEpoch ∧
      ∀ result, m.Completable
          (completionOf claim answer taskId lease.leaseId lease.leaseEpoch result) ↔
        lease.generation = claim.expectedGeneration ∧ claim.nowMs < lease.expiresAtMs ∧
          m.state.revision.get + 1 < u64Size ∧ task.revision.get + 1 < u64Size := by
  cases h with
  | @claimTask _ ns task lease term member _ get state owner =>
    simp only [taskClaimResult, state, Option.some.injEq] at htask ⊢
    subst htask
    refine ⟨task, lease, get, state, rfl, rfl, fun result => ⟨fun hcan => ?_, ?_⟩⟩
    · obtain ⟨found, ⟨outcome, after⟩, hfound, hcomplete⟩ := hcan.task
      cases get.symm.trans hfound
      rcases Task.complete_eq_ok_iff.mp hcomplete with
        ⟨current, revision, hcurrent, hfits, hrevision, -⟩ | ⟨completed, hcompleted, -⟩
      · cases state.symm.trans hcurrent
        exact ⟨hfits.generation, hfits.unexpired, Counter.next_isOk_iff.mp hcan.next,
          Counter.next_isOk_iff.mp ⟨revision, hrevision⟩⟩
      · exact nomatch state.symm.trans hcompleted
    · rintro ⟨hgeneration, hunexpired, hnext, htaskNext⟩
      obtain ⟨revision, hrevision⟩ := Counter.next_isOk_iff.mpr htaskNext
      refine ⟨term, ⟨ns, member⟩, Counter.next_isOk_iff.mpr hnext, task, _, get,
        Task.complete_eq_ok_iff.mpr (.inl ⟨lease, revision, state, ?_, hrevision, rfl, rfl⟩)⟩
      exact ⟨owner.2, owner.1, hgeneration, rfl, rfl, hunexpired⟩

/-- The completion that follows a claim answered with the task goes through.  A retry
must find its lease at the generation it shows and not expired; a claim that leases the
task needs room for its own revisions and for those of the completion, and one that
takes an expired lease back first needs one more of the task. -/
def CompletesNext (m : BrokerStateMachine) (claim : ClaimTaskCommand) (taskId : TaskId) : Prop :=
  ∃ task, m.state.tasks.get taskId = some task ∧
    match task.lease with
    | some lease =>
      if lease.leaseId = claim.leaseId then
        lease.generation = claim.expectedGeneration ∧ claim.nowMs < lease.expiresAtMs ∧
          m.state.revision.get + 1 < u64Size ∧ task.revision.get + 1 < u64Size
      else m.state.revision.get + 2 < u64Size ∧ task.revision.get + 3 < u64Size
    | none => m.state.revision.get + 2 < u64Size ∧ task.revision.get + 2 < u64Size

/-- The condition for a claim whose lease id is active. -/
theorem completesNext_of_retried {lease : LeasedTask} (hget : m.state.tasks.get task.id = some task)
    (hstate : task.state = .leased lease) (hleaseId : lease.leaseId = claim.leaseId) :
    m.CompletesNext claim task.id ↔
      lease.generation = claim.expectedGeneration ∧ claim.nowMs < lease.expiresAtMs ∧
        m.state.revision.get + 1 < u64Size ∧ task.revision.get + 1 < u64Size := by
  unfold CompletesNext
  simp only [hget, Option.some.injEq, exists_eq_left', Task.lease_of_leased hstate]
  rw [if_pos hleaseId]

/-- The condition for a claim that leases the task anew. -/
theorem completesNext_of_fresh (h : Indexed m)
    (hfresh : m.activeLeaseTasks.get claim.leaseId = none)
    (hget : m.state.tasks.get taskId = some task) :
    m.CompletesNext claim taskId ↔ m.state.revision.get + 2 < u64Size ∧
      task.revision.get + (if task.status = .leased then 1 else 0) + 2 < u64Size := by
  cases hstate : task.state with
  | leased lease =>
    -- The expired lease that is taken back has another id.
    have hother : lease.leaseId ≠ claim.leaseId := by
      intro hsame
      have hactive : m.activeLeaseTasks.get claim.leaseId = some taskId :=
        (h.active _ _).mpr ((attr_of_get hget).trans (by
          rw [Task.activeLeaseId_of_leased hstate, hsame]))
      rw [hfresh] at hactive
      cases hactive
    simp [CompletesNext, hget, Task.lease, Task.status, hstate, hother, TaskState.status]
  | queued | completed =>
    simp [CompletesNext, hget, Task.lease, Task.status, hstate, TaskState.status]

/-- **When a returned claim is usable.**  A claim was answered with a task.  The
completion sent next with the member, group and term of the claim, what the claim was
answered with and the time of the claim succeeds exactly if the claim is no retry, or
its lease is of the generation the claim shows and not expired, and the revisions have
room. -/
theorem returned_claim_usable_iff (commands : List BrokerCommand) (claim : ClaimTaskCommand)
    (hduration : 0 < claim.leaseDurationMs.get) (answer : TaskClaimResult)
    (changes : StateChangeSet)
    (hanswer : (apply (run initial commands) (.claimTask claim)).2 =
      .ok ⟨.taskClaim answer, changes⟩)
    (taskId : TaskId) (htask : answer.taskId = some taskId) (result : TaskResult) :
    (∃ leaseId leaseEpoch applied, answer.leaseId = some leaseId ∧
        answer.leaseEpoch = some leaseEpoch ∧
        (apply (apply (run initial commands) (.claimTask claim)).1 (.completeTask
          (completionOf claim answer taskId leaseId leaseEpoch result))).2 = .ok applied) ↔
      (run initial commands).CompletesNext claim taskId := by
  have h := run_indexed commands
  generalize run initial commands = m at h hanswer ⊢
  have hsettled : Settled (apply m (.claimTask claim)).1 (.claimTask claim) (.taskClaim answer) :=
    apply_settled h hanswer (by show answer.taskId ≠ none; simp [htask])
  obtain ⟨task, lease, hget, hstate, hleaseId, hepoch, hiff⟩ := hsettled.completable_iff htask
  have hcomplete : (∃ leaseId leaseEpoch applied, answer.leaseId = some leaseId ∧
      answer.leaseEpoch = some leaseEpoch ∧
      (apply (apply m (.claimTask claim)).1 (.completeTask
        (completionOf claim answer taskId leaseId leaseEpoch result))).2 = .ok applied) ↔
      (apply m (.claimTask claim)).1.Completable
        (completionOf claim answer taskId lease.leaseId lease.leaseEpoch result) := by
    rw [← apply_completeTask_ok_iff]
    constructor
    · rintro ⟨_, _, applied, hleaseId', hepoch', hok⟩
      cases hleaseId.symm.trans hleaseId'
      cases hepoch.symm.trans hepoch'
      exact ⟨applied, hok⟩
    · rintro ⟨applied, hok⟩
      exact ⟨lease.leaseId, lease.leaseEpoch, applied, hleaseId, hepoch, hok⟩
  rw [hcomplete, hiff result]
  rcases apply_cases h (.claimTask claim) with ⟨answered, hok, hsucceeds⟩ | ⟨error, herror, -⟩
  · obtain ⟨answered, rfl, hclaimed⟩ := hsucceeds.claimed
    cases hok.symm.trans hanswer
    generalize (apply m (.claimTask claim)).1 = after at hget hclaimed ⊢
    cases hclaimed with
    | @retried ns held current member get state leaseId groupId =>
      simp only [taskClaimResult, state, Option.some.injEq] at htask
      subst htask
      cases get.symm.trans hget
      cases state.symm.trans hstate
      exact (completesNext_of_retried (m := m) get state leaseId).symm
    | idle => cases htask
    | @leased ns e rest ready queued expiresAtMs epoch taskRevision revision reaches due heap
        get id state expires epochNext taskNext next =>
        have hid : taskId = ready.id := (Option.some.inj htask).symm
        subst hid
        obtain ⟨before, hbefore, -, hrevision⟩ := get_before_caughtUp due get state
        have hself := get_put_self (m.clearChanges.caughtUp ns claim.nowMs).state.tasks
          (ready.toLeased (leaseFor claim epoch expiresAtMs) taskRevision)
        cases hself.symm.trans hget
        cases hstate
        rw [completesNext_of_fresh h reaches.fresh hbefore]
        -- The new lease is of the generation shown and ends after the claim.
        have hunexpired : claim.nowMs.get < expiresAtMs.get := by
          rw [TimestampMs.checkedAdd_eq_some_iff.mp expires]
          exact Nat.lt_add_of_pos_right hduration
        have hnext : revision.get = m.state.revision.get + 1 := Counter.next_get next
        have htaskNext : taskRevision.get = ready.revision.get + 1 := Counter.next_get taskNext
        show claim.expectedGeneration = claim.expectedGeneration ∧
          claim.nowMs.get < expiresAtMs.get ∧ revision.get + 1 < u64Size ∧
          taskRevision.get + 1 < u64Size ↔ _
        rw [hnext, htaskNext, hrevision]
        exact ⟨fun ⟨_, _, hroom, htaskRoom⟩ => ⟨hroom, htaskRoom⟩,
          fun ⟨hroom, htaskRoom⟩ => ⟨rfl, hunexpired, hroom, htaskRoom⟩⟩
  · rw [herror] at hanswer
    cases hanswer

/-- The claim of the queued task, for ten milliseconds. -/
def tenMsClaim : ClaimTaskCommand :=
  claimBy groupG workerW leaseL
    0 10

/-- What a claim of the task is answered with, at a generation. -/
def tenMsAnswer (revision : Revision) (generation : Generation) : TaskClaimResult :=
  ⟨⟨.initial, revision⟩, some taskT, some someObjective,
    some 2, some leaseL, some 1,
    some 10, generation⟩

/-- The first claim of the task can be completed. -/
theorem first_claim_usable :
    0 < tenMsClaim.leaseDurationMs.get ∧
      (apply (run initial oneTask) (.claimTask tenMsClaim)).2 =
        .ok ⟨.taskClaim (tenMsAnswer 5 1),
          ⟨[], [taskT], [], []⟩⟩ ∧
      ∃ leaseId leaseEpoch applied,
        (tenMsAnswer 5 1).leaseId = some leaseId ∧
        (tenMsAnswer 5 1).leaseEpoch = some leaseEpoch ∧
        (apply (apply (run initial oneTask) (.claimTask tenMsClaim)).1 (.completeTask
          (completionOf tenMsClaim (tenMsAnswer 5 1)
            taskT leaseId leaseEpoch someResult))).2 = .ok applied := by
  have hduration : 0 < tenMsClaim.leaseDurationMs.get := by decide
  have hanswer : (apply (run initial oneTask) (.claimTask tenMsClaim)).2 =
      .ok ⟨.taskClaim (tenMsAnswer 5 1),
        ⟨[], [taskT], [], []⟩⟩ := by decide +kernel
  refine ⟨hduration, hanswer, (returned_claim_usable_iff oneTask tenMsClaim hduration _ _ hanswer
    taskT rfl someResult).mpr ?_⟩
  have hget : (run initial oneTask).state.tasks.get taskT =
      some (.new taskT namespaceA someObjective
        0) := by decide +kernel
  refine (completesNext_of_fresh (run_indexed oneTask) (by decide +kernel) hget).mpr ?_
  decide +kernel

/-- The task is leased, then a second member joins its group. -/
def joinedSince : List BrokerCommand :=
  oneTask ++ [.claimTask tenMsClaim,
    .joinConsumerGroup ⟨groupG, workerV, ⟨∅, Capabilities.bounded_empty⟩,
      0, 8⟩]

/-- A retry of the claim after the group has gone on to its second generation, and one
at the end of the lease, are answered with the task; what they are answered with is
refused at once. -/
theorem retried_claim_unusable :
    ((apply (run initial joinedSince)
        (.claimTask { tenMsClaim with expectedGeneration := 2 })).2 =
      .ok ⟨.taskClaim (tenMsAnswer 6 2), noChanges⟩ ∧
    (apply (apply (run initial joinedSince)
        (.claimTask { tenMsClaim with expectedGeneration := 2 })).1
      (.completeTask (completionOf { tenMsClaim with expectedGeneration := 2 }
        (tenMsAnswer 6 2) taskT
        leaseL 1 someResult))).2 =
      .error (.taskTransition .staleGeneration)) ∧
    (apply (run initial (oneTask ++ [.claimTask tenMsClaim]))
        (.claimTask { tenMsClaim with nowMs := 10 })).2 =
      .ok ⟨.taskClaim (tenMsAnswer 5 1), noChanges⟩ ∧
    (apply (apply (run initial (oneTask ++ [.claimTask tenMsClaim]))
        (.claimTask { tenMsClaim with nowMs := 10 })).1
      (.completeTask (completionOf { tenMsClaim with nowMs := 10 }
        (tenMsAnswer 5 1) taskT
        leaseL 1 someResult))).2 =
      .error (.taskTransition .leaseExpired) := by
  refine ⟨⟨?_, ?_⟩, ?_, ?_⟩ <;> decide +kernel

end BrokerStateMachine

end AgentBroker
