import AgentBroker.Consensus.ExactlyOnce
import AgentBroker.Domain.Transitions

/-!
# The replicated path and the direct path

A command that goes through the log is converted four times: to its replicated form and
back before it is applied, and its result to an answer and back for the client.  None of
the conversions can fail or lose anything, so the log adds nothing to `apply` but the
disposition of errors.

The only conversion that depends on what the state machine computes is that of a claim:
an answer with half a lease would be refused.  `claimTask_whole` excludes it for every
machine, whether its indexes are exact or not.

## Main results

* `dispatch_whole` — every result decodes.
* `replicated_path_equals_direct` — the two paths agree, and no proposal an adapter
  builds halts a replica.
-/

namespace AgentBroker

open EStateM

namespace BrokerStateMachine

open EStateM (wp)

variable {m : BrokerStateMachine}

/-! ## Claims return whole leases -/

theorem taskClaimResult_whole (generation : Generation) (task : Option Task) :
    (m.taskClaimResult generation task).Whole := by
  unfold taskClaimResult
  cases task with
  | none => exact Or.inr ⟨rfl, rfl, rfl, rfl, rfl, rfl⟩
  | some task =>
    cases htask : task.state with
    | leased =>
      simp only [htask]
      exact Or.inl ⟨rfl, rfl, rfl, rfl, rfl, rfl⟩
    | queued | completed =>
      simp only [htask]
      exact Or.inr ⟨rfl, rfl, rfl, rfl, rfl, rfl⟩

/-- The result for a leased task stays whole with another revision of the task. -/
theorem taskClaimResult_leased_whole {generation : Generation} {task : Task} {lease : LeasedTask}
    {revision : Revision} (hstate : task.state = .leased lease) :
    ({ m.taskClaimResult generation (some task) with
      taskRevision := some revision } : TaskClaimResult).Whole := by
  unfold taskClaimResult
  simp only [hstate]
  exact Or.inl ⟨rfl, rfl, rfl, rfl, rfl, rfl⟩

theorem leaseReadyTask_whole (c : ClaimTaskCommand) (ns : NamespaceId) (generation : Generation)
    (taskId : TaskId) :
    wp (leaseReadyTask c ns generation taskId) m (fun r _ => r.Whole) (fun _ _ => True) := by
  refine wp_ofExcept_bind (fun expiresAtMs _ => ?_) fun _ _ => trivial
  refine wp_get_bind ?_
  refine wp_advance_bind (fun revision _ => ?_) fun _ _ => trivial
  refine wp_found_bind (fun task hget => ?_) fun _ => trivial
  refine wp_transition_bind (fun task' hclaim => ?_) fun _ _ => trivial
  obtain ⟨queued, epoch, taskRevision, -, -, -, rfl⟩ := Task.claim_eq_ok_iff.mp hclaim
  -- The task that was just filed is found, and it is leased.
  refine wp_set_bind (wp_set_bind (wp_found_bind (fun leased hleased => ?_) fun _ => trivial))
  have hid : task.id = taskId := Registry.key_of_get hget
  have hself : (m.state.tasks.put (task.toLeased (LeaseGrant.lease ⟨c.leaseId, c.memberId,
      c.groupId, generation, expiresAtMs⟩ epoch) taskRevision)).get taskId = some (task.toLeased
      (LeaseGrant.lease ⟨c.leaseId, c.memberId, c.groupId, generation, expiresAtMs⟩ epoch)
      taskRevision) := by
    rw [← hid]
    exact Registry.get_put_self _ _
  cases hself.symm.trans hleased
  exact taskClaimResult_leased_whole rfl

theorem claimTask_whole (c : ClaimTaskCommand) :
    wp (claimTask c) m (fun r _ => r.Whole) (fun _ _ => True) := by
  refine wp_requireTerm_bind (fun _ => ?_) fun _ => trivial
  refine wp_requireGroupMember_bind (fun ns _ => ?_) fun _ _ => trivial
  refine wp_get_bind ?_
  dsimp only
  cases m.activeLeaseTasks.get c.leaseId with
  | some =>
    refine wp_found_bind (fun task _ => ?_) fun _ => trivial
    cases hstate : task.state with
    | leased =>
      exact wp_require_bind (fun _ => taskClaimResult_whole _ _) fun _ => trivial
    | queued | completed => trivial
  | none =>
    rw [wp_bind]
    refine wp_mono (wp_trivial _) (fun recovered s _ => ?_) fun _ _ _ => trivial
    rw [wp_bind]
    refine wp_mono (wp_trivial _) (fun ready s' _ => ?_) fun _ _ _ => trivial
    cases ready with
    | some taskId => exact leaseReadyTask_whole c ns c.expectedGeneration taskId
    | none =>
      refine wp_get_bind ?_
      split_ifs
      · refine wp_advance_bind (fun revision _ => ?_) fun _ _ => trivial
        exact wp_set_bind (taskClaimResult_whole _ _)
      · exact taskClaimResult_whole _ _

/-- **Every result decodes**, on every machine. -/
theorem dispatch_whole (c : BrokerCommand) :
    wp (dispatch c) m (fun r _ => r.Whole) (fun _ _ => True) := by
  cases c with
  | claimTask c =>
    rw [dispatch, wp_bind]
    exact wp_mono (claimTask_whole c) (fun _ _ h => h) fun _ _ _ => trivial
  | _ =>
    rw [dispatch, wp_bind]
    exact wp_mono (wp_trivial _) (fun _ _ _ => trivial) fun _ _ _ => trivial

theorem apply_whole (m : BrokerStateMachine) (c : BrokerCommand) {applied : AppliedMutation}
    (hok : (apply m c).2 = .ok applied) : applied.result.Whole := by
  have hwhole := dispatch_whole (m := m.clearChanges) c
  unfold EStateM.wp at hwhole
  unfold apply at hok
  cases hrun : (dispatch c).run m.clearChanges with
  | ok =>
    rw [hrun] at hwhole hok
    cases hok
    exact hwhole
  | error =>
    rw [hrun] at hok
    cases hok

end BrokerStateMachine

namespace SessionedBroker

open ReplicatedBrokerCommandV1 (ofBrokerCommand)

/-! ## The adapters -/

/-- The proposals the adapters build: commands with and without an identity, and
acquisitions. -/
inductive AdapterProposal : ReplicatedBrokerProposalV1 → Prop
  | legacy (c : BrokerCommand) : AdapterProposal (.legacy (ofBrokerCommand c))
  | identified (identity : CommandIdentity) (c : BrokerCommand) :
      AdapterProposal (.identified identity (ofBrokerCommand c))
  | acquisition (session : CommandSessionId) (expected : SessionOwnerEpoch)
      (owner : SessionOwnerInstanceId) :
      AdapterProposal (.legacy
        (.acquireCommandSessionOwner session.asStr expected.toU64 owner.asStr))

variable {s : SessionedBroker}

theorem applyProposal_legacy (c : BrokerCommand) :
    s.applyProposal (.legacy (ofBrokerCommand c)) =
      s.applyReplicatedCommand (ofBrokerCommand c) := by
  rw [applyProposal, ReplicatedBrokerProposalV1.intoParts_legacy]
  cases c <;> rfl

/-- Commands without a session, as a log. -/
def legacyLog (commands : List BrokerCommand) : List ReplicatedBrokerProposalV1 :=
  commands.map fun command => .legacy (.ofBrokerCommand command)

/-- Such a log does to the Broker what its commands do, and leaves the sessions alone. -/
theorem run_legacyLog (s : SessionedBroker) (commands : List BrokerCommand) :
    s.run (legacyLog commands) = { s with broker := s.broker.run commands } := by
  induction commands generalizing s with
  | nil => rfl
  | cons command _ ih =>
    have hstep := applyReplicatedCommand_ok (s := s)
      (ReplicatedBrokerCommandV1.toBrokerCommand_ofBrokerCommand command)
    rw [← applyProposal_legacy] at hstep
    exact (ih (s.applyProposal (.legacy (.ofBrokerCommand command))).1).trans (by rw [hstep]; rfl)

theorem applyProposal_adapterIdentified (identity : CommandIdentity) (c : BrokerCommand) :
    s.applyProposal (.identified identity (ofBrokerCommand c)) =
      s.applyIdentified identity (ofBrokerCommand c) := by
  rw [applyProposal, ReplicatedBrokerProposalV1.intoParts_identified]
  cases c <;> rfl

theorem applyIdentified_ok (identity : CommandIdentity) (c : BrokerCommand) :
    ∃ response, (s.applyIdentified identity (ofBrokerCommand c)).2 = .ok response := by
  unfold applyIdentified
  cases s.checkSession identity (ofBrokerCommand c) with
  | error response => exact ⟨response, rfl⟩
  | ok u =>
    rw [applyReplicatedCommand_ok
      (ReplicatedBrokerCommandV1.toBrokerCommand_ofBrokerCommand c)]
    exact ⟨_, rfl⟩

/-- No proposal an adapter builds is refused by the replicas. -/
theorem AdapterProposal.answers {p : ReplicatedBrokerProposalV1} (h : AdapterProposal p) :
    ∃ response, (s.applyProposal p).2 = .ok response := by
  cases h with
  | legacy c =>
    rw [applyProposal_legacy, applyReplicatedCommand_ok
      (ReplicatedBrokerCommandV1.toBrokerCommand_ofBrokerCommand c)]
    exact ⟨_, rfl⟩
  | identified identity c =>
    rw [applyProposal_adapterIdentified]
    exact applyIdentified_ok identity c
  | acquisition session expected owner =>
    rw [applyProposal, ReplicatedBrokerProposalV1.intoParts_legacy]
    show ∃ response, (s.acquireCommandSessionOwner session.asStr expected.toU64
      owner.asStr).2 = .ok response
    unfold acquireCommandSessionOwner
    simp only [invalidStateMachineData, SessionText.new_asStr, SessionCounter.new_toU64,
      Except.mapError_ok, Except.ok_bind]
    exact ⟨_, rfl⟩

/-- Decoding the answer to an applied command gives its result. -/
theorem intoApplicationResult_applicationResponse (s : SessionedBroker) (c : BrokerCommand) :
    (s.applicationResponse c).intoApplicationResult =
      .ok (match (s.broker.apply c).2 with
        | .ok applied => .ok applied.result
        | .error error => .error ⟨(BrokerError.ofStateMachine error).code,
            (BrokerError.ofStateMachine error).message, .committed⟩) := by
  unfold applicationResponse
  cases hrun : (s.broker.apply c).2 with
  | ok =>
    refine ReplicatedBrokerResponseV1.intoApplicationResult_fromApplicationResult
      fun value hvalue => ?_
    cases hvalue
    exact s.broker.apply_whole c hrun
  | error => rfl

/-- **The replicated path equals the direct path.**  Every command survives the log; the
replicas apply it as `apply` does, without a storage error; and decoding the answer gives
the direct result, or the direct error with the disposition of a committed entry.  No
proposal an adapter builds halts a replica. -/
theorem replicated_path_equals_direct (s : SessionedBroker) (c : BrokerCommand) :
    (ofBrokerCommand c).toBrokerCommand = .ok c ∧
    (s.applyReplicatedCommand (ofBrokerCommand c)).1 =
      { s with broker := (s.broker.apply c).1 } ∧
    (∃ response, (s.applyReplicatedCommand (ofBrokerCommand c)).2 = .ok response ∧
      response.intoApplicationResult =
        .ok (match (s.broker.apply c).2 with
          | .ok applied => .ok applied.result
          | .error error => .error ⟨(BrokerError.ofStateMachine error).code,
              (BrokerError.ofStateMachine error).message, .committed⟩)) ∧
    ∀ p, AdapterProposal p → ∃ response, (s.applyProposal p).2 = .ok response := by
  have hback := ReplicatedBrokerCommandV1.toBrokerCommand_ofBrokerCommand c
  refine ⟨hback, ?_, ⟨s.applicationResponse c, ?_, ?_⟩, fun p hp => hp.answers⟩
  · rw [applyReplicatedCommand_ok hback]
  · rw [applyReplicatedCommand_ok hback]
  · exact intoApplicationResult_applicationResponse s c

end SessionedBroker

end AgentBroker
