import AgentBroker.Domain.FailedClaim

/-!
# Commands that have to succeed

The cases of `Succeeds` and `Fails` say what a command did.  Here it is the other way
round: nothing is in the way of the command, so it succeeds.

## Main results

* `publish_succeeds`, `claim_succeeds`, `leave_succeeds`.
-/

namespace AgentBroker

namespace BrokerStateMachine

variable {m : BrokerStateMachine}

theorem publish_succeeds (h : Indexed m) {c : PublishTaskCommand} (hcan : m.CanPublish c) :
    ∃ applied revision, (apply m (.publishTask c)).2 = .ok applied ∧
      m.state.revision.next = .ok revision ∧
      (apply m (.publishTask c)).1 = m.clearChanges.published
        (.new c.taskId c.namespaceId c.objective c.createdAtMs) revision := by
  rcases apply_cases h (.publishTask c) with ⟨result, hok, hstep⟩ | ⟨error, -, hstep⟩
  · generalize (apply m (.publishTask c)).1 = after at hok hstep ⊢
    cases hstep with
    | unchanged _ settled =>
      cases settled with
      | publishTask _ _ get => cases hcan.fresh.symm.trans get
    | publishTask _ _ _ _ next => exact ⟨_, _, hok, next, rfl⟩
  · generalize (apply m (.publishTask c)).1 = after at hstep
    cases hstep with
    | refused refuses => exact absurd ⟨hcan.known, hcan.fresh, hcan.room, hcan.next⟩ refuses.1

theorem taskCount_published (task : Task) (revision : Revision) :
    (m.published task revision).taskCount task.namespaceId =
      m.taskCount task.namespaceId + 1 := by
  show (m.namespaceTaskCounts.insert task.namespaceId _).getD task.namespaceId 0 = _
  rw [OrdMap.getD_insert, if_pos rfl]

/-- A published task is ready. -/
theorem mem_readyHeap_published (task : Task) (revision : Revision) :
    (⟨task.createdAtMs, task.id⟩ : TimedTask) ∈
      (m.published task revision).readyHeap task.namespaceId := by
  show _ ∈ (m.readyTasks.updateD task.namespaceId ∅ _).getD task.namespaceId ∅
  rw [OrdMap.getD_updateD, if_pos rfl, MinHeap.mem_push]
  exact Or.inl rfl

/-- A claim that reaches the queue and can finish succeeds. -/
theorem claim_succeeds (h : Indexed m) {c : ClaimTaskCommand} {ns : NamespaceId}
    (hreaches : m.Reaches c ns) (hcan : m.CanFinish c ns) :
    ∃ applied result, (apply m (.claimTask c)).2 = .ok applied ∧
      Claimed m.clearChanges c result (apply m (.claimTask c)).1 := by
  have hclear := reaches_clearChanges.mpr hreaches
  rcases apply_cases h (.claimTask c) with ⟨result, hok, hstep⟩ | ⟨error, -, hstep⟩
  · obtain ⟨claim, -, hclaimed⟩ := hstep.claimed
    exact ⟨_, claim, hok, hclaimed⟩
  · refine absurd hclear ((hstep.claimFailed.of_canFinish fun ns' hreaches' => ?_).2 ns)
    cases hreaches'.member.unique hclear.member
    exact hcan

theorem leave_succeeds (h : Indexed m) {c : LeaveConsumerGroupCommand} (hcan : m.CanLeave c) :
    ∃ applied group' revision, (apply m (.leaveConsumerGroup c)).2 = .ok applied ∧
      (apply m (.leaveConsumerGroup c)).1 =
        ((m.clearChanges.groupPut group').dropLeases c.groupId c.memberId).groupsRecorded
          [c.groupId] revision := by
  rcases apply_cases h (.leaveConsumerGroup c) with ⟨result, hok, hstep⟩ | ⟨error, -, hstep⟩
  · generalize (apply m (.leaveConsumerGroup c)).1 = after at hok hstep ⊢
    cases hstep with
    | unchanged _ settled => cases settled
    | leaveConsumerGroup => exact ⟨_, _, _, hok, rfl⟩
  · generalize (apply m (.leaveConsumerGroup c)).1 = after at hstep
    cases hstep with
    | refused refuses => exact absurd ⟨hcan.leaves, hcan.requeueable, hcan.next⟩ refuses

end BrokerStateMachine

end AgentBroker
