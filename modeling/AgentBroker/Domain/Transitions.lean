import AgentBroker.Domain.Requeue

/-!
# Rules for the methods of the state machine

The methods are sequences of checks, each with the `?` of the source.  There is one rule
for each kind of check: it says what is known when the method goes on and what is left to
show when it stops there.
-/

namespace AgentBroker

open Except hiding error
open EStateM Registry ConsumerGroup

/-- The fence a renew command carries. -/
def RenewTaskLeaseCommand.fence (c : RenewTaskLeaseCommand) : LeaseFence :=
  ⟨c.leaseId, c.memberId, c.groupId, c.expectedGeneration, c.expectedLeaseEpoch, c.nowMs⟩

/-- The fence a complete command carries. -/
def CompleteTaskCommand.fence (c : CompleteTaskCommand) : LeaseFence :=
  ⟨c.leaseId, c.memberId, c.groupId, c.expectedGeneration, c.expectedLeaseEpoch,
    c.completedAtMs⟩

namespace BrokerStateMachine

open EStateM (wp)

variable {m : BrokerStateMachine}

/-! ## Sequencing rules for the `?` operators -/

section Rules

variable {α β : Type} {Q : β → BrokerStateMachine → Prop}
variable {E : StateMachineError → BrokerStateMachine → Prop}

theorem wp_get_bind {f : BrokerStateMachine → BrokerM β} (h : wp (f m) m Q E) :
    wp (get >>= f) m Q E :=
  wp_bind.mpr h

theorem wp_set_bind {m' : BrokerStateMachine} {f : Unit → BrokerM β}
    (h : wp (f ()) m' Q E) : wp (set m' >>= f) m Q E :=
  wp_bind.mpr h

theorem wp_ofExcept_bind {x : Except StateMachineError α} {f : α → BrokerM β}
    (hok : ∀ a, x = .ok a → wp (f a) m Q E) (herror : ∀ e, x = .error e → E e m) :
    wp (EStateM.ofExcept x >>= f) m Q E :=
  wp_bind.mpr (wp_ofExcept.mpr ⟨hok, herror⟩)

theorem wp_require_bind {p : Prop} [Decidable p] {error : StateMachineError}
    {f : Unit → BrokerM β} (hok : p → wp (f ()) m Q E) (herror : ¬p → E error m) :
    wp (require p error >>= f) m Q E := by
  refine wp_ofExcept_bind (fun a ha => hok (require_eq_ok_iff.mp ha)) fun e he => ?_
  obtain ⟨hp, rfl⟩ := require_eq_error_iff.mp he
  exact herror hp

theorem wp_advance_bind {x : Except FencingValueError α} {f : α → BrokerM β}
    (hok : ∀ a, x = .ok a → wp (f a) m Q E) (herror : ∀ e, x = .error e → E (.fencingValue e) m) :
    wp (advance x >>= f) m Q E := by
  refine wp_ofExcept_bind (fun a ha => hok a (mapError_eq_ok_iff.mp ha)) fun e he => ?_
  obtain ⟨e', he', rfl⟩ := mapError_eq_error_iff.mp he
  exact herror e' he'

theorem wp_transition_bind {x : Except TaskTransitionError α} {f : α → BrokerM β}
    (hok : ∀ a, x = .ok a → wp (f a) m Q E) (herror : ∀ e, x = .error e → E (.taskTransition e) m) :
    wp (transition x >>= f) m Q E := by
  refine wp_ofExcept_bind (fun a ha => hok a (mapError_eq_ok_iff.mp ha)) fun e he => ?_
  obtain ⟨e', he', rfl⟩ := mapError_eq_error_iff.mp he
  exact herror e' he'

theorem wp_coordinated_bind {x : Except GroupCoordinatorError α} {f : α → BrokerM β}
    (hok : ∀ a, x = .ok a → wp (f a) m Q E) (herror : ∀ e, x = .error e → E (.ofCoordinator e) m) :
    wp (coordinated x >>= f) m Q E := by
  refine wp_ofExcept_bind (fun a ha => hok a (mapError_eq_ok_iff.mp ha)) fun e he => ?_
  obtain ⟨e', he', rfl⟩ := mapError_eq_error_iff.mp he
  exact herror e' he'

theorem wp_found_bind {o : Option α} {error : StateMachineError} {f : α → BrokerM β}
    (hok : ∀ a, o = some a → wp (f a) m Q E) (herror : o = none → E error m) :
    wp (found error o >>= f) m Q E := by
  refine wp_ofExcept_bind (fun a ha => hok a (ofOption_eq_ok_iff.mp ha)) fun e he => ?_
  cases o with
  | some a => cases he
  | none =>
    cases he
    exact herror rfl

theorem wp_requireTerm_bind {expected : Term} {f : Unit → BrokerM β}
    (hok : m.state.term = expected → wp (f ()) m Q E)
    (herror : m.state.term ≠ expected → E (.staleTerm expected m.state.term) m) :
    wp (requireTerm expected >>= f) m Q E := by
  rw [wp_bind]
  exact wp_get_bind (wp_ofExcept.mpr
    ⟨fun a ha => hok (require_eq_ok_iff.mp ha), fun e he => by
      obtain ⟨hne, rfl⟩ := require_eq_error_iff.mp he
      exact herror hne⟩)

theorem wp_requireNamespace_bind {namespaceId : NamespaceId} {f : Unit → BrokerM β}
    (hok : m.state.namespaces.get namespaceId ≠ none → wp (f ()) m Q E)
    (herror : m.state.namespaces.get namespaceId = none → E (.namespaceNotFound namespaceId) m) :
    wp (requireNamespace namespaceId >>= f) m Q E := by
  rw [wp_bind]
  exact wp_get_bind (wp_ofExcept.mpr
    ⟨fun a ha => hok (require_eq_ok_iff.mp ha), fun e he => by
      obtain ⟨hunknown, rfl⟩ := require_eq_error_iff.mp he
      exact herror (not_not.mp hunknown)⟩)

end Rules

/-- The member belongs to the group at the generation, and the group to the
namespace. -/
def CurrentMember (m : BrokerStateMachine) (groupId : ConsumerGroupId)
    (memberId : ConsumerId) (generation : Generation) (namespaceId : NamespaceId) : Prop :=
  ∃ group member, m.state.groups.get groupId = some group ∧ group.generation = generation ∧
    group.consumer memberId = some member ∧ group.namespaceId = namespaceId

variable {groupId : ConsumerGroupId} {memberId : ConsumerId}
  {E : StateMachineError → BrokerStateMachine → Prop}

theorem CurrentMember.unique {generation : Generation} {ns ns' : NamespaceId}
    (h : m.CurrentMember groupId memberId generation ns)
    (h' : m.CurrentMember groupId memberId generation ns') : ns = ns' := by
  obtain ⟨group, -, hgroup, -, -, rfl⟩ := h
  obtain ⟨group', -, hgroup', -, -, rfl⟩ := h'
  rw [hgroup] at hgroup'
  cases hgroup'
  rfl

theorem CurrentMember.requireMember_eq_ok {generation : Generation} {ns : NamespaceId}
    (h : m.CurrentMember groupId memberId generation ns) :
    GroupCoordinator.requireMember m.state.groups groupId memberId generation =
      .ok (ns, generation) := by
  obtain ⟨group, member, hgroup, hgeneration, hconsumer, hns⟩ := h
  exact GroupCoordinator.requireMember_eq_ok_iff.mpr
    ⟨group, member, hgroup, hgeneration, hconsumer, hns, hgeneration⟩

theorem wp_requireGroupMember_bind {β : Type} {Q : β → BrokerStateMachine → Prop}
    {expected : Generation} {f : NamespaceId × Generation → BrokerM β}
    (hok : ∀ ns, m.CurrentMember groupId memberId expected ns → wp (f (ns, expected)) m Q E)
    (herror : ∀ e, GroupCoordinator.requireMember m.state.groups groupId memberId expected =
      .error e → E (.ofCoordinator e) m) :
    wp (requireGroupMember groupId memberId expected >>= f) m Q E := by
  rw [wp_bind]
  refine wp_get_bind (wp_ofExcept.mpr ⟨fun a ha => ?_, fun e he => ?_⟩)
  · obtain ⟨ns, generation⟩ := a
    obtain ⟨group, member, hgroup, hgen, hmember, hns, hgeneration⟩ :=
      GroupCoordinator.requireMember_eq_ok_iff.mp (mapError_eq_ok_iff.mp ha)
    rw [← hgeneration, hgen]
    exact hok ns ⟨group, member, hgroup, hgen, hmember, hns⟩
  · obtain ⟨e', he', rfl⟩ := mapError_eq_error_iff.mp he
    exact herror e' he'

/-- What a command ensures when it succeeds holds of its answer. -/
theorem apply_ok_of_wp {c : BrokerCommand} {Q : BrokerMutationResult → BrokerStateMachine → Prop}
    (h : wp (dispatch c) m.clearChanges Q E) {applied : AppliedMutation}
    (hok : (apply m c).2 = .ok applied) :
    Q applied.result (apply m c).1 := by
  unfold EStateM.wp at h
  unfold apply at hok ⊢
  cases hrun : (dispatch c).run m.clearChanges with
  | ok =>
    rw [hrun] at h hok
    cases hok
    exact h
  | error =>
    rw [hrun] at hok
    cases hok

/-- What a command ensures when it fails holds of its error. -/
theorem apply_error_of_wp {c : BrokerCommand} {Q : BrokerMutationResult → BrokerStateMachine → Prop}
    (h : wp (dispatch c) m.clearChanges Q E) {error : StateMachineError}
    (herror : (apply m c).2 = .error error) :
    E error (apply m c).1 := by
  unfold EStateM.wp at h
  unfold apply at herror ⊢
  cases hrun : (dispatch c).run m.clearChanges with
  | ok =>
    rw [hrun] at herror
    cases herror
  | error =>
    rw [hrun] at h herror
    cases herror
    exact h

/-! ## Groups -/

/-- Changes of groups are recorded and the revision advances. -/
def groupsRecorded (m : BrokerStateMachine) (groupIds : List ConsumerGroupId)
    (revision : Revision) : BrokerStateMachine :=
  { m with
    state := { m.state with revision := revision }
    changedGroups := groupIds.foldl OrdSet.add m.changedGroups }

/-- A group that was replaced by a transition of it is found under its id. -/
theorem get_put_moved {groups : ConsumerGroups} {group group' : ConsumerGroup}
    (hget : groups.get groupId = some group) (hadv : group.Advances group') :
    (groups.put group').get groupId = some group' := by
  rw [← key_of_get hget, ← hadv.id, get_put_self]

end BrokerStateMachine

end AgentBroker
