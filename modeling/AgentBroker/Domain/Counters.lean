import AgentBroker.Domain.ChangeSets
import AgentBroker.Domain.History

/-!
# The counters of the Broker

Every command that changes anything advances the revision by one, and only `AdvanceTerm`
moves the term.  A command that fails moves neither.  The revisions of the single records
never go back either.

## Main results

* `apply_counters` — what a command does to the two counters.
* `apply_term_le` — the term never goes back.
* `apply_advanceTerm_ok_iff` — when a term advance succeeds.
* `apply_revisions` — no record goes back, and no namespace or group is lost.
* `deposed_term_never_acts` — a term that has passed never comes back.
* `revision_le_length` — the revision never outruns the commands.
-/

namespace AgentBroker

namespace BrokerStateMachine

open EStateM (wp)

variable {m m' : BrokerStateMachine}

/-- The counters stay, or the revision advances by one. -/
structure CountersStep (m m' : BrokerStateMachine) : Prop where
  term : m'.state.term = m.state.term
  revision : m'.state.revision = m.state.revision ∨
    m.state.revision.next = .ok m'.state.revision

theorem CountersStep.refl (m : BrokerStateMachine) : CountersStep m m := ⟨rfl, Or.inl rfl⟩

theorem pruneAll_term (entries : List TimedTask) :
    (m.pruneAll entries).state.term = m.state.term :=
  pruneAll_untouched (·.state.term) (fun _ _ => rfl) entries

theorem recovered_counters (ns : NamespaceId) (nowMs : TimestampMs) (taskIds : List TaskId) :
    (m.recovered ns nowMs taskIds).state.term = m.state.term ∧
      (m.recovered ns nowMs taskIds).state.revision = m.state.revision := by
  have hframe : SameFrame (m.expirationsPopped ns nowMs)
      ((m.expirationsPopped ns nowMs).takeBack (fun _ => ns) taskIds) :=
    takeBack_sameFrame taskIds
  exact ⟨by rw [recovered, hframe.term, expirationsPopped_state],
    by rw [recovered, hframe.revision, expirationsPopped_state]⟩

theorem Claimed.counters {c : ClaimTaskCommand} {result : TaskClaimResult}
    (h : Claimed m c result m') : CountersStep m m' := by
  cases h with
  | retried => exact .refl m
  | idle => exact ⟨by rw [expirationsPopped_state], Or.inl (by rw [expirationsPopped_state])⟩
  | leased _ _ _ _ _ _ _ _ _ next =>
    exact ⟨(recovered_counters _ _ _).1, Or.inr next⟩

theorem ClaimFailed.counters {c : ClaimTaskCommand} (h : ClaimFailed m c m') :
    m'.state.term = m.state.term ∧ m'.state.revision = m.state.revision := by
  cases h with
  | rejected => exact ⟨rfl, rfl⟩
  | stuck | popped => exact recovered_counters _ _ _

variable {c : BrokerCommand} {result : BrokerMutationResult} {error : StateMachineError}

theorem Succeeds.counters (h : Succeeds m c result m') (hc : ∀ t, c ≠ .advanceTerm t) :
    CountersStep m m' := by
  cases h with
  | unchanged => exact .refl m
  | ensureNamespace _ _ _ next | publishTask _ _ _ _ next | ensureConsumerGroup _ _ _ _ next
  | joinConsumerGroup _ _ _ _ next | heartbeat _ _ _ _ next | renewTaskLease _ _ _ _ _ _ _ _ next
  | completeTask _ _ _ _ _ _ _ next => exact ⟨rfl, Or.inr next⟩
  | leaveConsumerGroup _ _ _ _ next =>
    exact ⟨(takeBack_sameFrame _).term, Or.inr next⟩
  | reapStaleMembers _ _ _ next reaped =>
    obtain ⟨groups, taskIds, rfl, -⟩ := reaped.effect
    exact ⟨(takeBack_sameFrame (m := m.withGroups groups) taskIds).term, Or.inr next⟩
  | claimTask c claimed => exact claimed.counters
  | pruneCompletedTasks _ _ _ next => exact ⟨pruneAll_term _, Or.inr next⟩
  | advanceTerm c => exact absurd rfl (hc c)

theorem Fails.counters (h : Fails m c error m') :
    m'.state.term = m.state.term ∧ m'.state.revision = m.state.revision := by
  cases h with
  | refused => exact ⟨rfl, rfl⟩
  | claimTask c failed => exact failed.counters

/-- **What a command does to the counters.** -/
theorem apply_counters (h : Indexed m) (c : BrokerCommand) :
    CountersStep m (apply m c).1 ∨
      ∃ t, c = .advanceTerm t ∧ m.state.term < t.newTerm ∧ (apply m c).1.state.term = t.newTerm ∧
        m.state.revision.next = .ok (apply m c).1.state.revision := by
  rcases apply_cases h c with ⟨result, -, hstep⟩ | ⟨error, -, hstep⟩
  · by_cases hc : ∀ t, c ≠ .advanceTerm t
    · have hcounters := hstep.counters hc
      exact Or.inl ⟨hcounters.term, hcounters.revision⟩
    · obtain ⟨t, rfl⟩ := not_forall_not.mp hc
      generalize (apply m (.advanceTerm t)).1 = after at hstep
      cases hstep with
      | unchanged _ settled => cases settled
      | advanceTerm _ term greater next => exact Or.inr ⟨t, rfl, greater, rfl, next⟩
  · have hcounters := hstep.counters
    exact Or.inl ⟨hcounters.1, Or.inl hcounters.2⟩

/-- **The term never goes back.** -/
theorem apply_term_le (h : Indexed m) (c : BrokerCommand) :
    m.state.term ≤ (apply m c).1.state.term := by
  rcases apply_counters h c with hsame | ⟨t, -, hlt, hterm, -⟩
  · exact le_of_eq hsame.term.symm
  · exact hterm ▸ le_of_lt hlt

theorem apply_revision_le (h : Indexed m) (c : BrokerCommand) :
    (apply m c).1.state.revision.get ≤ m.state.revision.get + 1 := by
  rcases apply_counters h c with ⟨-, hsame | hnext⟩ | ⟨t, -, -, -, hnext⟩
  · rw [hsame]
    exact Nat.le_succ _
  · exact le_of_eq (Counter.next_get hnext)
  · exact le_of_eq (Counter.next_get hnext)

/-- The revision never outruns the commands, so it overflows in no run of fewer than `2 ^ 64`. -/
theorem revision_le_length (commands : List BrokerCommand) :
    (run initial commands).state.revision.get ≤ commands.length := by
  suffices hrun : ∀ m, Indexed m →
      (run m commands).state.revision.get ≤ m.state.revision.get + commands.length by
    exact (hrun initial initial_indexed).trans (le_of_eq (Nat.zero_add _))
  induction commands with
  | nil => exact fun _ _ => le_rfl
  | cons c rest ih =>
    intro m h
    have hrest := ih (apply m c).1 (apply_indexed h c)
    have hstep := apply_revision_le h c
    show (run (apply m c).1 rest).state.revision.get ≤ _
    rw [List.length_cons]
    omega

/-- **When a term advance succeeds.** -/
theorem apply_advanceTerm_ok_iff (m : BrokerStateMachine) (c : AdvanceTermCommand) :
    (∃ advanced changes, (apply m (.advanceTerm c)).2 = .ok ⟨.termAdvanced advanced, changes⟩) ↔
      CanAdvanceTerm m c := by
  have hwp : wp (dispatch (.advanceTerm c)) m.clearChanges
      (Succeeds m.clearChanges (.advanceTerm c)) (Fails m.clearChanges (.advanceTerm c)) :=
    EStateM.wp_bind.mpr (advanceTerm_wp c)
  cases hanswer : (apply m (.advanceTerm c)).2 with
  | ok applied =>
    have hstep := apply_ok_of_wp hwp hanswer
    obtain ⟨result, changes⟩ := applied
    generalize (apply m (.advanceTerm c)).1 = after at hstep
    cases hstep with
    | unchanged _ settled => cases settled
    | advanceTerm _ term greater next =>
      exact ⟨fun _ => ⟨term, greater, Counter.next_isOk_iff.mp ⟨_, next⟩⟩,
        fun _ => ⟨_, changes, rfl⟩⟩
  | error error =>
    have hstep := apply_error_of_wp hwp hanswer
    generalize (apply m (.advanceTerm c)).1 = after at hstep
    cases hstep with
    | refused refuses => exact ⟨fun ⟨_, _, hok⟩ => (nomatch hok), fun hcan => absurd hcan refuses⟩

/-! ## Records -/

/-- A task that a command keeps has not gone back. -/
theorem TaskStep.revision_le {t : TaskId} {task task' : Task}
    (h : TaskStep m c t (some task) (some task')) : task.revision ≤ task'.revision := by
  rcases h.continues.record with rfl | hlt
  · exact le_rfl
  · exact le_of_lt hlt

theorem Claimed.namespaces {c : ClaimTaskCommand} {result : TaskClaimResult}
    (h : Claimed m c result m') : m'.state.namespaces = m.state.namespaces := by
  cases h with
  | retried => rfl
  | idle => rw [expirationsPopped_state]
  | leased =>
    refine ((takeBack_sameFrame _).namespaces).trans ?_
    rw [expirationsPopped_state]

theorem ClaimFailed.namespaces {c : ClaimTaskCommand} (h : ClaimFailed m c m') :
    m'.state.namespaces = m.state.namespaces := by
  have hrecovered : ∀ ns nowMs taskIds,
      (m.recovered ns nowMs taskIds).state.namespaces = m.state.namespaces := by
    intro ns nowMs taskIds
    rw [recovered, (takeBack_sameFrame taskIds).namespaces, expirationsPopped_state]
  cases h with
  | rejected => rfl
  | stuck | popped => exact hrecovered _ _ _

theorem Fails.namespaces (h : Fails m c error m') :
    m'.state.namespaces = m.state.namespaces := by
  cases h with
  | refused => rfl
  | claimTask c failed => exact failed.namespaces

/-- A command that succeeds keeps the namespaces, or adds one below the capacity. -/
theorem Succeeds.namespaces_cases (h : Succeeds m c result m') :
    m'.state.namespaces = m.state.namespaces ∨
      ∃ ensure, c = .ensureNamespace ensure ∧
        m.state.namespaces.size < ensure.maxNamespaces.get ∧
        m.state.namespaces.get ensure.namespaceId = none ∧
        m'.state.namespaces = m.state.namespaces.put (.new ensure.namespaceId) := by
  cases h with
  | ensureNamespace c fresh room => exact Or.inr ⟨c, rfl, room, fresh, rfl⟩
  | leaveConsumerGroup => exact Or.inl (takeBack_sameFrame _).namespaces
  | reapStaleMembers _ _ _ _ reaped =>
    obtain ⟨groups, taskIds, rfl, -⟩ := reaped.effect
    exact Or.inl (takeBack_sameFrame (m := m.withGroups groups) taskIds).namespaces
  | claimTask c claimed => exact Or.inl claimed.namespaces
  | pruneCompletedTasks => exact Or.inl (pruneAll_frame _).1
  | unchanged | publishTask | ensureConsumerGroup | joinConsumerGroup | heartbeat | renewTaskLease
  | completeTask | advanceTerm => exact Or.inl rfl

/-- A command that succeeds keeps every namespace as it is. -/
theorem Succeeds.namespaces (h : Succeeds m c result m') {k : NamespaceId} {ns : Namespace}
    (hget : m.state.namespaces.get k = some ns) : m'.state.namespaces.get k = some ns := by
  rcases h.namespaces_cases with hsame | ⟨ensure, -, -, hfresh, hput⟩
  · rw [hsame, hget]
  · have hne : k ≠ (Namespace.new ensure.namespaceId).id := fun heq => by
      rw [heq] at hget
      cases hfresh.symm.trans hget
    rw [hput, Registry.get_put_of_ne _ hne, hget]

/-- What a command keeps of the records. -/
structure RevisionsAdvance (state state' : BrokerState) : Prop where
  namespaces : ∀ k ns, state.namespaces.get k = some ns → state'.namespaces.get k = some ns
  tasks : ∀ k task task', state.tasks.get k = some task → state'.tasks.get k = some task' →
    task.revision ≤ task'.revision
  groups : ∀ k group, state.groups.get k = some group →
    ∃ group', state'.groups.get k = some group' ∧ group.revision ≤ group'.revision

/-- **No record goes back**, and no namespace or group is lost. -/
theorem apply_revisions (h : Indexed m) {applied : AppliedMutation}
    (hok : (apply m c).2 = .ok applied) : RevisionsAdvance m.state (apply m c).1.state where
  namespaces k ns hget := by
    rcases apply_cases h c with ⟨result, -, hstep⟩ | ⟨error, herror, -⟩
    · exact hstep.namespaces hget
    · rw [herror] at hok
      cases hok
  tasks k task task' hget hget' := by
    have hstep := apply_taskStep h c k
    rw [hget, hget'] at hstep
    exact hstep.revision_le
  groups k group hget := by
    obtain ⟨group', hget', hadvances⟩ := apply_group_advances h c k group hget
    exact ⟨group', hget', hadvances.revision_le⟩

/-! ## Terms -/

/-- The term that a command expects. -/
def expectedTerm : BrokerCommand → Option Term
  | .claimTask c => some c.expectedTerm
  | .renewTaskLease c => some c.expectedTerm
  | .completeTask c => some c.expectedTerm
  | .advanceTerm c => some c.expectedTerm
  | _ => none

/-- A command that finds another term is refused before it does anything. -/
theorem apply_of_stale_term {expected : Term} (hc : expectedTerm c = some expected)
    (hstale : m.state.term ≠ expected) :
    apply m c = (m.clearChanges, .error (.staleTerm expected m.state.term)) := by
  have hwp : wp (dispatch c) m.clearChanges (fun _ _ => False) fun error m' =>
      error = .staleTerm expected m.state.term ∧ m' = m.clearChanges := by
    cases c <;> cases hc <;> exact EStateM.wp_bind.mpr
      (wp_requireTerm_bind (fun hterm => absurd hterm hstale) fun _ => ⟨rfl, rfl⟩)
  cases hanswer : (apply m c).2 with
  | ok => exact (apply_ok_of_wp hwp hanswer).elim
  | error =>
    obtain ⟨rfl, hsame⟩ := apply_error_of_wp hwp hanswer
    exact Prod.ext hsame hanswer

/-- A deposed leader is fenced: once the term has passed the one that a command expects, the
command is refused after every further run, and changes nothing. -/
theorem deposed_term_never_acts (commands later : List BrokerCommand) (c : BrokerCommand)
    (expected : Term) (hc : expectedTerm c = some expected)
    (hpassed : expected < (run initial commands).state.term) :
    apply (run (run initial commands) later) c =
      ((run (run initial commands) later).clearChanges,
        .error (.staleTerm expected (run (run initial commands) later).state.term)) := by
  have hterm : (run initial commands).state.term ≤
      (run (run initial commands) later).state.term :=
    Run.le_final (f := fun m : BrokerStateMachine => m.state.term) (P := Indexed)
      (fun _ c h => apply_indexed h c) (fun _ c h => apply_term_le h c) (run_indexed commands) later
  exact apply_of_stale_term hc (ne_of_gt (lt_of_lt_of_le hpassed hterm))

/-- The first term has passed, so a second advance from it is refused. -/
theorem first_term_never_acts :
    let advance := .advanceTerm ⟨.initial, 2⟩
    Term.initial < (run initial [advance]).state.term ∧
      apply (run initial [advance]) advance = ((run initial [advance]).clearChanges,
        .error (.staleTerm .initial (run initial [advance]).state.term)) := by
  exact ⟨by decide, deposed_term_never_acts [_] [] _ _ rfl (by decide)⟩

end BrokerStateMachine

end AgentBroker
