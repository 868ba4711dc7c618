import AgentBroker.Lib.Relational
import AgentBroker.Domain.Isolation
import AgentBroker.Domain.Restore

/-!
# Machines that agree

A restored machine and the machine it was restored from have the same state, but not
the same heaps and counters: the old machine may keep an empty heap, a zero count or a
stale expiration entry.  `Agree` relates two machines that read alike, and every
command run on both gives one result and leaves them in agreement.

## Main results

* `dispatch_agree` — one command, run on two machines that agree.
-/

namespace AgentBroker

open OrdMap

/-- The indexes of which two machines with one state may hold different
representations. -/
structure LooseIndexes where
  readyTasks : OrdMap NamespaceId (MinHeap TimedTask)
  leaseExpirations : OrdMap NamespaceId (MinHeap LeaseExpiration)
  namespaceTaskCounts : OrdMap NamespaceId Nat
  namespaceGroupCounts : OrdMap NamespaceId Nat

namespace BrokerStateMachine

open EStateM

/-- The machine with other loose indexes. -/
def withLoose (m : BrokerStateMachine) (l : LooseIndexes) : BrokerStateMachine :=
  { m with
    readyTasks := l.readyTasks
    leaseExpirations := l.leaseExpirations
    namespaceTaskCounts := l.namespaceTaskCounts
    namespaceGroupCounts := l.namespaceGroupCounts }

/-- The indexes read like those of `m`, up to expiration entries that are missing. -/
def ReadsLike (m : BrokerStateMachine) (l : LooseIndexes) : Prop :=
  (∀ ns, l.readyTasks.getD ns ∅ = m.readyHeap ns) ∧
  (∀ ns e, e ∈ l.leaseExpirations.getD ns ∅ → e ∈ m.expirationHeap ns) ∧
  (∀ ns, l.namespaceTaskCounts.getD ns 0 = m.taskCount ns) ∧
  ∀ ns, l.namespaceGroupCounts.getD ns 0 = m.groupCount ns

/-- The machines have the same state, indexes and recorded changes, up to how the
loose indexes are represented. -/
def Agree (m r : BrokerStateMachine) : Prop := ∃ l, r = m.withLoose l ∧ m.ReadsLike l

variable {m r : BrokerStateMachine} {l : LooseIndexes}

/-! ## Commands that do not touch the loose indexes -/

theorem requireTerm_bind_agree {β : Type} {f g : Unit → BrokerM β} (h : Agree m r)
    {expected : Term} (hf : m.state.term = expected → Rel Agree (f ()) (g ()) m r) :
    Rel Agree (requireTerm expected >>= f) (requireTerm expected >>= g) m r := by
  obtain ⟨l, rfl, hl⟩ := id h
  exact rel_ofExcept_bind h fun a ha => hf (Except.require_eq_ok_iff.mp ha)

theorem requireGroupMember_bind_agree {β : Type} {f g : NamespaceId × Generation → BrokerM β}
    (h : Agree m r) {groupId : ConsumerGroupId} {memberId : ConsumerId} {expected : Generation}
    (hf : ∀ ns, m.CurrentMember groupId memberId expected ns →
      Rel Agree (f (ns, expected)) (g (ns, expected)) m r) :
    Rel Agree (requireGroupMember groupId memberId expected >>= f)
      (requireGroupMember groupId memberId expected >>= g) m r := by
  obtain ⟨l, rfl, hl⟩ := id h
  refine rel_ofExcept_bind h fun a ha => ?_
  obtain ⟨ns, generation⟩ := a
  obtain ⟨group, member, hgroup, hgen, hmember, hns, hgeneration⟩ :=
    GroupCoordinator.requireMember_eq_ok_iff.mp (Except.mapError_eq_ok_iff.mp ha)
  rw [← hgeneration, hgen]
  exact hf ns ⟨group, member, hgroup, hgen, hmember, hns⟩

theorem requireNamespace_agree (h : Agree m r) (namespaceId : NamespaceId) :
    Rel Agree (requireNamespace namespaceId) (requireNamespace namespaceId) m r := by
  obtain ⟨l, rfl, hl⟩ := h
  exact rel_get_bind (rel_ofExcept ⟨l, rfl, hl⟩)

theorem ensureNamespace_agree (h : Agree m r) (c : EnsureNamespaceCommand) :
    Rel Agree (ensureNamespace c) (ensureNamespace c) m r := by
  obtain ⟨l, rfl, hl⟩ := id h
  refine rel_get_bind ?_
  dsimp only [withLoose]
  cases m.state.namespaces.get c.namespaceId with
  | some ns => exact ⟨rfl, h⟩
  | none =>
    refine rel_ofExcept_bind h fun _ _ => ?_
    refine rel_ofExcept_bind h fun _ _ => ?_
    refine rel_ofExcept_bind h fun _ _ => ?_
    exact rel_set_bind ⟨rfl, l, rfl, hl⟩

theorem joinConsumerGroup_agree (h : Agree m r) (c : JoinConsumerGroupCommand) :
    Rel Agree (joinConsumerGroup c) (joinConsumerGroup c) m r := by
  obtain ⟨l, rfl, hl⟩ := id h
  refine rel_get_bind ?_
  refine rel_ofExcept_bind h fun revision _ => ?_
  refine rel_ofExcept_bind h fun joined _ => ?_
  refine rel_set_bind (rel_ofExcept_bind ⟨l, rfl, hl⟩ fun group _ => ?_)
  refine rel_set_bind ?_
  split_ifs
  · exact ⟨rfl, l, rfl, hl⟩
  · exact ⟨rfl, l, rfl, hl⟩

theorem heartbeat_agree (h : Agree m r) (c : HeartbeatCommand) :
    Rel Agree (heartbeat c) (heartbeat c) m r := by
  obtain ⟨l, rfl, hl⟩ := id h
  refine rel_get_bind ?_
  refine rel_ofExcept_bind h fun revision _ => ?_
  refine rel_ofExcept_bind h fun beaten _ => ?_
  refine rel_set_bind (rel_ofExcept_bind ⟨l, rfl, hl⟩ fun group _ => ?_)
  refine rel_ofExcept_bind ⟨l, rfl, hl⟩ fun member _ => ?_
  refine rel_set_bind ?_
  split_ifs
  · exact ⟨rfl, l, rfl, hl⟩
  · exact ⟨rfl, l, rfl, hl⟩

theorem completeTask_agree (h : Agree m r) (c : CompleteTaskCommand) :
    Rel Agree (completeTask c) (completeTask c) m r := by
  refine requireTerm_bind_agree h fun _ => ?_
  refine requireGroupMember_bind_agree h fun ns _ => ?_
  obtain ⟨l, rfl, hl⟩ := id h
  refine rel_get_bind ?_
  refine rel_ofExcept_bind h fun revision _ => ?_
  refine rel_ofExcept_bind h fun task _ => ?_
  refine rel_ofExcept_bind h fun done _ => ?_
  refine rel_set_bind ?_
  split_ifs
  · exact ⟨rfl, l, rfl, hl⟩
  · exact ⟨rfl, h⟩

theorem advanceTerm_agree (h : Agree m r) (c : AdvanceTermCommand) :
    Rel Agree (advanceTerm c) (advanceTerm c) m r := by
  refine requireTerm_bind_agree h fun _ => ?_
  obtain ⟨l, rfl, hl⟩ := id h
  refine rel_get_bind ?_
  refine rel_ofExcept_bind h fun _ _ => ?_
  refine rel_ofExcept_bind h fun revision _ => ?_
  exact rel_set_bind ⟨rfl, l, rfl, hl⟩

/-! ## Commands that push and count -/

/-- A ready entry is pushed on both sides. -/
theorem ReadsLike.pushReady (hl : m.ReadsLike l) (namespaceId : NamespaceId) (e : TimedTask) :
    ReadsLike { m with readyTasks := m.readyTasks.updateD namespaceId ∅ (·.push e) }
      { l with readyTasks := l.readyTasks.updateD namespaceId ∅ (·.push e) } := by
  refine ⟨fun ns => ?_, hl.2⟩
  show (l.readyTasks.updateD namespaceId ∅ (·.push e)).getD ns ∅ =
    (m.readyTasks.updateD namespaceId ∅ (·.push e)).getD ns ∅
  rw [getD_updateD, getD_updateD, hl.1, hl.1]
  rfl

/-- An expiration entry is pushed on both sides. -/
theorem ReadsLike.pushExpiration (hl : m.ReadsLike l) (namespaceId : NamespaceId)
    (e : LeaseExpiration) :
    ReadsLike { m with leaseExpirations := m.leaseExpirations.updateD namespaceId ∅ (·.push e) }
      { l with leaseExpirations := l.leaseExpirations.updateD namespaceId ∅ (·.push e) } := by
  refine ⟨hl.1, fun ns e' he' => ?_, hl.2.2⟩
  rcases Index.mem_getD_push.mp he' with hnew | hold
  · exact Index.mem_getD_push.mpr (Or.inl hnew)
  · exact Index.mem_getD_push.mpr (Or.inr (hl.2.1 ns e' hold))

/-- The number of tasks of a namespace is set on both sides. -/
theorem ReadsLike.setTaskCount (hl : m.ReadsLike l) (namespaceId : NamespaceId) (n : Nat) :
    ReadsLike { m with namespaceTaskCounts := m.namespaceTaskCounts.insert namespaceId n }
      { l with namespaceTaskCounts := l.namespaceTaskCounts.insert namespaceId n } := by
  refine ⟨hl.1, hl.2.1, fun ns => ?_, hl.2.2.2⟩
  show (l.namespaceTaskCounts.insert namespaceId n).getD ns 0 =
    (m.namespaceTaskCounts.insert namespaceId n).getD ns 0
  rw [getD_insert, getD_insert, hl.2.2.1]
  rfl

/-- The number of groups of a namespace is set on both sides. -/
theorem ReadsLike.setGroupCount (hl : m.ReadsLike l) (namespaceId : NamespaceId) (n : Nat) :
    ReadsLike { m with namespaceGroupCounts := m.namespaceGroupCounts.insert namespaceId n }
      { l with namespaceGroupCounts := l.namespaceGroupCounts.insert namespaceId n } := by
  refine ⟨hl.1, hl.2.1, hl.2.2.1, fun ns => ?_⟩
  show (l.namespaceGroupCounts.insert namespaceId n).getD ns 0 =
    (m.namespaceGroupCounts.insert namespaceId n).getD ns 0
  rw [getD_insert, getD_insert, hl.2.2.2]
  rfl

theorem publishTask_agree (h : Agree m r) (c : PublishTaskCommand) :
    Rel Agree (publishTask c) (publishTask c) m r := by
  refine rel_bind (requireNamespace_agree h _) fun _ m r h => ?_
  obtain ⟨l, rfl, hl⟩ := id h
  refine rel_get_bind ?_
  have hcount : (m.withLoose l).taskCount c.namespaceId = m.taskCount c.namespaceId :=
    hl.2.2.1 c.namespaceId
  rw [hcount]
  dsimp only [withLoose]
  cases m.state.tasks.get c.taskId with
  | some =>
    refine rel_ofExcept_bind h fun _ _ => ?_
    exact ⟨rfl, h⟩
  | none =>
    refine rel_ofExcept_bind h fun _ _ => ?_
    refine rel_ofExcept_bind h fun _ _ => ?_
    refine rel_ofExcept_bind h fun revision _ => ?_
    exact rel_set_bind ⟨rfl, _, rfl, (hl.pushReady _ _).setTaskCount _ _⟩

theorem ensureConsumerGroup_agree (h : Agree m r) (c : EnsureConsumerGroupCommand) :
    Rel Agree (ensureConsumerGroup c) (ensureConsumerGroup c) m r := by
  refine rel_bind (requireNamespace_agree h _) fun _ m r h => ?_
  obtain ⟨l, rfl, hl⟩ := id h
  refine rel_get_bind ?_
  have hcount : (m.withLoose l).groupCount c.namespaceId = m.groupCount c.namespaceId :=
    hl.2.2.2 c.namespaceId
  rw [hcount]
  dsimp only [withLoose]
  cases m.state.groups.get c.groupId with
  | some =>
    refine rel_ofExcept_bind h fun _ _ => ?_
    exact ⟨rfl, h⟩
  | none =>
    refine rel_ofExcept_bind h fun _ _ => ?_
    refine rel_ofExcept_bind h fun _ _ => ?_
    refine rel_ofExcept_bind h fun revision _ => ?_
    refine rel_set_bind (rel_ofExcept_bind ⟨_, rfl, hl.setGroupCount _ _⟩ fun group _ => ?_)
    exact ⟨rfl, _, rfl, hl.setGroupCount _ _⟩

theorem renewTaskLease_agree (h : Agree m r) (c : RenewTaskLeaseCommand) :
    Rel Agree (renewTaskLease c) (renewTaskLease c) m r := by
  refine requireTerm_bind_agree h fun _ => ?_
  refine requireGroupMember_bind_agree h fun ns _ => ?_
  obtain ⟨l, rfl, hl⟩ := id h
  refine rel_ofExcept_bind h fun expiresAtMs _ => ?_
  refine rel_get_bind ?_
  refine rel_ofExcept_bind h fun revision _ => ?_
  refine rel_ofExcept_bind h fun task _ => ?_
  refine rel_ofExcept_bind h fun task' _ => ?_
  refine rel_set_bind ?_
  cases task'.state with
  | queued | completed => exact ⟨rfl, l, rfl, hl⟩
  | leased => exact rel_set_bind ⟨rfl, _, rfl, hl.pushExpiration _ _⟩

/-! ## Leases taken back from members -/

theorem requeueMemberLease_agree (h : Agree m r) (groupId : ConsumerGroupId)
    (memberId : ConsumerId) (taskId : TaskId) :
    Rel Agree (requeueMemberLease groupId memberId taskId)
      (requeueMemberLease groupId memberId taskId) m r := by
  obtain ⟨l, rfl, hl⟩ := id h
  refine rel_get_bind ?_
  have hlease : (m.withLoose l).memberLease groupId memberId taskId =
      m.memberLease groupId memberId taskId := rfl
  rw [hlease]
  dsimp only [withLoose]
  cases m.memberLease groupId memberId taskId with
  | none => exact ⟨rfl, h⟩
  | some =>
    refine rel_ofExcept_bind h fun requeued _ => ?_
    split_ifs
    · exact rel_set_bind ⟨rfl, _, rfl, hl.pushReady _ _⟩
    · exact ⟨rfl, h⟩

theorem requeueMemberLeases_agree (h : Agree m r) (groupId : ConsumerGroupId)
    (memberId : ConsumerId) :
    Rel Agree (requeueMemberLeases groupId memberId) (requeueMemberLeases groupId memberId)
      m r := by
  obtain ⟨l, rfl, hl⟩ := h
  refine rel_get_bind (rel_set_bind (rel_foldlM _ _ ⟨l, rfl, hl⟩ fun n taskId m r h => ?_))
  refine rel_bind (requeueMemberLease_agree h _ _ _) fun didRequeue m r h => ?_
  exact rel_pure _ h

theorem leaveConsumerGroup_agree (h : Agree m r) (c : LeaveConsumerGroupCommand) :
    Rel Agree (leaveConsumerGroup c) (leaveConsumerGroup c) m r := by
  obtain ⟨l, rfl, hl⟩ := id h
  refine rel_get_bind ?_
  refine rel_ofExcept_bind h fun revision _ => ?_
  refine rel_ofExcept_bind h fun _ _ => ?_
  refine rel_ofExcept_bind h fun left _ => ?_
  refine rel_set_bind (rel_ofExcept_bind ⟨l, rfl, hl⟩ fun group _ => ?_)
  refine rel_bind (requeueMemberLeases_agree ?_ _ _) fun _ m r h => ?_
  · exact ⟨l, rfl, hl⟩
  · obtain ⟨l, rfl, hl⟩ := h
    exact rel_get_bind (rel_set_bind ⟨rfl, l, rfl, hl⟩)

theorem reapGroup_agree (h : Agree m r) (staleBeforeMs : TimestampMs)
    (progress : Nat × List ConsumerGroupId) (entry : ConsumerGroupId × List ConsumerId) :
    Rel Agree (reapGroup staleBeforeMs progress entry) (reapGroup staleBeforeMs progress entry)
      m r := by
  obtain ⟨l, rfl, hl⟩ := id h
  refine rel_get_bind ?_
  refine rel_ofExcept_bind h fun reaped _ => ?_
  refine rel_set_bind ?_
  dsimp only
  by_cases hnone : reaped.1 = []
  · rw [if_pos hnone]
    exact ⟨rfl, l, rfl, hl⟩
  · rw [if_neg hnone]
    refine rel_bind (rel_foldlM _ _ ⟨l, rfl, hl⟩ fun _ member m r h => ?_) fun _ m r h => ?_
    · exact rel_bind (requeueMemberLeases_agree h _ _) fun _ m r h => rel_pure _ h
    · exact rel_pure _ h

theorem reapStaleMembers_agree (h : Agree m r) (c : ReapStaleMembersCommand) :
    Rel Agree (reapStaleMembers c) (reapStaleMembers c) m r := by
  refine rel_ofExcept_bind h fun _ _ => ?_
  obtain ⟨l, rfl, hl⟩ := id h
  refine rel_get_bind ?_
  dsimp only [withLoose]
  by_cases hnone : (reapCandidates m.state c.staleBeforeMs).take c.maxMembers.get = []
  · rw [if_pos hnone, if_pos hnone]
    exact ⟨rfl, h⟩
  · rw [if_neg hnone, if_neg hnone]
    refine rel_ofExcept_bind h fun revision _ => ?_
    refine rel_ofExcept_bind h fun _ _ => ?_
    refine rel_bind (rel_foldlM _ _ ⟨l, rfl, hl⟩ fun progress entry m r h =>
      reapGroup_agree h _ _ _) fun progress m r h => ?_
    obtain ⟨l, rfl, hl⟩ := id h
    refine rel_get_bind (rel_set_bind ?_)
    dsimp only [withLoose]
    split_ifs
    · exact ⟨rfl, l, rfl, hl⟩
    · exact ⟨rfl, h⟩

/-! ## Pruning -/

theorem pruneOne_agree (h : Agree m r) (e : TimedTask) : Agree (m.pruneOne e) (r.pruneOne e) := by
  obtain ⟨l, rfl, hl⟩ := h
  have hget : (m.withLoose l).state.tasks.get e.taskId = m.state.tasks.get e.taskId := rfl
  unfold pruneOne
  rw [hget]
  cases m.state.tasks.get e.taskId with
  | none => exact ⟨l, rfl, hl⟩
  | some task =>
    have hcount : (m.withLoose l).taskCount task.namespaceId = m.taskCount task.namespaceId :=
      hl.2.2.1 task.namespaceId
    dsimp only
    unfold deleted
    rw [hcount]
    exact ⟨_, rfl, hl.setTaskCount _ _⟩

theorem pruneAll_agree (h : Agree m r) (entries : List TimedTask) :
    Agree (m.pruneAll entries) (r.pruneAll entries) := by
  induction entries generalizing m r with
  | nil => exact h
  | cons e rest ih => exact ih (pruneOne_agree h e)

theorem pruneCompletedTasks_agree (hm : Indexed m) (hr : Indexed r) (h : Agree m r)
    (c : PruneCompletedTasksCommand) :
    Rel Agree (pruneCompletedTasks c) (pruneCompletedTasks c) m r := by
  refine rel_ofExcept_bind h fun _ _ => ?_
  obtain ⟨heap, hsplit, hloop, -⟩ := prune_loops (c := c) hm
  obtain ⟨heap', hsplit', hloop', -⟩ := prune_loops (c := c) hr
  obtain ⟨l, rfl, hl⟩ := id h
  -- Both machines select the same entries and keep the same heap.
  have hgone : (m.withLoose l).oldest c = m.oldest c := rfl
  rw [hgone] at hsplit' hloop'
  have hheap : heap' = heap :=
    MinHeap.ext_perm (List.Perm.of_eq (List.append_cancel_left (hsplit'.trans hsplit.symm)))
  subst hheap
  refine rel_get_bind ?_
  have hcount : ∀ ns, (m.withLoose l).taskCount ns = m.taskCount ns := hl.2.2.1
  have hcompleted : (m.withLoose l).completedTasks = m.completedTasks := rfl
  have htasks : (m.withLoose l).state.tasks = m.state.tasks := rfl
  rw [hcompleted, htasks] at hloop'
  simp only [hcompleted, htasks]
  by_cases hnone : (m.completedTasks.popLoop (selectStep m.state.tasks c) []).1 = []
  · rw [if_pos hnone, if_pos hnone]
    exact ⟨rfl, h⟩
  · rw [if_neg hnone, if_neg hnone]
    simp only [hcount]
    refine rel_ofExcept_bind h fun _ _ => ?_
    refine rel_ofExcept_bind h fun revision _ => ?_
    rw [hloop, hloop']
    refine rel_set_bind (rel_set_bind ?_)
    obtain ⟨l', heq, hl'⟩ := pruneAll_agree ⟨l, rfl, hl⟩ (m.oldest c)
    rw [heq]
    by_cases hsome : (m.oldest c).length > 0
    · simp only [if_pos hsome]
      exact ⟨rfl, l', rfl, hl'⟩
    · simp only [if_neg hsome]
      exact ⟨rfl, l', rfl, hl'⟩

/-! ## Claims -/

theorem recoverExpiredLease_agree (h : Agree m r) (ns : NamespaceId) (nowMs : TimestampMs)
    (taskId : TaskId) :
    Rel Agree (recoverExpiredLease ns nowMs taskId) (recoverExpiredLease ns nowMs taskId) m r := by
  obtain ⟨l, rfl, hl⟩ := id h
  refine rel_get_bind ?_
  dsimp only [withLoose]
  cases m.state.tasks.get taskId with
  | none => exact ⟨rfl, h⟩
  | some task =>
    dsimp only
    cases task.state with
    | queued | completed => exact ⟨rfl, h⟩
    | leased =>
      refine rel_ofExcept_bind h fun requeued _ => ?_
      split_ifs
      · exact rel_set_bind ⟨rfl, _, rfl, hl.pushReady _ _⟩
      · exact ⟨rfl, h⟩

/-- Both machines drop the expiration entries up to `nowMs`. -/
theorem expirationsPopped_agree (h : Agree m r) (ns : NamespaceId) (nowMs : TimestampMs) :
    Agree (m.expirationsPopped ns nowMs) (r.expirationsPopped ns nowMs) := by
  obtain ⟨l, rfl, hl⟩ := h
  obtain ⟨expirations, heq⟩ := expirationsPopped_cases m ns nowMs
  obtain ⟨expirations', heq'⟩ := expirationsPopped_cases (m.withLoose l) ns nowMs
  refine ⟨{ l with leaseExpirations := expirations' }, ?_, ?_, ?_, ?_⟩
  · rw [heq, heq']
    rfl
  · rw [heq]
    exact hl.1
  · intro ns' e he
    have he : e ∈ ((m.withLoose l).expirationsPopped ns nowMs).expirationHeap ns' := by
      rw [heq']
      exact he
    rw [MinHeap.mem_def, expirationHeap_expirationsPopped] at he ⊢
    split_ifs at he ⊢ with hns
    · obtain ⟨hmem, hlate⟩ := List.mem_filter.mp he
      exact List.mem_filter.mpr ⟨hl.2.1 ns e hmem, hlate⟩
    · exact hl.2.1 ns' e he
  · rw [heq]
    exact hl.2.2

/-- The expired leases are taken back after the heap was popped. -/
theorem recoverExpiredLeases_run (m : BrokerStateMachine) (ns : NamespaceId) (nowMs : TimestampMs) :
    (recoverExpiredLeases ns nowMs).run m =
      ((m.dueTasks ns nowMs).foldlM (fun recovered taskId => do
        let requeued ← recoverExpiredLease ns nowMs taskId
        return if requeued then recovered + 1 else recovered) 0).run
        (m.expirationsPopped ns nowMs) := by
  unfold recoverExpiredLeases dueTasks expirationsPopped expirationHeap
  rw [EStateM.run_bind]
  simp only [EStateM.run_get]
  cases hheap : m.leaseExpirations.get ns with
  | none =>
    rw [getD_of_none hheap]
    rfl
  | some =>
    rw [getD_of_get hheap]
    rfl

theorem recoverExpiredLeases_agree (h : Agree m r) {ns : NamespaceId} {nowMs : TimestampMs}
    (hdue : r.dueTasks ns nowMs = m.dueTasks ns nowMs) :
    Rel Agree (recoverExpiredLeases ns nowMs) (recoverExpiredLeases ns nowMs) m r := by
  unfold EStateM.Rel
  rw [recoverExpiredLeases_run, recoverExpiredLeases_run, hdue]
  refine rel_foldlM (R := Agree) (m.dueTasks ns nowMs) 0 (expirationsPopped_agree h ns nowMs)
    fun n taskId m r h => ?_
  exact rel_bind (recoverExpiredLease_agree h _ _ _) fun requeued m r h => rel_pure _ h

/-- A pop of the ready heap, whether the namespace has one or not. -/
theorem popReadyTask_run (m : BrokerStateMachine) (ns : NamespaceId) :
    ∃ heaps, (popReadyTask ns).run m =
        .ok ((m.readyHeap ns).popLoop (readyStep m.state.tasks) none).1
          { m with readyTasks := heaps } ∧
      ∀ ns', heaps.getD ns' ∅ =
        if ns' = ns then ((m.readyHeap ns).popLoop (readyStep m.state.tasks) none).2
        else m.readyHeap ns' := by
  unfold popReadyTask
  rw [EStateM.run_bind]
  simp only [EStateM.run_get]
  cases hheap : m.readyTasks.get ns with
  | none =>
    have hempty : m.readyHeap ns = ∅ := getD_of_none hheap ∅
    refine ⟨m.readyTasks, ?_, fun ns' => ?_⟩
    · rw [hempty]
      rfl
    · split_ifs with hns
      · rw [hns, hempty]
        exact hempty
      · rfl
  | some heap =>
    have hsame : m.readyHeap ns = heap := getD_of_get hheap ∅
    rw [hsame]
    exact ⟨_, rfl, fun ns' => getD_insert _ _ _ _ _⟩

theorem popReadyTask_agree (h : Agree m r) (ns : NamespaceId) :
    Rel Agree (popReadyTask ns) (popReadyTask ns) m r := by
  obtain ⟨l, rfl, hl⟩ := h
  have hheap : (m.withLoose l).readyHeap ns = m.readyHeap ns := hl.1 ns
  have htasks : (m.withLoose l).state.tasks = m.state.tasks := rfl
  obtain ⟨heaps, hrun, hheaps⟩ := popReadyTask_run m ns
  obtain ⟨heaps', hrun', hheaps'⟩ := popReadyTask_run (m.withLoose l) ns
  rw [hheap, htasks] at hrun' hheaps'
  unfold EStateM.Rel
  rw [hrun, hrun']
  refine ⟨rfl, { l with readyTasks := heaps' }, rfl, fun ns' => ?_, hl.2⟩
  show heaps'.getD ns' ∅ = heaps.getD ns' ∅
  rw [hheaps, hheaps']
  split_ifs with hns
  · rfl
  · exact hl.1 ns'

theorem leaseReadyTask_agree (h : Agree m r) (c : ClaimTaskCommand) (ns : NamespaceId)
    (generation : Generation) (taskId : TaskId) :
    Rel Agree (leaseReadyTask c ns generation taskId) (leaseReadyTask c ns generation taskId)
      m r := by
  refine rel_ofExcept_bind h fun expiresAtMs _ => ?_
  obtain ⟨l, rfl, hl⟩ := id h
  refine rel_get_bind ?_
  refine rel_ofExcept_bind h fun revision _ => ?_
  refine rel_ofExcept_bind h fun task _ => ?_
  refine rel_ofExcept_bind h fun task' _ => ?_
  refine rel_set_bind ?_
  cases task'.state with
  | queued | completed => exact ⟨rfl, l, rfl, hl⟩
  | leased =>
    refine rel_set_bind (rel_ofExcept_bind ⟨_, rfl, hl.pushExpiration _ _⟩ fun leased _ => ?_)
    exact ⟨rfl, _, rfl, hl.pushExpiration _ _⟩

/-- The machines must take back the same leases; all else they agree on. -/
theorem claimTask_agree (h : Agree m r) (c : ClaimTaskCommand)
    (hdue : ∀ ns, m.Reaches c ns → r.dueTasks ns c.nowMs = m.dueTasks ns c.nowMs) :
    Rel Agree (claimTask c) (claimTask c) m r := by
  refine requireTerm_bind_agree h fun hterm => ?_
  refine requireGroupMember_bind_agree h fun ns hmember => ?_
  obtain ⟨l, rfl, hl⟩ := id h
  refine rel_get_bind ?_
  have hindex : (m.withLoose l).activeLeaseTasks = m.activeLeaseTasks := rfl
  rw [hindex]
  cases hactive : m.activeLeaseTasks.get c.leaseId with
  | some =>
    refine rel_ofExcept_bind h fun task _ => ?_
    cases task.state with
    | queued | completed => exact ⟨rfl, h⟩
    | leased =>
      refine rel_ofExcept_bind h fun _ _ => ?_
      exact ⟨rfl, h⟩
  | none =>
    have hsame := hdue ns ⟨hterm, hmember, hactive⟩
    refine rel_bind (recoverExpiredLeases_agree ⟨l, rfl, hl⟩ hsame) fun recovered m r h => ?_
    refine rel_bind (popReadyTask_agree h ns) fun ready m r h => ?_
    cases ready with
    | some => exact leaseReadyTask_agree h _ _ _ _
    | none =>
      obtain ⟨l, rfl, hl⟩ := id h
      refine rel_get_bind ?_
      by_cases hsome : recovered > 0
      · rw [if_pos hsome, if_pos hsome]
        refine rel_ofExcept_bind h fun revision _ => ?_
        exact rel_set_bind ⟨rfl, l, rfl, hl⟩
      · rw [if_neg hsome, if_neg hsome]
        exact ⟨rfl, h⟩

/-! ## Any command -/

/-- **One command on two machines that agree** has one result and leaves them in
agreement, provided that a claim takes back the same leases on both. -/
theorem dispatch_agree (hm : Indexed m) (hr : Indexed r) (h : Agree m r) (c : BrokerCommand)
    (hdue : ∀ claim ns, c = .claimTask claim → m.Reaches claim ns →
      r.dueTasks ns claim.nowMs = m.dueTasks ns claim.nowMs) :
    Rel Agree (dispatch c) (dispatch c) m r := by
  have hreturn : ∀ {α : Type} {x : BrokerM α} {f : α → BrokerMutationResult}, Rel Agree x x m r →
        Rel Agree (do return f (← x) : BrokerM BrokerMutationResult) (do return f (← x)) m r :=
    fun hx => rel_bind hx fun _ _ _ h' => rel_pure _ h'
  cases c with
  | ensureNamespace c => exact hreturn (ensureNamespace_agree h c)
  | publishTask c => exact hreturn (publishTask_agree h c)
  | ensureConsumerGroup c => exact hreturn (ensureConsumerGroup_agree h c)
  | joinConsumerGroup c => exact hreturn (joinConsumerGroup_agree h c)
  | heartbeat c => exact hreturn (heartbeat_agree h c)
  | leaveConsumerGroup c => exact hreturn (leaveConsumerGroup_agree h c)
  | reapStaleMembers c => exact hreturn (reapStaleMembers_agree h c)
  | claimTask c => exact hreturn (claimTask_agree h c fun ns => hdue c ns rfl)
  | renewTaskLease c => exact hreturn (renewTaskLease_agree h c)
  | completeTask c => exact hreturn (completeTask_agree h c)
  | pruneCompletedTasks c => exact hreturn (pruneCompletedTasks_agree hm hr h c)
  | advanceTerm c => exact hreturn (advanceTerm_agree h c)

end BrokerStateMachine

end AgentBroker
