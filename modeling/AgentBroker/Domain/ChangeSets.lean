import AgentBroker.Domain.FailedClaim

/-!
# Change sets and failed commands

A successful command hands the entities it has changed to the caller, who writes
only those to the journal.  The change set therefore has to name every record that
is new or differs, and every record that is gone.

The sets are collected while the command runs.  `Records` compares them with the
states before and after; it is proved for every effect in `Succeeds`, with one
lemma for a record that is put and one for leases that are taken back.

## Main results

* `Succeeds.records` — every success changes nothing or records exactly what it changes.
* `change_set_exact` — the same about `apply`, for every reachable machine.
* `failed_command_changes_nothing` — a failed command other than a claim leaves the
  state, the heaps and the indexes alone.
-/

namespace AgentBroker

open Registry OrdSet List Option Counter ConsumerGroup

theorem Task.revision_le_takenBack (task : Task) : task.revision ≤ task.takenBack.revision := by
  rcases task.takenBack_cases with ⟨lease, revision, -, hnext, heq⟩ | heq
  · rw [heq]
    exact (lt_next hnext).le
  · rw [heq]

namespace BrokerStateMachine

variable {m m' : BrokerStateMachine}

/-! ## What a command records -/

/-- The sets collected in `m'` name exactly what changed since `m`. -/
structure Records (m m' : BrokerStateMachine) : Prop where
  namespaces : ∀ k, k ∈ m'.changedNamespaces ↔
    m.state.namespaces.Changed m'.state.namespaces k
  tasks : ∀ k, k ∈ m'.changedTasks ↔ m.state.tasks.Changed m'.state.tasks k
  deletedTasks : ∀ k, k ∈ m'.deletedTasks ↔ m.state.tasks.Deleted m'.state.tasks k
  groups : ∀ k, k ∈ m'.changedGroups ↔ m.state.groups.Changed m'.state.groups k

/-- Nothing is recorded yet. -/
structure Unrecorded (m : BrokerStateMachine) : Prop where
  namespaces : m.changedNamespaces = ∅
  tasks : m.changedTasks = ∅
  deletedTasks : m.deletedTasks = ∅
  groups : m.changedGroups = ∅

theorem clearChanges_unrecorded (m : BrokerStateMachine) : Unrecorded m.clearChanges :=
  ⟨rfl, rfl, rfl, rfl⟩

variable {taskIds : List TaskId} {s : BrokerStateMachine} {revision : Revision}

/-- Taking leases back records the tasks it changes. -/
theorem changed_takeBack {place : Task → NamespaceId} (hempty : m.changedTasks = ∅) (t : TaskId) :
    t ∈ (m.takeBack place taskIds).changedTasks ↔
      m.state.tasks.Changed (m.takeBack place taskIds).state.tasks t := by
  unfold Registry.Changed
  rw [mem_changedTasks_takeBack, get_takeBack, hempty]
  cases hget : m.state.tasks.get t with
  | none => simp
  | some => by_cases hmem : t ∈ taskIds <;> simp [hmem]

theorem not_deleted_takeBack {place : Task → NamespaceId} (t : TaskId) :
    ¬m.state.tasks.Deleted (m.takeBack place taskIds).state.tasks t := by
  rintro ⟨hbefore, hafter⟩
  rw [get_takeBack] at hafter
  split_ifs at hafter
  · exact hbefore (map_eq_none_iff.mp hafter)
  · exact hbefore hafter

/-- Deleting tasks records their keys. -/
theorem mem_deletedTasks_pruneAll {entries : List TimedTask} {t : TaskId} :
    t ∈ (m.pruneAll entries).deletedTasks ↔
      t ∈ m.deletedTasks ∨
        (t ∈ entries.map TimedTask.taskId ∧ m.state.tasks.get t ≠ none) := by
  induction entries generalizing m with
  | nil => simp [pruneAll]
  | cons e rest ih =>
    have hrest : t ∈ (m.pruneAll (e :: rest)).deletedTasks ↔ _ := ih (m := m.pruneOne e)
    rw [hrest, get_pruneOne]
    cases hget : m.state.tasks.get e.taskId with
    | none =>
      have hsame : m.pruneOne e = m := by rw [pruneOne, hget]
      rw [hsame]
      by_cases ht : t = e.taskId
      · simp [ht, hget]
      · simp [ht]
    | some =>
      have hadd : (m.pruneOne e).deletedTasks = OrdSet.add m.deletedTasks e.taskId := by
        rw [pruneOne_of_get hget, ← key_of_get hget]
        rfl
      rw [hadd, mem_add]
      by_cases ht : t = e.taskId
      · simp [ht, hget]
      · simp [ht]

/-- The parts of the machine that deleting tasks does not touch. -/
theorem pruneAll_frame (entries : List TimedTask) :
    (m.pruneAll entries).state.namespaces = m.state.namespaces ∧
      (m.pruneAll entries).changedNamespaces = m.changedNamespaces ∧
      (m.pruneAll entries).changedTasks = m.changedTasks ∧
      (m.pruneAll entries).changedGroups = m.changedGroups ∧
      (m.pruneAll entries).state.groups = m.state.groups := by
  refine ⟨?_, ?_, ?_, ?_, pruneAll_groups entries⟩
  · exact pruneAll_untouched (·.state.namespaces) (fun _ _ => rfl) entries
  · exact pruneAll_untouched (·.changedNamespaces) (fun _ _ => rfl) entries
  · exact pruneAll_untouched (·.changedTasks) (fun _ _ => rfl) entries
  · exact pruneAll_untouched (·.changedGroups) (fun _ _ => rfl) entries

/-! ## One rule for each kind of change -/

theorem Records.refl (h : Unrecorded m) : Records m m where
  namespaces k := by simp [h.namespaces, not_changed_self]
  tasks k := by simp [h.tasks, not_changed_self]
  deletedTasks k := by simp [h.deletedTasks, not_deleted_self]
  groups k := by simp [h.groups, not_changed_self]

/-- Equal up to the tasks, the indexes and what is recorded of the tasks. -/
structure SameButTasks (m m' : BrokerStateMachine) : Prop where
  namespaces : m'.state.namespaces = m.state.namespaces
  groups : m'.state.groups = m.state.groups
  changedNamespaces : m'.changedNamespaces = m.changedNamespaces
  changedGroups : m'.changedGroups = m.changedGroups

/-- A step that leaves namespaces and groups alone. -/
theorem Records.ofTasks (h : Records m s) (hsame : SameButTasks s m')
    (htasks : ∀ k, k ∈ m'.changedTasks ↔ m.state.tasks.Changed m'.state.tasks k)
    (hdeleted : ∀ k, k ∈ m'.deletedTasks ↔ m.state.tasks.Deleted m'.state.tasks k) :
    Records m m' where
  namespaces k := by rw [hsame.namespaces, hsame.changedNamespaces, h.namespaces]
  tasks := htasks
  deletedTasks := hdeleted
  groups k := by rw [hsame.groups, hsame.changedGroups, h.groups]

/-- A step that files one task, which differs from what it was at the start. -/
theorem Records.putTask (h : Records m s) (task : Task) (hsame : SameButTasks s m')
    (hnew : m.state.tasks.get task.id ≠ some task)
    (hkept : ¬m.state.tasks.Deleted s.state.tasks task.id)
    (htasks : m'.state.tasks = s.state.tasks.put task) (hdeleted : m'.deletedTasks = s.deletedTasks)
    (hchanged : m'.changedTasks = OrdSet.add s.changedTasks task.id) : Records m m' := by
  refine h.ofTasks hsame (fun k => ?_) fun k => ?_
  · rw [htasks, hchanged, mem_add, h.tasks]
    unfold Registry.Changed
    rw [get_put]
    split_ifs with hk
    · rw [hk]
      exact ⟨fun _ => ⟨some_ne_none task, fun heq => hnew heq.symm⟩, fun _ => Or.inl rfl⟩
    · exact ⟨fun hor => hor.resolve_left hk, Or.inr⟩
  · rw [htasks, hdeleted, h.deletedTasks]
    unfold Registry.Deleted
    rw [get_put]
    split_ifs with hk
    · rw [hk]
      refine ⟨fun hgone => absurd hgone hkept, fun hgone => ?_⟩
      cases hgone.2
    · exact Iff.rfl

/-- The tasks a claim finds expired are recorded. -/
theorem caughtUp_records (h : Unrecorded m) (ns : NamespaceId) (nowMs : TimestampMs) :
    Records m (m.caughtUp ns nowMs) := by
  obtain ⟨expirations, hpopped⟩ := expirationsPopped_cases m ns nowMs
  have hframe : SameFrame (m.expirationsPopped ns nowMs) (m.caughtUp ns nowMs) :=
    takeBack_sameFrame _
  rw [hpopped] at hframe
  have hsame : SameButTasks m (m.caughtUp ns nowMs) :=
    ⟨hframe.namespaces, hframe.groups, hframe.changedNamespaces, hframe.changedGroups⟩
  refine (Records.refl h).ofTasks hsame (fun t => ?_) fun t => ?_
  · have hempty : (m.expirationsPopped ns nowMs).changedTasks = ∅ := by
      rw [hpopped]
      exact h.tasks
    have hchanged : t ∈ (m.caughtUp ns nowMs).changedTasks ↔ _ := changed_takeBack hempty t
    rw [expirationsPopped_state] at hchanged
    exact hchanged
  · have hnot : ¬(m.expirationsPopped ns nowMs).state.tasks.Deleted
        (m.caughtUp ns nowMs).state.tasks t := not_deleted_takeBack t
    rw [expirationsPopped_state] at hnot
    rw [hframe.deletedTasks, h.deletedTasks]
    exact ⟨fun hk => absurd hk (OrdSet.not_mem_empty t), fun hk => absurd hk hnot⟩

/-- A command that changes groups and may take leases back. -/
theorem Records.ofGroups (h : Unrecorded m) {groupIds : List ConsumerGroupId}
    (hs : s = (m.withGroups s.state.groups))
    (hgroups : ∀ k, k ∈ groupIds ↔ m.state.groups.Changed s.state.groups k) :
    Records m ((s.takeBack Task.namespaceId taskIds).groupsRecorded groupIds revision) := by
  have hframe : SameFrame s (s.takeBack Task.namespaceId taskIds) := takeBack_sameFrame taskIds
  have htasks : s.state.tasks = m.state.tasks := by rw [hs]; rfl
  refine ⟨fun k => ?_, fun k => ?_, fun k => ?_, fun k => ?_⟩
  · show k ∈ (s.takeBack Task.namespaceId taskIds).changedNamespaces ↔
      m.state.namespaces.Changed (s.takeBack Task.namespaceId taskIds).state.namespaces k
    have hsame : s.state.namespaces = m.state.namespaces := by rw [hs]; rfl
    have hchanged : s.changedNamespaces = ∅ := by rw [hs]; exact h.namespaces
    rw [hframe.namespaces, hframe.changedNamespaces, hsame, hchanged]
    simp [not_changed_self]
  · have hempty : s.changedTasks = ∅ := by rw [hs]; exact h.tasks
    have hback : k ∈ (s.takeBack Task.namespaceId taskIds).changedTasks ↔ _ :=
      changed_takeBack hempty k
    rw [htasks] at hback
    exact hback
  · have hempty : s.deletedTasks = ∅ := by rw [hs]; exact h.deletedTasks
    have hnot : ¬s.state.tasks.Deleted (s.takeBack Task.namespaceId taskIds).state.tasks k :=
      not_deleted_takeBack k
    rw [htasks] at hnot
    show k ∈ (s.takeBack Task.namespaceId taskIds).deletedTasks ↔ _
    rw [hframe.deletedTasks, hempty]
    exact ⟨fun hk => absurd hk (OrdSet.not_mem_empty k), fun hk => absurd hk hnot⟩
  · have hempty : s.changedGroups = ∅ := by rw [hs]; exact h.groups
    show k ∈ groupIds.foldl OrdSet.add (s.takeBack Task.namespaceId taskIds).changedGroups ↔
      m.state.groups.Changed (s.takeBack Task.namespaceId taskIds).state.groups k
    rw [mem_foldl_add, hframe.changedGroups, hframe.groups, hempty, ← hgroups k]
    simp

/-- A transition that changes a group does not leave it equal. -/
theorem get_ne_moved {groups : ConsumerGroups} {k : ConsumerGroupId} {limit : Nat}
    {group group' : ConsumerGroup} (hget : groups.get k = some group)
    (hmoves : group.Moves limit group') : groups.get k ≠ some group' := by
  rw [hget]
  intro heq
  cases heq
  exact lt_irrefl _ hmoves.revision_lt

/-- A transition changes a group, and leases may be taken back. -/
theorem Records.putGroup (h : Unrecorded m) {groupId : ConsumerGroupId} {limit : Nat}
    {group group' : ConsumerGroup} (hget : m.state.groups.get groupId = some group)
    (hmoves : group.Moves limit group') :
    Records m (((m.groupPut group').takeBack Task.namespaceId taskIds).groupsRecorded [groupId]
      revision) := by
  have hid : group'.id = groupId := by rw [hmoves.advances.id, key_of_get hget]
  refine .ofGroups h rfl fun k => ?_
  rw [mem_singleton]
  have hput : m.state.groups.Changed (m.state.groups.put group') k ↔ k = group'.id :=
    changed_put (by rw [hid]; exact get_ne_moved hget hmoves)
  rw [hid] at hput
  exact hput.symm

/-- The groups that lost members are those listed. -/
theorem GroupsReaped.changed_iff {groups groups' : ConsumerGroups} {staleBeforeMs : TimestampMs}
    {entries : List (ConsumerGroupId × List ConsumerId)}
    (h : GroupsReaped groups groups' staleBeforeMs entries) (k : ConsumerGroupId) :
    k ∈ entries.map Prod.fst ↔ groups.Changed groups' k := by
  constructor
  · intro hk
    obtain ⟨entry, hentry, rfl⟩ := List.mem_map.mp hk
    obtain ⟨group, group', removed, hget, hget', hreap, hremoved⟩ := h.reaped hentry
    have hmoves : group.Moves 0 group' := reap_moves hreap hremoved
    refine ⟨by rw [hget']; exact some_ne_none group', fun heq => get_ne_moved hget hmoves ?_⟩
    rw [← heq, hget']
  · intro hchanged
    by_contra hk
    exact hchanged.2 (h.kept hk)

/-- The task a claim leases differs from what it was before the claim. -/
theorem get_ne_leased {ns : NamespaceId} {nowMs : TimestampMs} {task : Task} {lease : LeasedTask}
    (hget : (m.caughtUp ns nowMs).state.tasks.get task.id = some task)
    (hnext : task.revision.next = .ok revision) :
    m.state.tasks.get task.id ≠ some (task.toLeased lease revision) := by
  rw [caughtUp, recovered, get_takeBack, expirationsPopped_state] at hget
  intro heq
  rw [heq] at hget
  have hlt := lt_next hnext
  split_ifs at hget
  · have hle := (task.toLeased lease revision).revision_le_takenBack
    rw [Option.some.inj hget] at hle
    exact absurd (lt_of_lt_of_le hlt hle) (lt_irrefl _)
  · have hrevision : revision = task.revision := congrArg Task.revision (Option.some.inj hget)
    exact hlt.ne' hrevision

/-! ## Every success -/

/-- Something is recorded. -/
def Touches (m : BrokerStateMachine) : Prop :=
  m.changedNamespaces ≠ ∅ ∨ m.changedTasks ≠ ∅ ∨ m.deletedTasks ≠ ∅ ∨ m.changedGroups ≠ ∅

theorem touches_of_task {before : OrdSet TaskId} {t : TaskId}
    (h : m.changedTasks = OrdSet.add before t) : m.Touches := by
  refine Or.inr (Or.inl ?_)
  rw [h]
  exact add_ne_empty _ _

/-- What a success leaves: the same state with nothing recorded, or the next
revision with all changes recorded. -/
inductive Accounts (m : BrokerStateMachine) (c : BrokerCommand) (m' : BrokerStateMachine) : Prop
  | unchanged (state : m'.state = m.state) (unrecorded : Unrecorded m')
  | changed (next : m.state.revision.next = .ok m'.state.revision) (records : Records m m')
      (touches : m'.Touches ∨ ∃ advance, c = .advanceTerm advance)

theorem Claimed.accounts (h : Unrecorded m) {c : ClaimTaskCommand} {result : TaskClaimResult}
    (hclaimed : Claimed m c result m') : Accounts m (.claimTask c) m' := by
  cases hclaimed with
  | retried => exact .unchanged rfl h
  | @idle ns =>
    obtain ⟨expirations, heq⟩ := expirationsPopped_cases m ns c.nowMs
    rw [heq]
    exact .unchanged rfl ⟨h.namespaces, h.tasks, h.deletedTasks, h.groups⟩
  | @leased ns e rest task queued expiresAtMs epoch taskRevision revision reaches due ready get
      id state expires epochNext taskNext next =>
      have hkept : ¬m.state.tasks.Deleted (m.caughtUp ns c.nowMs).state.tasks task.id := by
        rintro ⟨-, hgone⟩
        rw [get] at hgone
        cases hgone
      have hne : m.state.tasks.get task.id ≠
          some (task.toLeased (leaseFor c epoch expiresAtMs) taskRevision) :=
        get_ne_leased get taskNext
      refine .changed next ?_ (Or.inl (touches_of_task rfl))
      exact (caughtUp_records h ns c.nowMs).putTask
        (task.toLeased (leaseFor c epoch expiresAtMs) taskRevision) ⟨rfl, rfl, rfl, rfl⟩ hne
        hkept rfl rfl rfl

theorem touches_groupsRecorded {groupIds : List ConsumerGroupId} {k : ConsumerGroupId}
    (h : k ∈ groupIds) : (m.groupsRecorded groupIds revision).Touches :=
  Or.inr (Or.inr (Or.inr (ne_empty_of_mem (mem_foldl_add.mpr (Or.inl h)))))

/-- Pruning records the tasks it deletes. -/
theorem pruned_records (hindexed : Indexed m) (h : Unrecorded m) {gone : List TimedTask}
    {heap : MinHeap TimedTask} (hsplit : gone ++ heap.entries = m.completedTasks.entries) :
    Records m (m.pruned gone heap revision) ∧
      (gone ≠ [] → (m.pruned gone heap revision).deletedTasks ≠ ∅) := by
  obtain ⟨hnamespaces, hchangedNamespaces, hchangedTasks, hchangedGroups, hgroups⟩ :=
    pruneAll_frame (m := m) gone
  have hget : ∀ t, (m.pruned gone heap revision).state.tasks.get t =
      if t ∈ gone.map TimedTask.taskId then none else m.state.tasks.get t := get_pruneAll gone
  have hdeleted : ∀ t, t ∈ (m.pruned gone heap revision).deletedTasks ↔
      t ∈ gone.map TimedTask.taskId ∧ m.state.tasks.get t ≠ none := by
    intro t
    refine mem_deletedTasks_pruneAll.trans ?_
    rw [h.deletedTasks]
    simp
  refine ⟨(Records.refl h).ofTasks ⟨hnamespaces, hgroups, hchangedNamespaces, hchangedGroups⟩
    (fun t => ?_) fun t => ?_, fun hne => ?_⟩
  · have hempty : (m.pruned gone heap revision).changedTasks = ∅ := hchangedTasks.trans h.tasks
    unfold Registry.Changed
    rw [hempty, hget t]
    split_ifs <;> simp
  · unfold Registry.Deleted
    rw [hdeleted t, hget t]
    split_ifs with ht
    · simp [ht]
    · simp [ht]
  · obtain ⟨e, rest, hgone⟩ := exists_cons_of_ne_nil hne
    have he : e ∈ m.completedTasks := by
      rw [MinHeap.mem_def, ← hsplit, hgone]
      exact mem_cons_self
    obtain ⟨task, htask, -⟩ :=
      attr_eq_some_iff.mp ((hindexed.completed.mem_iff e).mp he)
    refine ne_empty_of_mem ((hdeleted e.taskId).mpr ⟨?_, ?_⟩)
    · rw [hgone]
      exact mem_cons_self
    · rw [htask]
      exact some_ne_none task

/-- A task is replaced by one with the next revision. -/
theorem Records.replaceTask (h : Unrecorded m) {task : Task} (task' : Task)
    (hget : m.state.tasks.get task'.id = some task) (hnext : task.revision.next = .ok revision)
    (hrevision : task'.revision = revision) (hsame : SameButTasks m m')
    (htasks : m'.state.tasks = m.state.tasks.put task')
    (hdeleted : m'.deletedTasks = m.deletedTasks)
    (hchanged : m'.changedTasks = OrdSet.add m.changedTasks task'.id) : Records m m' := by
  have hne : m.state.tasks.get task'.id ≠ some task' := by
    rw [hget]
    intro heq
    have hsame : task.revision = revision := by rw [Option.some.inj heq, hrevision]
    exact (lt_next hnext).ne hsame
  exact (Records.refl h).putTask task' hsame hne (not_deleted_self _ _) htasks hdeleted
    hchanged

theorem Succeeds.accounts (hindexed : Indexed m) (h : Unrecorded m) {c : BrokerCommand}
    {result : BrokerMutationResult} (hstep : Succeeds m c result m') : Accounts m c m' := by
  cases hstep with
  | unchanged => exact .unchanged rfl h
  | ensureNamespace c fresh _ next =>
    have hne : m.state.namespaces.get c.namespaceId ≠ some (.new c.namespaceId) := by
      rw [fresh]
      exact (some_ne_none _).symm
    have hbase := Records.refl h
    refine .changed next ⟨fun k => ?_, hbase.tasks, hbase.deletedTasks, hbase.groups⟩
      (Or.inl (Or.inl (add_ne_empty _ _)))
    show k ∈ OrdSet.add m.changedNamespaces c.namespaceId ↔
      m.state.namespaces.Changed (m.state.namespaces.put (.new c.namespaceId)) k
    rw [changed_put hne, h.namespaces]
    simp [Namespace.new]
  | publishTask c _ fresh _ next =>
    have hne : m.state.tasks.get c.taskId ≠
        some (.new c.taskId c.namespaceId c.objective c.createdAtMs) := by
      rw [fresh]
      exact (some_ne_none _).symm
    refine .changed next ?_ (Or.inl (touches_of_task rfl))
    exact (Records.refl h).putTask (.new c.taskId c.namespaceId c.objective c.createdAtMs)
      ⟨rfl, rfl, rfl, rfl⟩ hne (not_deleted_self _ _) rfl rfl rfl
  | ensureConsumerGroup c _ fresh _ next =>
    have hne : m.state.groups.get c.groupId ≠ some (.new c.groupId c.namespaceId) := by
      rw [fresh]
      exact (some_ne_none _).symm
    have hbase := Records.refl h
    refine .changed next ⟨hbase.namespaces, hbase.tasks, hbase.deletedTasks, fun k => ?_⟩
      (Or.inl (Or.inr (Or.inr (Or.inr (add_ne_empty _ _)))))
    show k ∈ OrdSet.add m.changedGroups c.groupId ↔
      m.state.groups.Changed (m.state.groups.put (.new c.groupId c.namespaceId)) k
    rw [changed_put hne, h.groups]
    simp [ConsumerGroup.new]
  | @joinConsumerGroup c _ group' _ revision get _ moves next
  | @heartbeat c _ group' _ revision get _ moves next =>
    -- No lease is taken back.
    have hrecords : Records m (((m.groupPut group').takeBack Task.namespaceId []).groupsRecorded
        [c.groupId] revision) := .putGroup h get moves
    exact .changed next hrecords (Or.inl (touches_groupsRecorded mem_cons_self))
  | @leaveConsumerGroup _ _ group group' _ _ get leave _ next =>
    have hmoves : group.Moves 0 group' := leave_moves leave
    refine .changed next ?_ (Or.inl (touches_groupsRecorded mem_cons_self))
    exact Records.putGroup h get hmoves
  | @reapStaleMembers _ entries _ _ _ nonempty next reaped =>
    obtain ⟨groups, taskIds, rfl, hgroups, -⟩ := reaped.effect
    -- At least one group is recorded.
    obtain ⟨entry, rest, hentries⟩ := exists_cons_of_ne_nil nonempty
    have hmem : entry.1 ∈ entries.map Prod.fst := by
      rw [hentries]
      exact mem_cons_self
    refine .changed next ?_ (Or.inl (touches_groupsRecorded hmem))
    exact Records.ofGroups h rfl hgroups.changed_iff
  | claimTask c claimed => exact claimed.accounts h
  | @renewTaskLease _ _ _ task lease expiresAtMs taskRevision _ _ _ _ get state _ taskNext next =>
      have hself : m.state.tasks.get task.id = some task := by rw [key_of_get get, get]
      refine .changed next ?_ (Or.inl (touches_of_task rfl))
      exact Records.replaceTask h
        (task.toLeased { lease with expiresAtMs := expiresAtMs } taskRevision) hself taskNext rfl
        ⟨rfl, rfl, rfl, rfl⟩ rfl rfl rfl
  | @completeTask c _ task lease taskRevision _ _ _ get state _ taskNext next =>
      have hself : m.state.tasks.get task.id = some task := by rw [key_of_get get, get]
      refine .changed next ?_ (Or.inl (touches_of_task rfl))
      exact Records.replaceTask h
        (task.toCompleted (lease.completed c.result c.completedAtMs) taskRevision) hself taskNext
        rfl ⟨rfl, rfl, rfl, rfl⟩ rfl rfl rfl
  | pruneCompletedTasks _ split nonempty next =>
    obtain ⟨hrecords, hdeleted⟩ := pruned_records hindexed h split
    exact .changed next hrecords (Or.inl (Or.inr (Or.inr (Or.inl (hdeleted nonempty)))))
  | advanceTerm c _ _ next =>
    have hbase := Records.refl h
    exact .changed next ⟨hbase.namespaces, hbase.tasks, hbase.deletedTasks, hbase.groups⟩
      (Or.inr ⟨c, rfl⟩)

/-! ## Change sets -/

/-- The change set names exactly what differs between two states, without
repetitions. -/
structure ExactChanges (before after : BrokerState) (changes : StateChangeSet) : Prop where
  namespaces : ∀ k, k ∈ changes.namespaces ↔ before.namespaces.Changed after.namespaces k
  tasks : ∀ k, k ∈ changes.tasks ↔ before.tasks.Changed after.tasks k
  deletedTasks : ∀ k, k ∈ changes.deletedTasks ↔ before.tasks.Deleted after.tasks k
  groups : ∀ k, k ∈ changes.groups ↔ before.groups.Changed after.groups k
  disjoint : ∀ k ∈ changes.tasks, k ∉ changes.deletedTasks
  nodup : changes.namespaces.Nodup ∧ changes.tasks.Nodup ∧ changes.deletedTasks.Nodup ∧
    changes.groups.Nodup

/-- The change set that names nothing. -/
def noChanges : StateChangeSet := ⟨[], [], [], []⟩

theorem Unrecorded.takeChanges (h : Unrecorded m) : m.takeChanges = noChanges := by
  unfold BrokerStateMachine.takeChanges
  rw [h.namespaces, h.tasks, h.deletedTasks, h.groups]
  rfl

theorem Records.exactChanges (h : Records m m') :
    ExactChanges m.state m'.state m'.takeChanges where
  namespaces k := OrdSet.mem_toList.trans (h.namespaces k)
  tasks k := OrdSet.mem_toList.trans (h.tasks k)
  deletedTasks k := OrdSet.mem_toList.trans (h.deletedTasks k)
  groups k := OrdSet.mem_toList.trans (h.groups k)
  disjoint k hk hgone :=
    ((h.tasks k).mp (OrdSet.mem_toList.mp hk)).1
      ((h.deletedTasks k).mp (OrdSet.mem_toList.mp hgone)).2
  nodup := ⟨OrdSet.toList_nodup _, OrdSet.toList_nodup _, OrdSet.toList_nodup _,
    OrdSet.toList_nodup _⟩

theorem Touches.takeChanges_ne (h : m.Touches) : m.takeChanges ≠ noChanges := by
  intro heq
  have hnamespaces := congrArg StateChangeSet.namespaces heq
  have htasks := congrArg StateChangeSet.tasks heq
  have hdeleted := congrArg StateChangeSet.deletedTasks heq
  have hgroups := congrArg StateChangeSet.groups heq
  rcases h with h | h | h | h
  · exact h (OrdSet.toList_eq_nil_iff.mp hnamespaces)
  · exact h (OrdSet.toList_eq_nil_iff.mp htasks)
  · exact h (OrdSet.toList_eq_nil_iff.mp hdeleted)
  · exact h (OrdSet.toList_eq_nil_iff.mp hgroups)

/-- A success on a machine with exact indexes. -/
theorem apply_exactChanges (h : Indexed m) {c : BrokerCommand} {applied : AppliedMutation}
    (hok : (apply m c).2 = .ok applied) :
    ((apply m c).1.state = m.state ∧ applied.changes = noChanges) ∨
      (m.state.revision.next = .ok (apply m c).1.state.revision ∧
        ExactChanges m.state (apply m c).1.state applied.changes ∧
        (applied.changes = noChanges → ∃ advance, c = .advanceTerm advance)) := by
  rcases apply_cases h c with ⟨result, hresult, hstep⟩ | ⟨error, herror, -⟩
  · rw [hresult] at hok
    cases hok
    cases hstep.accounts h.clearChanges m.clearChanges_unrecorded with
    | unchanged state unrecorded => exact Or.inl ⟨state, unrecorded.takeChanges⟩
    | changed next records touches =>
      refine Or.inr ⟨next, records.exactChanges, fun hempty => ?_⟩
      exact touches.resolve_left fun htouches => htouches.takeChanges_ne hempty
  · rw [herror] at hok
    cases hok

/-- **Change sets are exact.**  A command that succeeds leaves the state and the
change set empty, or it advances the revision by one and names exactly what is new
or differs and the tasks that are gone; only `AdvanceTerm` advances the revision
with an empty change set. -/
theorem change_set_exact (commands : List BrokerCommand) (c : BrokerCommand)
    (applied : AppliedMutation) (hok : (apply (run initial commands) c).2 = .ok applied) :
    ((apply (run initial commands) c).1.state = (run initial commands).state ∧
        applied.changes = noChanges) ∨
      ((apply (run initial commands) c).1.state.revision.get =
          (run initial commands).state.revision.get + 1 ∧
        ExactChanges (run initial commands).state (apply (run initial commands) c).1.state
          applied.changes ∧
        (applied.changes = noChanges → ∃ advance, c = .advanceTerm advance)) := by
  rcases apply_exactChanges (run_indexed commands) hok with hsame | ⟨hnext, hexact, hempty⟩
  · exact Or.inl hsame
  · exact Or.inr ⟨Counter.next_get hnext, hexact, hempty⟩

/-- A queued task is leased for one millisecond. -/
def briefLease : List BrokerCommand :=
  oneTask ++ [.claimTask (claimBy groupG workerW
    leaseL 0 1)]

/-- A claim after that lease has expired. -/
def laterClaim : ClaimTaskCommand :=
  claimBy groupG workerW ⟨"k", by decide⟩
    5 1

/-- The later claim takes the expired lease back, leases the task again and names
the task once. -/
theorem later_claim_changes :
    ∃ applied, (apply (run initial briefLease) (.claimTask laterClaim)).2 = .ok applied ∧
      applied.changes = ⟨[], [taskT], [], []⟩ ∧
      ExactChanges (run initial briefLease).state
        (apply (run initial briefLease) (.claimTask laterClaim)).1.state applied.changes := by
  have hchanges : (apply (run initial briefLease) (.claimTask laterClaim)).2.map
      AppliedMutation.changes = .ok ⟨[], [taskT], [], []⟩ := by decide +kernel
  cases hok : (apply (run initial briefLease) (.claimTask laterClaim)).2 with
  | error error =>
    rw [hok] at hchanges
    cases hchanges
  | ok applied =>
    rw [hok] at hchanges
    have hlist : applied.changes = ⟨[], [taskT], [], []⟩ :=
      Except.ok.inj hchanges
    refine ⟨applied, rfl, hlist, ?_⟩
    rcases change_set_exact briefLease (.claimTask laterClaim) applied hok with
      ⟨-, hempty⟩ | ⟨-, hexact, -⟩
    · rw [hlist] at hempty
      cases hempty
    · exact hexact

/-! ## Failed commands -/

/-- The state and every derived heap and index are the same. -/
structure SameContents (m m' : BrokerStateMachine) : Prop where
  state : m'.state = m.state
  readyTasks : m'.readyTasks = m.readyTasks
  leaseExpirations : m'.leaseExpirations = m.leaseExpirations
  activeLeaseTasks : m'.activeLeaseTasks = m.activeLeaseTasks
  memberLeaseTasks : m'.memberLeaseTasks = m.memberLeaseTasks
  completedTasks : m'.completedTasks = m.completedTasks
  namespaceTaskCounts : m'.namespaceTaskCounts = m.namespaceTaskCounts
  namespaceGroupCounts : m'.namespaceGroupCounts = m.namespaceGroupCounts

/-- **Errors are atomic outside claims.**  The preflight passes of the bulk commands
leave nothing that could fail half way, whatever the counters are. -/
theorem failed_command_changes_nothing (commands : List BrokerCommand) (c : BrokerCommand)
    (hclaim : ∀ claim, c ≠ .claimTask claim) (error : StateMachineError)
    (herror : (apply (run initial commands) c).2 = .error error) :
    SameContents (run initial commands) (apply (run initial commands) c).1 := by
  rcases apply_cases (run_indexed commands) c with ⟨result, hresult, -⟩ | ⟨_, -, hfails⟩
  · rw [hresult] at herror
    cases herror
  · generalize (apply (run initial commands) c).1 = after at hfails
    cases hfails with
    | refused => exact ⟨rfl, rfl, rfl, rfl, rfl, rfl, rfl, rfl⟩
    | claimTask claim => exact absurd rfl (hclaim claim)

/-- The member that holds the lease leaves with a stale generation. -/
def staleLeave : LeaveConsumerGroupCommand :=
  ⟨groupG, workerW, 0⟩

theorem stale_leave_changes_nothing :
    (∃ error, (apply (run initial briefLease) (.leaveConsumerGroup staleLeave)).2 =
        .error error) ∧
      SameContents (run initial briefLease)
        (apply (run initial briefLease) (.leaveConsumerGroup staleLeave)).1 := by
  cases hrun : (apply (run initial briefLease) (.leaveConsumerGroup staleLeave)).2 with
  | ok applied =>
    have hfails : (apply (run initial briefLease) (.leaveConsumerGroup staleLeave)).2.isOk =
        false := by decide +kernel
    rw [hrun] at hfails
    cases hfails
  | error error =>
    exact ⟨⟨error, rfl⟩, failed_command_changes_nothing briefLease
      (.leaveConsumerGroup staleLeave) (fun _ => nofun) error hrun⟩

end BrokerStateMachine

end AgentBroker
