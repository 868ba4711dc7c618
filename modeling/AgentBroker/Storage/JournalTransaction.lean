import AgentBroker.Storage.AcceptedCheckpoints

/-!
# Journal records are applied as a whole or not at all

`apply_journal_mutation` works on a checkpoint of its caller.  It edits a copy, validates
the copy, and assigns it last; `applyJournalMutationInPlace` is that program, with the
caller's checkpoint as its state.  Records are not trusted: they may repeat ids, go back,
or name what is not there.

## Main results

* `run_applyJournalMutationInPlace` — the program assigns what `applyJournalMutation`
  returns, and nothing if that is an error.
* `applyJournalMutation_applied` — what a record that was applied did.
* `journal_application_transactional` — the two together.
-/

namespace AgentBroker

open Except hiding error
open List
open BrokerStateMachine (fromCheckpoint)

/-- `apply_journal_mutation` on the checkpoint of its caller. -/
def applyJournalMutationInPlace (mutation : JournalMutation) :
    EStateM StorageError BrokerCheckpoint Bool := do
  let checkpoint ← get
  if mutation.revision ≤ checkpoint.revision then return false
  else do
    let expected ← EStateM.ofExcept (checkpoint.revision.next.mapError fun error =>
      StorageError.invalidFormat error.display)
    EStateM.ofExcept (Except.require (mutation.revision = expected)
      (.revisionGap expected mutation.revision))
    EStateM.ofExcept (Except.require (checkpoint.term ≤ mutation.term)
      (.backwardTerm checkpoint.term mutation.term))
    -- From here on the copy is edited; the caller's checkpoint is assigned at the end.
    let namespaces ← EStateM.ofExcept
      (upsertNamespaces checkpoint.namespaces mutation.namespaces)
    let groups ← EStateM.ofExcept (upsertGroups checkpoint.groups mutation.groups)
    let tasks ← EStateM.ofExcept (upsertTasks checkpoint.tasks mutation.tasks)
    let candidate := sortCheckpoint {
      term := mutation.term
      revision := mutation.revision
      namespaces := namespaces
      tasks := tasks.filter fun task => ¬task.taskId ∈ mutation.deletedTasks
      groups := groups }
    let _ ← EStateM.ofExcept
      ((fromCheckpoint candidate).mapError StorageError.checkpoint)
    set candidate
    return true

/-- The answer of the program and what it leaves in the caller's checkpoint, from a result
that was computed apart. -/
def assigned (checkpoint : BrokerCheckpoint) :
    Except StorageError (BrokerCheckpoint × Bool) →
      EStateM.Result StorageError BrokerCheckpoint Bool
  | .ok (checkpoint', applied) => .ok applied checkpoint'
  | .error error => .error error checkpoint

/-- A step that can fail before anything is assigned. -/
theorem run_ofExcept_bind {α : Type} {x : Except StorageError α}
    {f : α → EStateM StorageError BrokerCheckpoint Bool}
    {g : α → Except StorageError (BrokerCheckpoint × Bool)} {checkpoint : BrokerCheckpoint}
    (h : ∀ a, x = .ok a → (f a).run checkpoint = assigned checkpoint (g a)) :
    (EStateM.ofExcept x >>= f).run checkpoint = assigned checkpoint (x >>= g) := by
  cases x with
  | ok a => exact h a rfl
  | error => rfl

/-- **The caller's checkpoint is assigned only if everything succeeded.** -/
theorem run_applyJournalMutationInPlace (checkpoint : BrokerCheckpoint)
    (mutation : JournalMutation) :
    (applyJournalMutationInPlace mutation).run checkpoint =
      assigned checkpoint (applyJournalMutation checkpoint mutation) := by
  unfold applyJournalMutation
  show EStateM.run (if mutation.revision ≤ checkpoint.revision then _ else _) checkpoint = _
  split_ifs
  · rfl
  · refine run_ofExcept_bind fun expected _ => run_ofExcept_bind fun _ _ =>
      run_ofExcept_bind fun _ _ => run_ofExcept_bind fun namespaces _ =>
      run_ofExcept_bind fun groups _ => run_ofExcept_bind fun tasks _ =>
      run_ofExcept_bind fun _ _ => rfl

/-! ## What an applied record did -/

/-- The checkpoint after a record was applied. -/
structure JournalApplied (checkpoint : BrokerCheckpoint) (mutation : JournalMutation)
    (checkpoint' : BrokerCheckpoint) : Prop where
  /-- The revision is the next one. -/
  revision : checkpoint.revision.next = .ok mutation.revision ∧
    checkpoint'.revision = mutation.revision
  /-- The term has not gone back. -/
  term : checkpoint.term ≤ mutation.term ∧ checkpoint'.term = mutation.term
  /-- No entity has gone back. -/
  namespaces_le : ∀ a ∈ checkpoint.namespaces, ∀ b ∈ checkpoint'.namespaces,
    a.namespaceId = b.namespaceId → a.revision ≤ b.revision
  tasks_le : ∀ a ∈ checkpoint.tasks, ∀ b ∈ checkpoint'.tasks,
    a.taskId = b.taskId → a.revision ≤ b.revision
  groups_le : ∀ a ∈ checkpoint.groups, ∀ b ∈ checkpoint'.groups,
    a.groupId = b.groupId → a.revision ≤ b.revision
  /-- The checkpoint is valid. -/
  accepted : ∃ r, fromCheckpoint checkpoint' = .ok r
  /-- Every list is in order. -/
  namespaces_sorted : checkpoint'.namespaces.Pairwise fun a b => a.namespaceId < b.namespaceId
  tasks_sorted : checkpoint'.tasks.Pairwise fun a b => a.taskId < b.taskId
  groups_sorted : checkpoint'.groups.Pairwise fun a b => a.groupId < b.groupId
  members_sorted : ∀ group ∈ checkpoint'.groups,
    group.members.Pairwise fun a b => a.memberId < b.memberId
  /-- The entities are the old ones with the record's replaced or added, without the
  deleted tasks. -/
  namespaces : ∀ a, a ∈ checkpoint'.namespaces ↔
    List.Patched NamespaceCheckpoint.namespaceId checkpoint.namespaces mutation.namespaces a
  tasks : ∀ a, a ∈ checkpoint'.tasks ↔
    List.Patched TaskCheckpoint.taskId checkpoint.tasks mutation.tasks a ∧
      a.taskId ∉ mutation.deletedTasks
  groups : ∀ a, a ∈ checkpoint'.groups ↔
    ∃ group, List.Patched ConsumerGroupCheckpoint.groupId checkpoint.groups mutation.groups
      group ∧ sortMembers group = a

variable {checkpoint checkpoint' : BrokerCheckpoint} {mutation : JournalMutation}

section Upserts

variable {α κ : Type} [DecidableEq κ] {key : α → κ} {revision : α → Revision} {entity : String}

/-- Replacements that never go back. -/
theorem upsertAll_revisions {l incoming l' : List α} (hkeys : (l.map key).Nodup)
    (hok : l.upsertAll key (fun current incoming =>
      ensureLocalRevision entity (revision current) (revision incoming)) incoming = .ok l') :
    (∀ a, a ∈ l' ↔ List.Patched key l incoming a) ∧
      ∀ a ∈ l, ∀ b ∈ l', key a = key b → revision a ≤ revision b :=
  (upsertAll_ok (R := fun a b => revision a ≤ revision b) (fun _ => le_rfl)
    (fun _ _ _ hab hbc => le_trans hab hbc) (fun _ _ hcheck => require_eq_ok_iff.mp hcheck)
    hkeys hok).2

end Upserts

/-- The ids of an accepted checkpoint are distinct. -/
theorem SameRecords.nodup {state : BrokerState} (h : SameRecords state checkpoint) :
    (checkpoint.namespaces.map NamespaceCheckpoint.namespaceId).Nodup ∧
      (checkpoint.tasks.map TaskCheckpoint.taskId).Nodup ∧
      (checkpoint.groups.map ConsumerGroupCheckpoint.groupId).Nodup := by
  refine ⟨?_, ?_, ?_⟩
  · refine (h.namespaces.map _).nodup_iff.mp (pairwise_map.mpr ?_)
    exact (checkpoint_namespaces_sorted state).imp fun hlt => ne_of_lt hlt
  · refine (h.tasks.map _).nodup_iff.mp (pairwise_map.mpr ?_)
    exact (checkpoint_tasks_sorted state).imp fun hlt => ne_of_lt hlt
  · have hkeys := (h.groups.map ConsumerGroupCheckpoint.groupId).nodup_iff.mp
      (pairwise_map.mpr ((checkpoint_groups_sorted state).imp fun hlt => ne_of_lt hlt))
    rwa [List.map_map] at hkeys

/-- The members of an exported group are in order. -/
theorem members_sorted_of_mem {state : BrokerState} {group : ConsumerGroupCheckpoint}
    (h : group ∈ state.checkpoint.groups) :
    group.members.Pairwise fun a b => a.memberId < b.memberId := by
  obtain ⟨found, -, rfl⟩ := List.mem_map.mp h
  exact found.consumers.map_values_sorted fun _ => rfl

/-- **What an applied record did.** -/
theorem applyJournalMutation_applied {r : BrokerStateMachine}
    (haccepted : fromCheckpoint checkpoint = .ok r)
    (hok : applyJournalMutation checkpoint mutation = .ok (checkpoint', true)) :
    JournalApplied checkpoint mutation checkpoint' := by
  unfold applyJournalMutation at hok
  split_ifs at hok
  · cases hok
  obtain ⟨expected, hexpected, hok⟩ := bind_eq_ok_iff.mp hok
  obtain ⟨_, hrevision, hok⟩ := bind_eq_ok_iff.mp hok
  obtain ⟨_, hterm, hok⟩ := bind_eq_ok_iff.mp hok
  obtain ⟨namespaces, hnamespaces, hok⟩ := bind_eq_ok_iff.mp hok
  obtain ⟨groups, hgroups, hok⟩ := bind_eq_ok_iff.mp hok
  obtain ⟨tasks, htasks, hok⟩ := bind_eq_ok_iff.mp hok
  obtain ⟨r', hr', hok⟩ := bind_eq_ok_iff.mp hok
  cases hok
  cases require_eq_ok_iff.mp hrevision
  have hkeys := (restoreState_sameRecords (restoreState_of_fromCheckpoint haccepted)).nodup
  obtain ⟨hnamespaceMem, hnamespaceLe⟩ := upsertAll_revisions hkeys.1 hnamespaces
  obtain ⟨htaskMem, htaskLe⟩ := upsertAll_revisions hkeys.2.1 htasks
  obtain ⟨hgroupMem, hgroupLe⟩ := upsertAll_revisions hkeys.2.2 hgroups
  have hvalid := mapError_eq_ok_iff.mp hr'
  -- Sorted and accepted, the copy is the export of the state it restores to.
  have hexport := sortCheckpoint_of_fromCheckpoint hvalid
  rw [sortCheckpoint_idem] at hexport
  -- Sorting changes which records there are only inside the groups.
  have hnamespace : ∀ a, a ∈ namespaces.sortByKey NamespaceCheckpoint.namespaceId ↔
      a ∈ namespaces := fun a => (sortByKey_perm _).mem_iff
  have htask : ∀ a, a ∈ (tasks.filter fun task => ¬task.taskId ∈ mutation.deletedTasks).sortByKey
      TaskCheckpoint.taskId ↔ a ∈ tasks ∧ a.taskId ∉ mutation.deletedTasks := by
    intro a
    rw [(sortByKey_perm _).mem_iff, mem_filter, decide_eq_true_eq]
  have hgroup : ∀ a, a ∈ (groups.sortByKey ConsumerGroupCheckpoint.groupId).map sortMembers ↔
      ∃ group, group ∈ groups ∧ sortMembers group = a := by
    intro a
    simp only [List.mem_map, (sortByKey_perm _).mem_iff]
  exact {
    revision := ⟨mapError_eq_ok_iff.mp hexpected, rfl⟩
    term := ⟨require_eq_ok_iff.mp hterm, rfl⟩
    namespaces_le := fun a ha b hb => hnamespaceLe a ha b ((hnamespace b).mp hb)
    tasks_le := fun a ha b hb => htaskLe a ha b ((htask b).mp hb).1
    groups_le := fun a ha b hb heq => by
      obtain ⟨group, hmem, rfl⟩ := (hgroup b).mp hb
      exact hgroupLe a ha group hmem heq
    accepted := ⟨r', hvalid⟩
    namespaces_sorted := by
      rw [hexport]
      exact checkpoint_namespaces_sorted r'.state
    tasks_sorted := by
      rw [hexport]
      exact checkpoint_tasks_sorted r'.state
    groups_sorted := by
      rw [hexport]
      exact checkpoint_groups_sorted r'.state
    members_sorted := by
      rw [hexport]
      exact fun group hmem => members_sorted_of_mem hmem
    namespaces := fun a => (hnamespace a).trans (hnamespaceMem a)
    tasks := fun a => (htask a).trans (and_congr_left fun _ => htaskMem a)
    groups := fun a => (hgroup a).trans
      (exists_congr fun group => and_congr_left fun _ => hgroupMem group) }

/-- **Journal records are applied as a whole or not at all.**  Whatever the record is: an
error leaves an accepted checkpoint as it was, and so does a record that is not newer; and
a record that was applied did what it says. -/
theorem journal_application_transactional (checkpoint : BrokerCheckpoint)
    (r : BrokerStateMachine) (haccepted : fromCheckpoint checkpoint = .ok r)
    (mutation : JournalMutation) :
    (∀ error checkpoint', (applyJournalMutationInPlace mutation).run checkpoint =
      .error error checkpoint' → checkpoint' = checkpoint) ∧
    (mutation.revision ≤ checkpoint.revision →
      (applyJournalMutationInPlace mutation).run checkpoint = .ok false checkpoint) ∧
    ∀ checkpoint', (applyJournalMutationInPlace mutation).run checkpoint =
      .ok true checkpoint' → JournalApplied checkpoint mutation checkpoint' := by
  rw [run_applyJournalMutationInPlace]
  refine ⟨?_, fun hstale => ?_, ?_⟩
  · intro error checkpoint' herror
    cases hresult : applyJournalMutation checkpoint mutation with
    | ok result =>
      rw [hresult] at herror
      cases herror
    | error found =>
      rw [hresult] at herror
      cases herror
      rfl
  · rw [applyJournalMutation, if_pos hstale]
    rfl
  · intro checkpoint' hok
    cases hresult : applyJournalMutation checkpoint mutation with
    | ok result =>
      rw [hresult] at hok
      obtain ⟨found, applied⟩ := result
      cases hok
      exact applyJournalMutation_applied haccepted hresult
    | error found =>
      rw [hresult] at hok
      cases hok

/-- A record that writes one namespace twice. -/
def repeatedNamespace : JournalMutation where
  term := .initial
  revision := .one
  namespaces := [⟨deploys, .one⟩, ⟨deploys, 2⟩]
  tasks := []
  deletedTasks := []
  groups := []

/-- The empty Broker. -/
def blankCheckpoint : BrokerCheckpoint := ⟨.initial, .zero, [], [], []⟩

/-- The second of the two wins. -/
theorem repeated_namespace_applied :
    (applyJournalMutationInPlace repeatedNamespace).run blankCheckpoint = .ok true
      ⟨.initial, .one, [⟨deploys, 2⟩], [], []⟩ ∧
    JournalApplied blankCheckpoint repeatedNamespace
      ⟨.initial, .one, [⟨deploys, 2⟩], [], []⟩ := by
  have hrun : (applyJournalMutationInPlace repeatedNamespace).run blankCheckpoint = .ok true
      ⟨.initial, .one, [⟨deploys, 2⟩], [], []⟩ := rfl
  exact ⟨hrun, (journal_application_transactional blankCheckpoint .initial rfl
    repeatedNamespace).2.2 _ hrun⟩

end AgentBroker
