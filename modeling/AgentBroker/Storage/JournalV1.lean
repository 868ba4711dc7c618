import AgentBroker.Domain.Counters
import AgentBroker.Lib.Upsert
import AgentBroker.Storage.WireJson

/-!
# The journal

A commit appends one record: the entities that the change set names, as they are after the
command (`journal_v1.rs`).  Replaying a record upserts them into a checkpoint, checks that
neither the term nor any record goes back, sorts, and validates the checkpoint as a whole.

As for snapshots, `json` stands for any serialiser of the wire record that reads back what
it wrote, on a line of its own.

## Main results

* `journalMutationFromWire_recordedWire` — a record reads back as what it was made of.
* `applyJournalMutation_recorded` — replaying the difference between two states turns the one
  into the other.
* `journal_step_simulation` — so the journal follows the state machine step by step.
-/

namespace AgentBroker

open Except hiding error
open Registry List Option
open Json (Value Writer whole_map_array)

/-- A record after decoding. -/
structure JournalMutation where
  term : Term
  revision : Revision
  namespaces : List NamespaceCheckpoint
  tasks : List TaskCheckpoint
  deletedTasks : List TaskId
  groups : List ConsumerGroupCheckpoint
  deriving DecidableEq

structure JournalMutationWire where
  deletedTasks : List String
  groups : List GroupWire
  namespaces : List NamespaceWire
  revision : U64
  schemaVersion : U64
  tasks : List TaskWire
  term : U64
  deriving DecidableEq, Repr

/-! ## The JSON of a record -/

def JournalMutationWire.write (wire : JournalMutationWire) : Value :=
  .object [
    ("deleted_tasks", .array (wire.deletedTasks.map .string)),
    ("groups", .array (wire.groups.map GroupWire.write)),
    ("namespaces", .array (wire.namespaces.map NamespaceWire.write)),
    ("revision", wire.revision.write),
    ("schema_version", wire.schemaVersion.write),
    ("tasks", .array (wire.tasks.map TaskWire.write)),
    ("term", wire.term.write)]

theorem JournalMutationWire.write_injective : Function.Injective JournalMutationWire.write := by
  rintro ⟨⟩ ⟨⟩ h
  simpa [write, (map_injective_iff.mpr string_injective).eq_iff,
    (map_injective_iff.mpr GroupWire.write_injective).eq_iff,
    (map_injective_iff.mpr NamespaceWire.write_injective).eq_iff,
    (map_injective_iff.mpr TaskWire.write_injective).eq_iff] using h

theorem JournalMutationWire.whole_write (wire : JournalMutationWire) : wire.write.Whole :=
  .object (by simp [whole_map_array Value.Whole.string, whole_map_array GroupWire.whole_write,
    whole_map_array TaskWire.whole_write, whole_map_array NamespaceWire.whole_write])

/-- **A journal record is written as its JSON text** on a line, and read back from it. -/
noncomputable def JournalMutationWire.serdeJson : LineCodec JournalMutationWire :=
  Writer.lineCodec ⟨write, whole_write, write_injective⟩

/-- The bytes of a record, without its line break. -/
def JournalMutationWire.json (wire : JournalMutationWire) : Bytes := wire.write.compact

/-! ## Writing -/

/-- `missing_changed_entity`. -/
def missingChangedEntity (entity : String) : StorageError :=
  .invalidFormat ("changed " ++ entity ++ " is absent from authoritative state")

/-- The records that a change set names, in wire form and sorted by id. -/
def changedToWire {κ ν α β : Type} (entity : String) (find : κ → Option ν)
    (checkpoint : ν → α) (toWire : α → β) (wireId : β → String) (ids : List κ) :
    Except StorageError (List β) := do
  let records ← ids.mapM fun id =>
    Except.ofOption (missingChangedEntity entity) ((find id).map fun v => toWire (checkpoint v))
  return records.sortByKey wireId

/-- The wire form of one mutation. -/
def journalMutationToWire (state : BrokerState) (changes : StateChangeSet) :
    Except StorageError JournalMutationWire := do
  Except.require (∀ taskId ∈ changes.deletedTasks, taskId ∉ changes.tasks)
    (.invalidFormat "journal mutation cannot update and delete the same task")
  let namespaces ← changedToWire "namespace" state.namespaces.get Namespace.checkpoint
    namespaceToWire NamespaceWire.namespaceId changes.namespaces
  let tasks ← changedToWire "task" state.tasks.get Task.checkpoint taskToWire TaskWire.taskId
    changes.tasks
  let groups ← changedToWire "Consumer Group" state.groups.get ConsumerGroup.checkpoint
    groupToWire GroupWire.groupId changes.groups
  return {
    deletedTasks := (changes.deletedTasks.map Identifier.asStr).sortByKey id
    groups := groups
    namespaces := namespaces
    revision := state.revision.toU64
    schemaVersion := schemaVersion
    tasks := tasks
    term := state.term.toU64 }

/-- `encode_journal_mutation`. -/
def encodeJournalMutation (json : LineCodec JournalMutationWire) (state : BrokerState)
    (changes : StateChangeSet) : Except StorageError Bytes := do
  let wire ← journalMutationToWire state changes
  return json.toVec wire ++ [newline]

/-! ## Reading -/

/-- The checks of `decode_journal_mutation` on a record that parsed. -/
def journalMutationFromWire (wire : JournalMutationWire) :
    Except StorageError JournalMutation := do
  Except.require (wire.schemaVersion = schemaVersion)
    (.unsupportedSchemaVersion wire.schemaVersion)
  Except.require (wire.revision.get ≠ 0) (.invalidFormat "journal revision must be positive")
  let deletedTasks ← wire.deletedTasks.mapM fun taskId =>
    invalidValue "deleted task ID" IdentifierError.display (Identifier.new taskId)
  let tasks ← wire.tasks.mapM taskFromWire
  Except.require (∀ taskId ∈ deletedTasks, taskId ∉ tasks.map TaskCheckpoint.taskId)
    (.invalidFormat "journal record updates and deletes the same task")
  return {
    term := ← invalidValue "term" FencingValueError.display (Term.new wire.term)
    revision := .new wire.revision
    namespaces := ← wire.namespaces.mapM namespaceFromWire
    tasks := tasks
    deletedTasks := deletedTasks
    groups := ← wire.groups.mapM groupFromWire }

/-- `decode_journal_mutation`. -/
def decodeJournalMutation (json : LineCodec JournalMutationWire) (bytes : Bytes) :
    Except StorageError JournalMutation := do
  let wire ← (json.fromSlice bytes).mapError fun error =>
    StorageError.invalidFormat ("invalid journal record JSON: " ++ error)
  journalMutationFromWire wire

/-! ## Replaying -/

/-- `ensure_local_revision`. -/
def ensureLocalRevision (entity : String) (current incoming : Revision) :
    Except StorageError Unit :=
  .require (current ≤ incoming) (.entityRevisionRollback entity)

/-- `upsert_namespace`, for each record. -/
def upsertNamespaces (values incoming : List NamespaceCheckpoint) :
    Except StorageError (List NamespaceCheckpoint) :=
  values.upsertAll NamespaceCheckpoint.namespaceId
    (fun current incoming => ensureLocalRevision "namespace" current.revision incoming.revision)
    incoming

/-- `upsert_group`, for each record. -/
def upsertGroups (values incoming : List ConsumerGroupCheckpoint) :
    Except StorageError (List ConsumerGroupCheckpoint) :=
  values.upsertAll ConsumerGroupCheckpoint.groupId
    (fun current incoming =>
      ensureLocalRevision "Consumer Group" current.revision incoming.revision)
    incoming

/-- `upsert_task`, for each record. -/
def upsertTasks (values incoming : List TaskCheckpoint) :
    Except StorageError (List TaskCheckpoint) :=
  values.upsertAll TaskCheckpoint.taskId
    (fun current incoming => ensureLocalRevision "task" current.revision incoming.revision)
    incoming

/-- The part of `sort_checkpoint` that is inside a group. -/
def sortMembers (group : ConsumerGroupCheckpoint) : ConsumerGroupCheckpoint :=
  { group with members := group.members.sortByKey MemberCheckpoint.memberId }

/-- `sort_checkpoint`. -/
def sortCheckpoint (checkpoint : BrokerCheckpoint) : BrokerCheckpoint :=
  { checkpoint with
    namespaces := checkpoint.namespaces.sortByKey NamespaceCheckpoint.namespaceId
    tasks := checkpoint.tasks.sortByKey TaskCheckpoint.taskId
    groups := (checkpoint.groups.sortByKey ConsumerGroupCheckpoint.groupId).map sortMembers }

/-- `apply_journal_mutation`: the checkpoint afterwards, and whether the record was new.  An
error leaves the checkpoint of the caller as it was. -/
def applyJournalMutation (checkpoint : BrokerCheckpoint) (mutation : JournalMutation) :
    Except StorageError (BrokerCheckpoint × Bool) :=
  if mutation.revision ≤ checkpoint.revision then .ok (checkpoint, false)
  else do
    let expected ← checkpoint.revision.next.mapError fun error =>
      StorageError.invalidFormat error.display
    Except.require (mutation.revision = expected) (.revisionGap expected mutation.revision)
    Except.require (checkpoint.term ≤ mutation.term)
      (.backwardTerm checkpoint.term mutation.term)
    let namespaces ← upsertNamespaces checkpoint.namespaces mutation.namespaces
    let groups ← upsertGroups checkpoint.groups mutation.groups
    let tasks ← upsertTasks checkpoint.tasks mutation.tasks
    let candidate := sortCheckpoint {
      term := mutation.term
      revision := mutation.revision
      namespaces := namespaces
      tasks := tasks.filter fun task => ¬task.taskId ∈ mutation.deletedTasks
      groups := groups }
    let _ ← (BrokerStateMachine.fromCheckpoint candidate).mapError StorageError.checkpoint
    return (candidate, true)

/-! ## A record reads back -/

/-- What a record says: the entities of the change set as they are in the state. -/
def recorded (state : BrokerState) (changes : StateChangeSet) : JournalMutation where
  term := state.term
  revision := state.revision
  namespaces := ((changes.namespaces.filterMap state.namespaces.get).map
    Namespace.checkpoint).sortByKey NamespaceCheckpoint.namespaceId
  tasks := ((changes.tasks.filterMap state.tasks.get).map
    Task.checkpoint).sortByKey TaskCheckpoint.taskId
  deletedTasks := changes.deletedTasks.sortByKey id
  groups := ((changes.groups.filterMap state.groups.get).map
    ConsumerGroup.checkpoint).sortByKey ConsumerGroupCheckpoint.groupId

section Records

variable {κ ν α β : Type} {find : κ → Option ν} {checkpoint : ν → α} {toWire : α → β}
variable {wireId : β → String} {ids : List κ}

/-- If every changed entity is there, all of them are written. -/
theorem changedToWire_eq_ok (entity : String) (h : ∀ id ∈ ids, find id ≠ none) :
    changedToWire entity find checkpoint toWire wireId ids =
      .ok ((((ids.filterMap find).map checkpoint).map toWire).sortByKey wireId) := by
  have hmapM : ids.mapM (fun id => Except.ofOption (missingChangedEntity entity)
      ((find id).map fun v => toWire (checkpoint v))) =
        .ok (((ids.filterMap find).map checkpoint).map toWire) := by
    induction ids with
    | nil => rfl
    | cons id rest ih =>
      obtain ⟨v, hv⟩ := ne_none_iff_exists'.mp (h id mem_cons_self)
      have hrest := ih fun other hother => h other (mem_cons_of_mem _ hother)
      rw [mapM_cons, hrest, hv, filterMap_cons_some hv]
      rfl
  rw [changedToWire, hmapM]
  rfl

/-- Records that survive their wire form survive being written and sorted. -/
theorem mapM_fromWire_sorted {κ : Type} [LinearOrder κ] {key : α → κ} {l : List α}
    {fromWire : β → Except StorageError α}
    (horder : ∀ a b, key a ≤ key b ↔ wireId (toWire a) ≤ wireId (toWire b))
    (h : ∀ a ∈ l, fromWire (toWire a) = .ok a) :
    ((l.map toWire).sortByKey wireId).mapM fromWire = .ok (l.sortByKey key) := by
  rw [sortByKey_map_comm horder]
  refine mapM_map_eq_ok fun a ha => h a ?_
  exact (sortByKey_perm l).mem_iff.mp ha

end Records

open BrokerStateMachine (ExactChanges RevisionsAdvance Indexed)

section Step

variable {before after : BrokerState} {changes : StateChangeSet}

/-- The wire form of the record of an exact change set. -/
def recordedWire (state : BrokerState) (changes : StateChangeSet) : JournalMutationWire where
  deletedTasks := (changes.deletedTasks.map Identifier.asStr).sortByKey id
  groups := (((changes.groups.filterMap state.groups.get).map ConsumerGroup.checkpoint).map
    groupToWire).sortByKey GroupWire.groupId
  namespaces := (((changes.namespaces.filterMap state.namespaces.get).map
    Namespace.checkpoint).map namespaceToWire).sortByKey NamespaceWire.namespaceId
  revision := state.revision.toU64
  schemaVersion := schemaVersion
  tasks := (((changes.tasks.filterMap state.tasks.get).map Task.checkpoint).map
    taskToWire).sortByKey TaskWire.taskId
  term := state.term.toU64

/-- **An exact change set can be written.** -/
theorem journalMutationToWire_eq_ok (h : ExactChanges before after changes) :
    journalMutationToWire after changes = .ok (recordedWire after changes) := by
  have hdisjoint : ∀ taskId ∈ changes.deletedTasks, taskId ∉ changes.tasks :=
    fun taskId hdeleted htask => h.disjoint taskId htask hdeleted
  rw [journalMutationToWire, require_pos hdisjoint, ok_bind,
    changedToWire_eq_ok _ fun k hk => ((h.namespaces k).mp hk).1, ok_bind,
    changedToWire_eq_ok _ fun k hk => ((h.tasks k).mp hk).1, ok_bind,
    changedToWire_eq_ok _ fun k hk => ((h.groups k).mp hk).1, ok_bind]
  rfl

theorem get_of_mem_recorded {κ ν α : Type} [LinearOrder κ] {key : ν → κ}
    {r : Registry κ ν key} {f : ν → α} {ids : List κ} {a : α}
    (h : a ∈ (ids.filterMap r.get).map f) : ∃ id v, r.get id = some v ∧ f v = a := by
  obtain ⟨v, hv, rfl⟩ := List.mem_map.mp h
  obtain ⟨id, -, hget⟩ := mem_filterMap.mp hv
  exact ⟨id, v, hget, rfl⟩

/-- **A record reads back** as the entities it was made of. -/
theorem journalMutationFromWire_recordedWire (h : ExactChanges before after changes)
    (hwf : after.WellFormed) (hpos : 0 < after.revision.get) :
    journalMutationFromWire (recordedWire after changes) = .ok (recorded after changes) := by
  have hdeleted : (recordedWire after changes).deletedTasks.mapM
      (fun taskId => invalidValue "deleted task ID" IdentifierError.display
        (Identifier.new taskId)) = .ok (recorded after changes).deletedTasks := by
    refine mapM_fromWire_sorted (fun _ _ => Iff.rfl) fun taskId _ => ?_
    rw [Identifier.new_asStr, invalidValue_ok]
  have htasks : (recordedWire after changes).tasks.mapM taskFromWire =
      .ok (recorded after changes).tasks := by
    refine mapM_fromWire_sorted (fun a b => ?_) fun task htask => ?_
    · rw [taskId_taskToWire, taskId_taskToWire]
      exact Iff.rfl
    · obtain ⟨id, v, hget, rfl⟩ := get_of_mem_recorded htask
      exact taskFromWire_taskToWire (hwf.tasks hget).1
  have hnamespaces : (recordedWire after changes).namespaces.mapM namespaceFromWire =
      .ok (recorded after changes).namespaces := by
    refine mapM_fromWire_sorted (fun _ _ => Iff.rfl) fun ns hns => ?_
    obtain ⟨id, v, hget, rfl⟩ := get_of_mem_recorded hns
    exact namespaceFromWire_namespaceToWire (hwf.namespaces hget)
  have hgroups : (recordedWire after changes).groups.mapM groupFromWire =
      .ok (recorded after changes).groups := by
    refine mapM_fromWire_sorted (fun _ _ => Iff.rfl) fun group hgroup => ?_
    obtain ⟨id, v, hget, rfl⟩ := get_of_mem_recorded hgroup
    exact groupFromWire_checkpoint (hwf.groups hget).1
  -- A deleted task is not among those written.
  have hdisjoint : ∀ taskId ∈ (recorded after changes).deletedTasks,
      taskId ∉ (recorded after changes).tasks.map TaskCheckpoint.taskId := by
    intro taskId htaskId hmem
    obtain ⟨record, hrecord, rfl⟩ := List.mem_map.mp hmem
    obtain ⟨v, hv, rfl⟩ := List.mem_map.mp ((sortByKey_perm _).mem_iff.mp hrecord)
    obtain ⟨id, hid, hget⟩ := mem_filterMap.mp hv
    cases key_of_get hget
    exact h.disjoint _ hid ((sortByKey_perm _).mem_iff.mp htaskId)
  have hversion : (recordedWire after changes).schemaVersion = schemaVersion := rfl
  have hrevision : (recordedWire after changes).revision.get ≠ 0 := Nat.ne_of_gt hpos
  have hterm : Term.new (recordedWire after changes).term = .ok after.term :=
    Term.new_toU64 after.term
  rw [journalMutationFromWire, require_pos hversion, ok_bind,
    require_pos hrevision, ok_bind, hdeleted, ok_bind, htasks,
    ok_bind, require_pos hdisjoint, ok_bind, hterm, invalidValue_ok,
    ok_bind, hnamespaces, ok_bind, hgroups]
  rfl

/-! ## A record is replayed -/

theorem sortMembers_checkpoint (group : ConsumerGroup) :
    sortMembers group.checkpoint = group.checkpoint := by
  have hsorted : group.checkpoint.members.sortByKey MemberCheckpoint.memberId =
      group.checkpoint.members :=
    sortByKey_of_sorted (group.consumers.map_values_sorted fun _ => rfl)
  rw [sortMembers, hsorted]

theorem ensureLocalRevision_eq_ok {entity : String} {current incoming : Revision}
    (h : current ≤ incoming) : ensureLocalRevision entity current incoming = .ok () :=
  require_pos h

theorem upsertNamespaces_recorded (h : ExactChanges before after changes)
    (hadvance : RevisionsAdvance before after) :
    ∃ l, upsertNamespaces before.checkpoint.namespaces (recorded after changes).namespaces =
        .ok l ∧
      l.sortByKey NamespaceCheckpoint.namespaceId = after.checkpoint.namespaces := by
  have hdelta : Registry.IsDelta before.namespaces after.namespaces Namespace.checkpoint
      NamespaceCheckpoint.namespaceId (recorded after changes).namespaces :=
    isDelta_sorted (f := Namespace.checkpoint) (k := NamespaceCheckpoint.namespaceId)
      (fun _ => rfl) h.nodup.1 h.namespaces
  refine patched_of_kept hdelta (fun _ => rfl) (fun v w hv hw => ?_) fun k hgone => ?_
  · -- An existing namespace never changes.
    cases (hadvance.namespaces _ _ hv).symm.trans hw
    exact ensureLocalRevision_eq_ok le_rfl
  · obtain ⟨ns, hns⟩ := ne_none_iff_exists'.mp hgone.1
    exact absurd (hgone.2.symm.trans (hadvance.namespaces k ns hns)) (some_ne_none ns).symm

theorem upsertGroups_recorded (h : ExactChanges before after changes)
    (hadvance : RevisionsAdvance before after) :
    ∃ l, upsertGroups before.checkpoint.groups (recorded after changes).groups = .ok l ∧
      l.sortByKey ConsumerGroupCheckpoint.groupId = after.checkpoint.groups := by
  have hdelta : Registry.IsDelta before.groups after.groups ConsumerGroup.checkpoint
      ConsumerGroupCheckpoint.groupId (recorded after changes).groups :=
    isDelta_sorted (f := ConsumerGroup.checkpoint) (k := ConsumerGroupCheckpoint.groupId)
      (fun _ => rfl) h.nodup.2.2.2 h.groups
  refine patched_of_kept hdelta (fun _ => rfl) (fun v w hv hw => ?_) fun k hgone => ?_
  · obtain ⟨group, hgroup, hle⟩ := hadvance.groups _ v hv
    cases hgroup.symm.trans hw
    exact ensureLocalRevision_eq_ok hle
  · obtain ⟨group, hgroup⟩ := ne_none_iff_exists'.mp hgone.1
    obtain ⟨group', hgroup', -⟩ := hadvance.groups k group hgroup
    exact absurd (hgone.2.symm.trans hgroup') (some_ne_none group').symm

theorem upsertTasks_recorded (h : ExactChanges before after changes)
    (hadvance : RevisionsAdvance before after) :
    ∃ l, upsertTasks before.checkpoint.tasks (recorded after changes).tasks = .ok l ∧
      (l.filter fun task => ¬task.taskId ∈ (recorded after changes).deletedTasks).sortByKey
        TaskCheckpoint.taskId = after.checkpoint.tasks := by
  have hdelta : Registry.IsDelta before.tasks after.tasks Task.checkpoint TaskCheckpoint.taskId
      (recorded after changes).tasks :=
    isDelta_sorted (f := Task.checkpoint) (k := TaskCheckpoint.taskId)
      (fun _ => rfl) h.nodup.2.1 h.tasks
  refine Registry.patched hdelta (fun _ => rfl) (fun v w hv hw => ?_)
    (· ∈ (recorded after changes).deletedTasks) fun k => ?_
  · exact ensureLocalRevision_eq_ok (hadvance.tasks _ v w hv hw)
  · exact (sortByKey_perm _).mem_iff.trans (h.deletedTasks k)

/-- **Replaying the difference between two states turns the one into the other.** -/
theorem applyJournalMutation_recorded {m m' : BrokerStateMachine} (hindexed : Indexed m')
    (h : ExactChanges m.state m'.state changes) (hadvance : RevisionsAdvance m.state m'.state)
    (hnext : m.state.revision.next = .ok m'.state.revision) (hterm : m.state.term ≤ m'.state.term) :
    applyJournalMutation m.state.checkpoint (recorded m'.state changes) =
      .ok (m'.state.checkpoint, true) := by
  obtain ⟨restored, hrestored, -⟩ := BrokerStateMachine.fromCheckpoint_checkpoint hindexed
  obtain ⟨namespaces, hnamespaces, hnsSorted⟩ := upsertNamespaces_recorded h hadvance
  obtain ⟨groups, hgroups, hgroupsSorted⟩ := upsertGroups_recorded h hadvance
  obtain ⟨tasks, htasks, htasksSorted⟩ := upsertTasks_recorded h hadvance
  have hnew : ¬(recorded m'.state changes).revision ≤ m.state.checkpoint.revision :=
    not_le.mpr (Counter.lt_next hnext)
  have hexpected : m.state.checkpoint.revision.next = .ok m'.state.revision := hnext
  have hrevision : (recorded m'.state changes).revision = m'.state.revision := rfl
  have hforward : m.state.checkpoint.term ≤ (recorded m'.state changes).term := hterm
  have hmembers : m'.state.checkpoint.groups.map sortMembers = m'.state.checkpoint.groups := by
    show (m'.state.groups.values.map ConsumerGroup.checkpoint).map sortMembers = _
    rw [List.map_map]
    exact map_congr_left fun group _ => sortMembers_checkpoint group
  have hcandidate : sortCheckpoint {
      term := (recorded m'.state changes).term
      revision := (recorded m'.state changes).revision
      namespaces := namespaces
      tasks := tasks.filter fun task => ¬task.taskId ∈ (recorded m'.state changes).deletedTasks
      groups := groups } = m'.state.checkpoint := by
    rw [sortCheckpoint, hnsSorted, hgroupsSorted, htasksSorted, hmembers]
    rfl
  rw [applyJournalMutation, if_neg hnew, hexpected, mapError_ok, ok_bind,
    require_pos hrevision, ok_bind, require_pos hforward, ok_bind,
    hnamespaces, ok_bind, hgroups, ok_bind, htasks, ok_bind]
  dsimp only
  rw [hcandidate, hrestored]
  rfl

end Step

/-! ## Commands -/

namespace BrokerStateMachine

variable {m : BrokerStateMachine} {c : BrokerCommand} {applied : AppliedMutation}

/-- A success that moves the revision moves it by one, with an exact change set. -/
theorem exactChanges_of_revision_ne (h : Indexed m) (hok : (apply m c).2 = .ok applied)
    (hrevision : (apply m c).1.state.revision ≠ m.state.revision) :
    m.state.revision.next = .ok (apply m c).1.state.revision ∧
      ExactChanges m.state (apply m c).1.state applied.changes := by
  rcases apply_exactChanges h hok with ⟨hsame, -⟩ | ⟨hnext, hexact, -⟩
  · exact absurd (congrArg BrokerState.revision hsame) hrevision
  · exact ⟨hnext, hexact⟩

/-- A success that does not move the revision changes nothing. -/
theorem state_eq_of_revision_eq (h : Indexed m) (hok : (apply m c).2 = .ok applied)
    (hrevision : (apply m c).1.state.revision = m.state.revision) :
    (apply m c).1.state = m.state := by
  rcases apply_exactChanges h hok with ⟨hsame, -⟩ | ⟨hnext, -⟩
  · exact hsame
  · rw [hrevision] at hnext
    exact absurd (Counter.lt_next hnext) (lt_irrefl _)

/-- **The journal follows a command** on a machine with exact indexes: the record can be
written, reads back, and takes the checkpoint before the command to the one after. -/
theorem journal_follows (h : Indexed m) (hok : (apply m c).2 = .ok applied)
    (hrevision : (apply m c).1.state.revision ≠ m.state.revision) :
    journalMutationToWire (apply m c).1.state applied.changes =
        .ok (recordedWire (apply m c).1.state applied.changes) ∧
      journalMutationFromWire (recordedWire (apply m c).1.state applied.changes) =
        .ok (recorded (apply m c).1.state applied.changes) ∧
      applyJournalMutation m.state.checkpoint (recorded (apply m c).1.state applied.changes) =
        .ok ((apply m c).1.state.checkpoint, true) := by
  obtain ⟨hnext, hexact⟩ := exactChanges_of_revision_ne h hok hrevision
  have hindexed := apply_indexed h c
  exact ⟨journalMutationToWire_eq_ok hexact,
    journalMutationFromWire_recordedWire hexact hindexed.wellFormed (Counter.pos_of_next hnext),
    applyJournalMutation_recorded hindexed hexact (apply_revisions h hok) hnext
      (apply_term_le h c)⟩

end BrokerStateMachine

section Lines

variable (json : LineCodec JournalMutationWire)

theorem encodeJournalMutation_eq_ok {state : BrokerState} {changes : StateChangeSet}
    {wire : JournalMutationWire} (h : journalMutationToWire state changes = .ok wire) :
    encodeJournalMutation json state changes = .ok (json.toVec wire ++ [newline]) := by
  rw [encodeJournalMutation, h]
  rfl

theorem decodeJournalMutation_line (wire : JournalMutationWire) :
    decodeJournalMutation json (json.toVec wire ++ [newline]) = journalMutationFromWire wire := by
  rw [decodeJournalMutation, json.fromSlice_line]
  rfl

end Lines

namespace BrokerStateMachine

/-- **Journal step simulation.**  For every reachable machine and every command that
succeeds and changes the revision, the record is written, decoded, and replayed on the
checkpoint before, which leaves exactly the checkpoint after. -/
theorem journal_step_simulation (json : LineCodec JournalMutationWire)
    (commands : List BrokerCommand) (c : BrokerCommand) (applied : AppliedMutation)
    (hok : (apply (run initial commands) c).2 = .ok applied)
    (hrevision : (apply (run initial commands) c).1.state.revision ≠
      (run initial commands).state.revision) :
    ∃ bytes mutation,
      encodeJournalMutation json (apply (run initial commands) c).1.state applied.changes =
        .ok bytes ∧
      decodeJournalMutation json bytes = .ok mutation ∧
      applyJournalMutation (run initial commands).state.checkpoint mutation =
        .ok ((apply (run initial commands) c).1.state.checkpoint, true) := by
  obtain ⟨hwrite, hread, hreplay⟩ := journal_follows (run_indexed commands) hok hrevision
  refine ⟨_, _, encodeJournalMutation_eq_ok json hwrite, ?_, hreplay⟩
  rw [decodeJournalMutation_line, hread]

/-- A claim that takes an expired lease back and leases the task again is replayed. -/
theorem later_claim_is_replayed : ∃ applied bytes mutation,
    (apply (run initial briefLease) (.claimTask laterClaim)).2 = .ok applied ∧
    encodeJournalMutation JournalMutationWire.serdeJson
      (apply (run initial briefLease) (.claimTask laterClaim)).1.state applied.changes =
        .ok bytes ∧
    decodeJournalMutation JournalMutationWire.serdeJson bytes = .ok mutation ∧
    applyJournalMutation (run initial briefLease).state.checkpoint mutation =
      .ok ((apply (run initial briefLease) (.claimTask laterClaim)).1.state.checkpoint, true) := by
  have hsucceeds : (apply (run initial briefLease) (.claimTask laterClaim)).2.toBool = true := by
    decide +kernel
  have hrevision : (apply (run initial briefLease) (.claimTask laterClaim)).1.state.revision ≠
      (run initial briefLease).state.revision := by decide +kernel
  cases hok : (apply (run initial briefLease) (.claimTask laterClaim)).2 with
  | error error =>
    rw [hok] at hsucceeds
    cases hsucceeds
  | ok applied =>
    obtain ⟨bytes, mutation, hreplayed⟩ :=
      journal_step_simulation JournalMutationWire.serdeJson briefLease _ applied hok hrevision
    exact ⟨applied, bytes, mutation, rfl, hreplayed⟩

end BrokerStateMachine

end AgentBroker
