import AgentBroker.Lib.Json
import AgentBroker.Domain.Footprint
import AgentBroker.Storage.Repository

/-!
# The size of a journal record

Only the reader of the journal limits the length of a record (`read_bounded_record`); a
commit appends whatever the command changed.  Here the JSON of a record is written out and
bounded by what can be read off the state before the command: the tasks whose leases the
command takes back, the members of the groups that it writes again, and constants.

## Main results

* `Task.length_json_le`, `ConsumerGroup.length_json_le` — the records of one entity.
* `length_recordedWire_json_le` — a record is as long as what it carries.
* `BrokerStateMachine.committed_record_fits` — a command within its budget writes a record
  that the reader accepts.
-/

namespace AgentBroker

open Registry List Json

/-! ## The bytes of a record -/

/-- The bytes `encode_journal_mutation` returns, with the JSON written out. -/
def journalRecord (state : BrokerState) (changes : StateChangeSet) : Except StorageError Bytes :=
  do
  let wire ← journalMutationToWire state changes
  return wire.json ++ [newline]

/-! ## Values -/

theorem U64.digitCount_le (n : U64) : digitCount n.get ≤ 20 :=
  Json.digitCount_le (by decide) (n.isLt.trans (by decide))

/-- A character of an identifier is one byte, which needs no escape. -/
theorem identifierBodyChar_plain {c : Char} (h : identifierBodyChar c = true) :
    c.toNat < 128 ∧ Json.Plain (UInt8.ofNat c.toNat) := by
  have hascii : c.toNat < 128 := by
    delta identifierBodyChar Char.isAlphanum Char.isAlpha Char.isUpper Char.isLower at h
    simp only [Char.isDigit, Bool.or_eq_true, Bool.and_eq_true, decide_eq_true_eq, beq_iff_eq] at h
    rcases h with (((((⟨-, h⟩ | ⟨-, h⟩) | ⟨-, h⟩) | rfl) | rfl) | rfl) | rfl
    · exact lt_of_le_of_lt (b := 90) h (by decide)
    · exact lt_of_le_of_lt (b := 122) h (by decide)
    · exact lt_of_le_of_lt (b := 57) h (by decide)
    all_goals decide
  have hplain : ∀ n < 128, identifierBodyChar (Char.ofNat n) = true →
      Json.Plain (UInt8.ofNat n) := by decide
  exact ⟨hascii, hplain c.toNat hascii (by rwa [Char.ofNat_toNat])⟩

/-- A valid identifier has only the characters it may have. -/
theorem identifierFault_eq_none {maxBytes : Nat} {texts : IdentifierTexts} {s : String}
    (h : identifierFault maxBytes texts s = none) :
    s.utf8ByteSize ≤ maxBytes ∧ ∀ c ∈ s.toList, identifierBodyChar c = true := by
  unfold identifierFault at h
  split at h
  · cases h
  · next first rest hchars =>
      split_ifs at h with hlong hfirst hrest
      rw [Bool.not_eq_true', Bool.not_eq_false] at hfirst hrest
      refine ⟨not_lt.mp hlong, fun c hc => ?_⟩
      rw [hchars, mem_cons] at hc
      rcases hc with rfl | hc
      · simp [identifierBodyChar, hfirst]
      · exact List.all_eq_true.mp hrest c hc

/-- **A validated identifier is written as it is.** -/
theorem textBytes_of_identifier {maxBytes : Nat} {texts : IdentifierTexts} {s : String}
    (h : identifierFault maxBytes texts s = none) : textBytes s ≤ maxBytes + 2 := by
  obtain ⟨hsize, hchars⟩ := identifierFault_eq_none h
  -- Every character is ASCII, so the bytes are the characters.
  have hbytes : Bytes.ofString s = s.toList.map fun c => UInt8.ofNat c.toNat := by
    rw [← Bytes.ofString_ofList_ascii fun c hc => (identifierBodyChar_plain (hchars c hc)).1,
      String.ofList_toList]
  have hplain : ∀ byte ∈ Bytes.ofString s, Json.Plain byte := by
    intro byte hbyte
    rw [hbytes] at hbyte
    obtain ⟨c, hc, rfl⟩ := List.mem_map.mp hbyte
    exact (identifierBodyChar_plain (hchars c hc)).2
  rw [← length_string_eq, length_string_of_plain hplain]
  omega

theorem Identifier.textBytes_le {kind : IdentifierKind} (i : Identifier kind) :
    textBytes i.asStr ≤ 130 :=
  textBytes_of_identifier i.valid

/-- The escaped length of a task text. -/
def TaskText.escapedBytes {kind : TaskTextKind} (text : TaskText kind) : Nat :=
  (Json.string text.asStr).length

theorem TaskText.textBytes_le {kind : TaskTextKind} (text : TaskText kind) :
    textBytes text.asStr ≤ 6 * kind.maxBytes + 2 := by
  have hsize : text.asStr.utf8ByteSize ≤ kind.maxBytes := by
    have hvalid := text.valid
    unfold taskTextFault at hvalid
    split_ifs at hvalid with hblank hlarge
    exact not_lt.mp hlarge
  have hlength := length_string_le text.asStr
  rw [← length_string_eq]
  omega

/-- A text of `n` control characters. -/
def controls (n : Nat) : String := String.ofList (List.replicate n (Char.ofNat 1))

theorem ofString_controls (n : Nat) : Bytes.ofString (controls n) = List.replicate n 1 := by
  rw [controls, Bytes.ofString_ofList_ascii, map_replicate]
  · rfl
  · intro c hc
    rw [eq_of_mem_replicate hc]
    decide

theorem taskTextFault_controls {kind : TaskTextKind} {n : Nat} (hpos : n ≠ 0)
    (hmax : n ≤ kind.maxBytes) : taskTextFault kind (controls n) = none := by
  have hblank : ¬(controls n).toList.all isRustWhitespace = true := by
    rw [controls, String.toList_ofList, all_replicate, if_neg hpos]
    decide
  have hsize : ¬(controls n).utf8ByteSize > kind.maxBytes := by
    rw [← Bytes.length_ofString, ofString_controls, length_replicate]
    exact not_lt.mpr hmax
  rw [taskTextFault, if_neg hblank, if_neg hsize]

/-- Every control character takes six bytes. -/
theorem length_string_controls (n : Nat) : (Json.string (controls n)).length = 6 * n + 2 := by
  have hescape : (Json.escape 1).length = 6 := by decide
  rw [length_string, ofString_controls, map_replicate, sum_replicate, hescape,
    smul_eq_mul, Nat.mul_comm]

/-! ## Records -/

theorem Namespace.length_json_le (ns : Namespace) :
    (namespaceToWire ns.checkpoint).json.length ≤ 179 := by
  have hkeys : objectBytes [("namespace_id", 0), ("revision", 0)] = 29 := by decide
  have hid := ns.id.textBytes_le
  have hrevision : digitCount ns.revision.get ≤ 20 := ns.revision.toU64.digitCount_le
  rw [ns.length_snapshot, Namespace.snapshotBytes, objectBytes_eq]
  simp only [map_cons, map_nil, sum_cons, sum_nil, hkeys]
  omega

theorem Consumer.length_json_le (member : Consumer) :
    (memberToWire member.checkpoint).json.length ≤ 4562 := by
  have hkeys : objectBytes [("capabilities", 0), ("joined_at_ms", 0),
      ("last_heartbeat_at_ms", 0), ("member_id", 0), ("revision", 0)] = 82 := by decide
  have hcount : member.capabilities.asSlice.length ≤ 64 := by
    rw [Capabilities.asSlice, OrdSet.toList, OrdMap.keys, length_map]
    exact member.capabilities.bounded
  have hsum := sum_le_card_nsmul
    ((member.capabilities.asSlice.map Capability.asStr).map textBytes) 66 fun size hsize => by
      obtain ⟨text, htext, rfl⟩ := List.mem_map.mp hsize
      obtain ⟨capability, -, rfl⟩ := List.mem_map.mp htext
      exact textBytes_of_identifier capability.valid
  have hid := member.id.textBytes_le
  have hjoined : digitCount member.joinedAtMs.get ≤ 20 := member.joinedAtMs.toU64.digitCount_le
  have hheartbeat : digitCount member.lastHeartbeatAtMs.get ≤ 20 :=
    member.lastHeartbeatAtMs.toU64.digitCount_le
  have hrevision : digitCount member.revision.get ≤ 20 := member.revision.toU64.digitCount_le
  rw [member.length_snapshot, Consumer.snapshotBytes, objectBytes_eq]
  simp only [map_cons, map_nil, sum_cons, sum_nil, hkeys, arrayBytes]
  rw [smul_eq_mul] at hsum
  simp only [length_map] at hsum ⊢
  omega

/-- What a member takes in a record, with a comma. -/
def Consumer.recordBytes (member : Consumer) : Nat :=
  (memberToWire member.checkpoint).json.length + 1

/-- A group is as long as its members. -/
theorem ConsumerGroup.length_json_le (group : ConsumerGroup) :
    (groupToWire group.checkpoint).json.length ≤
      368 + (group.consumers.values.map Consumer.recordBytes).sum := by
  have hkeys : objectBytes [("generation", 0), ("group_id", 0), ("members", 0),
      ("namespace_id", 0), ("revision", 0)] = 66 := by decide
  have hmembers := arrayBytes_le (group.consumers.values.map Consumer.snapshotBytes)
  have hid := group.id.textBytes_le
  have hnamespace := group.namespaceId.textBytes_le
  have hgeneration : digitCount group.generation.get ≤ 20 := group.generation.toU64.digitCount_le
  have hrevision : digitCount group.revision.get ≤ 20 := group.revision.toU64.digitCount_le
  rw [group.length_snapshot, ConsumerGroup.snapshotBytes, objectBytes_eq]
  simp only [List.map_map, Function.comp_def, ← Consumer.length_snapshot] at hmembers
  simp only [map_cons, map_nil, sum_cons, sum_nil, hkeys]
  unfold Consumer.recordBytes
  omega

/-- The names of the fields of a task, and what stands in them. -/
theorem Task.snapshotBytes_eq (task : Task) :
    task.snapshotBytes = 222 + (task.state.snapshotFields.map Prod.snd).sum +
      (digitCount task.createdAtMs.get + textBytes task.namespaceId.asStr +
        textBytes task.objective.asStr + digitCount task.revision.get +
        textBytes task.id.asStr) := by
  have hkeys : objectBytes ([("completed_at_ms", 0), ("lease_epoch", 0),
      ("lease_expires_at_ms", 0), ("lease_generation", 0), ("lease_group_id", 0), ("lease_id", 0),
      ("lease_owner_member_id", 0), ("result", 0), ("status", 0)] ++ [("created_at_ms", 0),
      ("namespace_id", 0), ("objective", 0), ("revision", 0), ("task_id", 0)]) = 222 := by
    decide +kernel
  have hfields : task.state.snapshotFields.map (fun field => (field.1, 0)) =
      [("completed_at_ms", 0), ("lease_epoch", 0), ("lease_expires_at_ms", 0),
        ("lease_generation", 0), ("lease_group_id", 0), ("lease_id", 0),
        ("lease_owner_member_id", 0), ("result", 0), ("status", 0)] := by
    cases task.state <;> rfl
  rw [Task.snapshotBytes, objectBytes_eq, map_append, map_append, hfields, sum_append]
  simp only [map_cons, map_nil, sum_cons, sum_nil, hkeys]
  omega

/-- What a task takes of a record while it is queued. -/
def Task.queuedBytes (task : Task) : Nat :=
  (Json.string task.namespaceId.asStr).length + task.objective.escapedBytes +
    (Json.string task.id.asStr).length + 338

theorem Task.length_json_of_queued {task : Task} {queued : QueuedTask}
    (h : task.state = .queued queued) :
    (taskToWire task.checkpoint).json.length < task.queuedBytes := by
  have hstatus : textBytes "queued" = 8 := by decide
  have hcreated : digitCount task.createdAtMs.get ≤ 20 := task.createdAtMs.toU64.digitCount_le
  have hepoch : digitCount queued.leaseEpoch.get ≤ 20 := queued.leaseEpoch.toU64.digitCount_le
  have hrevision : digitCount task.revision.get ≤ 20 := task.revision.toU64.digitCount_le
  rw [task.length_snapshot, task.snapshotBytes_eq, h, TaskState.snapshotFields]
  simp only [map_cons, map_nil, sum_cons, sum_nil, nullBytes, hstatus, Task.queuedBytes,
    TaskText.escapedBytes, length_string_eq]
  omega

/-- A lease or an outcome takes no more than a result, three identifiers and five numbers. -/
theorem TaskState.snapshotFields_le (state : TaskState) :
    (state.snapshotFields.map Prod.snd).sum ≤ 393683 := by
  cases state with
  | queued payload =>
    have hepoch : digitCount payload.leaseEpoch.get ≤ 20 := payload.leaseEpoch.toU64.digitCount_le
    have hstatus : textBytes "queued" = 8 := by decide
    simp only [snapshotFields, map_cons, map_nil, sum_cons, sum_nil, nullBytes, hstatus]
    omega
  | leased payload =>
    have hepoch : digitCount payload.leaseEpoch.get ≤ 20 := payload.leaseEpoch.toU64.digitCount_le
    have hexpires : digitCount payload.expiresAtMs.get ≤ 20 :=
      payload.expiresAtMs.toU64.digitCount_le
    have hgeneration : digitCount payload.generation.get ≤ 20 :=
      payload.generation.toU64.digitCount_le
    have hgroup := payload.groupId.textBytes_le
    have hlease := payload.leaseId.textBytes_le
    have howner := payload.ownerMemberId.textBytes_le
    have hstatus : textBytes "leased" = 8 := by decide
    simp only [snapshotFields, map_cons, map_nil, sum_cons, sum_nil, nullBytes, hstatus]
    omega
  | completed payload =>
    have hcompleted : digitCount payload.completedAtMs.get ≤ 20 :=
      payload.completedAtMs.toU64.digitCount_le
    have hepoch : digitCount payload.leaseEpoch.get ≤ 20 := payload.leaseEpoch.toU64.digitCount_le
    have hgeneration : digitCount payload.generation.get ≤ 20 :=
      payload.generation.toU64.digitCount_le
    have hgroup := payload.groupId.textBytes_le
    have hlease := payload.leaseId.textBytes_le
    have howner := payload.ownerMemberId.textBytes_le
    have hresult : textBytes payload.result.asStr ≤ 393218 := payload.result.textBytes_le
    have hstatus : textBytes "completed" = 11 := by decide
    simp only [snapshotFields, map_cons, map_nil, sum_cons, sum_nil, nullBytes, hstatus]
    omega

/-- A task of any state takes less than half a megabyte. -/
theorem Task.length_json_le (task : Task) :
    (taskToWire task.checkpoint).json.length ≤ 492527 := by
  have hstate := task.state.snapshotFields_le
  have hcreated : digitCount task.createdAtMs.get ≤ 20 := task.createdAtMs.toU64.digitCount_le
  have hnamespace := task.namespaceId.textBytes_le
  have hobjective : textBytes task.objective.asStr ≤ 98306 := task.objective.textBytes_le
  have hrevision : digitCount task.revision.get ≤ 20 := task.revision.toU64.digitCount_le
  have hid := task.id.textBytes_le
  rw [task.length_snapshot, task.snapshotBytes_eq]
  omega

/-- A task is no shorter than its objective. -/
theorem Task.escapedBytes_le_length_json (task : Task) :
    task.objective.escapedBytes ≤ (taskToWire task.checkpoint).json.length := by
  rw [task.length_snapshot, task.snapshotBytes_eq, TaskText.escapedBytes, length_string_eq]
  omega

/-! ## Whole records -/

/-- What a task takes in a record, with a comma. -/
def Task.recordBytes (task : Task) : Nat := (taskToWire task.checkpoint).json.length + 1

/-- What a group takes in a record, with a comma. -/
def ConsumerGroup.recordBytes (group : ConsumerGroup) : Nat :=
  (groupToWire group.checkpoint).json.length + 1

/-- What a group takes at most with the members it has. -/
def ConsumerGroup.membersBytes (group : ConsumerGroup) : Nat :=
  369 + (group.consumers.values.map Consumer.recordBytes).sum

/-- What a namespace takes in a record, with a comma. -/
def Namespace.recordBytes (ns : Namespace) : Nat := (namespaceToWire ns.checkpoint).json.length + 1

theorem ConsumerGroup.recordBytes_le (group : ConsumerGroup) :
    group.recordBytes ≤ group.membersBytes :=
  (Nat.succ_le_succ group.length_json_le).trans (le_of_eq (Nat.succ_add _ _).symm)

/-- A group that has at most one member it did not have. -/
theorem ConsumerGroup.recordBytes_of_membersWithin {group group' : ConsumerGroup}
    {own : Option ConsumerId} (h : group.MembersWithin own group') :
    group'.recordBytes ≤ (if own = none then 0 else 4563) + group.membersBytes := by
  have hsum := sum_values_le own
    (fun member : Consumer => Nat.succ_le_succ member.length_json_le) h
  refine group'.recordBytes_le.trans ?_
  unfold ConsumerGroup.membersBytes
  rw [Nat.add_left_comm]
  exact Nat.add_le_add_left hsum 369

/-- The exact length of a record. -/
theorem length_recordedWire_json (state : BrokerState) (changes : StateChangeSet) :
    (recordedWire state changes).json.length =
      89 + arrayBytes (changes.deletedTasks.map fun id => textBytes id.asStr) +
      arrayBytes ((changes.groups.filterMap state.groups.get).map ConsumerGroup.snapshotBytes) +
      arrayBytes ((changes.namespaces.filterMap state.namespaces.get).map
        Namespace.snapshotBytes) +
      digitCount state.revision.get + digitCount schemaVersion.get +
      arrayBytes ((changes.tasks.filterMap state.tasks.get).map Task.snapshotBytes) +
      digitCount state.term.get := by
  have hkeys : objectBytes [("deleted_tasks", 0), ("groups", 0), ("namespaces", 0),
      ("revision", 0), ("schema_version", 0), ("tasks", 0), ("term", 0)] = 89 := by
    decide
  have hdeleted : (Value.array (((changes.deletedTasks.map Identifier.asStr).sortByKey id).map
      .string)).compact.length =
        arrayBytes (changes.deletedTasks.map fun id => textBytes id.asStr) := by
    rw [← List.map_id (changes.deletedTasks.map Identifier.asStr)]
    exact length_array_sortByKey id (fun id => length_compact_text id.asStr) changes.deletedTasks
  have hgroups := length_array_sortByKey GroupWire.groupId ConsumerGroup.length_snapshot
    (changes.groups.filterMap state.groups.get)
  have hnamespaces := length_array_sortByKey NamespaceWire.namespaceId Namespace.length_snapshot
    (changes.namespaces.filterMap state.namespaces.get)
  have htasks := length_array_sortByKey TaskWire.taskId Task.length_snapshot
    (changes.tasks.filterMap state.tasks.get)
  rw [← hdeleted, ← hgroups, ← hnamespaces, ← htasks, JournalMutationWire.json,
    JournalMutationWire.write, length_compact_fields (by simp only [List.map]; decide +kernel), objectBytes_eq]
  simp only [map_cons, map_nil, sum_cons, sum_nil, hkeys, U64.length_write, recordedWire]
  simp only [Nat.add_assoc, Nat.add_zero]
  rfl

/-- **A record is as long as what it carries.** -/
theorem length_recordedWire_json_le (state : BrokerState) (changes : StateChangeSet) :
    (recordedWire state changes).json.length ≤ 157 + 131 * changes.deletedTasks.length +
      ((changes.groups.filterMap state.groups.get).map ConsumerGroup.recordBytes).sum +
      ((changes.namespaces.filterMap state.namespaces.get).map Namespace.recordBytes).sum +
      ((changes.tasks.filterMap state.tasks.get).map Task.recordBytes).sum := by
  have hdeleted := sum_le_card_nsmul (changes.deletedTasks.map fun id => textBytes id.asStr) 130
    fun size hsize => by
      obtain ⟨id, -, rfl⟩ := List.mem_map.mp hsize
      exact id.textBytes_le
  have hgroups := arrayBytes_le
    ((changes.groups.filterMap state.groups.get).map ConsumerGroup.snapshotBytes)
  have hnamespaces := arrayBytes_le
    ((changes.namespaces.filterMap state.namespaces.get).map Namespace.snapshotBytes)
  have htasks := arrayBytes_le
    ((changes.tasks.filterMap state.tasks.get).map Task.snapshotBytes)
  have hrevision : digitCount state.revision.get ≤ 20 := state.revision.toU64.digitCount_le
  have hversion := schemaVersion.digitCount_le
  have hterm : digitCount state.term.get ≤ 20 := state.term.toU64.digitCount_le
  rw [length_map, smul_eq_mul] at hdeleted
  rw [length_recordedWire_json, arrayBytes, length_map]
  unfold ConsumerGroup.recordBytes Namespace.recordBytes Task.recordBytes
  simp only [List.map_map, Function.comp_def, ConsumerGroup.length_snapshot,
    Namespace.length_snapshot, Task.length_snapshot] at hgroups hnamespaces htasks ⊢
  omega

/-- The tasks alone, without their commas. -/
theorem sum_tasks_le_length_recordedWire_json (state : BrokerState) (changes : StateChangeSet) :
    ((changes.tasks.filterMap state.tasks.get).map fun task =>
      (taskToWire task.checkpoint).json.length).sum ≤
      (recordedWire state changes).json.length := by
  rw [length_recordedWire_json, arrayBytes, arrayBytes, arrayBytes, arrayBytes,
    map_congr_left fun task _ => task.length_snapshot]
  omega

/-! ## Budgets -/

namespace BrokerStateMachine

/-- What the record of a command may take: the tasks whose leases it takes back, the groups
it writes again, the ids it deletes, and half a megabyte for one task, member or namespace of
its own and the frame. -/
def recordBudget (m : BrokerStateMachine) (c : BrokerCommand) : Nat :=
  512 * 1024 + 131 * min c.maxDeleted m.state.tasks.size +
    (m.state.tasks.values.map fun task =>
      if m.mayTakeBack c task then task.queuedBytes else 0).sum +
    (m.state.groups.values.map fun group =>
      if m.rewrites c group then group.membersBytes else 0).sum

variable {m m' : BrokerStateMachine} {c : BrokerCommand} {applied : AppliedMutation}

/-- A lease that is taken back leaves a task that is queued. -/
theorem recordBytes_takenBack_le {task : Task} (h : task.takenBack ≠ task) :
    task.takenBack.recordBytes ≤ task.queuedBytes := by
  rcases task.takenBack_cases with ⟨lease, revision, -, -, heq⟩ | heq
  · have hlength : (taskToWire (task.toQueued lease revision).checkpoint).json.length <
        (task.toQueued lease revision).queuedBytes := Task.length_json_of_queued rfl
    rw [heq]
    exact hlength
  · exact absurd heq h

theorem TasksWithin.sum_le {own : Option TaskId} (h : TasksWithin m c own m'.state.tasks)
    {ids : List TaskId} (hnodup : ids.Nodup)
    (hchanged : ∀ t ∈ ids, m.state.tasks.Changed m'.state.tasks t) :
    ((ids.filterMap m'.state.tasks.get).map Task.recordBytes).sum ≤
      492528 + (m.state.tasks.values.map fun task =>
        if m.mayTakeBack c task then task.queuedBytes else 0).sum := by
  refine sum_patch_le hnodup own fun t ht task' hget' => ?_
  -- Only tasks that differ are recorded.
  have hne : m.state.tasks.get t ≠ some task' := fun heq =>
    (hchanged t ht).2 (hget'.trans heq.symm)
  rcases h t task' hget' hne with hown | ⟨task, hget, hback, rfl⟩
  · rw [if_pos hown]
    exact (Nat.succ_le_succ task'.length_json_le).trans (Nat.le_add_right _ _)
  · have hdiffers : task.takenBack ≠ task := fun heq => hne (by rw [hget, heq])
    rw [weightAt_of_get hget, if_pos hback]
    exact (recordBytes_takenBack_le hdiffers).trans (Nat.le_add_left _ _)

theorem GroupsWithin.sum_le {own : Option ConsumerGroupId}
    (h : GroupsWithin m c own m'.state.groups) {ids : List ConsumerGroupId}
    (hnodup : ids.Nodup) (hchanged : ∀ g ∈ ids, m.state.groups.Changed m'.state.groups g) :
    ((ids.filterMap m'.state.groups.get).map ConsumerGroup.recordBytes).sum ≤
      4563 + (m.state.groups.values.map fun group =>
        if m.rewrites c group then group.membersBytes else 0).sum := by
  refine sum_patch_le hnodup own fun g hg group' hget' => ?_
  have hne : m.state.groups.get g ≠ some group' := fun heq =>
    (hchanged g hg).2 (hget'.trans heq.symm)
  rcases h g group' hget' hne with ⟨hown, hempty⟩ | ⟨group, hget, hrewrites, member, hmember,
    hwithin⟩
  · -- A group that was just registered has no members.
    have hbytes := group'.recordBytes_le
    rw [ConsumerGroup.membersBytes, hempty] at hbytes
    rw [if_pos hown]
    exact (hbytes.trans (by decide)).trans (Nat.le_add_right 4563 _)
  · rw [weightAt_of_get hget, if_pos hrewrites]
    refine (ConsumerGroup.recordBytes_of_membersWithin hwithin).trans
      (Nat.add_le_add_right ?_ _)
    rcases hmember with rfl | hown
    · exact Nat.zero_le _
    · rw [if_pos hown]
      split_ifs <;> decide

/-- A command deletes no more tasks than it may, and no more than there are. -/
theorem length_deleted_le {ids gone : List TaskId} (hnodup : ids.Nodup)
    (hdeleted : ∀ t ∈ ids, m.state.tasks.Deleted m'.state.tasks t)
    (hgone : ∀ t, m.state.tasks.Deleted m'.state.tasks t → t ∈ gone)
    (hbound : gone.length ≤ c.maxDeleted) :
    ids.length ≤ min c.maxDeleted m.state.tasks.size := by
  refine le_min ?_ ?_
  · exact (subperm_of_subset hnodup fun t ht => hgone t (hdeleted t ht)).length_le.trans
      hbound
  · have hkeys : (m.state.tasks.values.map Task.id).length = m.state.tasks.size := by
      rw [length_map, length_values]
    rw [← hkeys]
    refine (subperm_of_subset hnodup fun t ht => ?_).length_le
    obtain ⟨task, hget⟩ := Option.ne_none_iff_exists'.mp (hdeleted t ht).1
    have hid : task.id = t := key_of_get hget
    exact List.mem_map.mpr ⟨task, Registry.mem_values.mpr (hid ▸ hget), hid⟩

/-- Every success has an exact change set, the empty one if nothing changed. -/
theorem exactChanges_of_ok (h : Indexed m) (hok : (apply m c).2 = .ok applied) :
    ExactChanges m.state (apply m c).1.state applied.changes := by
  rcases apply_exactChanges h hok with ⟨hsame, hempty⟩ | ⟨-, hexact, -⟩
  · rw [hsame, hempty]
    refine ⟨fun k => ?_, fun k => ?_, fun k => ?_, fun k => ?_, nofun, ?_⟩
    · exact ⟨nofun, fun hchanged => absurd hchanged (not_changed_self _ k)⟩
    · exact ⟨nofun, fun hchanged => absurd hchanged (not_changed_self _ k)⟩
    · exact ⟨nofun, fun hdeleted => absurd hdeleted (not_deleted_self _ k)⟩
    · exact ⟨nofun, fun hchanged => absurd hchanged (not_changed_self _ k)⟩
    · exact ⟨nodup_nil, nodup_nil, nodup_nil, nodup_nil⟩
  · exact hexact

/-- **A record stays within its budget.** -/
theorem length_record_le (h : Indexed m) (hok : (apply m c).2 = .ok applied) :
    (recordedWire (apply m c).1.state applied.changes).json.length < m.recordBudget c := by
  have hexact := exactChanges_of_ok h hok
  obtain ⟨⟨ownTask, htasks⟩, ⟨ownGroup, hgroups⟩, ⟨ownNamespace, hnamespaces⟩,
    gone, hgone, hdeleted⟩ := apply_footprint h hok
  obtain ⟨hnsNodup, htaskNodup, hdeletedNodup, hgroupNodup⟩ := hexact.nodup
  have htaskSum := htasks.sum_le htaskNodup fun t => (hexact.tasks t).mp
  have hgroupSum := hgroups.sum_le hgroupNodup fun g => (hexact.groups g).mp
  have hnamespaceSum : ((applied.changes.namespaces.filterMap
      (apply m c).1.state.namespaces.get).map Namespace.recordBytes).sum ≤ 180 := by
    have hzero : (m.state.namespaces.values.map fun _ => 0).sum = 0 := by simp
    rw [← Nat.add_zero 180, ← hzero]
    refine sum_patch_le hnsNodup ownNamespace fun ns hns record _ => ?_
    rw [if_pos (hnamespaces ns ((hexact.namespaces ns).mp hns))]
    exact (Nat.succ_le_succ record.length_json_le).trans (Nat.le_add_right _ _)
  have hdeletedCount := length_deleted_le hdeletedNodup (fun t => (hexact.deletedTasks t).mp)
    hdeleted hgone
  have hlength := length_recordedWire_json_le (apply m c).1.state applied.changes
  unfold recordBudget
  omega

theorem journalRecord_eq_ok (h : Indexed m) (hok : (apply m c).2 = .ok applied) :
    journalRecord (apply m c).1.state applied.changes =
      .ok ((recordedWire (apply m c).1.state applied.changes).json ++ [newline]) := by
  rw [journalRecord, journalMutationToWire_eq_ok (exactChanges_of_ok h hok), Except.ok_bind]
  rfl

/-- What the record of the command may take is what the reader admits. -/
def RecordFits (m : BrokerStateMachine) (c : BrokerCommand) : Prop :=
  m.recordBudget c ≤ maxJournalRecordBytes

instance : Decidable (m.RecordFits c) := inferInstanceAs (Decidable (_ ≤ _))

/-- **A command within its budget writes a record that can be read back.** -/
theorem committed_record_fits (commands : List BrokerCommand) (c : BrokerCommand)
    (applied : AppliedMutation) (hfits : (run initial commands).RecordFits c)
    (hok : (apply (run initial commands) c).2 = .ok applied) :
    ∃ record, journalRecord (apply (run initial commands) c).1.state applied.changes =
        .ok record ∧
      record.length ≤ maxJournalRecordBytes ∧ requireBounded record = .ok () := by
  have hindexed := run_indexed commands
  have hlength := length_record_le hindexed hok
  have hbound : ((recordedWire (apply (run initial commands) c).1.state
      applied.changes).json ++ [newline]).length ≤ maxJournalRecordBytes := by
    rw [length_append, length_singleton]
    exact (Nat.succ_le_of_lt hlength).trans hfits
  exact ⟨_, journalRecord_eq_ok hindexed hok, hbound, Except.require_pos hbound⟩

/-- A claim that takes an expired lease back and leases the task again. -/
theorem later_claim_record_fits :
    (run initial briefLease).RecordFits (.claimTask laterClaim) ∧
      ∃ applied record, (apply (run initial briefLease) (.claimTask laterClaim)).2 =
          .ok applied ∧
        journalRecord (apply (run initial briefLease) (.claimTask laterClaim)).1.state
          applied.changes = .ok record ∧
        record.length ≤ maxJournalRecordBytes ∧ requireBounded record = .ok () := by
  have hfits : (run initial briefLease).RecordFits (.claimTask laterClaim) := by decide
  have hok : (apply (run initial briefLease) (.claimTask laterClaim)).2.isOk = true := by
    decide
  cases happlied : (apply (run initial briefLease) (.claimTask laterClaim)).2 with
  | error error =>
    rw [happlied] at hok
    cases hok
  | ok applied =>
    obtain ⟨record, hrecord, hbound⟩ :=
      committed_record_fits briefLease (.claimTask laterClaim) applied hfits happlied
    exact ⟨hfits, applied, record, rfl, hrecord, hbound⟩

end BrokerStateMachine

end AgentBroker
