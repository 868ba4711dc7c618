import AgentBroker.Lib.JsonCodec
import AgentBroker.Lib.JsonSize
import AgentBroker.Storage.SnapshotV1

/-!
# The JSON of the wire records

What `serde_json` writes for the records of a snapshot and of the journal: objects with their
fields in the order of the declarations of `snapshot_v1.rs` and `journal_v1.rs`, where an
absent value is `null` and every number is written with its digits.

## The design decisions

* **One layout per record.**  `write` says which fields a record has and in which order.  The
  bytes (`json`) and the codec (`serdeJson`) are both made from it, so a size that is proved
  of the one is a size of what the other writes.
* **Sizes are read off the domain.**  `Task.snapshotBytes` and its siblings take the objects
  of the state machine, not the records that are written for them, so a bound on a state is a
  bound on what its owners put into it: objectives, results, identifiers, counters.  They are
  exact; upper bounds for the journal and the snapshot both start from them.
* **The order does not matter.**  Records are sorted before they are written, and a sum does
  not see it (`length_array_sortByKey`).
* **The theorems about snapshots and journals do not depend on it.**  They hold for any codec
  that reads back what it wrote; the layout is what their instances and the statements about
  lengths need.

## Main results

* `SnapshotWire.serdeJson` — the codec that writes a snapshot as its JSON text.
* `Namespace.length_snapshot`, `Consumer.length_snapshot`, `ConsumerGroup.length_snapshot`,
  `Task.length_snapshot` — what the record of an object takes, from its texts and numbers.
-/

namespace AgentBroker

open Json List

/-! ## Records as values -/

/-- A number of a wire record. -/
def U64.write (n : U64) : Value := ofNat n.get

def NamespaceWire.write (wire : NamespaceWire) : Value :=
  .object [
    ("namespace_id", .string wire.namespaceId),
    ("revision", wire.revision.write)]

def MemberWire.write (wire : MemberWire) : Value :=
  .object [
    ("capabilities", .array (wire.capabilities.map .string)),
    ("joined_at_ms", wire.joinedAtMs.write),
    ("last_heartbeat_at_ms", wire.lastHeartbeatAtMs.write),
    ("member_id", .string wire.memberId),
    ("revision", wire.revision.write)]

def GroupWire.write (wire : GroupWire) : Value :=
  .object [
    ("generation", wire.generation.write),
    ("group_id", .string wire.groupId),
    ("members", .array (wire.members.map MemberWire.write)),
    ("namespace_id", .string wire.namespaceId),
    ("revision", wire.revision.write)]

def TaskWire.write (wire : TaskWire) : Value :=
  .object [
    ("completed_at_ms", optional U64.write wire.completedAtMs),
    ("created_at_ms", wire.createdAtMs.write),
    ("lease_epoch", wire.leaseEpoch.write),
    ("lease_expires_at_ms", optional U64.write wire.leaseExpiresAtMs),
    ("lease_generation", optional U64.write wire.leaseGeneration),
    ("lease_group_id", optional .string wire.leaseGroupId),
    ("lease_id", optional .string wire.leaseId),
    ("lease_owner_member_id", optional .string wire.leaseOwnerMemberId),
    ("namespace_id", .string wire.namespaceId),
    ("objective", .string wire.objective),
    ("result", optional .string wire.result),
    ("revision", wire.revision.write),
    ("status", .string wire.status),
    ("task_id", .string wire.taskId)]

def SnapshotWire.write (wire : SnapshotWire) : Value :=
  .object [
    ("groups", .array (wire.groups.map GroupWire.write)),
    ("namespaces", .array (wire.namespaces.map NamespaceWire.write)),
    ("revision", wire.revision.write),
    ("schema_version", wire.schemaVersion.write),
    ("tasks", .array (wire.tasks.map TaskWire.write)),
    ("term", wire.term.write)]

/-! ## No value stands for two records -/

theorem U64.get_injective : Function.Injective U64.get := by
  rintro ⟨a, _⟩ ⟨b, _⟩ h
  cases h
  rfl

theorem U64.write_injective : Function.Injective U64.write :=
  fun _ _ h => U64.get_injective (ofNat_inj.mp h)

theorem string_injective : Function.Injective Value.string := fun _ _ => Value.string.inj

@[simp] theorem U64.whole_write (n : U64) : n.write.Whole := whole_ofNat _

/-- A number is not `null`. -/
theorem U64.notNull_write : NotNull U64.write := by
  intro n h
  unfold U64.write ofNat at h
  split at h <;> cases h

theorem notNull_string : NotNull Value.string := fun _ h => by cases h

@[simp] theorem U64.write_inj {a b : U64} : a.write = b.write ↔ a = b := write_injective.eq_iff

@[simp] theorem optional_number_inj {a b : Option U64} :
    optional U64.write a = optional U64.write b ↔ a = b :=
  (optional_injective U64.write_injective U64.notNull_write).eq_iff

@[simp] theorem optional_string_inj {a b : Option String} :
    optional Value.string a = optional Value.string b ↔ a = b :=
  (optional_injective string_injective notNull_string).eq_iff

theorem NamespaceWire.write_injective : Function.Injective NamespaceWire.write := by
  rintro ⟨⟩ ⟨⟩ h
  simpa [write] using h

theorem MemberWire.write_injective : Function.Injective MemberWire.write := by
  rintro ⟨⟩ ⟨⟩ h
  simpa [write, (List.map_injective_iff.mpr string_injective).eq_iff] using h

theorem GroupWire.write_injective : Function.Injective GroupWire.write := by
  rintro ⟨⟩ ⟨⟩ h
  simpa [write, (List.map_injective_iff.mpr MemberWire.write_injective).eq_iff] using h

theorem TaskWire.write_injective : Function.Injective TaskWire.write := by
  rintro ⟨⟩ ⟨⟩ h
  simpa [write] using h

theorem SnapshotWire.write_injective : Function.Injective SnapshotWire.write := by
  rintro ⟨⟩ ⟨⟩ h
  simpa [write, (List.map_injective_iff.mpr GroupWire.write_injective).eq_iff,
    (List.map_injective_iff.mpr NamespaceWire.write_injective).eq_iff,
    (List.map_injective_iff.mpr TaskWire.write_injective).eq_iff] using h

/-! ## All numbers are natural -/

theorem NamespaceWire.whole_write (wire : NamespaceWire) : wire.write.Whole :=
  .object (by simp [Value.Whole.string])

theorem MemberWire.whole_write (wire : MemberWire) : wire.write.Whole :=
  .object (by simp [Value.Whole.string, whole_map_array Value.Whole.string])

theorem GroupWire.whole_write (wire : GroupWire) : wire.write.Whole :=
  .object (by simp [Value.Whole.string, whole_map_array MemberWire.whole_write])

theorem TaskWire.whole_write (wire : TaskWire) : wire.write.Whole :=
  .object (by simp [Value.Whole.string, whole_optional Value.Whole.string,
    whole_optional U64.whole_write])

theorem SnapshotWire.whole_write (wire : SnapshotWire) : wire.write.Whole :=
  .object (by simp [whole_map_array GroupWire.whole_write, whole_map_array TaskWire.whole_write,
    whole_map_array NamespaceWire.whole_write])

/-- **A snapshot is written as its JSON text** and read back from it. -/
noncomputable def SnapshotWire.serdeJson : Codec SnapshotWire :=
  Writer.codec ⟨SnapshotWire.write, SnapshotWire.whole_write, SnapshotWire.write_injective⟩

/-! ## The bytes of a record -/

def NamespaceWire.json (wire : NamespaceWire) : Bytes := wire.write.compact

def MemberWire.json (wire : MemberWire) : Bytes := wire.write.compact

def GroupWire.json (wire : GroupWire) : Bytes := wire.write.compact

def TaskWire.json (wire : TaskWire) : Bytes := wire.write.compact

def SnapshotWire.json (wire : SnapshotWire) : Bytes := wire.write.compact

/-! ## The size of a record -/

/-- What `null` takes. -/
def nullBytes : Nat := 4

/-- What a value takes, or `null` in its place. -/
def nullable {α : Type} (size : α → Nat) (value : Option α) : Nat := (value.map size).getD nullBytes

def Namespace.snapshotBytes (ns : Namespace) : Nat :=
  objectBytes [
    ("namespace_id", textBytes ns.id.asStr),
    ("revision", digitCount ns.revision.get)]

def Consumer.snapshotBytes (consumer : Consumer) : Nat :=
  objectBytes [
    ("capabilities", arrayBytes ((consumer.capabilities.asSlice.map Capability.asStr).map textBytes)),
    ("joined_at_ms", digitCount consumer.joinedAtMs.get),
    ("last_heartbeat_at_ms", digitCount consumer.lastHeartbeatAtMs.get),
    ("member_id", textBytes consumer.id.asStr),
    ("revision", digitCount consumer.revision.get)]

def ConsumerGroup.snapshotBytes (group : ConsumerGroup) : Nat :=
  objectBytes [
    ("generation", digitCount group.generation.get),
    ("group_id", textBytes group.id.asStr),
    ("members", arrayBytes (group.consumers.values.map Consumer.snapshotBytes)),
    ("namespace_id", textBytes group.namespaceId.asStr),
    ("revision", digitCount group.revision.get)]

/-- The fields that depend on how far a task has come. -/
def TaskState.snapshotFields : TaskState → List (String × Nat)
  | .queued payload => [
      ("completed_at_ms", nullBytes),
      ("lease_epoch", digitCount payload.leaseEpoch.get),
      ("lease_expires_at_ms", nullBytes),
      ("lease_generation", nullBytes),
      ("lease_group_id", nullBytes),
      ("lease_id", nullBytes),
      ("lease_owner_member_id", nullBytes),
      ("result", nullBytes),
      ("status", textBytes "queued")]
  | .leased payload => [
      ("completed_at_ms", nullBytes),
      ("lease_epoch", digitCount payload.leaseEpoch.get),
      ("lease_expires_at_ms", digitCount payload.expiresAtMs.get),
      ("lease_generation", digitCount payload.generation.get),
      ("lease_group_id", textBytes payload.groupId.asStr),
      ("lease_id", textBytes payload.leaseId.asStr),
      ("lease_owner_member_id", textBytes payload.ownerMemberId.asStr),
      ("result", nullBytes),
      ("status", textBytes "leased")]
  | .completed payload => [
      ("completed_at_ms", digitCount payload.completedAtMs.get),
      ("lease_epoch", digitCount payload.leaseEpoch.get),
      ("lease_expires_at_ms", nullBytes),
      ("lease_generation", digitCount payload.generation.get),
      ("lease_group_id", textBytes payload.groupId.asStr),
      ("lease_id", textBytes payload.leaseId.asStr),
      ("lease_owner_member_id", textBytes payload.ownerMemberId.asStr),
      ("result", textBytes payload.result.asStr),
      ("status", textBytes "completed")]

def Task.snapshotBytes (task : Task) : Nat :=
  objectBytes (task.state.snapshotFields ++ [
    ("created_at_ms", digitCount task.createdAtMs.get),
    ("namespace_id", textBytes task.namespaceId.asStr),
    ("objective", textBytes task.objective.asStr),
    ("revision", digitCount task.revision.get),
    ("task_id", textBytes task.id.asStr)])

theorem length_compact_ofNat (n : Nat) : (ofNat n).compact.length = digitCount n := by
  rw [compact_ofNat, length_number]

theorem U64.length_write (n : U64) : n.write.compact.length = digitCount n.get :=
  length_compact_ofNat n.get

theorem length_compact_optional {α : Type} {write : α → Value} {size : α → Nat}
    (h : ∀ a, (write a).compact.length = size a) (value : Option α) :
    (optional write value).compact.length = nullable size value := by
  cases value with
  | none => rfl
  | some a => exact h a

/-- Records take the same in every order. -/
theorem length_array_sortByKey {ν α β : Type} (wireId : β → String) {checkpoint : ν → α}
    {toWire : α → β} {write : β → Value} {size : ν → Nat}
    (h : ∀ value, (write (toWire (checkpoint value))).compact.length = size value)
    (values : List ν) :
    (Value.array ((((values.map checkpoint).map toWire).sortByKey wireId).map
      write)).compact.length = arrayBytes (values.map size) := by
  have hsorted : (((values.map checkpoint).map toWire).sortByKey wireId).Perm _ :=
    sortByKey_perm _
  have hperm := (hsorted.map write).map fun value => value.compact.length
  rw [compact_array, length_array, List.map_map]
  simp only [Function.comp_def]
  rw [arrayBytes, arrayBytes, hperm.sum_eq, hperm.length_eq]
  simp only [List.map_map, Function.comp_def, h, length_map]

theorem Namespace.length_snapshot (ns : Namespace) :
    (namespaceToWire ns.checkpoint).json.length = ns.snapshotBytes := by
  rw [NamespaceWire.json, NamespaceWire.write, length_compact_fields (by simp only [List.map]; decide +kernel)]
  simp only [map_cons, map_nil, length_compact_text, U64.length_write]
  rfl

theorem Consumer.length_snapshot (consumer : Consumer) :
    (memberToWire consumer.checkpoint).json.length = consumer.snapshotBytes := by
  rw [MemberWire.json, MemberWire.write, length_compact_fields (by simp only [List.map]; decide +kernel)]
  simp only [map_cons, map_nil, length_compact_text, length_compact_texts, U64.length_write]
  rfl

theorem ConsumerGroup.length_snapshot (group : ConsumerGroup) :
    (groupToWire group.checkpoint).json.length = group.snapshotBytes := by
  rw [GroupWire.json, GroupWire.write, length_compact_fields (by simp only [List.map]; decide +kernel)]
  have hmembers := length_array_sortByKey MemberWire.memberId
    Consumer.length_snapshot group.consumers.values
  simp only [map_cons, map_nil, length_compact_text, U64.length_write]
  rw [ConsumerGroup.snapshotBytes, ← hmembers]
  rfl

/-- The fields of a task, those that depend on its state first. -/
theorem objectBytes_rotated (a b c d e f g h i j k l m n : String × Nat) :
    objectBytes [a, b, c, d, e, f, g, h, i, j, k, l, m, n] =
      objectBytes ([a, c, d, e, f, g, h, k, m] ++ [b, i, j, l, n]) := by
  simp only [objectBytes, cons_append, nil_append, map_cons, map_nil, sum_cons, sum_nil,
    length_cons, length_nil]
  omega

theorem Task.length_snapshot (task : Task) :
    (taskToWire task.checkpoint).json.length = task.snapshotBytes := by
  obtain ⟨id, namespaceId, objective, createdAtMs, revision, state⟩ := task
  rw [TaskWire.json, TaskWire.write, length_compact_fields (by simp only [List.map]; decide +kernel)]
  simp only [map_cons, map_nil, length_compact_text, U64.length_write,
    length_compact_optional length_compact_text, length_compact_optional U64.length_write]
  rw [objectBytes_rotated]
  cases state <;> rfl

end AgentBroker
