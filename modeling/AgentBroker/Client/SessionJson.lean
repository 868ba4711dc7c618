import AgentBroker.Client.SessionFile
import AgentBroker.Lib.JsonCodec

/-!
# The JSON of a session store

The record of a session store as it is written to its file: an object with the fields in the
order of their declaration, where what is absent is `null`.  It is read by the names of its
fields, in any order.

Nothing about stores depends on more than that what is written is read back, which
`SessionJson` states and `SessionJson.serdeJson` meets.
-/

open Json

open Json (Tree Value required defaulted)

namespace AgentBroker

/-- How records are written and read: what is written is read back. -/
structure SessionJson where
  toVec : StoredSessionState → Bytes
  fromSlice : Bytes → Except String StoredSessionState
  fromSlice_toVec : ∀ state, fromSlice (toVec state) = .ok state

/-! ## Writing -/

def StoredOwner.write (owner : StoredOwner) : Value :=
  .object [("owner_epoch", ofU64 owner.ownerEpoch),
    ("owner_instance_id", .string owner.ownerInstanceId)]

def StoredPendingOwnerAcquisition.write (pending : StoredPendingOwnerAcquisition) : Value :=
  .object [("expected_owner_epoch", ofU64 pending.expectedOwnerEpoch),
    ("owner_instance_id", .string pending.ownerInstanceId)]

def StoredInFlight.write (inFlight : StoredInFlight) : Value :=
  .object [("owner_epoch", ofU64 inFlight.ownerEpoch),
    ("owner_instance_id", .string inFlight.ownerInstanceId),
    ("sequence", ofU64 inFlight.sequence),
    ("request_frame", .string inFlight.requestFrame)]

def StoredSessionState.write (state : StoredSessionState) : Value :=
  .object [("version", ofU32 state.version),
    ("session_id", .string state.sessionId),
    ("owner", optional StoredOwner.write state.owner),
    ("pending_owner_acquisition",
      optional StoredPendingOwnerAcquisition.write state.pendingOwnerAcquisition),
    ("next_sequence", ofU64 state.nextSequence),
    ("in_flight", optional StoredInFlight.write state.inFlight)]

/-! ## Reading -/

def StoredOwner.read (tree : Tree) : Option StoredOwner := do
  let [ownerEpoch, ownerInstanceId] ←
    tree.fields true ["owner_epoch", "owner_instance_id"] | none
  return ⟨← required readU64 ownerEpoch, ← required Tree.asString ownerInstanceId⟩

def StoredPendingOwnerAcquisition.read (tree : Tree) : Option StoredPendingOwnerAcquisition := do
  let [expectedOwnerEpoch, ownerInstanceId] ←
    tree.fields true ["expected_owner_epoch", "owner_instance_id"] | none
  return ⟨← required readU64 expectedOwnerEpoch, ← required Tree.asString ownerInstanceId⟩

def StoredInFlight.read (tree : Tree) : Option StoredInFlight := do
  let [ownerEpoch, ownerInstanceId, sequence, requestFrame] ←
    tree.fields true ["owner_epoch", "owner_instance_id", "sequence", "request_frame"] | none
  return {
    ownerEpoch := ← required readU64 ownerEpoch
    ownerInstanceId := ← required Tree.asString ownerInstanceId
    sequence := ← required readU64 sequence
    requestFrame := ← required Tree.asString requestFrame }

/-- A field may be missing from an object where it may be `null`, but not from an array. -/
def readOptional {α : Type} (tree : Tree) (read : Tree → Option α) (field : Option Tree) :
    Option (Option α) :=
  match tree with
  | .array _ => required (Tree.asOption read) field
  | _ => defaulted (Tree.asOption read) field

def StoredSessionState.read (tree : Tree) : Option StoredSessionState := do
  let [version, sessionId, owner, pendingOwnerAcquisition, nextSequence, inFlight] ←
    tree.fields true ["version", "session_id", "owner", "pending_owner_acquisition",
      "next_sequence", "in_flight"] | none
  return {
    version := ← required readU32 version
    sessionId := ← required Tree.asString sessionId
    owner := ← readOptional tree StoredOwner.read owner
    pendingOwnerAcquisition :=
      ← readOptional tree StoredPendingOwnerAcquisition.read pendingOwnerAcquisition
    nextSequence := ← required readU64 nextSequence
    inFlight := ← readOptional tree StoredInFlight.read inFlight }

/-! ## What is written is read back -/

@[simp] theorem readOptional_some {α : Type} (tree : Tree) (read : Tree → Option α)
    (field : Tree) : readOptional tree read (some field) = Tree.asOption read field := by
  cases tree <;> rfl

theorem StoredOwner.read_write (owner : StoredOwner) : read owner.write.tree = some owner := by
  rw [read, write, fields_tree_of_nodup (by simp) (by simp)]
  simp [OrdMap.lookup]

theorem StoredPendingOwnerAcquisition.read_write (pending : StoredPendingOwnerAcquisition) :
    read pending.write.tree = some pending := by
  rw [read, write, fields_tree_of_nodup (by simp) (by simp)]
  simp [OrdMap.lookup]

theorem StoredInFlight.read_write (inFlight : StoredInFlight) :
    read inFlight.write.tree = some inFlight := by
  rw [read, write, fields_tree_of_nodup (by simp) (by simp)]
  simp [OrdMap.lookup]

/-- An object is not `null`. -/
theorem asOption_optional {α : Type} {write : α → Value} {read : Tree → Option α}
    (hread : ∀ a, read (write a).tree = some a)
    (hobject : ∀ a, ∃ fields, write a = .object fields) (value : Option α) :
    Tree.asOption read (optional write value).tree = some value := by
  cases value with
  | none => rfl
  | some a =>
    obtain ⟨fields, hfields⟩ := hobject a
    have ha := hread a
    rw [hfields] at ha
    change Tree.asOption read (write a).tree = _
    rw [hfields, Value.tree, Tree.asOption, ← Value.tree, ha, Option.map_some]
    rintro ⟨⟩

theorem StoredSessionState.read_write (state : StoredSessionState) :
    read state.write.tree = some state := by
  have howner := asOption_optional StoredOwner.read_write (fun _ => ⟨_, rfl⟩) state.owner
  have hpending := asOption_optional StoredPendingOwnerAcquisition.read_write
    (fun _ => ⟨_, rfl⟩) state.pendingOwnerAcquisition
  have hinFlight := asOption_optional StoredInFlight.read_write (fun _ => ⟨_, rfl⟩) state.inFlight
  rw [read, write, fields_tree_of_nodup (by simp) (by simp)]
  simp [OrdMap.lookup, howner, hpending, hinFlight]

theorem StoredSessionState.whole_write (state : StoredSessionState) : state.write.Whole := by
  have howner : ∀ owner : StoredOwner, owner.write.Whole := fun owner =>
    .object (by simp [Value.Whole.string, Value.Whole.natural, ofU64])
  have hpending : ∀ pending : StoredPendingOwnerAcquisition, pending.write.Whole := fun pending =>
    .object (by simp [Value.Whole.string, Value.Whole.natural, ofU64])
  have hinFlight : ∀ inFlight : StoredInFlight, inFlight.write.Whole := fun inFlight =>
    .object (by simp [Value.Whole.string, Value.Whole.natural, ofU64])
  exact .object (by simp [Value.Whole.string, Value.Whole.natural, ofU64, ofU32,
    whole_optional howner, whole_optional hpending, whole_optional hinFlight])

/-- **What `serde_json` writes for a record it reads back.** -/
def SessionJson.serdeJson (readError : Bytes → String) : SessionJson where
  toVec state := state.write.compact
  fromSlice bytes :=
    Except.ofOption (readError bytes) ((Json.parse bytes).bind StoredSessionState.read)
  fromSlice_toVec state := by
    have hparse : Json.parse (state.write.compact ++ []) = some state.write.tree :=
      parse_compact state.whole_write (by simp)
    rw [List.append_nil] at hparse
    rw [hparse, Option.bind_some, state.read_write, Except.ofOption_some]

end AgentBroker
