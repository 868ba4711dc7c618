import AgentBroker.Storage.SnapshotV1
import AgentBroker.Consensus.DirectPath
import AgentBroker.Consensus.ExactlyOnce

/-!
# Consensus snapshots

A snapshot of the replicated state machine is one byte string (`raft_state_machine.rs`):
a header with two lengths, the Broker snapshot, and a sidecar with the session table.
Decoding revalidates everything, the stored commands and answers included, and rewrites
the disposition of stored errors; so that a snapshot reads back as it was rests on what
applying proposals can store (`Storable`).

Indexing outside a slice and allocating too much are panics in the source.  They are
faults of their own here, beside the `io::Error`s.

## Main results

* `run_storable` — every log leaves a state that can be stored.
* `decodeFrame_frame`, `decodeFrame_cases` — the framing, in both directions.
* `consensus_snapshot_round_trip` — snapshots read back as they were; decoding stays in
  bounds and accounts for every byte.
-/

namespace AgentBroker

open Except hiding error
open OrdMap List BrokerStateMachine

/-- How coding a snapshot can fail: an `io::Error` of kind `InvalidData`, or a panic. -/
inductive SnapshotFault where
  | invalidData (message : String)
  | outOfBounds
  | capacityOverflow
  deriving DecidableEq, Repr

/-- `invalid_snapshot_data` on a fallible step. -/
def invalidSnapshotData {ε α : Type} (display : ε → String) (x : Except ε α) :
    Except SnapshotFault α :=
  x.mapError fun error => .invalidData (display error)

@[simp] theorem invalidSnapshotData_ok {ε α : Type} (display : ε → String) (a : α) :
    invalidSnapshotData display (.ok a) = .ok a := rfl

/-! ## The sidecar -/

structure CommandSessionSnapshotRecordV1 where
  sessionId : String
  ownerEpoch : U64
  ownerInstanceId : Option String
  sequence : Option U64
  command : Option ReplicatedBrokerCommandV1
  response : Option ReplicatedBrokerResponseV1
  deriving DecidableEq, Repr

structure CommandSessionsSnapshotV1 where
  version : UInt32
  records : List CommandSessionSnapshotRecordV1
  deriving DecidableEq, Repr

/-- `CONSENSUS_SNAPSHOT_VERSION`. -/
def consensusSnapshotVersion : UInt32 := 1

/-- The record that `encode_consensus_snapshot` writes for a session. -/
def encodeCommandSessionRecord (entry : CommandSessionId × CommandSessionRecord) :
    CommandSessionSnapshotRecordV1 where
  sessionId := entry.1.asStr
  ownerEpoch := entry.2.ownerEpoch.toU64
  ownerInstanceId := entry.2.ownerInstanceId.map SessionText.asStr
  sequence := entry.2.lastOutcome.map fun outcome => outcome.sequence.toU64
  command := entry.2.lastOutcome.map CommandSessionOutcome.command
  response := entry.2.lastOutcome.map CommandSessionOutcome.response

/-- The sidecar of a session table. -/
def commandSessionsSnapshot (sessions : OrdMap CommandSessionId CommandSessionRecord) :
    CommandSessionsSnapshotV1 :=
  ⟨consensusSnapshotVersion, sessions.entries.map encodeCommandSessionRecord⟩

/-- `decode_command_session_outcome`. -/
def decodeCommandSessionOutcome :
    Option U64 → Option ReplicatedBrokerCommandV1 → Option ReplicatedBrokerResponseV1 →
      Except SnapshotFault (Option CommandSessionOutcome)
  | none, none, none => .ok none
  | some sequence, some command, some response => do
      let sequence ← invalidSnapshotData CommandIdentityError.display (SessionCounter.new sequence)
      let _ ← invalidSnapshotData ReplicatedCommandError.message command.toBrokerCommand
      let response := response.normalizeStoredSessionOutcome
      let _ ← invalidSnapshotData ReplicatedResponseError.message response.intoApplicationResult
      return some ⟨sequence, command, response⟩
  | _, _, _ => .error (.invalidData
      "command session snapshot outcome fields must be all present or all absent")

/-- `owner_instance_id.map(SessionOwnerInstanceId::new).transpose()`. -/
def decodeOwnerInstance : Option String → Except SnapshotFault (Option SessionOwnerInstanceId)
  | none => .ok none
  | some owner => some <$> invalidSnapshotData CommandIdentityError.display (SessionText.new owner)

/-- One round of the loop of `decode_command_session_records`. -/
def decodeCommandSessionRecord (sessions : OrdMap CommandSessionId CommandSessionRecord)
    (record : CommandSessionSnapshotRecordV1) :
    Except SnapshotFault (OrdMap CommandSessionId CommandSessionRecord) := do
  let sessionId ← invalidSnapshotData CommandIdentityError.display
    (SessionText.new record.sessionId)
  let ownerEpoch ← invalidSnapshotData CommandIdentityError.display
    (SessionCounter.new record.ownerEpoch)
  let ownerInstanceId ← decodeOwnerInstance record.ownerInstanceId
  let lastOutcome ← decodeCommandSessionOutcome record.sequence record.command record.response
  Except.require (sessions.get sessionId = none)
    (.invalidData "command session snapshot contains duplicate session_id")
  return sessions.insert sessionId ⟨ownerEpoch, ownerInstanceId, lastOutcome⟩

/-- `decode_command_session_records`. -/
def decodeCommandSessionRecords (records : List CommandSessionSnapshotRecordV1) :
    Except SnapshotFault (OrdMap CommandSessionId CommandSessionRecord) :=
  records.foldlM decodeCommandSessionRecord ∅

/-- The checks of `decode_consensus_snapshot` on the sidecar, and its records. -/
def decodeSidecar (sidecar : CommandSessionsSnapshotV1) :
    Except SnapshotFault (OrdMap CommandSessionId CommandSessionRecord) := do
  Except.require (sidecar.version = consensusSnapshotVersion)
    (.invalidData ("unsupported command session snapshot version " ++ toString sidecar.version))
  Except.require (sidecar.records.length ≤ maxCommandSessions)
    (.invalidData ("command session snapshot exceeds capacity " ++ toString maxCommandSessions))
  decodeCommandSessionRecords sidecar.records

/-! ## The frame -/

/-- `CONSENSUS_SNAPSHOT_MAGIC`: `ABCSNP01`. -/
def consensusSnapshotMagic : Bytes := [65, 66, 67, 83, 78, 80, 48, 49]

/-- `CONSENSUS_SNAPSHOT_HEADER_BYTES`. -/
def consensusSnapshotHeaderBytes : Nat := 8 + 4 + 8 + 8

/-- `isize::MAX`: no allocation is larger. -/
def isizeMax : Nat := 2 ^ 63 - 1

/-- `usize::checked_add`. -/
def checkedAdd (a b : Nat) (message : String) : Except SnapshotFault Nat := do
  Except.require (a + b < u64Size) (.invalidData message)
  return a + b

/-- The bytes of a consensus snapshot. -/
def frame (broker sidecar : Bytes) : Bytes :=
  consensusSnapshotMagic ++ Bytes.ofNatBE 4 consensusSnapshotVersion.toNat ++
    Bytes.ofNatBE 8 broker.length ++ Bytes.ofNatBE 8 sidecar.length ++ broker ++ sidecar

/-- The capacity that the buffer of a snapshot is allocated with. -/
def frameCapacity (broker sidecar : Bytes) : Nat :=
  saturatingAdd (saturatingAdd (saturatingAdd (saturatingAdd (saturatingAdd
    consensusSnapshotMagic.length 4) 8) 8) broker.length) sidecar.length

/-- The end of `encode_consensus_snapshot`: the two lengths, the buffer, the bytes. -/
def encodeFrame (broker sidecar : Bytes) : Except SnapshotFault Bytes := do
  Except.require (broker.length < u64Size)
    (.invalidData "Broker snapshot length exceeds u64")
  Except.require (sidecar.length < u64Size)
    (.invalidData "command session snapshot length exceeds u64")
  -- `Vec::with_capacity` panics on what no allocation can hold.
  Except.require (frameCapacity broker sidecar ≤ isizeMax) SnapshotFault.capacityOverflow
  return frame broker sidecar

/-- `data[start..stop]`, which panics out of range. -/
def sliceOf (data : Bytes) (start stop : Nat) : Except SnapshotFault Bytes :=
  .ofOption .outOfBounds (data.slice start stop)

/-- `from_be_bytes(data[start..stop].try_into()?)`. -/
def headerField (data : Bytes) (start stop : Nat) (message : String) :
    Except SnapshotFault Nat := do
  let bytes ← sliceOf data start stop
  Except.require (bytes.length = stop - start) (.invalidData message)
  return bytes.toNatBE

/-- The middle of `decode_consensus_snapshot`: the header of data that starts with the
magic, and the two parts it announces. -/
def decodeFrame (data : Bytes) : Except SnapshotFault (Bytes × Bytes) := do
  Except.require (consensusSnapshotHeaderBytes ≤ data.length)
    (.invalidData "consensus snapshot header is truncated")
  let version ← headerField data 8 12 "invalid consensus snapshot version bytes"
  Except.require (version = consensusSnapshotVersion.toNat)
    (.invalidData ("unsupported consensus snapshot version " ++ toString version))
  let brokerLen ← headerField data 12 20 "invalid Broker snapshot length bytes"
  let sidecarLen ← headerField data 20 28 "invalid command session length bytes"
  let brokerEnd ← checkedAdd consensusSnapshotHeaderBytes brokerLen
    "consensus snapshot Broker length overflow"
  let expectedEnd ← checkedAdd brokerEnd sidecarLen "consensus snapshot sidecar length overflow"
  Except.require (expectedEnd = data.length)
    (.invalidData "consensus snapshot length fields do not match payload length")
  let broker ← sliceOf data consensusSnapshotHeaderBytes brokerEnd
  let sidecar ← sliceOf data brokerEnd data.length
  return (broker, sidecar)

/-! ## Snapshots -/

/-- What a snapshot decodes to. -/
structure DecodedConsensusSnapshot where
  checkpoint : BrokerCheckpoint
  commandSessions : OrdMap CommandSessionId CommandSessionRecord
  deriving DecidableEq

section Codecs

variable (json : Codec SnapshotWire) (sidecarJson : Codec CommandSessionsSnapshotV1)

/-- `encode_consensus_snapshot`. -/
def encodeConsensusSnapshot (checkpoint : BrokerCheckpoint)
    (sessions : OrdMap CommandSessionId CommandSessionRecord) : Except SnapshotFault Bytes :=
  encodeFrame (encodeSnapshot json checkpoint)
    (sidecarJson.toVec (commandSessionsSnapshot sessions))

/-- `decode_checkpoint`. -/
def decodeCheckpoint (data : Bytes) : Except SnapshotFault BrokerCheckpoint := do
  let checkpoint ← invalidSnapshotData StorageError.display (decodeSnapshot json data)
  let _ ← invalidSnapshotData CheckpointError.display
    (BrokerStateMachine.fromCheckpoint checkpoint)
  return checkpoint

/-- `decode_consensus_snapshot`: data without the magic is a bare Broker snapshot. -/
def decodeConsensusSnapshot (data : Bytes) : Except SnapshotFault DecodedConsensusSnapshot :=
  if consensusSnapshotMagic.isPrefixOf data then do
    let (broker, sidecar) ← decodeFrame data
    let checkpoint ← decodeCheckpoint json broker
    let sidecar ← invalidSnapshotData (fun error => error) (sidecarJson.fromSlice sidecar)
    return ⟨checkpoint, ← decodeSidecar sidecar⟩
  else do
    return ⟨← decodeCheckpoint json data, ∅⟩

end Codecs

/-! ## Framing -/

theorem sliceOf_eq_ok {data : Bytes} {start stop : Nat} (hstart : start ≤ stop)
    (hstop : stop ≤ data.length) :
    sliceOf data start stop = .ok ((data.drop start).take (stop - start)) := by
  rw [sliceOf, Bytes.slice_of_le hstart hstop]
  rfl

/-- The number that `width` bytes at `start` stand for. -/
def fieldAt (data : Bytes) (start width : Nat) : Nat :=
  Bytes.toNatBE ((data.drop start).take width)

theorem headerField_eq_ok {data : Bytes} {start stop : Nat} (hstart : start ≤ stop)
    (hstop : stop ≤ data.length) (message : String) :
    headerField data start stop message = .ok (fieldAt data start (stop - start)) := by
  have hlen : ((data.drop start).take (stop - start)).length = stop - start := by
    rw [length_take, length_drop]
    omega
  rw [headerField, sliceOf_eq_ok hstart hstop, ok_bind, require_pos hlen]
  rfl

/-- `checked_add` of numbers whose sum is a `usize`. -/
theorem checkedAdd_eq_ok {a b : Nat} (h : a + b < u64Size) (message : String) :
    checkedAdd a b message = .ok (a + b) := by
  rw [checkedAdd, require_pos h]
  rfl

/-- The header of a frame: the version, and two lengths that account for all of the
data. -/
structure Framed (data : Bytes) : Prop where
  header : consensusSnapshotHeaderBytes ≤ data.length
  version : fieldAt data 8 4 = consensusSnapshotVersion.toNat
  lengths : consensusSnapshotHeaderBytes + fieldAt data 12 8 + fieldAt data 20 8 = data.length

/-- What a frame with this header contains. -/
def parts (data : Bytes) : Bytes × Bytes :=
  let brokerEnd := consensusSnapshotHeaderBytes + fieldAt data 12 8
  ((data.drop consensusSnapshotHeaderBytes).take (fieldAt data 12 8),
    (data.drop brokerEnd).take (data.length - brokerEnd))

/-- **Everything reading a frame can do.**  The parts are read only when the lengths
account for all of the data, so they are in range. -/
theorem decodeFrame_cases (data : Bytes) :
    (¬(Framed data ∧ data.length < u64Size) ∧
      ∃ message, decodeFrame data = .error (.invalidData message)) ∨
    (Framed data ∧ decodeFrame data = .ok (parts data)) := by
  unfold decodeFrame
  by_cases hheader : consensusSnapshotHeaderBytes ≤ data.length
  swap
  · rw [require_neg hheader]
    exact Or.inl ⟨fun h => hheader h.1.header, _, rfl⟩
  have hlen : 28 ≤ data.length := hheader
  rw [require_pos hheader, ok_bind, headerField_eq_ok (by decide) (by omega), ok_bind]
  by_cases hversion : fieldAt data 8 (12 - 8) = consensusSnapshotVersion.toNat
  swap
  · rw [require_neg hversion]
    exact Or.inl ⟨fun h => hversion h.1.version, _, rfl⟩
  rw [require_pos hversion, ok_bind, headerField_eq_ok (by decide) (by omega),
    ok_bind, headerField_eq_ok (by decide) (by omega), ok_bind]
  -- Neither sum overflows when it is the length of the data.
  by_cases hbroker : consensusSnapshotHeaderBytes + fieldAt data 12 (20 - 12) < u64Size
  swap
  · rw [checkedAdd, require_neg hbroker]
    refine Or.inl ⟨fun h => hbroker ?_, _, rfl⟩
    exact lt_of_le_of_lt (Nat.le_add_right _ _) (h.1.lengths ▸ h.2)
  rw [checkedAdd_eq_ok hbroker, ok_bind]
  by_cases hsidecar : consensusSnapshotHeaderBytes + fieldAt data 12 (20 - 12) +
      fieldAt data 20 (28 - 20) < u64Size
  swap
  · rw [checkedAdd, require_neg hsidecar]
    exact Or.inl ⟨fun h => hsidecar (h.1.lengths ▸ h.2), _, rfl⟩
  rw [checkedAdd_eq_ok hsidecar, ok_bind]
  by_cases hlengths : consensusSnapshotHeaderBytes + fieldAt data 12 (20 - 12) +
      fieldAt data 20 (28 - 20) = data.length
  swap
  · rw [require_neg hlengths]
    exact Or.inl ⟨fun h => hlengths h.1.lengths, _, rfl⟩
  -- Both slices are in range because the lengths add up.
  have hend : consensusSnapshotHeaderBytes + fieldAt data 12 (20 - 12) ≤ data.length :=
    hlengths ▸ Nat.le_add_right _ _
  rw [require_pos hlengths, ok_bind, sliceOf_eq_ok (Nat.le_add_right _ _) hend,
    ok_bind, sliceOf_eq_ok hend le_rfl, ok_bind]
  refine Or.inr ⟨⟨hheader, hversion, hlengths⟩, ?_⟩
  rw [Nat.add_sub_cancel_left]
  rfl

section Frame

variable {broker sidecar : Bytes}

theorem length_frame (broker sidecar : Bytes) : (frame broker sidecar).length =
    consensusSnapshotHeaderBytes + broker.length + sidecar.length := by
  simp only [frame, length_append, Bytes.length_ofNatBE, consensusSnapshotMagic,
    consensusSnapshotHeaderBytes, length_cons, length_nil]

theorem fieldAt_frame_version (broker sidecar : Bytes) :
    fieldAt (frame broker sidecar) 8 4 = consensusSnapshotVersion.toNat := by
  unfold fieldAt frame
  rw [append_assoc, append_assoc, append_assoc, append_assoc,
    Bytes.take_drop_middle (by rfl) (Bytes.length_ofNatBE _ _),
    Bytes.toNatBE_ofNatBE (by decide)]

theorem fieldAt_frame_broker (h : broker.length < 256 ^ 8) :
    fieldAt (frame broker sidecar) 12 8 = broker.length := by
  unfold fieldAt frame
  rw [append_assoc, append_assoc, append_assoc,
    Bytes.take_drop_middle (by simp [consensusSnapshotMagic]) (Bytes.length_ofNatBE _ _),
    Bytes.toNatBE_ofNatBE h]

theorem fieldAt_frame_sidecar (h : sidecar.length < 256 ^ 8) :
    fieldAt (frame broker sidecar) 20 8 = sidecar.length := by
  unfold fieldAt frame
  rw [append_assoc, append_assoc,
    Bytes.take_drop_middle (by simp [consensusSnapshotMagic]) (Bytes.length_ofNatBE _ _),
    Bytes.toNatBE_ofNatBE h]

/-- The parts of a frame are what was framed. -/
theorem parts_frame (h : broker.length < 256 ^ 8) :
    parts (frame broker sidecar) = (broker, sidecar) := by
  have hheader : (consensusSnapshotMagic ++ Bytes.ofNatBE 4 consensusSnapshotVersion.toNat ++
      Bytes.ofNatBE 8 broker.length ++ Bytes.ofNatBE 8 sidecar.length).length =
        consensusSnapshotHeaderBytes := by
    simp [consensusSnapshotMagic, consensusSnapshotHeaderBytes]
  unfold parts
  rw [fieldAt_frame_broker h, length_frame]
  unfold frame
  refine Prod.ext ?_ ?_
  · rw [append_assoc]
    exact Bytes.take_drop_middle hheader rfl
  · dsimp only
    rw [drop_left' (by rw [length_append, hheader]), Nat.add_sub_cancel_left, take_length]

/-- **A frame reads back as its parts.** -/
theorem decodeFrame_frame
    (h : consensusSnapshotHeaderBytes + broker.length + sidecar.length < u64Size) :
    decodeFrame (frame broker sidecar) = .ok (broker, sidecar) := by
  have hsize : u64Size = 256 ^ 8 := by norm_num
  have hbroker : broker.length < 256 ^ 8 := by omega
  have hsidecar : sidecar.length < 256 ^ 8 := by omega
  have hframed : Framed (frame broker sidecar) := by
    refine ⟨?_, fieldAt_frame_version broker sidecar, ?_⟩
    · rw [length_frame]
      omega
    · rw [fieldAt_frame_broker hbroker, fieldAt_frame_sidecar hsidecar, length_frame]
  rcases decodeFrame_cases (frame broker sidecar) with ⟨hnot, -⟩ | ⟨-, hok⟩
  · exact absurd ⟨hframed, by rwa [length_frame]⟩ hnot
  · rw [hok, parts_frame hbroker]

theorem encodeFrame_eq_ok
    (h : consensusSnapshotHeaderBytes + broker.length + sidecar.length ≤ isizeMax) :
    encodeFrame broker sidecar = .ok (frame broker sidecar) := by
  have hmax : isizeMax < u64Size - 1 := by decide
  have hbroker : broker.length < u64Size := by omega
  have hsidecar : sidecar.length < u64Size := by omega
  have hcapacity : frameCapacity broker sidecar ≤ isizeMax := by
    refine le_trans (min_le_left _ _) (le_trans ?_ h)
    refine Nat.add_le_add_right (le_trans (min_le_left _ _) ?_) _
    exact Nat.add_le_add_right (by decide) _
  rw [encodeFrame, require_pos hbroker, ok_bind, require_pos hsidecar,
    ok_bind, require_pos hcapacity]
  rfl

end Frame

/-! ## What is stored -/

/-- An outcome that decoding accepts and keeps as it is. -/
structure CommandSessionOutcome.Storable (outcome : CommandSessionOutcome) : Prop where
  command : ∃ c, outcome.command.toBrokerCommand = .ok c
  response : ∃ result, outcome.response.intoApplicationResult = .ok result
  normal : outcome.response.normalizeStoredSessionOutcome = outcome.response

theorem decodeCommandSessionOutcome_storable {outcome : CommandSessionOutcome}
    (h : outcome.Storable) :
    decodeCommandSessionOutcome (some outcome.sequence.toU64) (some outcome.command)
      (some outcome.response) = .ok (some outcome) := by
  obtain ⟨c, hcommand⟩ := h.command
  obtain ⟨result, hresponse⟩ := h.response
  simp only [decodeCommandSessionOutcome, SessionCounter.new_toU64, invalidSnapshotData_ok,
    ok_bind, hcommand, h.normal, hresponse]
  rfl

/-- A record of which the outcome, if any, is storable. -/
def CommandSessionRecord.Storable (record : CommandSessionRecord) : Prop :=
  ∀ outcome, record.lastOutcome = some outcome → outcome.Storable

/-- One record is read back. -/
theorem decodeCommandSessionRecord_encode {sessions : OrdMap CommandSessionId CommandSessionRecord}
    {session : CommandSessionId} {record : CommandSessionRecord} (h : record.Storable)
    (hfresh : sessions.get session = none) :
    decodeCommandSessionRecord sessions (encodeCommandSessionRecord (session, record)) =
      .ok (sessions.insert session record) := by
  obtain ⟨epoch, owner, last⟩ := record
  have howner : decodeOwnerInstance (owner.map SessionText.asStr) = .ok owner := by
    cases owner with
    | none => rfl
    | some owner =>
      show some <$> invalidSnapshotData CommandIdentityError.display
        (SessionText.new owner.asStr) = .ok (some owner)
      rw [SessionText.new_asStr]
      rfl
  have hlast : decodeCommandSessionOutcome (last.map fun outcome => outcome.sequence.toU64)
      (last.map CommandSessionOutcome.command) (last.map CommandSessionOutcome.response) =
        .ok last := by
    cases last with
    | none => rfl
    | some outcome => exact decodeCommandSessionOutcome_storable (h outcome rfl)
  simp only [decodeCommandSessionRecord, encodeCommandSessionRecord, SessionText.new_asStr,
    SessionCounter.new_toU64, invalidSnapshotData_ok, ok_bind, howner, hlast,
    require_pos hfresh]
  rfl

/-- **The session table is read back**, if its records are storable. -/
theorem decodeCommandSessionRecords_encode
    {sessions : OrdMap CommandSessionId CommandSessionRecord}
    (h : ∀ session record, sessions.get session = some record → record.Storable) :
    decodeCommandSessionRecords (sessions.entries.map encodeCommandSessionRecord) =
      .ok sessions := by
  -- Before each round the table holds exactly the records already read.
  have hloop : ∀ (entries : List (CommandSessionId × CommandSessionRecord)) table,
      (∀ entry ∈ entries, entry.2.Storable) → (entries.map Prod.fst).Nodup →
      (∀ entry ∈ entries, table.get entry.1 = none) →
      (entries.map encodeCommandSessionRecord).foldlM decodeCommandSessionRecord table =
        .ok (table.insertAll entries) := by
    intro entries
    induction entries with
    | nil =>
      intro table _ _ _
      rfl
    | cons entry rest ih =>
      intro table hstorable hnodup hfresh
      obtain ⟨session, record⟩ := entry
      rw [map_cons, nodup_cons] at hnodup
      have hread := decodeCommandSessionRecord_encode
        (hstorable _ mem_cons_self) (hfresh _ mem_cons_self)
      rw [map_cons, foldlM_cons, hread, ok_bind]
      refine ih _ (fun entry hentry => hstorable entry (mem_cons_of_mem _ hentry))
        hnodup.2 fun entry hentry => ?_
      have hne : entry.1 ≠ session := fun heq =>
        hnodup.1 (List.mem_map.mpr ⟨entry, hentry, heq⟩)
      rw [get_insert_of_ne _ _ hne]
      exact hfresh entry (mem_cons_of_mem _ hentry)
  have hread := hloop sessions.entries ∅
    (fun entry hentry => h entry.1 entry.2 (get_eq_some_iff.mpr hentry))
    sessions.keys_nodup fun _ _ => rfl
  rwa [insertAll_entries] at hread

namespace SessionedBroker

/-- **What applying proposals leaves behind** can be stored: exact indexes, a bounded table,
and outcomes that decoding accepts and keeps. -/
structure Storable (s : SessionedBroker) : Prop where
  indexed : s.broker.Indexed
  bounded : s.commandSessions.size ≤ maxCommandSessions
  records : ∀ session record, s.commandSessions.get session = some record → record.Storable

theorem initial_storable : initial.Storable where
  indexed := initial_indexed
  bounded := Nat.zero_le _
  records := fun _ _ h => nomatch h

variable {s : SessionedBroker}

/-- The answer to an applied command is a result, or an error that was committed. -/
theorem applicationResponse_storable (s : SessionedBroker) (c : BrokerCommand) :
    (∃ result, (s.applicationResponse c).intoApplicationResult = .ok result) ∧
      (s.applicationResponse c).normalizeStoredSessionOutcome = s.applicationResponse c := by
  refine ⟨⟨_, intoApplicationResult_applicationResponse s c⟩, ?_⟩
  unfold applicationResponse
  cases (s.broker.apply c).2 <;> rfl

/-- A session that passes the checks without a record leaves room for one. -/
theorem size_recorded_le {identity : CommandIdentity} {command : ReplicatedBrokerCommandV1}
    (h : s.commandSessions.size ≤ maxCommandSessions)
    (hcheck : s.checkSession identity command = .ok ()) (record : CommandSessionRecord) :
    (s.commandSessions.insert identity.sessionId record).size ≤ maxCommandSessions := by
  unfold checkSession at hcheck
  cases hget : s.commandSessions.get identity.sessionId with
  | some =>
    rw [size_insert_of_some hget]
    exact h
  | none =>
    rw [hget] at hcheck
    obtain ⟨_, -, hcheck⟩ := bind_eq_ok_iff.mp hcheck
    obtain ⟨_, -, hcheck⟩ := bind_eq_ok_iff.mp hcheck
    exact le_trans (size_insert_le _ _ _) (require_eq_ok_iff.mp hcheck)

theorem size_acquireOwner_le {sessions : OrdMap CommandSessionId CommandSessionRecord}
    (h : sessions.size ≤ maxCommandSessions) (session : CommandSessionId)
    (expected : SessionOwnerEpoch) (owner : SessionOwnerInstanceId) :
    (acquireOwner sessions session expected owner).1.size ≤ maxCommandSessions := by
  unfold acquireOwner
  cases hget : sessions.get session with
  | none =>
    dsimp only
    split_ifs with hexpected hfull
    · exact h
    · exact h
    · exact le_trans (size_insert_le _ _ _) (Nat.lt_of_not_le hfull)
  | some record =>
    dsimp only
    split_ifs
    · exact h
    · exact h
    · cases record.ownerEpoch.next with
      | none => exact h
      | some =>
        rw [size_insert_of_some hget]
        exact h

/-- **A proposal keeps the state storable.** -/
theorem ProposalStep.storable {p : ReplicatedBrokerProposalV1} {s' : SessionedBroker}
    {answer : Except InvalidData ReplicatedBrokerResponseV1} (hstep : ProposalStep s p s' answer)
    (h : s.Storable) : s'.Storable := by
  have hrecords : ∀ session record, s'.commandSessions.get session = some record →
      record.Storable := by
    intro session record hrecord
    have hkind := hstep.recordStep session
    rw [hrecord] at hkind
    generalize hafter : some record = after at hkind
    cases hkind with
    | kept => exact h.records session record hafter.symm
    | applied _ _ _ valid =>
      cases hafter
      intro outcome houtcome
      cases houtcome
      obtain ⟨hresponse, hnormal⟩ := applicationResponse_storable s _
      exact ⟨⟨_, valid⟩, hresponse, hnormal⟩
    | acquired =>
      cases hafter
      exact fun _ houtcome => nomatch houtcome
  cases hstep with
  | invalid | answered => exact h
  | legacy => exact ⟨apply_indexed h.indexed _, h.bounded, hrecords⟩
  | applied _ check =>
    exact ⟨apply_indexed h.indexed _, size_recorded_le h.bounded check _,
      hrecords⟩
  | acquisition => exact ⟨h.indexed, size_acquireOwner_le h.bounded _ _ _, hrecords⟩

/-- **Every log leaves a state that can be stored.** -/
theorem run_storable (log : List ReplicatedBrokerProposalV1) : (run initial log).Storable :=
  Run.final_invariant (P := Storable) (fun s p hs => (applyProposal_step s p).storable hs)
    initial_storable log

end SessionedBroker

/-! ## Decoding stays in bounds -/

/-- The fault is an `io::Error`, not a panic. -/
def SnapshotFault.IsInvalidData : SnapshotFault → Prop
  | .invalidData _ => True
  | _ => False

open Except (Raises)

theorem invalidSnapshotData_raises {ε α : Type} (display : ε → String) (x : Except ε α) :
    Raises SnapshotFault.IsInvalidData (invalidSnapshotData display x) :=
  Raises.mapError fun _ => trivial

theorem decodeCheckpoint_raises (json : Codec SnapshotWire) (data : Bytes) :
    Raises SnapshotFault.IsInvalidData (decodeCheckpoint json data) :=
  Raises.bind (invalidSnapshotData_raises _ _) fun _ _ =>
    Raises.bind (invalidSnapshotData_raises _ _) fun _ _ => Raises.ok _

theorem decodeCommandSessionOutcome_raises (sequence : Option U64)
    (command : Option ReplicatedBrokerCommandV1) (response : Option ReplicatedBrokerResponseV1) :
    Raises SnapshotFault.IsInvalidData
      (decodeCommandSessionOutcome sequence command response) := by
  unfold decodeCommandSessionOutcome
  split
  · exact Raises.ok _
  · exact Raises.bind (invalidSnapshotData_raises _ _) fun _ _ =>
      Raises.bind (invalidSnapshotData_raises _ _) fun _ _ =>
        Raises.bind (invalidSnapshotData_raises _ _) fun _ _ => Raises.ok _
  · intro fault hfault
    cases hfault
    exact trivial

theorem decodeCommandSessionRecord_raises
    (sessions : OrdMap CommandSessionId CommandSessionRecord)
    (record : CommandSessionSnapshotRecordV1) :
    Raises SnapshotFault.IsInvalidData (decodeCommandSessionRecord sessions record) := by
  have howner : Raises SnapshotFault.IsInvalidData
      (decodeOwnerInstance record.ownerInstanceId) := by
    cases record.ownerInstanceId with
    | none => exact Raises.ok _
    | some =>
      rw [decodeOwnerInstance, map_eq_pure_bind]
      exact Raises.bind (invalidSnapshotData_raises _ _) fun _ _ => Raises.ok _
  refine Raises.bind (invalidSnapshotData_raises _ _) fun _ _ => ?_
  refine Raises.bind (invalidSnapshotData_raises _ _) fun _ _ => ?_
  refine Raises.bind howner fun _ _ => ?_
  refine Raises.bind (decodeCommandSessionOutcome_raises _ _ _) fun _ _ => ?_
  exact Raises.bind (Raises.require trivial) fun _ _ => Raises.ok _

theorem decodeSidecar_raises (sidecar : CommandSessionsSnapshotV1) :
    Raises SnapshotFault.IsInvalidData (decodeSidecar sidecar) :=
  Raises.bind (Raises.require trivial) fun _ _ =>
    Raises.bind (Raises.require trivial) fun _ _ =>
      Raises.foldlM decodeCommandSessionRecord_raises _ _

/-- **Decoding never panics**, whatever the bytes are. -/
theorem decodeConsensusSnapshot_raises (json : Codec SnapshotWire)
    (sidecarJson : Codec CommandSessionsSnapshotV1) (data : Bytes) :
    Raises SnapshotFault.IsInvalidData (decodeConsensusSnapshot json sidecarJson data) := by
  have hframe : Raises SnapshotFault.IsInvalidData (decodeFrame data) := by
    intro fault hfault
    rcases decodeFrame_cases data with ⟨-, message, herror⟩ | ⟨-, hok⟩
    · rw [herror] at hfault
      cases hfault
      exact trivial
    · rw [hok] at hfault
      cases hfault
  unfold decodeConsensusSnapshot
  split_ifs with hmagic
  · refine Raises.bind hframe fun _ _ => ?_
    refine Raises.bind (decodeCheckpoint_raises json _) fun _ _ => ?_
    refine Raises.bind (invalidSnapshotData_raises _ _) fun _ _ => ?_
    exact Raises.bind (decodeSidecar_raises _) fun _ _ => Raises.ok _
  · exact Raises.bind (decodeCheckpoint_raises json data) fun _ _ => Raises.ok _

/-- Data with the magic is accepted only if it is framed. -/
theorem framed_of_decodeConsensusSnapshot {json : Codec SnapshotWire}
    {sidecarJson : Codec CommandSessionsSnapshotV1} {data : Bytes}
    {decoded : DecodedConsensusSnapshot} (hmagic : consensusSnapshotMagic <+: data)
    (h : decodeConsensusSnapshot json sidecarJson data = .ok decoded) : Framed data := by
  rw [decodeConsensusSnapshot, if_pos (List.isPrefixOf_iff_prefix.mpr hmagic)] at h
  obtain ⟨_, hframe, -⟩ := bind_eq_ok_iff.mp h
  rcases decodeFrame_cases data with ⟨-, message, herror⟩ | ⟨hframed, -⟩
  · rw [herror] at hframe
    cases hframe
  · exact hframed

/-! ## Round trip -/

namespace SessionedBroker

variable {s : SessionedBroker}

theorem decodeConsensusSnapshot_frame (json : Codec SnapshotWire)
    (sidecarJson : Codec CommandSessionsSnapshotV1) (h : s.Storable)
    (hfits : consensusSnapshotHeaderBytes +
      (encodeSnapshot json s.broker.state.checkpoint).length +
      (sidecarJson.toVec (commandSessionsSnapshot s.commandSessions)).length < u64Size) :
    decodeConsensusSnapshot json sidecarJson
      (frame (encodeSnapshot json s.broker.state.checkpoint)
        (sidecarJson.toVec (commandSessionsSnapshot s.commandSessions))) =
      .ok ⟨s.broker.state.checkpoint, s.commandSessions⟩ := by
  have hmagic : consensusSnapshotMagic.isPrefixOf
      (frame (encodeSnapshot json s.broker.state.checkpoint)
        (sidecarJson.toVec (commandSessionsSnapshot s.commandSessions))) = true := by
    rw [List.isPrefixOf_iff_prefix, frame]
    simp only [append_assoc]
    exact prefix_append _ _
  obtain ⟨restored, hrestored, -⟩ := fromCheckpoint_checkpoint h.indexed
  have hcheckpoint : decodeCheckpoint json (encodeSnapshot json s.broker.state.checkpoint) =
      .ok s.broker.state.checkpoint := by
    rw [decodeCheckpoint, decodeSnapshot_encodeSnapshot json h.indexed, invalidSnapshotData_ok,
      ok_bind, hrestored]
    rfl
  have hlength : (commandSessionsSnapshot s.commandSessions).records.length ≤
      maxCommandSessions := by
    rw [commandSessionsSnapshot, length_map]
    exact h.bounded
  have hsidecar : decodeSidecar (commandSessionsSnapshot s.commandSessions) =
      .ok s.commandSessions := by
    have hversion : (commandSessionsSnapshot s.commandSessions).version =
        consensusSnapshotVersion := rfl
    rw [decodeSidecar, require_pos hversion, ok_bind, require_pos hlength]
    exact decodeCommandSessionRecords_encode h.records
  rw [decodeConsensusSnapshot, if_pos hmagic, decodeFrame_frame hfits]
  simp only [ok_bind, hcheckpoint, sidecarJson.fromSlice_toVec, invalidSnapshotData_ok, hsidecar]
  rfl

/-- **Snapshots read back as they were.**  For every log, the snapshot of the state it
leaves decodes to the same checkpoint and the same session table, unless it is larger
than any allocation.  Decoding never panics; and data that starts with the magic is
accepted only if the two lengths account for all of it. -/
theorem consensus_snapshot_round_trip (json : Codec SnapshotWire)
    (sidecarJson : Codec CommandSessionsSnapshotV1) (log : List ReplicatedBrokerProposalV1) :
    ((∃ data, encodeConsensusSnapshot json sidecarJson
          (run initial log).broker.state.checkpoint (run initial log).commandSessions =
            .ok data ∧
        decodeConsensusSnapshot json sidecarJson data =
          .ok ⟨(run initial log).broker.state.checkpoint, (run initial log).commandSessions⟩) ∨
      isizeMax < consensusSnapshotHeaderBytes +
        (encodeSnapshot json (run initial log).broker.state.checkpoint).length +
        (sidecarJson.toVec
          (commandSessionsSnapshot (run initial log).commandSessions)).length) ∧
    ∀ data, decodeConsensusSnapshot json sidecarJson data ≠ .error .outOfBounds ∧
      ∀ decoded, consensusSnapshotMagic <+: data →
        decodeConsensusSnapshot json sidecarJson data = .ok decoded →
        consensusSnapshotHeaderBytes + fieldAt data 12 8 + fieldAt data 20 8 = data.length := by
  refine ⟨?_, fun data => ⟨fun hpanic => ?_, fun decoded hmagic hok => ?_⟩⟩
  · by_cases hfits : consensusSnapshotHeaderBytes +
        (encodeSnapshot json (run initial log).broker.state.checkpoint).length +
        (sidecarJson.toVec
          (commandSessionsSnapshot (run initial log).commandSessions)).length ≤ isizeMax
    · have hsize : isizeMax < u64Size := by decide
      exact Or.inl ⟨_, encodeFrame_eq_ok hfits, decodeConsensusSnapshot_frame json sidecarJson
        (run_storable log) (lt_of_le_of_lt hfits hsize)⟩
    · exact Or.inr (Nat.lt_of_not_le hfits)
  · exact decodeConsensusSnapshot_raises json sidecarJson data _ hpanic
  · exact (framed_of_decodeConsensusSnapshot hmagic hok).lengths

end SessionedBroker

end AgentBroker
