import AgentBroker.Lib.JsonRecord
import AgentBroker.Protocol.Request

/-!
# Protocol v1: requests

The first version of the wire protocol (`wire_v1.rs`): a request is one JSON object on a
line of its own, with an envelope that names the operation and a payload for it.  What is
read is checked twice, first against the records of the schema and then by the validators
of the domain.

The texts that the JSON library puts into errors, and how it prints numbers that are no
`u64`, are not part of the broker; they are the fields of `Serde`, about which nothing is
assumed.

## Main results

* `decodeRequest_of_encodeRequest` — what was encoded is decoded to the same request.
-/

namespace AgentBroker

open Except hiding error
open Json
open Json (Value Tree required)

/-! ## The JSON library -/

/-- The records that are read from a frame. -/
inductive FrameRecord where
  | value
  | versionProbe
  | requestEnvelopeWire
  | requestEnvelopeV2
  | requestEnvelopeV3
  deriving DecidableEq, Repr

/-- The records that are read from a value inside a frame. -/
inductive PayloadRecord where
  | emptyPayload
  | namespacePayload
  | publishTaskPayload
  | ensureGroupPayload
  | joinGroupPayload
  | membershipPayload
  | claimTaskPayload
  | renewTaskPayload
  | completeTaskPayload
  deriving DecidableEq, Repr

/-- What the protocol takes from `serde_json` and from Rust's formatting besides JSON
itself. -/
structure Serde where
  /-- How a number that is no `u64` is printed again; `none` where it is refused. -/
  numberText : Bytes → Option Bytes
  /-- Why a frame is no such record. -/
  frameError : FrameRecord → Bytes → String
  /-- Why a value is no such record. -/
  payloadError : PayloadRecord → Value → String
  /-- `{:?}` of a text. -/
  quoted : String → String

instance : Inhabited Serde := ⟨⟨fun _ => none, fun _ _ => "", fun _ _ => "", id⟩⟩

/-- `serde_json::from_slice`. -/
def Serde.fromSlice {α : Type} (serde : Serde) (record : FrameRecord) (read : Tree → Option α)
    (frame : Bytes) : Except String α :=
  Except.ofOption (serde.frameError record frame) ((Json.parse frame).bind read)

/-- `serde_json::from_value`. -/
def Serde.fromValue {α : Type} (serde : Serde) (record : PayloadRecord) (read : Value → Option α)
    (value : Value) : Except String α :=
  Except.ofOption (serde.payloadError record value) (read value)

/-- How deep a value at the top of a frame may nest: one less than serde's limit. -/
def maxValueDepth : Nat := 127

/-- `Value` itself as what is read. -/
def Serde.readValue (serde : Serde) : Tree → Option Value :=
  Tree.toValue serde.numberText maxValueDepth

/-- A `Value` inside of an envelope, which is one level of nesting itself. -/
def Serde.readNested (serde : Serde) : Tree → Option Value :=
  Tree.toValue serde.numberText (maxValueDepth - 1)

/-- A `u64` as a value. -/
def ofU64 (n : U64) : Value := .natural ⟨n.get, n.isLt⟩

/-- A `u32` as a value. -/
def ofU32 (n : UInt32) : Value :=
  .natural ⟨n.toNat, n.toNat_lt.trans (by decide)⟩

/-- A length as a value.  Lengths of what fits in memory are below the modulus. -/
def ofCount (n : Nat) : Value := .natural (Fin.ofNat (2 ^ 64) n)

/-- A `u64` from a value. -/
def asU64 (value : Value) : Option U64 := value.asNatural.map fun n => ⟨n.val, n.isLt⟩

/-- A `u64` from a frame. -/
def readU64 (tree : Tree) : Option U64 :=
  match tree with
  | .number token => (Json.naturalToken token).map fun n => ⟨n.val, n.isLt⟩
  | _ => none

/-- A `u32` from a frame. -/
def readU32 (tree : Tree) : Option UInt32 := (tree.asNatural (2 ^ 32)).map .ofNat

@[simp] theorem regular_ofU64 (depth : Nat) (n : U64) : (ofU64 n).Regular depth :=
  regular_natural depth _

@[simp] theorem regular_ofU32 (depth : Nat) (n : UInt32) : (ofU32 n).Regular depth :=
  regular_natural depth _

@[simp] theorem regular_ofCount (depth n : Nat) : (ofCount n).Regular depth :=
  regular_natural depth _

@[simp] theorem readU64_tree (n : U64) : readU64 (ofU64 n).tree = some n := by
  rw [ofU64, Value.tree, readU64, naturalToken_number]
  rfl

@[simp] theorem readU32_tree (n : UInt32) : readU32 (ofU32 n).tree = some n := by
  rw [readU32, ofU32, asNatural_tree n.toNat_lt, Option.map_some, UInt32.ofNat_toNat]

/-- A value that is not too deep is read as it was written. -/
theorem Serde.readNested_tree (serde : Serde) {value : Value}
    (h : value.Regular (maxValueDepth - 1)) : serde.readNested value.tree = some value :=
  toValue_tree _ h

/-! ## Frames and their errors -/

/-- `PROTOCOL_VERSION`. -/
def protocolVersion : UInt32 := 1

/-- `DEFAULT_MAX_FRAME_BYTES`. -/
def defaultMaxFrameBytes : Nat := 128 * 1024

/-- Why a frame was refused, as far as requests go: the limit on the message of an error
belongs to responses. -/
inductive ProtocolCodecError where
  | frameTooLarge (actual max : Nat)
  | invalidRequest (message : String)
  | serialization (message : String)
  deriving DecidableEq, Repr

/-- `Display` of a codec error. -/
def ProtocolCodecError.display : ProtocolCodecError → String
  | .frameTooLarge actual max =>
    "protocol frame is " ++ toString actual ++ " bytes; maximum is " ++ toString max
  | .invalidRequest message => message
  | .serialization message => message

/-- `ensure_frame_limit`. -/
def ensureFrameLimit (actual max : Nat) : Except ProtocolCodecError Unit :=
  Except.require (actual ≤ max) (.frameTooLarge actual max)

/-- `invalid_field`. -/
def invalidField (field error : String) : ProtocolCodecError :=
  .invalidRequest (field ++ " is invalid: " ++ error)

/-- `encode_bounded`, which the later versions call `serialize_bounded`. -/
def encodeBounded (value : Value) (maxFrameBytes : Nat) : Except ProtocolCodecError Bytes := do
  let encoded := value.compact ++ [10]
  ensureFrameLimit encoded.length maxFrameBytes
  return encoded

theorem encodeBounded_eq_ok_iff {value : Value} {limit : Nat} {frame : Bytes} :
    encodeBounded value limit = .ok frame ↔
      frame = value.compact ++ [10] ∧ frame.length ≤ limit := by
  rw [encodeBounded, bind_eq_ok_iff]
  simp only [ensureFrameLimit, require_eq_ok_iff]
  constructor
  · rintro ⟨-, hlen, h⟩
    cases h
    exact ⟨rfl, hlen⟩
  · rintro ⟨rfl, hlen⟩
    exact ⟨(), hlen, rfl⟩

/-- A value that was written as a frame is read back by every reader of its tree. -/
theorem Serde.fromSlice_compact {α : Type} (serde : Serde) (record : FrameRecord)
    {read : Tree → Option α} {value : Value} {depth : Nat} (hvalue : value.Regular depth) :
    serde.fromSlice record read (value.compact ++ [10]) =
      Except.ofOption (serde.frameError record (value.compact ++ [10])) (read value.tree) := by
  rw [Serde.fromSlice, parse_compact hvalue.whole isSpace_newline, Option.bind_some]

/-! ## The records of requests -/

/-- The envelope of a request. -/
structure RequestEnvelopeWire where
  version : UInt32
  requestId : String
  operation : String
  payload : Value

/-- Read an envelope; no other field may occur. -/
def RequestEnvelopeWire.read (serde : Serde) (tree : Tree) : Option RequestEnvelopeWire := do
  let [version, requestId, operation, payload] ←
    tree.fields true ["version", "request_id", "operation", "payload"] | none
  return {
    version := ← required readU32 version
    requestId := ← required Tree.asString requestId
    operation := ← required Tree.asString operation
    payload := ← required serde.readNested payload }

/-- What was read of an envelope, field by field. -/
theorem RequestEnvelopeWire.exists_of_read {serde : Serde} {tree : Tree}
    {envelope : RequestEnvelopeWire} (h : read serde tree = some envelope) :
    ∃ version requestId operation payload,
      tree.fields true ["version", "request_id", "operation", "payload"] =
        some [some version, some requestId, some operation, some payload] ∧
      readU32 version = some envelope.version ∧
      requestId.asString = some envelope.requestId ∧
      operation.asString = some envelope.operation ∧
      serde.readNested payload = some envelope.payload := by
  obtain ⟨fields, hfields, h⟩ := Option.bind_eq_some_iff.mp h
  split at h
  · obtain ⟨tree₁, rfl, _, h₁, h⟩ := required_bind_eq_some_iff.mp h
    obtain ⟨tree₂, rfl, _, h₂, h⟩ := required_bind_eq_some_iff.mp h
    obtain ⟨tree₃, rfl, _, h₃, h⟩ := required_bind_eq_some_iff.mp h
    obtain ⟨tree₄, rfl, _, h₄, h⟩ := required_bind_eq_some_iff.mp h
    cases h
    exact ⟨tree₁, tree₂, tree₃, tree₄, hfields, h₁, h₂, h₃, h₄⟩
  · cases h

/-- `EmptyPayload`. -/
def EmptyPayload.read (value : Value) : Option Unit := do
  let [] ← value.fields [] | none
  return ()

structure NamespacePayload where
  namespaceId : String

def NamespacePayload.read (value : Value) : Option NamespacePayload := do
  let [namespaceId] ← value.fields ["namespace_id"] | none
  return ⟨← required Value.asString namespaceId⟩

structure PublishTaskPayload where
  namespaceId : String
  taskId : String
  objective : String

def PublishTaskPayload.read (value : Value) : Option PublishTaskPayload := do
  let [namespaceId, taskId, objective] ←
    value.fields ["namespace_id", "task_id", "objective"] | none
  return {
    namespaceId := ← required Value.asString namespaceId
    taskId := ← required Value.asString taskId
    objective := ← required Value.asString objective }

structure EnsureGroupPayload where
  namespaceId : String
  groupId : String

def EnsureGroupPayload.read (value : Value) : Option EnsureGroupPayload := do
  let [namespaceId, groupId] ← value.fields ["namespace_id", "group_id"] | none
  return {
    namespaceId := ← required Value.asString namespaceId
    groupId := ← required Value.asString groupId }

structure JoinGroupPayload where
  groupId : String
  memberId : String
  capabilities : List String

def JoinGroupPayload.read (value : Value) : Option JoinGroupPayload := do
  let [groupId, memberId, capabilities] ←
    value.fields ["group_id", "member_id", "capabilities"] | none
  return {
    groupId := ← required Value.asString groupId
    memberId := ← required Value.asString memberId
    capabilities := ← required (Value.asArray Value.asString) capabilities }

structure MembershipPayload where
  groupId : String
  memberId : String
  expectedGeneration : U64

def MembershipPayload.read (value : Value) : Option MembershipPayload := do
  let [groupId, memberId, expectedGeneration] ←
    value.fields ["group_id", "member_id", "expected_generation"] | none
  return {
    groupId := ← required Value.asString groupId
    memberId := ← required Value.asString memberId
    expectedGeneration := ← required asU64 expectedGeneration }

structure ClaimTaskPayload where
  groupId : String
  memberId : String
  expectedTerm : U64
  expectedGeneration : U64
  leaseId : String
  leaseDurationMs : U64

def ClaimTaskPayload.read (value : Value) : Option ClaimTaskPayload := do
  let [groupId, memberId, expectedTerm, expectedGeneration, leaseId, leaseDurationMs] ←
    value.fields ["group_id", "member_id", "expected_term", "expected_generation", "lease_id",
      "lease_duration_ms"] | none
  return {
    groupId := ← required Value.asString groupId
    memberId := ← required Value.asString memberId
    expectedTerm := ← required asU64 expectedTerm
    expectedGeneration := ← required asU64 expectedGeneration
    leaseId := ← required Value.asString leaseId
    leaseDurationMs := ← required asU64 leaseDurationMs }

structure RenewTaskPayload where
  taskId : String
  groupId : String
  memberId : String
  expectedTerm : U64
  expectedGeneration : U64
  expectedLeaseEpoch : U64
  leaseId : String
  leaseDurationMs : U64

def RenewTaskPayload.read (value : Value) : Option RenewTaskPayload := do
  let [taskId, groupId, memberId, expectedTerm, expectedGeneration, expectedLeaseEpoch, leaseId,
      leaseDurationMs] ←
    value.fields ["task_id", "group_id", "member_id", "expected_term", "expected_generation",
      "expected_lease_epoch", "lease_id", "lease_duration_ms"] | none
  return {
    taskId := ← required Value.asString taskId
    groupId := ← required Value.asString groupId
    memberId := ← required Value.asString memberId
    expectedTerm := ← required asU64 expectedTerm
    expectedGeneration := ← required asU64 expectedGeneration
    expectedLeaseEpoch := ← required asU64 expectedLeaseEpoch
    leaseId := ← required Value.asString leaseId
    leaseDurationMs := ← required asU64 leaseDurationMs }

structure CompleteTaskPayload where
  taskId : String
  groupId : String
  memberId : String
  expectedTerm : U64
  expectedGeneration : U64
  expectedLeaseEpoch : U64
  leaseId : String
  result : String

def CompleteTaskPayload.read (value : Value) : Option CompleteTaskPayload := do
  let [taskId, groupId, memberId, expectedTerm, expectedGeneration, expectedLeaseEpoch, leaseId,
      result] ←
    value.fields ["task_id", "group_id", "member_id", "expected_term", "expected_generation",
      "expected_lease_epoch", "lease_id", "result"] | none
  return {
    taskId := ← required Value.asString taskId
    groupId := ← required Value.asString groupId
    memberId := ← required Value.asString memberId
    expectedTerm := ← required asU64 expectedTerm
    expectedGeneration := ← required asU64 expectedGeneration
    expectedLeaseEpoch := ← required asU64 expectedLeaseEpoch
    leaseId := ← required Value.asString leaseId
    result := ← required Value.asString result }

/-! ## Decoding -/

section Decoding

variable (serde : Serde)

/-- `decode_payload`. -/
def decodePayload {α : Type} (record : PayloadRecord) (read : Value → Option α)
    (payload : Value) : Except ProtocolCodecError α :=
  (serde.fromValue record read payload).mapError fun error =>
    .invalidRequest ("Request payload does not match schema: " ++ error)

/-- A validated identifier of a payload. -/
def identifierField {kind : IdentifierKind} (field value : String) :
    Except ProtocolCodecError (Identifier kind) :=
  (Identifier.new value).mapError fun error => invalidField field error.display

/-- A validated text of a payload. -/
def textField {kind : TaskTextKind} (field value : String) :
    Except ProtocolCodecError (TaskText kind) :=
  (TaskText.new value).mapError fun error => invalidField field error.display

/-- A validated term of a payload. -/
def termField (field : String) (value : U64) : Except ProtocolCodecError Term :=
  (Term.new value).mapError fun error => invalidField field error.display

/-- A validated lease duration of a payload. -/
def leaseDurationField (field : String) (value : U64) :
    Except ProtocolCodecError LeaseDurationMs :=
  (LeaseDurationMs.new value).mapError fun error => invalidField field error

def decodeHealth (requestId : RequestId) (payload : Value) :
    Except ProtocolCodecError BrokerRequest := do
  let _ ← decodePayload serde .emptyPayload EmptyPayload.read payload
  return .health requestId

def decodeNamespace (requestId : RequestId) (payload : Value) :
    Except ProtocolCodecError BrokerRequest := do
  let payload ← decodePayload serde .namespacePayload NamespacePayload.read payload
  return .ensureNamespace requestId (← identifierField "namespace_id" payload.namespaceId)

def decodePublish (requestId : RequestId) (payload : Value) :
    Except ProtocolCodecError BrokerRequest := do
  let payload ← decodePayload serde .publishTaskPayload PublishTaskPayload.read payload
  return .publishTask requestId
    (← identifierField "namespace_id" payload.namespaceId)
    (← identifierField "task_id" payload.taskId)
    (← textField "objective" payload.objective)

def decodeEnsureGroup (requestId : RequestId) (payload : Value) :
    Except ProtocolCodecError BrokerRequest := do
  let payload ← decodePayload serde .ensureGroupPayload EnsureGroupPayload.read payload
  return .ensureConsumerGroup requestId
    (← identifierField "namespace_id" payload.namespaceId)
    (← identifierField "group_id" payload.groupId)

def decodeJoinGroup (requestId : RequestId) (payload : Value) :
    Except ProtocolCodecError BrokerRequest := do
  let payload ← decodePayload serde .joinGroupPayload JoinGroupPayload.read payload
  return .joinConsumerGroup requestId
    (← identifierField "group_id" payload.groupId)
    (← identifierField "member_id" payload.memberId)
    (← (DeclaredCapabilities.new payload.capabilities).mapError fun error =>
      invalidField "capabilities" error.display)

def decodeHeartbeat (requestId : RequestId) (payload : Value) :
    Except ProtocolCodecError BrokerRequest := do
  let payload ← decodePayload serde .membershipPayload MembershipPayload.read payload
  return .heartbeat requestId
    (← identifierField "group_id" payload.groupId)
    (← identifierField "member_id" payload.memberId)
    (.new payload.expectedGeneration)

def decodeLeaveGroup (requestId : RequestId) (payload : Value) :
    Except ProtocolCodecError BrokerRequest := do
  let payload ← decodePayload serde .membershipPayload MembershipPayload.read payload
  return .leaveConsumerGroup requestId
    (← identifierField "group_id" payload.groupId)
    (← identifierField "member_id" payload.memberId)
    (.new payload.expectedGeneration)

def decodeClaim (requestId : RequestId) (payload : Value) :
    Except ProtocolCodecError BrokerRequest := do
  let payload ← decodePayload serde .claimTaskPayload ClaimTaskPayload.read payload
  return .claimTask requestId
    (← identifierField "group_id" payload.groupId)
    (← identifierField "member_id" payload.memberId)
    (← termField "expected_term" payload.expectedTerm)
    (.new payload.expectedGeneration)
    (← identifierField "lease_id" payload.leaseId)
    (← leaseDurationField "lease_duration_ms" payload.leaseDurationMs)

def decodeRenew (requestId : RequestId) (payload : Value) :
    Except ProtocolCodecError BrokerRequest := do
  let payload ← decodePayload serde .renewTaskPayload RenewTaskPayload.read payload
  return .renewTaskLease requestId
    (← identifierField "task_id" payload.taskId)
    (← identifierField "group_id" payload.groupId)
    (← identifierField "member_id" payload.memberId)
    (← termField "expected_term" payload.expectedTerm)
    (.new payload.expectedGeneration)
    (.new payload.expectedLeaseEpoch)
    (← identifierField "lease_id" payload.leaseId)
    (← leaseDurationField "lease_duration_ms" payload.leaseDurationMs)

def decodeComplete (requestId : RequestId) (payload : Value) :
    Except ProtocolCodecError BrokerRequest := do
  let payload ← decodePayload serde .completeTaskPayload CompleteTaskPayload.read payload
  return .completeTask requestId
    (← identifierField "task_id" payload.taskId)
    (← identifierField "group_id" payload.groupId)
    (← identifierField "member_id" payload.memberId)
    (← termField "expected_term" payload.expectedTerm)
    (.new payload.expectedGeneration)
    (.new payload.expectedLeaseEpoch)
    (← identifierField "lease_id" payload.leaseId)
    (← textField "result" payload.result)

/-- `decode_operation`. -/
def decodeOperation (operation : Operation) (requestId : RequestId) (payload : Value) :
    Except ProtocolCodecError BrokerRequest :=
  match operation with
  | .health => decodeHealth serde requestId payload
  | .ensureNamespace => decodeNamespace serde requestId payload
  | .publishTask => decodePublish serde requestId payload
  | .ensureConsumerGroup => decodeEnsureGroup serde requestId payload
  | .joinConsumerGroup => decodeJoinGroup serde requestId payload
  | .heartbeat => decodeHeartbeat serde requestId payload
  | .leaveConsumerGroup => decodeLeaveGroup serde requestId payload
  | .claimTask => decodeClaim serde requestId payload
  | .renewTaskLease => decodeRenew serde requestId payload
  | .completeTask => decodeComplete serde requestId payload

/-- What the envelope says: the identifier, the operation and the payload. -/
def decodeEnvelope (requestId operation : String) (payload : Value) :
    Except ProtocolCodecError BrokerRequest := do
  let requestId ← (RequestId.new requestId).mapError (invalidField "request_id")
  let operation ← Except.ofOption
    (.invalidRequest ("unsupported Broker operation " ++ serde.quoted operation))
    (Operation.tryFrom operation)
  decodeOperation serde operation requestId payload

/-- `decode_request_with_limit`. -/
def decodeRequestWithLimit (frame : Bytes) (maxFrameBytes : Nat) :
    Except ProtocolCodecError BrokerRequest := do
  ensureFrameLimit frame.length maxFrameBytes
  let envelope ← (serde.fromSlice .requestEnvelopeWire (RequestEnvelopeWire.read serde)
    frame).mapError fun error =>
      .invalidRequest ("Request frame must be valid protocol-v1 JSON: " ++ error)
  Except.require (envelope.version = protocolVersion)
    (.invalidRequest ("Unsupported protocol version " ++ toString envelope.version ++ "."))
  decodeEnvelope serde envelope.requestId envelope.operation envelope.payload

/-- `decode_request`. -/
def decodeRequest (frame : Bytes) : Except ProtocolCodecError BrokerRequest :=
  decodeRequestWithLimit serde frame defaultMaxFrameBytes

end Decoding

/-! ## Encoding -/

def membershipPayload (groupId : ConsumerGroupId) (memberId : ConsumerId)
    (expectedGeneration : Generation) : Value :=
  .ofEntries [
    ("expected_generation", ofU64 expectedGeneration.toU64),
    ("group_id", .string groupId.asStr),
    ("member_id", .string memberId.asStr)]

/-- `request_payload`, with `claim_payload`, `renew_payload` and `complete_payload`. -/
def requestPayload : BrokerRequest → Value
  | .health _ => .ofEntries []
  | .ensureNamespace _ namespaceId => .ofEntries [("namespace_id", .string namespaceId.asStr)]
  | .publishTask _ namespaceId taskId objective => .ofEntries [
      ("namespace_id", .string namespaceId.asStr),
      ("objective", .string objective.asStr),
      ("task_id", .string taskId.asStr)]
  | .ensureConsumerGroup _ namespaceId groupId => .ofEntries [
      ("group_id", .string groupId.asStr),
      ("namespace_id", .string namespaceId.asStr)]
  | .joinConsumerGroup _ groupId memberId capabilities => .ofEntries [
      ("capabilities", .array (capabilities.asSlice.map .string)),
      ("group_id", .string groupId.asStr),
      ("member_id", .string memberId.asStr)]
  | .heartbeat _ groupId memberId expectedGeneration =>
    membershipPayload groupId memberId expectedGeneration
  | .leaveConsumerGroup _ groupId memberId expectedGeneration =>
    membershipPayload groupId memberId expectedGeneration
  | .claimTask _ groupId memberId expectedTerm expectedGeneration leaseId leaseDuration =>
    .ofEntries [
      ("expected_generation", ofU64 expectedGeneration.toU64),
      ("expected_term", ofU64 expectedTerm.toU64),
      ("group_id", .string groupId.asStr),
      ("lease_duration_ms", ofU64 leaseDuration.toU64),
      ("lease_id", .string leaseId.asStr),
      ("member_id", .string memberId.asStr)]
  | .renewTaskLease _ taskId groupId memberId expectedTerm expectedGeneration
      expectedLeaseEpoch leaseId leaseDuration => .ofEntries [
      ("expected_generation", ofU64 expectedGeneration.toU64),
      ("expected_lease_epoch", ofU64 expectedLeaseEpoch.toU64),
      ("expected_term", ofU64 expectedTerm.toU64),
      ("group_id", .string groupId.asStr),
      ("lease_duration_ms", ofU64 leaseDuration.toU64),
      ("lease_id", .string leaseId.asStr),
      ("member_id", .string memberId.asStr),
      ("task_id", .string taskId.asStr)]
  | .completeTask _ taskId groupId memberId expectedTerm expectedGeneration
      expectedLeaseEpoch leaseId result => .ofEntries [
      ("expected_generation", ofU64 expectedGeneration.toU64),
      ("expected_lease_epoch", ofU64 expectedLeaseEpoch.toU64),
      ("expected_term", ofU64 expectedTerm.toU64),
      ("group_id", .string groupId.asStr),
      ("lease_id", .string leaseId.asStr),
      ("member_id", .string memberId.asStr),
      ("result", .string result.asStr),
      ("task_id", .string taskId.asStr)]

/-- The envelope of a request as it is written. -/
def requestRoot (operation : String) (payload : Value) (requestId : String) : Value :=
  .ofEntries [
    ("operation", .string operation),
    ("payload", payload),
    ("request_id", .string requestId),
    ("version", ofU32 protocolVersion)]

/-- `encode_request_with_limit`. -/
def encodeRequestWithLimit (request : BrokerRequest) (maxFrameBytes : Nat) :
    Except ProtocolCodecError Bytes :=
  encodeBounded
    (requestRoot request.operation.asStr (requestPayload request) request.requestId.asStr)
    maxFrameBytes

/-- `encode_request`. -/
def encodeRequest (request : BrokerRequest) : Except ProtocolCodecError Bytes :=
  encodeRequestWithLimit request defaultMaxFrameBytes

/-! ## Round trip -/

section RoundTrip

variable (serde : Serde)

@[simp] theorem identifierField_asStr {kind : IdentifierKind} (field : String)
    (i : Identifier kind) : identifierField field i.asStr = .ok i := by
  rw [identifierField, Identifier.new_asStr, mapError_ok]

@[simp] theorem textField_asStr {kind : TaskTextKind} (field : String) (t : TaskText kind) :
    textField field t.asStr = .ok t := by
  rw [textField, TaskText.new_asStr, mapError_ok]

@[simp] theorem termField_toU64 (field : String) (t : Term) :
    termField field t.toU64 = .ok t := by
  rw [termField, Term.new_toU64, mapError_ok]

@[simp] theorem leaseDurationField_toU64 (field : String) (d : LeaseDurationMs) :
    leaseDurationField field d.toU64 = .ok d := by
  rw [leaseDurationField, LeaseDurationMs.new_toU64, mapError_ok]

theorem decodePayload_of_read {α : Type} {record : PayloadRecord} {read : Value → Option α} {a : α}
    {payload : Value} (h : read payload = some a) :
    decodePayload serde record read payload = .ok a := by
  rw [decodePayload, Serde.fromValue, h]
  rfl

theorem asArray_strings (texts : List String) :
    Value.asArray Value.asString (.array (texts.map .string)) = some texts :=
  mapM_map_of_forall fun _ _ => rfl

section Reads

variable {requestId : RequestId} {namespaceId : NamespaceId} {taskId : TaskId}
  {groupId : ConsumerGroupId} {memberId : ConsumerId} {expectedTerm : Term}
  {expectedGeneration : Generation} {expectedLeaseEpoch : LeaseEpoch} {leaseId : LeaseId}
  {leaseDuration : LeaseDurationMs}

theorem read_ensureNamespace :
    NamespacePayload.read (requestPayload (.ensureNamespace requestId namespaceId)) =
      some ⟨namespaceId.asStr⟩ := by
  change NamespacePayload.read (.ofEntries _) = _
  rw [NamespacePayload.read,
    fields_ofEntries (by simp only [List.map]; decide)]
  rfl

theorem read_publishTask {objective : TaskObjective} :
    PublishTaskPayload.read
        (requestPayload (.publishTask requestId namespaceId taskId objective)) =
      some ⟨namespaceId.asStr, taskId.asStr, objective.asStr⟩ := by
  change PublishTaskPayload.read (.ofEntries _) = _
  rw [PublishTaskPayload.read,
    fields_ofEntries (by simp only [List.map]; decide)]
  rfl

theorem read_ensureConsumerGroup :
    EnsureGroupPayload.read
        (requestPayload (.ensureConsumerGroup requestId namespaceId groupId)) =
      some ⟨namespaceId.asStr, groupId.asStr⟩ := by
  change EnsureGroupPayload.read (.ofEntries _) = _
  rw [EnsureGroupPayload.read,
    fields_ofEntries (by simp only [List.map]; decide)]
  rfl

theorem read_joinConsumerGroup {capabilities : DeclaredCapabilities} :
    JoinGroupPayload.read
        (requestPayload (.joinConsumerGroup requestId groupId memberId capabilities)) =
      some ⟨groupId.asStr, memberId.asStr, capabilities.asSlice⟩ := by
  have hcapabilities := asArray_strings capabilities.asSlice
  change JoinGroupPayload.read (.ofEntries _) = _
  rw [JoinGroupPayload.read,
    fields_ofEntries (by simp only [List.map]; decide)]
  simp [OrdMap.lookup, Value.asString, hcapabilities]

theorem read_membershipPayload :
    MembershipPayload.read (membershipPayload groupId memberId expectedGeneration) =
      some ⟨groupId.asStr, memberId.asStr, expectedGeneration.toU64⟩ := by
  rw [MembershipPayload.read, membershipPayload, fields_ofEntries (by simp only [List.map]; decide)]
  rfl

theorem read_claimTask :
    ClaimTaskPayload.read (requestPayload (.claimTask requestId groupId memberId expectedTerm
        expectedGeneration leaseId leaseDuration)) =
      some ⟨groupId.asStr, memberId.asStr, expectedTerm.toU64, expectedGeneration.toU64,
        leaseId.asStr, leaseDuration.toU64⟩ := by
  change ClaimTaskPayload.read (.ofEntries _) = _
  rw [ClaimTaskPayload.read, fields_ofEntries (by simp only [List.map]; decide)]
  rfl

theorem read_renewTaskLease :
    RenewTaskPayload.read (requestPayload (.renewTaskLease requestId taskId groupId memberId
        expectedTerm expectedGeneration expectedLeaseEpoch leaseId leaseDuration)) =
      some ⟨taskId.asStr, groupId.asStr, memberId.asStr, expectedTerm.toU64,
        expectedGeneration.toU64, expectedLeaseEpoch.toU64, leaseId.asStr,
        leaseDuration.toU64⟩ := by
  change RenewTaskPayload.read (.ofEntries _) = _
  rw [RenewTaskPayload.read, fields_ofEntries (by simp only [List.map]; decide)]
  rfl

theorem read_completeTask {result : TaskResult} :
    CompleteTaskPayload.read (requestPayload (.completeTask requestId taskId groupId memberId
        expectedTerm expectedGeneration expectedLeaseEpoch leaseId result)) =
      some ⟨taskId.asStr, groupId.asStr, memberId.asStr, expectedTerm.toU64,
        expectedGeneration.toU64, expectedLeaseEpoch.toU64, leaseId.asStr, result.asStr⟩ := by
  change CompleteTaskPayload.read (.ofEntries _) = _
  rw [CompleteTaskPayload.read, fields_ofEntries (by simp only [List.map]; decide)]
  rfl

end Reads

/-- **Every payload decodes to the request it was made for.** -/
theorem decodeOperation_requestPayload (request : BrokerRequest) :
    decodeOperation serde request.operation request.requestId (requestPayload request) =
      .ok request := by
  cases request <;> rw [BrokerRequest.operation, BrokerRequest.requestId, decodeOperation]
  case health => rfl
  case ensureNamespace =>
    rw [decodeNamespace, decodePayload_of_read serde read_ensureNamespace]
    simp [pure, Except.pure]
  case publishTask =>
    rw [decodePublish, decodePayload_of_read serde read_publishTask]
    simp [pure, Except.pure]
  case ensureConsumerGroup =>
    rw [decodeEnsureGroup, decodePayload_of_read serde read_ensureConsumerGroup]
    simp [pure, Except.pure]
  case joinConsumerGroup =>
    rw [decodeJoinGroup, decodePayload_of_read serde read_joinConsumerGroup]
    simp [pure, Except.pure, DeclaredCapabilities.new_asSlice]
  case heartbeat =>
    rw [requestPayload, decodeHeartbeat, decodePayload_of_read serde read_membershipPayload]
    simp [pure, Except.pure, Counter.new, Counter.toU64]
  case leaveConsumerGroup =>
    rw [requestPayload, decodeLeaveGroup, decodePayload_of_read serde read_membershipPayload]
    simp [pure, Except.pure, Counter.new, Counter.toU64]
  case claimTask =>
    rw [decodeClaim, decodePayload_of_read serde read_claimTask]
    simp [pure, Except.pure, Counter.new, Counter.toU64]
  case renewTaskLease =>
    rw [decodeRenew, decodePayload_of_read serde read_renewTaskLease]
    simp [pure, Except.pure, Counter.new, Counter.toU64]
  case completeTask =>
    rw [decodeComplete, decodePayload_of_read serde read_completeTask]
    simp [pure, Except.pure, Counter.new, Counter.toU64]

variable {payload : Value} {operation requestId : String}

/-- What the envelope of a request says decodes to it. -/
theorem decodeEnvelope_request (request : BrokerRequest) :
    decodeEnvelope serde request.requestId.asStr request.operation.asStr
      (requestPayload request) = .ok request := by
  rw [decodeEnvelope, RequestId.new_asStr, mapError_ok, ok_bind,
    Operation.tryFrom_asStr, ofOption_some, ok_bind,
    decodeOperation_requestPayload]

/-- Payloads are written and read without loss. -/
theorem requestPayload_regular (request : BrokerRequest) : (requestPayload request).Regular 2 := by
  cases request with
  | joinConsumerGroup _ _ _ capabilities =>
    have htexts : (Value.array (capabilities.asSlice.map .string)).Regular 1 := by
      intro item hitem
      obtain ⟨text, -, rfl⟩ := List.mem_map.mp hitem
      exact regular_string _ _
    exact regular_ofEntries (by simp [htexts])
  | _ => exact regular_ofEntries (by simp)

theorem requestRoot_regular {depth : Nat} (h : payload.Regular depth) :
    (requestRoot operation payload requestId).Regular (depth + 1) :=
  regular_ofEntries (by simp [h])

/-- The envelope of a payload that is not too deep is read as it was written. -/
theorem read_requestRoot (h : payload.Regular (maxValueDepth - 1)) :
    RequestEnvelopeWire.read serde (requestRoot operation payload requestId).tree =
      some ⟨protocolVersion, requestId, operation, payload⟩ := by
  rw [RequestEnvelopeWire.read, requestRoot, fields_tree_ofEntries (by simp only [List.map]; decide)]
  simp [OrdMap.lookup, serde.readNested_tree h]

/-- A frame of the envelope decodes to what the envelope says. -/
theorem decodeRequest_requestRoot (h : payload.Regular (maxValueDepth - 1)) {frame : Bytes}
    {limit limit' : Nat}
    (hencode : encodeBounded (requestRoot operation payload requestId) limit = .ok frame)
    (hlimit : frame.length ≤ limit') :
    decodeRequestWithLimit serde frame limit' =
      decodeEnvelope serde requestId operation payload := by
  obtain ⟨rfl, -⟩ := encodeBounded_eq_ok_iff.mp hencode
  rw [decodeRequestWithLimit, ensureFrameLimit, require_pos hlimit, ok_bind,
    Serde.fromSlice_compact _ _ (requestRoot_regular h), read_requestRoot _ h,
    ofOption_some, mapError_ok, ok_bind, require_pos rfl,
    ok_bind]

/-- **What was encoded is decoded to the same request.** -/
theorem decodeRequest_of_encodeRequest {request : BrokerRequest} {frame : Bytes}
    {limit limit' : Nat} (h : encodeRequestWithLimit request limit = .ok frame)
    (hlimit : frame.length ≤ limit') :
    decodeRequestWithLimit serde frame limit' = .ok request := by
  have hpayload := (requestPayload_regular request).mono (show 2 ≤ maxValueDepth - 1 by decide)
  rw [decodeRequest_requestRoot serde hpayload h hlimit, decodeEnvelope_request]

end RoundTrip

end AgentBroker
