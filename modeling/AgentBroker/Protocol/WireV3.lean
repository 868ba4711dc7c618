import AgentBroker.Protocol.WireV2

/-!
# Protocol v3: owned sessions

The third version of the wire protocol (`wire_v3.rs`).  A client first acquires the
ownership of a command session, and every mutation then names the owner epoch and the owner
instance besides the sequence number.  Both kinds of requests share one envelope, in which
the fields of the other kind must be missing.

## Main results

* `decodeRequestV3_of_encodeAcquisition`, `decodeRequestV3_of_encodeMutation` — what was
  encoded is decoded to the same request.
-/

namespace AgentBroker

open Except hiding error
open Json
open Json (Value Tree required defaulted)

/-! ## Requests -/

/-- `PROTOCOL_VERSION_V3`. -/
def protocolVersionV3 : UInt32 := 3

/-- `ACQUIRE_COMMAND_SESSION_OWNER_OPERATION`. -/
def acquireCommandSessionOwnerOperation : String := "acquire_command_session_owner"

/-- A request for the ownership of a session. -/
structure OwnerAcquisitionRequestV3 where
  requestId : RequestId
  sessionId : CommandSessionId
  expectedOwnerEpoch : SessionOwnerEpoch
  ownerInstanceId : SessionOwnerInstanceId
  deriving DecidableEq

/-- A mutation with its owner. -/
structure OwnerIdentifiedBrokerRequestV3 where
  identity : CommandIdentity
  request : BrokerRequest
  owned : identity.ownerInstanceId ≠ none
  mutation : request.operation ≠ .health

instance : DecidableEq OwnerIdentifiedBrokerRequestV3 := fun a b =>
  decidable_of_iff (a.identity = b.identity ∧ a.request = b.request) (by cases a; cases b; simp)

/-- Only mutations with an owner are requests of this version. -/
def OwnerIdentifiedBrokerRequestV3.new (identity : CommandIdentity) (request : BrokerRequest) :
    Except ProtocolCodecError OwnerIdentifiedBrokerRequestV3 :=
  if howned : identity.ownerInstanceId = none then
    .error (.invalidRequest
      "protocol-v3 owner-aware mutation requires command_session_owner_instance_id")
  else if hmutation : request.operation = .health then
    .error (.invalidRequest ("protocol-v3 owner-aware requests are mutation-only; " ++
      "health remains protocol-v1/read-only"))
  else .ok ⟨identity, request, howned, hmutation⟩

theorem OwnerIdentifiedBrokerRequestV3.new_ok {identity : CommandIdentity}
    {request : BrokerRequest} {owned : OwnerIdentifiedBrokerRequestV3}
    (h : new identity request = .ok owned) :
    owned.identity = identity ∧ owned.request = request := by
  unfold new at h
  split_ifs at h
  cases h
  exact ⟨rfl, rfl⟩

/-- A request of this version. -/
inductive BrokerRequestV3 where
  | acquireOwner (request : OwnerAcquisitionRequestV3)
  | mutation (request : OwnerIdentifiedBrokerRequestV3)
  deriving DecidableEq

/-- What correlates a request with its response. -/
def BrokerRequestV3.requestId : BrokerRequestV3 → RequestId
  | .acquireOwner request => request.requestId
  | .mutation request => request.request.requestId

/-! ## Decoding -/

/-- The envelope of both kinds of requests. -/
structure RequestEnvelopeV3 where
  version : UInt32
  requestId : String
  operation : String
  commandSessionId : String
  expectedOwnerEpoch : Option U64
  ownerEpoch : Option U64
  ownerInstanceId : String
  commandSequence : Option U64
  payload : Value

/-- Read an envelope; no other field may occur. -/
def RequestEnvelopeV3.read (serde : Serde) (tree : Tree) : Option RequestEnvelopeV3 := do
  let [version, requestId, operation, commandSessionId, expectedOwnerEpoch, ownerEpoch,
      ownerInstanceId, commandSequence, payload] ←
    tree.fields true ["version", "request_id", "operation", "command_session_id",
      "expected_owner_epoch", "owner_epoch", "owner_instance_id", "command_sequence",
      "payload"] | none
  return {
    version := ← required readU32 version
    requestId := ← required Tree.asString requestId
    operation := ← required Tree.asString operation
    commandSessionId := ← required Tree.asString commandSessionId
    expectedOwnerEpoch := ← defaulted (Tree.asOption readU64) expectedOwnerEpoch
    ownerEpoch := ← defaulted (Tree.asOption readU64) ownerEpoch
    ownerInstanceId := ← required Tree.asString ownerInstanceId
    commandSequence := ← defaulted (Tree.asOption readU64) commandSequence
    payload := ← required serde.readNested payload }

/-- What was read of an envelope, field by field. -/
theorem RequestEnvelopeV3.exists_of_read {serde : Serde} {tree : Tree}
    {envelope : RequestEnvelopeV3} (h : read serde tree = some envelope) :
    ∃ version requestId operation sessionId expected ownerEpoch instanceId sequence payload,
      tree.fields true ["version", "request_id", "operation", "command_session_id",
          "expected_owner_epoch", "owner_epoch", "owner_instance_id", "command_sequence",
          "payload"] =
        some [some version, some requestId, some operation, some sessionId, expected, ownerEpoch,
          some instanceId, sequence, some payload] ∧
      readU32 version = some envelope.version ∧
      requestId.asString = some envelope.requestId ∧
      operation.asString = some envelope.operation ∧
      serde.readNested payload = some envelope.payload := by
  obtain ⟨fields, hfields, h⟩ := Option.bind_eq_some_iff.mp h
  split at h
  · obtain ⟨tree₁, rfl, _, h₁, h⟩ := required_bind_eq_some_iff.mp h
    obtain ⟨tree₂, rfl, _, h₂, h⟩ := required_bind_eq_some_iff.mp h
    obtain ⟨tree₃, rfl, _, h₃, h⟩ := required_bind_eq_some_iff.mp h
    obtain ⟨tree₄, rfl, _, -, h⟩ := required_bind_eq_some_iff.mp h
    obtain ⟨_, -, h⟩ := Option.bind_eq_some_iff.mp h
    obtain ⟨_, -, h⟩ := Option.bind_eq_some_iff.mp h
    obtain ⟨tree₇, rfl, _, -, h⟩ := required_bind_eq_some_iff.mp h
    obtain ⟨_, -, h⟩ := Option.bind_eq_some_iff.mp h
    obtain ⟨tree₉, rfl, _, h₉, h⟩ := required_bind_eq_some_iff.mp h
    cases h
    exact ⟨tree₁, tree₂, tree₃, tree₄, _, _, tree₇, _, tree₉, hfields, h₁, h₂, h₃, h₉⟩
  · cases h

/-- An object without fields. -/
def isEmptyObject : Value → Bool
  | .object fields => fields.isEmpty
  | _ => false

/-- `decode_owner_acquisition`. -/
def decodeOwnerAcquisition (envelope : RequestEnvelopeV3) :
    Except ProtocolCodecError BrokerRequestV3 := do
  Except.require (envelope.ownerEpoch = none ∧ envelope.commandSequence = none)
    (.invalidRequest
      "protocol-v3 owner acquisition must not contain owner_epoch or command_sequence")
  let expectedOwnerEpoch ← Except.ofOption
    (.invalidRequest "protocol-v3 owner acquisition requires expected_owner_epoch")
    envelope.expectedOwnerEpoch
  Except.require (isEmptyObject envelope.payload = true)
    (.invalidRequest "protocol-v3 owner acquisition payload must be an empty object")
  let requestId ← (RequestId.new envelope.requestId).mapError .invalidRequest
  let sessionId ← identityField (SessionText.new envelope.commandSessionId)
  let expectedOwnerEpoch ← identityField (SessionCounter.new expectedOwnerEpoch)
  let ownerInstanceId ← identityField (SessionText.new envelope.ownerInstanceId)
  return .acquireOwner ⟨requestId, sessionId, expectedOwnerEpoch, ownerInstanceId⟩

/-- `decode_owner_mutation`. -/
def decodeOwnerMutation (serde : Serde) (envelope : RequestEnvelopeV3) (maxFrameBytes : Nat) :
    Except ProtocolCodecError BrokerRequestV3 := do
  Except.require (envelope.expectedOwnerEpoch = none)
    (.invalidRequest "protocol-v3 owner-aware mutation must not contain expected_owner_epoch")
  let ownerEpoch ← Except.ofOption
    (.invalidRequest "protocol-v3 owner-aware mutation requires owner_epoch") envelope.ownerEpoch
  let commandSequence ← Except.ofOption
    (.invalidRequest "protocol-v3 owner-aware mutation requires command_sequence")
    envelope.commandSequence
  let sessionId ← identityField (SessionText.new envelope.commandSessionId)
  let ownerEpoch ← identityField (SessionCounter.new ownerEpoch)
  let ownerInstanceId ← identityField (SessionText.new envelope.ownerInstanceId)
  let sequence ← identityField (SessionCounter.new commandSequence)
  let request ← decodeInner serde envelope.operation envelope.payload envelope.requestId
    maxFrameBytes
  let request ← OwnerIdentifiedBrokerRequestV3.new
    ⟨sessionId, ownerEpoch, some ownerInstanceId, sequence⟩ request
  return .mutation request

/-- `decode_request_v3_with_limit`. -/
def decodeRequestV3WithLimit (serde : Serde) (frame : Bytes) (maxFrameBytes : Nat) :
    Except ProtocolCodecError BrokerRequestV3 := do
  ensureFrameLimit frame.length maxFrameBytes
  let envelope ← (serde.fromSlice .requestEnvelopeV3 (RequestEnvelopeV3.read serde)
    frame).mapError fun error =>
      .invalidRequest ("Request frame must be valid protocol-v3 JSON: " ++ error)
  Except.require (envelope.version = protocolVersionV3) (.invalidRequest
    ("Unsupported protocol-v3 request version " ++ toString envelope.version ++ "."))
  if envelope.operation = acquireCommandSessionOwnerOperation then
    decodeOwnerAcquisition envelope
  else decodeOwnerMutation serde envelope maxFrameBytes

/-! ## Encoding -/

/-- The envelope of an acquisition as it is written. -/
def acquisitionRoot (request : OwnerAcquisitionRequestV3) : Value :=
  .ofEntries [
    ("command_session_id", .string request.sessionId.asStr),
    ("expected_owner_epoch", ofU64 request.expectedOwnerEpoch.toU64),
    ("operation", .string acquireCommandSessionOwnerOperation),
    ("owner_instance_id", .string request.ownerInstanceId.asStr),
    ("payload", .object []),
    ("request_id", .string request.requestId.asStr),
    ("version", ofU32 protocolVersionV3)]

/-- `encode_owner_acquisition_request_with_limit`. -/
def encodeOwnerAcquisitionRequestWithLimit (request : OwnerAcquisitionRequestV3)
    (maxFrameBytes : Nat) : Except ProtocolCodecError Bytes :=
  encodeBounded (acquisitionRoot request) maxFrameBytes

/-- The envelope of an owned mutation as it is written. -/
def ownedRoot (identity : CommandIdentity) (ownerInstanceId : SessionOwnerInstanceId)
    (operation : String) (payload : Value) (requestId : String) : Value :=
  .ofEntries [
    ("command_sequence", ofU64 identity.sequence.toU64),
    ("command_session_id", .string identity.sessionId.asStr),
    ("operation", .string operation),
    ("owner_epoch", ofU64 identity.ownerEpoch.toU64),
    ("owner_instance_id", .string ownerInstanceId.asStr),
    ("payload", payload),
    ("request_id", .string requestId),
    ("version", ofU32 protocolVersionV3)]

/-- `encode_owner_mutation_request_with_limit`. -/
def encodeOwnerMutationRequestWithLimit (serde : Serde) (request : OwnerIdentifiedBrokerRequestV3)
    (maxFrameBytes : Nat) : Except ProtocolCodecError Bytes := do
  let payload ← encodeInner serde request.request maxFrameBytes
  let ownerInstanceId ← Except.ofOption
    (.invalidRequest "protocol-v3 owner-aware mutation omitted owner instance identity")
    request.identity.ownerInstanceId
  encodeBounded
    (ownedRoot request.identity ownerInstanceId request.request.operation.asStr payload
      request.request.requestId.asStr)
    maxFrameBytes

/-! ## Round trip -/

section RoundTrip

variable (serde : Serde)

@[simp] theorem asOption_readU64 (n : U64) :
    Tree.asOption readU64 (ofU64 n).tree = some (some n) := by
  have h := readU64_tree n
  unfold ofU64 at h ⊢
  rw [Value.tree] at h ⊢
  rw [Tree.asOption, h]
  · rfl
  · intro hnull
    cases hnull

theorem emptyObject_regular (depth : Nat) : (Value.object []).Regular (depth + 1) :=
  ⟨List.Pairwise.nil, by simp⟩

theorem acquisitionRoot_regular (request : OwnerAcquisitionRequestV3) :
    (acquisitionRoot request).Regular 2 :=
  regular_ofEntries (by simp [emptyObject_regular])

/-- The envelope of an acquisition is read as it was written. -/
theorem read_acquisitionRoot (request : OwnerAcquisitionRequestV3) :
    RequestEnvelopeV3.read serde (acquisitionRoot request).tree =
      some ⟨protocolVersionV3, request.requestId.asStr, acquireCommandSessionOwnerOperation,
        request.sessionId.asStr, some request.expectedOwnerEpoch.toU64, none,
        request.ownerInstanceId.asStr, none, .object []⟩ := by
  rw [RequestEnvelopeV3.read, acquisitionRoot, fields_tree_ofEntries (by simp only [List.map]; decide)]
  simp [OrdMap.lookup, serde.readNested_tree (emptyObject_regular 125)]

/-- **An acquisition that was encoded is decoded to itself.** -/
theorem decodeRequestV3_of_encodeAcquisition {request : OwnerAcquisitionRequestV3}
    {frame : Bytes} {limit : Nat}
    (h : encodeOwnerAcquisitionRequestWithLimit request limit = .ok frame) :
    decodeRequestV3WithLimit serde frame limit = .ok (.acquireOwner request) := by
  obtain ⟨rfl, hlimit⟩ := encodeBounded_eq_ok_iff.mp h
  rw [decodeRequestV3WithLimit, ensureFrameLimit, require_pos hlimit, ok_bind,
    Serde.fromSlice_compact _ _ (acquisitionRoot_regular request), read_acquisitionRoot,
    ofOption_some, mapError_ok, ok_bind, require_pos rfl,
    ok_bind, if_pos rfl, decodeOwnerAcquisition, require_pos ⟨rfl, rfl⟩,
    ok_bind, ofOption_some, ok_bind, require_pos (show isEmptyObject (.object []) = true from rfl),
    ok_bind, RequestId.new_asStr, mapError_ok, ok_bind,
    SessionText.new_asStr, identityField_ok, ok_bind, SessionCounter.new_toU64,
    identityField_ok, ok_bind, SessionText.new_asStr, identityField_ok, ok_bind]
  rfl

theorem ownedRoot_regular {identity : CommandIdentity} {ownerInstanceId : SessionOwnerInstanceId}
    {operation requestId : String} {payload : Value} {depth : Nat} (h : payload.Regular depth) :
    (ownedRoot identity ownerInstanceId operation payload requestId).Regular (depth + 1) :=
  regular_ofEntries (by simp [h])

/-- The envelope of a payload that is not too deep is read as it was written. -/
theorem read_ownedRoot {identity : CommandIdentity} {ownerInstanceId : SessionOwnerInstanceId}
    {operation requestId : String} {payload : Value} (h : payload.Regular (maxValueDepth - 1)) :
    RequestEnvelopeV3.read serde
        (ownedRoot identity ownerInstanceId operation payload requestId).tree =
      some ⟨protocolVersionV3, requestId, operation, identity.sessionId.asStr, none,
        some identity.ownerEpoch.toU64, ownerInstanceId.asStr, some identity.sequence.toU64,
        payload⟩ := by
  rw [RequestEnvelopeV3.read, ownedRoot, fields_tree_ofEntries (by simp only [List.map]; decide)]
  simp [OrdMap.lookup, serde.readNested_tree h]

/-- No operation of the broker is called like the acquisition of a session. -/
theorem asStr_ne_acquire (operation : Operation) :
    operation.asStr ≠ acquireCommandSessionOwnerOperation := by
  cases operation <;> decide

/-- What `decode_owner_mutation` makes of an envelope with valid fields. -/
theorem decodeOwnerMutation_eq (identity : CommandIdentity)
    (ownerInstanceId : SessionOwnerInstanceId) (operation requestId : String) (payload : Value)
    (limit : Nat) :
    decodeOwnerMutation serde ⟨protocolVersionV3, requestId, operation, identity.sessionId.asStr,
        none, some identity.ownerEpoch.toU64, ownerInstanceId.asStr,
        some identity.sequence.toU64, payload⟩ limit = (do
      let request ← decodeInner serde operation payload requestId limit
      let request ← OwnerIdentifiedBrokerRequestV3.new
        { identity with ownerInstanceId := some ownerInstanceId } request
      return .mutation request) := by
  rw [decodeOwnerMutation, require_pos rfl, ok_bind, ofOption_some,
    ok_bind, ofOption_some, ok_bind, SessionText.new_asStr,
    identityField_ok, ok_bind, SessionCounter.new_toU64, identityField_ok,
    ok_bind, SessionText.new_asStr, identityField_ok, ok_bind,
    SessionCounter.new_toU64, identityField_ok, ok_bind]

/-- **A mutation that was encoded is decoded to itself.** -/
theorem decodeRequestV3_of_encodeMutation {request : OwnerIdentifiedBrokerRequestV3}
    {frame : Bytes} {limit : Nat}
    (h : encodeOwnerMutationRequestWithLimit serde request limit = .ok frame) :
    decodeRequestV3WithLimit serde frame limit = .ok (.mutation request) := by
  obtain ⟨payload, hpayload, h⟩ := bind_eq_ok_iff.mp h
  obtain ⟨rfl, v1Frame, hv1⟩ := (encodeInner_eq_ok_iff serde).mp hpayload
  obtain ⟨ownerInstanceId, howner, h⟩ := bind_eq_ok_iff.mp h
  have howner := ofOption_eq_ok_iff.mp howner
  obtain ⟨rfl, hlimit⟩ := encodeBounded_eq_ok_iff.mp h
  have hregular := (requestPayload_regular request.request).mono
    (show 2 ≤ maxValueDepth - 1 by decide)
  rw [decodeRequestV3WithLimit, ensureFrameLimit, require_pos hlimit, ok_bind,
    Serde.fromSlice_compact _ _ (ownedRoot_regular hregular), read_ownedRoot serde hregular,
    ofOption_some, mapError_ok, ok_bind, require_pos rfl,
    ok_bind, if_neg (asStr_ne_acquire _), decodeOwnerMutation_eq,
    decodeInner_of_encodeRequest serde hv1, ok_bind]
  obtain ⟨identity, request, howned, hmutation⟩ := request
  obtain ⟨sessionId, ownerEpoch, instanceId, sequence⟩ := identity
  cases howner
  rw [OwnerIdentifiedBrokerRequestV3.new, dif_neg (by simp), dif_neg hmutation, ok_bind]
  rfl

end RoundTrip

end AgentBroker
