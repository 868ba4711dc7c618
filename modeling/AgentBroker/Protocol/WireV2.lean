import AgentBroker.Protocol.WireV1

/-!
# Protocol v2: identified requests

The second version of the wire protocol (`wire_v2.rs`) adds the identity of a mutation to
its envelope: the command session and the sequence number.  The owner of a session is not
part of this version.  A request is decoded by writing its version-1 envelope anew and
decoding that under the same limit.

## Main results

* `decodeInner_of_encodeRequest` — the inner envelope of what was encoded is decoded to the
  same request.
* `decodeIdentifiedRequest_of_encode` — what was encoded is decoded to the same request,
  session and sequence; the owner is left out.
-/

namespace AgentBroker

open Except hiding error
open Json
open Json (Value Tree required)

/-! ## Requests inside of later envelopes -/

section Inner

variable (serde : Serde)

/-- Decode the version-1 request inside of a later envelope: it is written anew as a frame
of the first version. -/
def decodeInner (operation : String) (payload : Value) (requestId : String)
    (maxFrameBytes : Nat) : Except ProtocolCodecError BrokerRequest := do
  let v1Frame ← encodeBounded (requestRoot operation payload requestId) maxFrameBytes
  decodeRequestWithLimit serde v1Frame maxFrameBytes

/-- Encode a request in the first version and take the payload out of its frame. -/
def encodeInner (request : BrokerRequest) (maxFrameBytes : Nat) :
    Except ProtocolCodecError Value := do
  let v1Frame ← encodeRequestWithLimit request maxFrameBytes
  let v1 ← (serde.fromSlice .value serde.readValue v1Frame).mapError .serialization
  Except.ofOption (.invalidRequest "internal protocol-v1 request encoding omitted payload")
    (v1.get "payload")

/-- Inside of an envelope goes the payload of the request, if its frame of the first version
keeps the limit. -/
theorem encodeInner_eq_ok_iff {request : BrokerRequest} {limit : Nat} {payload : Value} :
    encodeInner serde request limit = .ok payload ↔
      payload = requestPayload request ∧
        ∃ frame, encodeRequestWithLimit request limit = .ok frame := by
  have hregular : (requestRoot request.operation.asStr (requestPayload request)
      request.requestId.asStr).Regular 3 := requestRoot_regular (requestPayload_regular request)
  have hpayload : (requestRoot request.operation.asStr (requestPayload request)
      request.requestId.asStr).get "payload" = some (requestPayload request) := by
    rw [requestRoot, ofEntries_eq (by simp only [List.map]; decide)]
    rfl
  rw [encodeInner]
  constructor
  · intro h
    obtain ⟨frame, hframe, h⟩ := bind_eq_ok_iff.mp h
    obtain ⟨rfl, -⟩ := encodeBounded_eq_ok_iff.mp hframe
    rw [Serde.fromSlice_compact _ _ hregular, Serde.readValue,
      toValue_tree _ (hregular.mono (by decide)), ofOption_some, mapError_ok,
      ok_bind, hpayload, ofOption_some] at h
    cases h
    exact ⟨rfl, _, hframe⟩
  · rintro ⟨rfl, frame, hframe⟩
    rw [hframe, ok_bind]
    obtain ⟨rfl, -⟩ := encodeBounded_eq_ok_iff.mp hframe
    rw [Serde.fromSlice_compact _ _ hregular, Serde.readValue,
      toValue_tree _ (hregular.mono (by decide)), ofOption_some, mapError_ok,
      ok_bind, hpayload, ofOption_some]

/-- **The inner envelope of what was encoded is decoded to the same request.** -/
theorem decodeInner_of_encodeRequest {request : BrokerRequest} {limit : Nat} {frame : Bytes}
    (h : encodeRequestWithLimit request limit = .ok frame) :
    decodeInner serde request.operation.asStr (requestPayload request) request.requestId.asStr
      limit = .ok request := by
  have hlen := (encodeBounded_eq_ok_iff.mp h).2
  have hdecode := decodeRequest_of_encodeRequest serde h hlen
  rw [encodeRequestWithLimit] at h
  rw [decodeInner, h, ok_bind, hdecode]

end Inner

/-! ## Identified requests -/

/-- `PROTOCOL_VERSION_V2`. -/
def protocolVersionV2 : UInt32 := 2

/-- `CommandIdentity::new`: a session without an owner. -/
def CommandIdentity.new (sessionId : CommandSessionId) (sequence : CommandSequence) :
    CommandIdentity :=
  ⟨sessionId, .initial, none, sequence⟩

/-- A mutation with its identity. -/
structure IdentifiedBrokerRequest where
  identity : CommandIdentity
  request : BrokerRequest
  mutation : request.operation ≠ .health
  deriving DecidableEq

/-- Only mutations are identified. -/
def IdentifiedBrokerRequest.new (identity : CommandIdentity) (request : BrokerRequest) :
    Except ProtocolCodecError IdentifiedBrokerRequest :=
  if h : request.operation = .health then
    .error (.invalidRequest ("protocol-v2 identified requests are mutation-only; " ++
      "health remains protocol-v1/read-only"))
  else .ok ⟨identity, request, h⟩

/-- The envelope of an identified request. -/
structure RequestEnvelopeV2 where
  version : UInt32
  requestId : String
  operation : String
  commandSessionId : String
  commandSequence : U64
  payload : Value

/-- Read an envelope; no other field may occur. -/
def RequestEnvelopeV2.read (serde : Serde) (tree : Tree) : Option RequestEnvelopeV2 := do
  let [version, requestId, operation, commandSessionId, commandSequence, payload] ←
    tree.fields true ["version", "request_id", "operation", "command_session_id",
      "command_sequence", "payload"] | none
  return {
    version := ← required readU32 version
    requestId := ← required Tree.asString requestId
    operation := ← required Tree.asString operation
    commandSessionId := ← required Tree.asString commandSessionId
    commandSequence := ← required readU64 commandSequence
    payload := ← required serde.readNested payload }

/-- What was read of an envelope, field by field. -/
theorem RequestEnvelopeV2.exists_of_read {serde : Serde} {tree : Tree}
    {envelope : RequestEnvelopeV2} (h : read serde tree = some envelope) :
    ∃ version requestId operation sessionId sequence payload,
      tree.fields true ["version", "request_id", "operation", "command_session_id",
          "command_sequence", "payload"] =
        some [some version, some requestId, some operation, some sessionId, some sequence,
          some payload] ∧
      readU32 version = some envelope.version ∧
      requestId.asString = some envelope.requestId ∧
      operation.asString = some envelope.operation ∧
      serde.readNested payload = some envelope.payload := by
  obtain ⟨fields, hfields, h⟩ := Option.bind_eq_some_iff.mp h
  split at h
  · obtain ⟨tree₁, rfl, _, h₁, h⟩ := required_bind_eq_some_iff.mp h
    obtain ⟨tree₂, rfl, _, h₂, h⟩ := required_bind_eq_some_iff.mp h
    obtain ⟨tree₃, rfl, _, h₃, h⟩ := required_bind_eq_some_iff.mp h
    obtain ⟨tree₄, rfl, _, -, h⟩ := required_bind_eq_some_iff.mp h
    obtain ⟨tree₅, rfl, _, -, h⟩ := required_bind_eq_some_iff.mp h
    obtain ⟨tree₆, rfl, _, h₆, h⟩ := required_bind_eq_some_iff.mp h
    cases h
    exact ⟨tree₁, tree₂, tree₃, tree₄, tree₅, tree₆, hfields, h₁, h₂, h₃, h₆⟩
  · cases h

/-- An error of an identity, as it is reported. -/
def identityField {α : Type} (value : Except CommandIdentityError α) :
    Except ProtocolCodecError α :=
  value.mapError fun error => .invalidRequest error.display

/-- `decode_identified_request_with_limit`. -/
def decodeIdentifiedRequestWithLimit (serde : Serde) (frame : Bytes) (maxFrameBytes : Nat) :
    Except ProtocolCodecError IdentifiedBrokerRequest := do
  ensureFrameLimit frame.length maxFrameBytes
  let envelope ← (serde.fromSlice .requestEnvelopeV2 (RequestEnvelopeV2.read serde)
    frame).mapError fun error =>
      .invalidRequest ("Request frame must be valid protocol-v2 JSON: " ++ error)
  Except.require (envelope.version = protocolVersionV2) (.invalidRequest
    ("Unsupported protocol-v2 request version " ++ toString envelope.version ++ "."))
  let sessionId ← identityField (SessionText.new envelope.commandSessionId)
  let sequence ← identityField (SessionCounter.new envelope.commandSequence)
  let request ← decodeInner serde envelope.operation envelope.payload envelope.requestId
    maxFrameBytes
  IdentifiedBrokerRequest.new (.new sessionId sequence) request

/-- The envelope of an identified request as it is written. -/
def identifiedRoot (identity : CommandIdentity) (operation : String) (payload : Value)
    (requestId : String) : Value :=
  .ofEntries [
    ("command_sequence", ofU64 identity.sequence.toU64),
    ("command_session_id", .string identity.sessionId.asStr),
    ("operation", .string operation),
    ("payload", payload),
    ("request_id", .string requestId),
    ("version", ofU32 protocolVersionV2)]

/-- `encode_identified_request_with_limit`. -/
def encodeIdentifiedRequestWithLimit (serde : Serde) (request : IdentifiedBrokerRequest)
    (maxFrameBytes : Nat) : Except ProtocolCodecError Bytes := do
  let payload ← encodeInner serde request.request maxFrameBytes
  encodeBounded
    (identifiedRoot request.identity request.request.operation.asStr payload
      request.request.requestId.asStr)
    maxFrameBytes

/-! ## Round trip -/

section RoundTrip

variable (serde : Serde)

@[simp] theorem identityField_ok {α : Type} (a : α) : identityField (.ok a) = .ok a := rfl

theorem identifiedRoot_regular {identity : CommandIdentity} {operation requestId : String}
    {payload : Value} {depth : Nat} (h : payload.Regular depth) :
    (identifiedRoot identity operation payload requestId).Regular (depth + 1) :=
  regular_ofEntries (by simp [h])

/-- The envelope of a payload that is not too deep is read as it was written. -/
theorem read_identifiedRoot {identity : CommandIdentity} {operation requestId : String}
    {payload : Value} (h : payload.Regular (maxValueDepth - 1)) :
    RequestEnvelopeV2.read serde (identifiedRoot identity operation payload requestId).tree =
      some ⟨protocolVersionV2, requestId, operation, identity.sessionId.asStr,
        identity.sequence.toU64, payload⟩ := by
  rw [RequestEnvelopeV2.read, identifiedRoot, fields_tree_ofEntries (by simp only [List.map]; decide)]
  simp [OrdMap.lookup, serde.readNested_tree h]

/-- **What was encoded is decoded to the same request, session and sequence.** -/
theorem decodeIdentifiedRequest_of_encode {request : IdentifiedBrokerRequest} {frame : Bytes}
    {limit : Nat} (h : encodeIdentifiedRequestWithLimit serde request limit = .ok frame) :
    decodeIdentifiedRequestWithLimit serde frame limit =
      .ok ⟨.new request.identity.sessionId request.identity.sequence, request.request,
        request.mutation⟩ := by
  obtain ⟨payload, hpayload, h⟩ := bind_eq_ok_iff.mp h
  obtain ⟨rfl, v1Frame, hv1⟩ := (encodeInner_eq_ok_iff serde).mp hpayload
  obtain ⟨rfl, hlimit⟩ := encodeBounded_eq_ok_iff.mp h
  have hregular := (requestPayload_regular request.request).mono
    (show 2 ≤ maxValueDepth - 1 by decide)
  rw [decodeIdentifiedRequestWithLimit, ensureFrameLimit, require_pos hlimit,
    ok_bind, Serde.fromSlice_compact _ _ (identifiedRoot_regular hregular),
    read_identifiedRoot serde hregular, ofOption_some, mapError_ok, ok_bind,
    require_pos rfl, ok_bind, SessionText.new_asStr, SessionCounter.new_toU64,
    identityField_ok, identityField_ok, ok_bind, ok_bind,
    decodeInner_of_encodeRequest serde hv1, ok_bind, IdentifiedBrokerRequest.new,
    dif_neg request.mutation]

end RoundTrip

end AgentBroker
