import AgentBroker.Protocol.WireRequest

/-!
# Spellings of a request

The same request can be spelled in many ways: its fields in any order, with whitespace
between them and with escapes in their texts.  The later versions of the protocol write the
request inside of their envelope anew, in one spelling, and decode that under the same
limit.  The spelling they choose is the shortest there is, and the envelope they leave out
is longer than the one they put in, so the limit is never exceeded.

## Main results

* `length_requestRoot_le_v2`, `length_requestRoot_le_v3` — the frame that is written anew is
  no longer than the frame it came from.
* `wrapping_keeps_requests` — a valid request inside of a valid envelope is decoded.
-/

namespace AgentBroker

open Except List Option Json
open Json (Value Tree)

/-! ## Payloads without loss -/

section Payloads

variable {value : Value}
  (hsorted : ∀ fields, value = .object fields → fields.Pairwise (fun a b => a.1 < b.1))
include hsorted

theorem regular_of_namespacePayload {payload : NamespacePayload}
    (h : NamespacePayload.read value = some payload) : value.Regular 2 := by
  obtain ⟨fields, hfields, h⟩ := bind_eq_some_iff.mp h
  split at h
  · obtain ⟨_, h₁, -⟩ := bind_eq_some_iff.mp h
    refine regular_of_fields hsorted hfields ?_
    simp [present_of_string h₁]
  · cases h

theorem regular_of_publishTaskPayload {payload : PublishTaskPayload}
    (h : PublishTaskPayload.read value = some payload) : value.Regular 2 := by
  obtain ⟨fields, hfields, h⟩ := bind_eq_some_iff.mp h
  split at h
  · simp only [bind_eq_bind, bind_eq_some_iff] at h
    obtain ⟨_, h₁, _, h₂, _, h₃, -⟩ := h
    refine regular_of_fields hsorted hfields ?_
    simp [present_of_string h₁, present_of_string h₂, present_of_string h₃]
  · cases h

theorem regular_of_ensureGroupPayload {payload : EnsureGroupPayload}
    (h : EnsureGroupPayload.read value = some payload) : value.Regular 2 := by
  obtain ⟨fields, hfields, h⟩ := bind_eq_some_iff.mp h
  split at h
  · simp only [bind_eq_bind, bind_eq_some_iff] at h
    obtain ⟨_, h₁, _, h₂, -⟩ := h
    refine regular_of_fields hsorted hfields ?_
    simp [present_of_string h₁, present_of_string h₂]
  · cases h

theorem regular_of_joinGroupPayload {payload : JoinGroupPayload}
    (h : JoinGroupPayload.read value = some payload) : value.Regular 2 := by
  obtain ⟨fields, hfields, h⟩ := bind_eq_some_iff.mp h
  split at h
  · simp only [bind_eq_bind, bind_eq_some_iff] at h
    obtain ⟨_, h₁, _, h₂, _, h₃, -⟩ := h
    refine regular_of_fields hsorted hfields ?_
    simp [present_of_string h₁, present_of_string h₂, present_of_strings h₃]
  · cases h

theorem regular_of_membershipPayload {payload : MembershipPayload}
    (h : MembershipPayload.read value = some payload) : value.Regular 2 := by
  obtain ⟨fields, hfields, h⟩ := bind_eq_some_iff.mp h
  split at h
  · simp only [bind_eq_bind, bind_eq_some_iff] at h
    obtain ⟨_, h₁, _, h₂, _, h₃, -⟩ := h
    refine regular_of_fields hsorted hfields ?_
    simp [present_of_string h₁, present_of_string h₂, present_of_natural h₃]
  · cases h

theorem regular_of_claimTaskPayload {payload : ClaimTaskPayload}
    (h : ClaimTaskPayload.read value = some payload) : value.Regular 2 := by
  obtain ⟨fields, hfields, h⟩ := bind_eq_some_iff.mp h
  split at h
  · simp only [bind_eq_bind, bind_eq_some_iff] at h
    obtain ⟨_, h₁, _, h₂, _, h₃, _, h₄, _, h₅, _, h₆, -⟩ := h
    refine regular_of_fields hsorted hfields ?_
    simp [present_of_string h₁, present_of_string h₂, present_of_natural h₃,
      present_of_natural h₄, present_of_string h₅, present_of_natural h₆]
  · cases h

theorem regular_of_renewTaskPayload {payload : RenewTaskPayload}
    (h : RenewTaskPayload.read value = some payload) : value.Regular 2 := by
  obtain ⟨fields, hfields, h⟩ := bind_eq_some_iff.mp h
  split at h
  · simp only [bind_eq_bind, bind_eq_some_iff] at h
    obtain ⟨_, h₁, _, h₂, _, h₃, _, h₄, _, h₅, _, h₆, _, h₇, _, h₈, -⟩ := h
    refine regular_of_fields hsorted hfields ?_
    simp [present_of_string h₁, present_of_string h₂, present_of_string h₃,
      present_of_natural h₄, present_of_natural h₅, present_of_natural h₆,
      present_of_string h₇, present_of_natural h₈]
  · cases h

theorem regular_of_completeTaskPayload {payload : CompleteTaskPayload}
    (h : CompleteTaskPayload.read value = some payload) : value.Regular 2 := by
  obtain ⟨fields, hfields, h⟩ := bind_eq_some_iff.mp h
  split at h
  · simp only [bind_eq_bind, bind_eq_some_iff] at h
    obtain ⟨_, h₁, _, h₂, _, h₃, _, h₄, _, h₅, _, h₆, _, h₇, _, h₈, -⟩ := h
    refine regular_of_fields hsorted hfields ?_
    simp [present_of_string h₁, present_of_string h₂, present_of_string h₃,
      present_of_natural h₄, present_of_natural h₅, present_of_natural h₆,
      present_of_string h₇, present_of_string h₈]
  · cases h

theorem regular_of_emptyPayload (h : EmptyPayload.read value = some ()) : value.Regular 2 := by
  obtain ⟨fields, hfields, h⟩ := bind_eq_some_iff.mp h
  split at h
  · exact regular_of_fields hsorted hfields (by simp)
  · cases h

end Payloads

variable {serde : Serde} {payload : Value} {operation requestId : String}
  {request : BrokerRequest} {tree : Tree} {frame : Bytes} {members : List (Bytes × Tree)}
  {limit : Nat}

theorem read_of_decodePayload {α : Type} {record : PayloadRecord} {read : Value → Option α} {a : α}
    (h : decodePayload serde record read payload = .ok a) : read payload = some a :=
  ofOption_eq_ok_iff.mp (mapError_eq_ok_iff.mp h)

/-- **A payload that is decoded is without loss**: no field of it is a number out of range. -/
theorem regular_of_decodeOperation {operation : Operation} {requestId : RequestId}
    (hsorted : ∀ fields, payload = .object fields → fields.Pairwise (fun a b => a.1 < b.1))
    (h : decodeOperation serde operation requestId payload = .ok request) :
    payload.Regular 2 := by
  cases operation <;> obtain ⟨_, hread, -⟩ := bind_eq_ok_iff.mp h
  case health => exact regular_of_emptyPayload hsorted (read_of_decodePayload hread)
  case ensureNamespace => exact regular_of_namespacePayload hsorted (read_of_decodePayload hread)
  case publishTask => exact regular_of_publishTaskPayload hsorted (read_of_decodePayload hread)
  case ensureConsumerGroup =>
    exact regular_of_ensureGroupPayload hsorted (read_of_decodePayload hread)
  case joinConsumerGroup => exact regular_of_joinGroupPayload hsorted (read_of_decodePayload hread)
  case heartbeat => exact regular_of_membershipPayload hsorted (read_of_decodePayload hread)
  case leaveConsumerGroup =>
    exact regular_of_membershipPayload hsorted (read_of_decodePayload hread)
  case claimTask => exact regular_of_claimTaskPayload hsorted (read_of_decodePayload hread)
  case renewTaskLease => exact regular_of_renewTaskPayload hsorted (read_of_decodePayload hread)
  case completeTask => exact regular_of_completeTaskPayload hsorted (read_of_decodePayload hread)

/-! ## The frame that is written anew -/

/-- What the envelope of the first version takes besides its texts and the payload. -/
theorem length_requestRoot (operation : String) (payload : Value) (requestId : String) :
    (requestRoot operation payload requestId).compact.length =
      (Json.string "operation").length + (Json.string "payload").length +
        (Json.string "request_id").length + (Json.string "version").length +
        (Json.string operation).length + payload.compact.length +
        (Json.string requestId).length + 10 := by
  have hversion : (ofU32 protocolVersion).compact.length = 1 := by decide
  rw [requestRoot, ofEntries_eq (by simp only [List.map]; decide), length_compact_object]
  simp only [map_cons, map_nil, sum_cons, sum_nil, Json.fieldLength,
    compact_string, hversion, length_cons, length_nil]
  omega

theorem length_pos_of_readU32 {n : UInt32} (h : readU32 tree = some n) :
    0 < tree.text.length := by
  obtain ⟨_, h, -⟩ := map_eq_some_iff.mp h
  exact length_pos_of_asNatural h

/-- **The frame that is written anew is no longer** than an identified frame in any
spelling. -/
theorem length_requestRoot_le_v2 {envelope : RequestEnvelopeV2}
    (hparse : Json.parse frame = some (.object members))
    (hread : RequestEnvelopeV2.read serde (.object members) = some envelope) {depth : Nat}
    (hpayload : envelope.payload.Regular depth) :
    ((requestRoot envelope.operation envelope.payload envelope.requestId).compact ++ [10]).length ≤
      frame.length := by
  obtain ⟨version, requestId, operation, sessionId, sequence, payload, hfields, hversion,
    hrequestId, hoperation, hvalue⟩ := RequestEnvelopeV2.exists_of_read hread
  have htext := length_text_le_of_parse hparse
  have hmembers := sum_named_le (by decide) hfields
  have hversion := length_pos_of_readU32 hversion
  have hrequestId := length_string_le_of_asString hrequestId
  have hoperation := length_string_le_of_asString hoperation
  have hpayload := length_compact_le_of_toValue hvalue hpayload
  rw [length_append, length_singleton, length_requestRoot]
  simp only [zipWith_cons_cons, zipWith_nil_left, sum_cons, sum_nil, Json.memberLength] at hmembers
  omega

/-- **The frame that is written anew is no longer** than an owned frame in any spelling. -/
theorem length_requestRoot_le_v3 {envelope : RequestEnvelopeV3}
    (hparse : Json.parse frame = some (.object members))
    (hread : RequestEnvelopeV3.read serde (.object members) = some envelope) {depth : Nat}
    (hpayload : envelope.payload.Regular depth) :
    ((requestRoot envelope.operation envelope.payload envelope.requestId).compact ++ [10]).length ≤
      frame.length := by
  obtain ⟨version, requestId, operation, sessionId, expected, ownerEpoch, instanceId, sequence,
    payload, hfields, hversion, hrequestId, hoperation, hvalue⟩ :=
    RequestEnvelopeV3.exists_of_read hread
  have htext := length_text_le_of_parse hparse
  have hmembers := sum_named_le (by decide) hfields
  have hversion := length_pos_of_readU32 hversion
  have hrequestId := length_string_le_of_asString hrequestId
  have hoperation := length_string_le_of_asString hoperation
  have hpayload := length_compact_le_of_toValue hvalue hpayload
  rw [length_append, length_singleton, length_requestRoot]
  simp only [zipWith_cons_cons, zipWith_nil_left, sum_cons, sum_nil, Json.memberLength] at hmembers
  omega

/-! ## Valid requests inside of valid envelopes -/

/-- The request inside of an envelope is decoded as if it had come in a frame of its own. -/
theorem decodeInner_eq_decodeEnvelope (serde : Serde) (hpayload : payload.Regular 2)
    (hlimit : ((requestRoot operation payload requestId).compact ++ [10]).length ≤ limit) :
    decodeInner serde operation payload requestId limit =
      decodeEnvelope serde requestId operation payload := by
  have hencode : encodeBounded (requestRoot operation payload requestId) limit = .ok _ :=
    encodeBounded_eq_ok_iff.mpr ⟨rfl, hlimit⟩
  rw [decodeInner, hencode, ok_bind]
  exact decodeRequest_requestRoot serde (hpayload.mono (by decide)) hencode hlimit

/-- A payload that came in an envelope and is part of a valid request is without loss. -/
theorem regular_of_decodeEnvelope (htree : serde.readNested tree = some payload)
    (h : decodeEnvelope serde requestId operation payload = .ok request) :
    payload.Regular 2 := by
  obtain ⟨_, -, h⟩ := bind_eq_ok_iff.mp h
  obtain ⟨_, -, h⟩ := bind_eq_ok_iff.mp h
  refine regular_of_decodeOperation (fun fields hfields => ?_) h
  subst hfields
  exact sorted_of_toValue htree

/-- The operation of a valid request is one of the broker's. -/
theorem ne_acquire_of_decodeEnvelope
    (h : decodeEnvelope serde requestId operation payload = .ok request) :
    operation ≠ acquireCommandSessionOwnerOperation := by
  obtain ⟨_, -, h⟩ := bind_eq_ok_iff.mp h
  obtain ⟨known, hknown, -⟩ := bind_eq_ok_iff.mp h
  rw [← Operation.asStr_of_tryFrom (ofOption_eq_ok_iff.mp hknown)]
  exact asStr_ne_acquire known

/-- The probe of an object that has the fields of an envelope. -/
theorem probe_of_fields (serde : Serde) {version : Tree} {names : List String}
    {rest : List (Option Tree)} {n : UInt32} (hparse : Json.parse frame = some (.object members))
    (hfields : (Tree.object members).fields true ("version" :: names) =
      some (some version :: rest)) (hversion : readU32 version = some n) :
    serde.fromSlice .versionProbe VersionProbe.read frame = .ok n := by
  rw [Serde.fromSlice, hparse, bind_some, VersionProbe.read, fields_single hfields]
  exact congrArg _ hversion

theorem fromSlice_of_parse (serde : Serde) (record : FrameRecord) {α : Type}
    {read : Tree → Option α} {a : α} (hparse : Json.parse frame = some tree)
    (hread : read tree = some a) :
    serde.fromSlice record read frame = .ok a := by
  rw [Serde.fromSlice, hparse, bind_some, hread, ofOption_some]

theorem decodeWireRequest_of_spelling_v2 (serde : Serde) (hlimit : frame.length ≤ limit)
    (hparse : Json.parse frame = some (.object members)) (hmutation : request.operation ≠ .health)
    {envelope : RequestEnvelopeV2} {sessionId : CommandSessionId} {sequence : CommandSequence}
    (hread : RequestEnvelopeV2.read serde (.object members) = some envelope)
    (hversion : envelope.version = protocolVersionV2)
    (hsessionId : SessionText.new envelope.commandSessionId = .ok sessionId)
    (hsequence : SessionCounter.new envelope.commandSequence = .ok sequence)
    (hrequest : decodeEnvelope serde envelope.requestId envelope.operation envelope.payload =
      .ok request) :
    ((requestRoot envelope.operation envelope.payload envelope.requestId).compact ++ [10]).length ≤
        limit ∧
      decodeWireRequestWithLimit serde frame limit =
        .ok (.v2 ⟨.new sessionId sequence, request, hmutation⟩) := by
  obtain ⟨version, _, _, _, _, payload, hfields, hversionTree, -, -, hpayload⟩ :=
    RequestEnvelopeV2.exists_of_read hread
  have hregular := regular_of_decodeEnvelope hpayload hrequest
  have hinner := (length_requestRoot_le_v2 hparse hread hregular).trans hlimit
  refine ⟨hinner, ?_⟩
  rw [hversion] at hversionTree
  rw [decodeWireRequest_of_probe serde hlimit (probe_of_fields serde hparse hfields hversionTree),
    if_neg (by decide), if_pos rfl, decodeIdentifiedRequestWithLimit, ensureFrameLimit,
    require_pos hlimit, ok_bind, fromSlice_of_parse serde _ hparse hread,
    mapError_ok, ok_bind, require_pos hversion, ok_bind, hsessionId,
    hsequence, identityField_ok, identityField_ok, ok_bind, ok_bind,
    decodeInner_eq_decodeEnvelope serde hregular hinner, hrequest, ok_bind,
    IdentifiedBrokerRequest.new, dif_neg hmutation]
  rfl

theorem decodeWireRequest_of_spelling_v3 (serde : Serde) (hlimit : frame.length ≤ limit)
    (hparse : Json.parse frame = some (.object members)) (hmutation : request.operation ≠ .health)
    {envelope : RequestEnvelopeV3} {sessionId : CommandSessionId} {ownerEpoch : SessionOwnerEpoch}
    {ownerInstanceId : SessionOwnerInstanceId} {sequence : CommandSequence}
    (hread : RequestEnvelopeV3.read serde (.object members) = some envelope)
    (hversion : envelope.version = protocolVersionV3)
    (hsessionId : SessionText.new envelope.commandSessionId = .ok sessionId)
    (hexpected : envelope.expectedOwnerEpoch = none)
    (hownerEpoch : envelope.ownerEpoch = some ownerEpoch.toU64)
    (hownerInstanceId : SessionText.new envelope.ownerInstanceId = .ok ownerInstanceId)
    (hsequence : envelope.commandSequence = some sequence.toU64)
    (hrequest : decodeEnvelope serde envelope.requestId envelope.operation envelope.payload =
      .ok request) :
    ((requestRoot envelope.operation envelope.payload envelope.requestId).compact ++ [10]).length ≤
        limit ∧
      decodeWireRequestWithLimit serde frame limit =
        .ok (.v3 (.mutation ⟨⟨sessionId, ownerEpoch, some ownerInstanceId, sequence⟩, request,
          some_ne_none _, hmutation⟩)) := by
  obtain ⟨version, _, _, _, _, _, _, _, payload, hfields, hversionTree, -, -, hpayload⟩ :=
    RequestEnvelopeV3.exists_of_read hread
  have hregular := regular_of_decodeEnvelope hpayload hrequest
  have hinner := (length_requestRoot_le_v3 hparse hread hregular).trans hlimit
  refine ⟨hinner, ?_⟩
  rw [hversion] at hversionTree
  rw [decodeWireRequest_of_probe serde hlimit (probe_of_fields serde hparse hfields hversionTree),
    if_neg (by decide), if_neg (by decide), if_pos rfl, decodeRequestV3WithLimit,
    ensureFrameLimit, require_pos hlimit, ok_bind,
    fromSlice_of_parse serde _ hparse hread, mapError_ok, ok_bind,
    require_pos hversion, ok_bind, if_neg (ne_acquire_of_decodeEnvelope hrequest),
    decodeOwnerMutation, require_pos hexpected, ok_bind, hownerEpoch, hsequence,
    ofOption_some, ok_bind, ofOption_some, ok_bind, hsessionId,
    identityField_ok, ok_bind, SessionCounter.new_toU64, identityField_ok, ok_bind,
    hownerInstanceId, identityField_ok, ok_bind, SessionCounter.new_toU64,
    identityField_ok, ok_bind, decodeInner_eq_decodeEnvelope serde hregular hinner,
    hrequest, ok_bind, OwnerIdentifiedBrokerRequestV3.new, dif_neg (some_ne_none _),
    dif_neg hmutation]
  rfl

/-- **A valid request inside of a valid envelope is decoded**, in whatever spelling the frame
comes: the frame of the first version that is written for it keeps the limit that the frame
itself keeps. -/
theorem wrapping_keeps_requests (serde : Serde) (limit : Nat) (frame : Bytes)
    (hlimit : frame.length ≤ limit) (members : List (Bytes × Tree))
    (hparse : Json.parse frame = some (.object members)) (request : BrokerRequest)
    (hmutation : request.operation ≠ .health) :
    (∀ (envelope : RequestEnvelopeV2) (sessionId : CommandSessionId) (sequence : CommandSequence),
      RequestEnvelopeV2.read serde (.object members) = some envelope →
      envelope.version = protocolVersionV2 →
      SessionText.new envelope.commandSessionId = .ok sessionId →
      SessionCounter.new envelope.commandSequence = .ok sequence →
      decodeEnvelope serde envelope.requestId envelope.operation envelope.payload = .ok request →
      (∃ v1Frame, encodeBounded (requestRoot envelope.operation envelope.payload
          envelope.requestId) limit = .ok v1Frame) ∧
        decodeWireRequestWithLimit serde frame limit =
          .ok (.v2 ⟨.new sessionId sequence, request, hmutation⟩)) ∧
    (∀ (envelope : RequestEnvelopeV3) (sessionId : CommandSessionId)
      (ownerEpoch : SessionOwnerEpoch) (ownerInstanceId : SessionOwnerInstanceId)
      (sequence : CommandSequence),
      RequestEnvelopeV3.read serde (.object members) = some envelope →
      envelope.version = protocolVersionV3 →
      SessionText.new envelope.commandSessionId = .ok sessionId →
      envelope.expectedOwnerEpoch = none →
      envelope.ownerEpoch = some ownerEpoch.toU64 →
      SessionText.new envelope.ownerInstanceId = .ok ownerInstanceId →
      envelope.commandSequence = some sequence.toU64 →
      decodeEnvelope serde envelope.requestId envelope.operation envelope.payload = .ok request →
      (∃ v1Frame, encodeBounded (requestRoot envelope.operation envelope.payload
          envelope.requestId) limit = .ok v1Frame) ∧
        decodeWireRequestWithLimit serde frame limit =
          .ok (.v3 (.mutation ⟨⟨sessionId, ownerEpoch, some ownerInstanceId, sequence⟩, request,
            some_ne_none _, hmutation⟩))) := by
  refine ⟨?_, ?_⟩
  · intro envelope sessionId sequence hread hversion hsessionId hsequence hrequest
    obtain ⟨hinner, hdecode⟩ := decodeWireRequest_of_spelling_v2 serde hlimit hparse hmutation
      hread hversion hsessionId hsequence hrequest
    exact ⟨⟨_, encodeBounded_eq_ok_iff.mpr ⟨rfl, hinner⟩⟩, hdecode⟩
  · intro envelope sessionId ownerEpoch ownerInstanceId sequence hread hversion hsessionId
      hexpected hownerEpoch hownerInstanceId hsequence hrequest
    obtain ⟨hinner, hdecode⟩ := decodeWireRequest_of_spelling_v3 serde hlimit hparse hmutation
      hread hversion hsessionId hexpected hownerEpoch hownerInstanceId hsequence hrequest
    exact ⟨⟨_, encodeBounded_eq_ok_iff.mpr ⟨rfl, hinner⟩⟩, hdecode⟩

/-- An identified frame with its fields out of order, spaces and an escaped letter. -/
def spelledFrame : Bytes :=
  Bytes.ofString ("\x7b \"payload\" : \x7b\"namespace_id\":\"n\\u0073\"\x7d, \"version\":2," ++
    "\"request_id\":\"r-1\",\"operation\":\"namespace.ensure\",\"command_sequence\": 1," ++
    "\"command_session_id\":\"session\"\x7d")

/-- Its members. -/
def spelledMembers : List (Bytes × Tree) :=
  [(Bytes.ofString "payload",
      .object [(Bytes.ofString "namespace_id", .string (Bytes.ofString "n\\u0073"))]),
    (Bytes.ofString "version", .number (Bytes.ofString "2")),
    (Bytes.ofString "request_id", .string (Bytes.ofString "r-1")),
    (Bytes.ofString "operation", .string (Bytes.ofString "namespace.ensure")),
    (Bytes.ofString "command_sequence", .number (Bytes.ofString "1")),
    (Bytes.ofString "command_session_id", .string (Bytes.ofString "session"))]

set_option maxRecDepth 20000 in
theorem parse_spelledFrame : Json.parse spelledFrame = some (.object spelledMembers) := by rfl

theorem read_spelledMembers :
    RequestEnvelopeV2.read default (.object spelledMembers) =
      some ⟨protocolVersionV2, "r-1", "namespace.ensure", "session", 1,
        requestPayload ensureRequest⟩ := by
  have hpayload : requestPayload ensureRequest = .object [("namespace_id", .string "ns")] :=
    ofEntries_eq (by simp only [List.map]; decide)
  rw [hpayload]
  rfl

/-- A frame in an unusual spelling, and one of the third version as it is written. -/
theorem wrapping_keeps_requests_spelled :
    decodeWireRequestWithLimit default spelledFrame 4096 =
        .ok (.v2 ⟨.new ownedIdentity.sessionId .initial, ensureRequest, by decide⟩) ∧
      decodeWireRequestWithLimit default ((ownedRoot ownedIdentity
          acquisitionRequest.ownerInstanceId ensureRequest.operation.asStr
          (requestPayload ensureRequest) ensureRequest.requestId.asStr).compact ++ [10]) 4096 =
        .ok (.v3 (.mutation ⟨ownedIdentity, ensureRequest, by decide, by decide⟩)) := by
  have hrequest := decodeEnvelope_request default ensureRequest
  have hregular := requestPayload_regular ensureRequest
  refine ⟨?_, ?_⟩
  · exact ((wrapping_keeps_requests default 4096 spelledFrame (by decide +kernel) _
      parse_spelledFrame ensureRequest (by decide)).1 _ ownedIdentity.sessionId .initial
      read_spelledMembers rfl (SessionText.new_asStr ownedIdentity.sessionId) rfl hrequest).2
  · have hroot : (ownedRoot ownedIdentity acquisitionRequest.ownerInstanceId
        ensureRequest.operation.asStr (requestPayload ensureRequest)
        ensureRequest.requestId.asStr).Regular 3 := ownedRoot_regular hregular
    have hparse := parse_compact hroot.whole isSpace_newline
    exact ((wrapping_keeps_requests default 4096 _ (by decide +kernel) _ hparse ensureRequest
      (by decide)).2 _ ownedIdentity.sessionId ownedIdentity.ownerEpoch
      acquisitionRequest.ownerInstanceId .initial
      (read_ownedRoot default (hregular.mono (by decide))) rfl (SessionText.new_asStr _) rfl rfl
      (SessionText.new_asStr _) rfl hrequest).2

end AgentBroker
