import AgentBroker.Protocol.WireV3

/-!
# Requests of every version

A server reads the version of a frame first and then decodes the frame as a request of that
version (`decode_wire_request_with_limit`).  The probe for the version ignores every other
field.

## Main results

* `request_codecs_round_trip` — in each version, what was encoded is decoded to the same
  request and refused by the decoders of the other versions.  The second version carries no
  owner.
-/

namespace AgentBroker

open Except hiding error
open Json (Value Tree required)

/-! ## The version of a frame -/

/-- A request of some version. -/
inductive BrokerWireRequest where
  | v1 (request : BrokerRequest)
  | v2 (request : IdentifiedBrokerRequest)
  | v3 (request : BrokerRequestV3)
  deriving DecidableEq

namespace BrokerWireRequest

/-- What correlates a request with its response. -/
def requestId : BrokerWireRequest → RequestId
  | .v1 request => request.requestId
  | .v2 request => request.request.requestId
  | .v3 request => request.requestId

/-- The version of a request. -/
def protocolVersion : BrokerWireRequest → UInt32
  | .v1 _ => AgentBroker.protocolVersion
  | .v2 _ => protocolVersionV2
  | .v3 _ => protocolVersionV3

end BrokerWireRequest

/-- Read the version of a frame; other fields are ignored. -/
def VersionProbe.read (tree : Tree) : Option UInt32 := do
  let [version] ← tree.fields false ["version"] | none
  required readU32 version

section Decoding

variable (serde : Serde)

/-- `request_version_hint`. -/
def requestVersionHint (frame : Bytes) : Option UInt32 :=
  (serde.fromSlice .versionProbe VersionProbe.read frame).toOption

/-- `decode_wire_request_with_limit`. -/
def decodeWireRequestWithLimit (frame : Bytes) (maxFrameBytes : Nat) :
    Except ProtocolCodecError BrokerWireRequest := do
  ensureFrameLimit frame.length maxFrameBytes
  let version ← (serde.fromSlice .versionProbe VersionProbe.read frame).mapError fun error =>
    .invalidRequest ("Request frame must be valid Broker JSON: " ++ error)
  if version = protocolVersion then
    .v1 <$> decodeRequestWithLimit serde frame maxFrameBytes
  else if version = protocolVersionV2 then
    .v2 <$> decodeIdentifiedRequestWithLimit serde frame maxFrameBytes
  else if version = protocolVersionV3 then
    .v3 <$> decodeRequestV3WithLimit serde frame maxFrameBytes
  else .error (.invalidRequest ("Unsupported protocol version " ++ toString version ++ "."))

/-- The version a frame starts with, whatever else it holds. -/
def statedVersion (frame : Bytes) : Option UInt32 :=
  (Json.parse frame).bind fun tree => (tree.first "version").bind readU32

variable {frame : Bytes} {version : UInt32} {limit : Nat}

theorem statedVersion_of_fields {tree version : Tree} {names : List String}
    {rest : List (Option Tree)} {n : UInt32} {deny : Bool} (hparse : Json.parse frame = some tree)
    (hfields : tree.fields deny ("version" :: names) = some (some version :: rest))
    (hversion : readU32 version = some n) : statedVersion frame = some n := by
  rw [statedVersion, hparse, Option.bind_some, Json.first_of_fields hfields, Option.bind_some,
    hversion]

/-- The reading of a frame that succeeded. -/
theorem Serde.exists_of_fromSlice {α : Type} {record : FrameRecord} {read : Tree → Option α} {a : α}
    (h : serde.fromSlice record read frame = .ok a) :
    ∃ tree, Json.parse frame = some tree ∧ read tree = some a :=
  Option.bind_eq_some_iff.mp (ofOption_eq_ok_iff.mp h)

theorem statedVersion_of_decodeRequest {request : BrokerRequest}
    (h : decodeRequestWithLimit serde frame limit = .ok request) :
    statedVersion frame = some protocolVersion := by
  obtain ⟨-, -, h⟩ := bind_eq_ok_iff.mp h
  obtain ⟨envelope, henvelope, h⟩ := bind_eq_ok_iff.mp h
  obtain ⟨_, hversion, -⟩ := bind_eq_ok_iff.mp h
  obtain ⟨tree, hparse, hread⟩ :=
    serde.exists_of_fromSlice (mapError_eq_ok_iff.mp henvelope)
  obtain ⟨version, _, _, _, hfields, hread, -⟩ := RequestEnvelopeWire.exists_of_read hread
  rw [← require_eq_ok_iff.mp hversion]
  exact statedVersion_of_fields hparse hfields hread

theorem statedVersion_of_decodeIdentifiedRequest {request : IdentifiedBrokerRequest}
    (h : decodeIdentifiedRequestWithLimit serde frame limit = .ok request) :
    statedVersion frame = some protocolVersionV2 := by
  obtain ⟨-, -, h⟩ := bind_eq_ok_iff.mp h
  obtain ⟨envelope, henvelope, h⟩ := bind_eq_ok_iff.mp h
  obtain ⟨_, hversion, -⟩ := bind_eq_ok_iff.mp h
  obtain ⟨tree, hparse, hread⟩ :=
    serde.exists_of_fromSlice (mapError_eq_ok_iff.mp henvelope)
  obtain ⟨version, _, _, _, _, _, hfields, hread, -⟩ := RequestEnvelopeV2.exists_of_read hread
  rw [← require_eq_ok_iff.mp hversion]
  exact statedVersion_of_fields hparse hfields hread

theorem statedVersion_of_decodeRequestV3 {request : BrokerRequestV3}
    (h : decodeRequestV3WithLimit serde frame limit = .ok request) :
    statedVersion frame = some protocolVersionV3 := by
  obtain ⟨-, -, h⟩ := bind_eq_ok_iff.mp h
  obtain ⟨envelope, henvelope, h⟩ := bind_eq_ok_iff.mp h
  obtain ⟨_, hversion, -⟩ := bind_eq_ok_iff.mp h
  obtain ⟨tree, hparse, hread⟩ :=
    serde.exists_of_fromSlice (mapError_eq_ok_iff.mp henvelope)
  obtain ⟨version, _, _, _, _, _, _, _, _, hfields, hread, -⟩ :=
    RequestEnvelopeV3.exists_of_read hread
  rw [← require_eq_ok_iff.mp hversion]
  exact statedVersion_of_fields hparse hfields hread

/-- The decoders of all versions but one refuse a frame, whatever the limit. -/
def RefusedByOthers (version : UInt32) (frame : Bytes) : Prop :=
  ∀ limit : Nat,
    (version ≠ protocolVersion →
      ∀ request, decodeRequestWithLimit serde frame limit ≠ .ok request) ∧
    (version ≠ protocolVersionV2 →
      ∀ request, decodeIdentifiedRequestWithLimit serde frame limit ≠ .ok request) ∧
    (version ≠ protocolVersionV3 →
      ∀ request, decodeRequestV3WithLimit serde frame limit ≠ .ok request)

/-- A frame is refused by the decoders of the versions it does not state. -/
theorem refusedByOthers_of_statedVersion (h : statedVersion frame = some version) :
    RefusedByOthers serde version frame := by
  intro limit
  refine ⟨fun hne request hok => hne ?_, fun hne request hok => hne ?_,
    fun hne request hok => hne ?_⟩
  · exact Option.some.inj (h.symm.trans (statedVersion_of_decodeRequest serde hok))
  · exact Option.some.inj (h.symm.trans (statedVersion_of_decodeIdentifiedRequest serde hok))
  · exact Option.some.inj (h.symm.trans (statedVersion_of_decodeRequestV3 serde hok))

/-- The probe of a frame that was written. -/
theorem probe_ofEntries {entries : List (String × Value)}
    (hsorted : (entries.map Prod.fst).Pairwise (· < ·))
    (hversion : OrdMap.lookup "version" (entries.map fun entry => (entry.1, entry.2.tree)) =
      some (ofU32 version).tree) {depth : Nat}
    (hregular : (Value.ofEntries entries).Regular depth) :
    serde.fromSlice .versionProbe VersionProbe.read
      ((Value.ofEntries entries).compact ++ [10]) = .ok version := by
  rw [Serde.fromSlice_compact _ _ hregular, VersionProbe.read,
    Json.fields_tree_of_sorted hsorted, List.map_singleton, hversion]
  exact congrArg _ (readU32_tree version)

theorem statedVersion_of_probe
    (h : serde.fromSlice .versionProbe VersionProbe.read frame = .ok version) :
    statedVersion frame = some version := by
  obtain ⟨tree, hparse, hread⟩ := serde.exists_of_fromSlice h
  obtain ⟨fields, hfields, hread⟩ := Option.bind_eq_some_iff.mp hread
  split at hread
  · obtain ⟨field, rfl, hread⟩ := Json.required_eq_some_iff.mp hread
    exact statedVersion_of_fields hparse hfields hread
  · cases hread

/-- A frame within the limit is decoded as the version its probe says. -/
theorem decodeWireRequest_of_probe (hlimit : frame.length ≤ limit)
    (h : serde.fromSlice .versionProbe VersionProbe.read frame = .ok version) :
    decodeWireRequestWithLimit serde frame limit =
      if version = protocolVersion then .v1 <$> decodeRequestWithLimit serde frame limit
      else if version = protocolVersionV2 then
        .v2 <$> decodeIdentifiedRequestWithLimit serde frame limit
      else if version = protocolVersionV3 then .v3 <$> decodeRequestV3WithLimit serde frame limit
      else
        .error (.invalidRequest ("Unsupported protocol version " ++ toString version ++ ".")) := by
  rw [decodeWireRequestWithLimit, ensureFrameLimit, require_pos hlimit, ok_bind, h,
    mapError_ok, ok_bind]

end Decoding

/-! ## Round trips -/

section RoundTrip

variable (serde : Serde)

variable {frame : Bytes} {limit : Nat}

theorem decodeWireRequest_of_encodeRequest {request : BrokerRequest}
    (h : encodeRequestWithLimit request limit = .ok frame) :
    decodeWireRequestWithLimit serde frame limit = .ok (.v1 request) ∧
      RefusedByOthers serde protocolVersion frame := by
  obtain ⟨hframe, hlimit⟩ := encodeBounded_eq_ok_iff.mp h
  have hprobe : serde.fromSlice .versionProbe VersionProbe.read frame = .ok protocolVersion := by
    rw [hframe]
    exact probe_ofEntries serde (by simp only [List.map]; decide) rfl (requestRoot_regular (requestPayload_regular request))
  refine ⟨?_, refusedByOthers_of_statedVersion serde (statedVersion_of_probe serde hprobe)⟩
  rw [decodeWireRequest_of_probe serde hlimit hprobe, if_pos rfl,
    decodeRequest_of_encodeRequest serde h hlimit]
  rfl

theorem decodeWireRequest_of_encodeIdentifiedRequest {request : IdentifiedBrokerRequest}
    (h : encodeIdentifiedRequestWithLimit serde request limit = .ok frame) :
    decodeWireRequestWithLimit serde frame limit =
        .ok (.v2 ⟨.new request.identity.sessionId request.identity.sequence, request.request,
          request.mutation⟩) ∧
      RefusedByOthers serde protocolVersionV2 frame := by
  have hdecode := decodeIdentifiedRequest_of_encode serde h
  obtain ⟨payload, hpayload, h⟩ := bind_eq_ok_iff.mp h
  obtain ⟨rfl, -⟩ := (encodeInner_eq_ok_iff serde).mp hpayload
  obtain ⟨hframe, hlimit⟩ := encodeBounded_eq_ok_iff.mp h
  have hprobe : serde.fromSlice .versionProbe VersionProbe.read frame = .ok protocolVersionV2 := by
    rw [hframe]
    exact probe_ofEntries serde (by simp only [List.map]; decide) rfl
      (identifiedRoot_regular (requestPayload_regular request.request))
  refine ⟨?_, refusedByOthers_of_statedVersion serde (statedVersion_of_probe serde hprobe)⟩
  rw [decodeWireRequest_of_probe serde hlimit hprobe, if_neg (by decide), if_pos rfl, hdecode]
  rfl

theorem decodeWireRequest_of_encodeAcquisition {request : OwnerAcquisitionRequestV3}
    (h : encodeOwnerAcquisitionRequestWithLimit request limit = .ok frame) :
    decodeWireRequestWithLimit serde frame limit = .ok (.v3 (.acquireOwner request)) ∧
      RefusedByOthers serde protocolVersionV3 frame := by
  obtain ⟨hframe, hlimit⟩ := encodeBounded_eq_ok_iff.mp h
  have hprobe : serde.fromSlice .versionProbe VersionProbe.read frame = .ok protocolVersionV3 := by
    rw [hframe]
    exact probe_ofEntries serde (by simp only [List.map]; decide) rfl
      (acquisitionRoot_regular request)
  refine ⟨?_, refusedByOthers_of_statedVersion serde (statedVersion_of_probe serde hprobe)⟩
  rw [decodeWireRequest_of_probe serde hlimit hprobe, if_neg (by decide), if_neg (by decide),
    if_pos rfl, decodeRequestV3_of_encodeAcquisition serde h]
  rfl

theorem decodeWireRequest_of_encodeMutation {request : OwnerIdentifiedBrokerRequestV3}
    (h : encodeOwnerMutationRequestWithLimit serde request limit = .ok frame) :
    decodeWireRequestWithLimit serde frame limit = .ok (.v3 (.mutation request)) ∧
      RefusedByOthers serde protocolVersionV3 frame := by
  have hdecode := decodeRequestV3_of_encodeMutation serde h
  obtain ⟨payload, hpayload, h⟩ := bind_eq_ok_iff.mp h
  obtain ⟨rfl, -⟩ := (encodeInner_eq_ok_iff serde).mp hpayload
  obtain ⟨ownerInstanceId, -, h⟩ := bind_eq_ok_iff.mp h
  obtain ⟨hframe, hlimit⟩ := encodeBounded_eq_ok_iff.mp h
  have hprobe : serde.fromSlice .versionProbe VersionProbe.read frame = .ok protocolVersionV3 := by
    rw [hframe]
    exact probe_ofEntries serde (by simp only [List.map]; decide) rfl (ownedRoot_regular (requestPayload_regular request.request))
  refine ⟨?_, refusedByOthers_of_statedVersion serde (statedVersion_of_probe serde hprobe)⟩
  rw [decodeWireRequest_of_probe serde hlimit hprobe, if_neg (by decide), if_neg (by decide),
    if_pos rfl, hdecode]
  rfl

end RoundTrip

/-- **Requests of every version are read back as they were encoded**, and no decoder of
another version accepts their frames.  The second version carries the session and the
sequence of an identity but no owner, so its identities come back without one. -/
theorem request_codecs_round_trip (serde : Serde) (limit : Nat) (frame : Bytes) :
    (∀ request, encodeRequestWithLimit request limit = .ok frame →
      decodeWireRequestWithLimit serde frame limit = .ok (.v1 request) ∧
        RefusedByOthers serde protocolVersion frame) ∧
    (∀ request, encodeIdentifiedRequestWithLimit serde request limit = .ok frame →
      ∃ decoded, decodeWireRequestWithLimit serde frame limit = .ok (.v2 decoded) ∧
        decoded.request = request.request ∧
        decoded.identity = .new request.identity.sessionId request.identity.sequence ∧
        (decoded = request ↔ request.identity.ownerEpoch = .initial ∧
          request.identity.ownerInstanceId = none) ∧
        RefusedByOthers serde protocolVersionV2 frame) ∧
    (∀ request, encodeOwnerAcquisitionRequestWithLimit request limit = .ok frame →
      decodeWireRequestWithLimit serde frame limit = .ok (.v3 (.acquireOwner request)) ∧
        RefusedByOthers serde protocolVersionV3 frame) ∧
    (∀ request, encodeOwnerMutationRequestWithLimit serde request limit = .ok frame →
      decodeWireRequestWithLimit serde frame limit = .ok (.v3 (.mutation request)) ∧
        RefusedByOthers serde protocolVersionV3 frame) := by
  refine ⟨fun request h => decodeWireRequest_of_encodeRequest serde h, fun request h => ?_,
    fun request h => decodeWireRequest_of_encodeAcquisition serde h,
    fun request h => decodeWireRequest_of_encodeMutation serde h⟩
  obtain ⟨hdecode, hrefused⟩ := decodeWireRequest_of_encodeIdentifiedRequest serde h
  refine ⟨_, hdecode, rfl, rfl, ?_, hrefused⟩
  obtain ⟨⟨sessionId, ownerEpoch, ownerInstanceId, sequence⟩, request, mutation⟩ := request
  simp only [CommandIdentity.new, IdentifiedBrokerRequest.mk.injEq, CommandIdentity.mk.injEq,
    true_and, and_true]
  exact ⟨fun heq => ⟨heq.1.symm, heq.2.symm⟩, fun heq => ⟨heq.1.symm, heq.2.symm⟩⟩

/-- A request id and an instance of a client. -/
def requestR1 : RequestId := ⟨"r-1", by decide⟩
def processA : SessionOwnerInstanceId := ⟨"process-a", by decide⟩

/-- A namespace is to be ensured. -/
def ensureRequest : BrokerRequest := .ensureNamespace requestR1 ⟨"ns", by decide⟩

/-- The first command of the second owner of a session. -/
def ownedIdentity : CommandIdentity :=
  ⟨⟨"session", by decide⟩, ⟨2, Nat.two_pos, by decide⟩, some processA, .initial⟩

/-- The second owner asks for its session. -/
def acquisitionRequest : OwnerAcquisitionRequestV3 :=
  ⟨⟨"r-0", by decide⟩, ownedIdentity.sessionId, .initial, processA⟩

theorem encodeInner_ensureRequest :
    encodeInner default ensureRequest 4096 = .ok (requestPayload ensureRequest) :=
  (encodeInner_eq_ok_iff default).mpr
    ⟨rfl, _, encodeBounded_eq_ok_iff.mpr ⟨rfl, by decide⟩⟩

theorem exists_encodeIdentified (identity : CommandIdentity)
    (h : (identifiedRoot identity ensureRequest.operation.asStr (requestPayload ensureRequest)
      ensureRequest.requestId.asStr).compact.length < 4096) :
    ∃ frame, encodeIdentifiedRequestWithLimit default ⟨identity, ensureRequest, by decide⟩ 4096 =
      .ok frame := by
  refine ⟨_, bind_eq_ok_iff.mpr ⟨_, encodeInner_ensureRequest,
    encodeBounded_eq_ok_iff.mpr ⟨rfl, ?_⟩⟩⟩
  rw [List.length_append]
  exact h

/-- One request of each version, encoded and decoded. -/
theorem request_codecs_round_trip_ensure :
    (∃ frame, encodeRequestWithLimit ensureRequest 4096 = .ok frame ∧
      decodeWireRequestWithLimit default frame 4096 = .ok (.v1 ensureRequest)) ∧
    (∃ frame, encodeIdentifiedRequestWithLimit default
        ⟨.new ownedIdentity.sessionId .initial, ensureRequest, by decide⟩ 4096 = .ok frame ∧
      decodeWireRequestWithLimit default frame 4096 =
        .ok (.v2 ⟨.new ownedIdentity.sessionId .initial, ensureRequest, by decide⟩)) ∧
    (∃ frame, encodeOwnerAcquisitionRequestWithLimit acquisitionRequest 4096 = .ok frame ∧
      decodeWireRequestWithLimit default frame 4096 =
        .ok (.v3 (.acquireOwner acquisitionRequest))) ∧
    (∃ frame, encodeOwnerMutationRequestWithLimit default
        ⟨ownedIdentity, ensureRequest, by decide, by decide⟩ 4096 = .ok frame ∧
      decodeWireRequestWithLimit default frame 4096 =
        .ok (.v3 (.mutation ⟨ownedIdentity, ensureRequest, by decide, by decide⟩))) := by
  refine ⟨?_, ?_, ?_, ?_⟩
  · have h : encodeRequestWithLimit ensureRequest 4096 = .ok _ :=
      encodeBounded_eq_ok_iff.mpr ⟨rfl, by decide⟩
    exact ⟨_, h, ((request_codecs_round_trip default 4096 _).1 _ h).1⟩
  · obtain ⟨frame, h⟩ :=
      exists_encodeIdentified (.new ownedIdentity.sessionId .initial) (by decide +kernel)
    obtain ⟨decoded, hdecode, -, -, heq, -⟩ :=
      (request_codecs_round_trip default 4096 frame).2.1 _ h
    rw [heq.mpr ⟨rfl, rfl⟩] at hdecode
    exact ⟨frame, h, hdecode⟩
  · have h : encodeOwnerAcquisitionRequestWithLimit acquisitionRequest 4096 = .ok _ :=
      encodeBounded_eq_ok_iff.mpr ⟨rfl, by decide +kernel⟩
    exact ⟨_, h, ((request_codecs_round_trip default 4096 _).2.2.1 _ h).1⟩
  · have h : encodeOwnerMutationRequestWithLimit default
        ⟨ownedIdentity, ensureRequest, by decide, by decide⟩ 4096 = .ok _ :=
      bind_eq_ok_iff.mpr ⟨_, encodeInner_ensureRequest, bind_eq_ok_iff.mpr
        ⟨_, rfl, encodeBounded_eq_ok_iff.mpr ⟨rfl, by decide +kernel⟩⟩⟩
    exact ⟨_, h, ((request_codecs_round_trip default 4096 _).2.2.2 _ h).1⟩

/-- **The second version drops the owner of an identity.** -/
theorem identified_request_loses_owner :
    ∃ frame, encodeIdentifiedRequestWithLimit default
        ⟨ownedIdentity, ensureRequest, by decide⟩ 4096 = .ok frame ∧
      ∃ decoded, decodeWireRequestWithLimit default frame 4096 = .ok (.v2 decoded) ∧
        decoded.identity.ownerEpoch ≠ ownedIdentity.ownerEpoch ∧
        decoded.identity.ownerInstanceId ≠ ownedIdentity.ownerInstanceId := by
  obtain ⟨frame, h⟩ := exists_encodeIdentified ownedIdentity (by decide +kernel)
  exact ⟨frame, h, _, (decodeWireRequest_of_encodeIdentifiedRequest default h).1, by decide,
    by decide⟩

end AgentBroker
