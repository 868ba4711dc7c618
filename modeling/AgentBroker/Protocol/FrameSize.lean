import AgentBroker.Lib.JsonSize
import AgentBroker.Protocol.WireV3

/-!
# Sizes of request frames

What a request takes in each version of the protocol, from its fields.  The versions differ
in the envelope only, so that a frame of a later version is longer by what names the
session.

## Main results

* `length_requestPayload` — the size of a payload.
* `length_requestRoot_eq`, `length_ownedRoot_eq` — the sizes of the envelopes of the first and
  the third version.
-/

namespace AgentBroker

open Except List Json
open Json (Value textBytes digitCount arrayBytes objectBytes)

/-- What a payload takes. -/
def BrokerRequest.payloadBytes : BrokerRequest → Nat
  | .health _ => objectBytes []
  | .ensureNamespace _ namespaceId => objectBytes [("namespace_id", textBytes namespaceId.asStr)]
  | .publishTask _ namespaceId taskId objective => objectBytes [
      ("namespace_id", textBytes namespaceId.asStr),
      ("objective", textBytes objective.asStr),
      ("task_id", textBytes taskId.asStr)]
  | .ensureConsumerGroup _ namespaceId groupId => objectBytes [
      ("group_id", textBytes groupId.asStr),
      ("namespace_id", textBytes namespaceId.asStr)]
  | .joinConsumerGroup _ groupId memberId capabilities => objectBytes [
      ("capabilities", arrayBytes (capabilities.asSlice.map textBytes)),
      ("group_id", textBytes groupId.asStr),
      ("member_id", textBytes memberId.asStr)]
  | .heartbeat _ groupId memberId expectedGeneration => objectBytes [
      ("expected_generation", digitCount expectedGeneration.get),
      ("group_id", textBytes groupId.asStr),
      ("member_id", textBytes memberId.asStr)]
  | .leaveConsumerGroup _ groupId memberId expectedGeneration => objectBytes [
      ("expected_generation", digitCount expectedGeneration.get),
      ("group_id", textBytes groupId.asStr),
      ("member_id", textBytes memberId.asStr)]
  | .claimTask _ groupId memberId expectedTerm expectedGeneration leaseId leaseDuration =>
    objectBytes [
      ("expected_generation", digitCount expectedGeneration.get),
      ("expected_term", digitCount expectedTerm.get),
      ("group_id", textBytes groupId.asStr),
      ("lease_duration_ms", digitCount leaseDuration.get),
      ("lease_id", textBytes leaseId.asStr),
      ("member_id", textBytes memberId.asStr)]
  | .renewTaskLease _ taskId groupId memberId expectedTerm expectedGeneration
      expectedLeaseEpoch leaseId leaseDuration => objectBytes [
      ("expected_generation", digitCount expectedGeneration.get),
      ("expected_lease_epoch", digitCount expectedLeaseEpoch.get),
      ("expected_term", digitCount expectedTerm.get),
      ("group_id", textBytes groupId.asStr),
      ("lease_duration_ms", digitCount leaseDuration.get),
      ("lease_id", textBytes leaseId.asStr),
      ("member_id", textBytes memberId.asStr),
      ("task_id", textBytes taskId.asStr)]
  | .completeTask _ taskId groupId memberId expectedTerm expectedGeneration
      expectedLeaseEpoch leaseId result => objectBytes [
      ("expected_generation", digitCount expectedGeneration.get),
      ("expected_lease_epoch", digitCount expectedLeaseEpoch.get),
      ("expected_term", digitCount expectedTerm.get),
      ("group_id", textBytes groupId.asStr),
      ("lease_id", textBytes leaseId.asStr),
      ("member_id", textBytes memberId.asStr),
      ("result", textBytes result.asStr),
      ("task_id", textBytes taskId.asStr)]

/-- What a request takes as a frame of the first version, with its line feed. -/
def BrokerRequest.frameBytes (request : BrokerRequest) : Nat :=
  objectBytes [
    ("operation", textBytes request.operation.asStr),
    ("payload", request.payloadBytes),
    ("request_id", textBytes request.requestId.asStr),
    ("version", 1)] + 1

/-- What a request takes as a frame of the third version, with its line feed. -/
def BrokerRequest.ownedFrameBytes (request : BrokerRequest) (sessionId : CommandSessionId)
    (ownerEpoch : SessionOwnerEpoch) (ownerInstanceId : SessionOwnerInstanceId)
    (sequence : CommandSequence) : Nat :=
  objectBytes [
    ("command_sequence", digitCount sequence.get),
    ("command_session_id", textBytes sessionId.asStr),
    ("operation", textBytes request.operation.asStr),
    ("owner_epoch", digitCount ownerEpoch.get),
    ("owner_instance_id", textBytes ownerInstanceId.asStr),
    ("payload", request.payloadBytes),
    ("request_id", textBytes request.requestId.asStr),
    ("version", 1)] + 1

theorem length_compact_ofU64 (n : U64) : (ofU64 n).compact.length = digitCount n.get := by
  rw [ofU64, compact_natural, length_number]

/-- **The size of a payload.** -/
theorem length_requestPayload (request : BrokerRequest) :
    (requestPayload request).compact.length = request.payloadBytes := by
  cases request <;> rw [requestPayload]
  case heartbeat | leaveConsumerGroup =>
    rw [membershipPayload, length_compact_ofEntries (by simp only [List.map]; decide +kernel)]
    simp only [map_cons, map_nil, length_compact_text, length_compact_ofU64]
    rfl
  all_goals
    rw [length_compact_ofEntries (by simp only [List.map]; decide +kernel)]
    simp only [map_cons, map_nil, length_compact_text, length_compact_texts, length_compact_ofU64]
    rfl

theorem length_compact_version (n : UInt32) (h : n = 1 ∨ n = 2 ∨ n = 3) :
    (ofU32 n).compact.length = 1 := by
  rcases h with rfl | rfl | rfl <;> decide +kernel

/-- **The size of a frame of the first version.** -/
theorem length_requestRoot_eq (request : BrokerRequest) :
    ((requestRoot request.operation.asStr (requestPayload request)
      request.requestId.asStr).compact ++ [10]).length = request.frameBytes := by
  rw [requestRoot, length_append, length_compact_ofEntries (by simp only [List.map]; decide +kernel)]
  simp only [map_cons, map_nil, length_compact_text, length_requestPayload,
    length_compact_version protocolVersion (Or.inl rfl)]
  rfl

/-- **The size of a frame of the third version.** -/
theorem length_ownedRoot_eq (request : BrokerRequest) (identity : CommandIdentity)
    (ownerInstanceId : SessionOwnerInstanceId) :
    ((ownedRoot identity ownerInstanceId request.operation.asStr (requestPayload request)
      request.requestId.asStr).compact ++ [10]).length =
      request.ownedFrameBytes identity.sessionId identity.ownerEpoch ownerInstanceId
        identity.sequence := by
  rw [ownedRoot, length_append, length_compact_ofEntries (by simp only [List.map]; decide +kernel)]
  simp only [map_cons, map_nil, length_compact_text, length_compact_ofU64,
    length_requestPayload, length_compact_version protocolVersionV3 (Or.inr (Or.inr rfl))]
  rfl

/-- What the third version adds: four fields, with the texts and counters of the identity. -/
theorem BrokerRequest.ownedFrameBytes_eq (request : BrokerRequest)
    (sessionId : CommandSessionId) (ownerEpoch : SessionOwnerEpoch)
    (ownerInstanceId : SessionOwnerInstanceId) (sequence : CommandSequence) :
    request.ownedFrameBytes sessionId ownerEpoch ownerInstanceId sequence =
      request.frameBytes + (78 + digitCount sequence.get + textBytes sessionId.asStr +
        digitCount ownerEpoch.get + textBytes ownerInstanceId.asStr) := by
  have hnames : "command_sequence".utf8ByteSize = 16 ∧ "command_session_id".utf8ByteSize = 18 ∧
      "owner_epoch".utf8ByteSize = 11 ∧ "owner_instance_id".utf8ByteSize = 17 := by
    decide
  simp only [frameBytes, ownedFrameBytes, objectBytes, map_cons, map_nil, sum_cons,
    sum_nil, length_cons, length_nil, hnames]
  omega

/-- A later frame is the longer one. -/
theorem BrokerRequest.frameBytes_lt_ownedFrameBytes (request : BrokerRequest)
    (sessionId : CommandSessionId) (ownerEpoch : SessionOwnerEpoch)
    (ownerInstanceId : SessionOwnerInstanceId) (sequence : CommandSequence) :
    request.frameBytes < request.ownedFrameBytes sessionId ownerEpoch ownerInstanceId sequence := by
  rw [ownedFrameBytes_eq]
  omega

/-- A request is encoded in the first version exactly if its frame keeps the limit. -/
theorem exists_encodeRequest_iff {request : BrokerRequest} {limit : Nat} :
    (∃ frame, encodeRequestWithLimit request limit = .ok frame) ↔ request.frameBytes ≤ limit := by
  rw [← length_requestRoot_eq]
  constructor
  · rintro ⟨frame, h⟩
    obtain ⟨rfl, hlimit⟩ := encodeBounded_eq_ok_iff.mp h
    exact hlimit
  · intro hlimit
    exact ⟨_, encodeBounded_eq_ok_iff.mpr ⟨rfl, hlimit⟩⟩

/-- An owned request is encoded in the third version exactly if its frame keeps the limit. -/
theorem exists_encodeOwnerMutation_iff (serde : Serde) {request : OwnerIdentifiedBrokerRequestV3}
    {ownerInstanceId : SessionOwnerInstanceId}
    (howner : request.identity.ownerInstanceId = some ownerInstanceId) {limit : Nat} :
    (∃ frame, encodeOwnerMutationRequestWithLimit serde request limit = .ok frame) ↔
      request.request.ownedFrameBytes request.identity.sessionId request.identity.ownerEpoch
        ownerInstanceId request.identity.sequence ≤ limit := by
  rw [← length_ownedRoot_eq]
  constructor
  · rintro ⟨frame, h⟩
    obtain ⟨payload, hpayload, h⟩ := bind_eq_ok_iff.mp h
    obtain ⟨rfl, -⟩ := (encodeInner_eq_ok_iff serde).mp hpayload
    obtain ⟨found, hfound, h⟩ := bind_eq_ok_iff.mp h
    cases howner.symm.trans (ofOption_eq_ok_iff.mp hfound)
    obtain ⟨rfl, hlimit⟩ := encodeBounded_eq_ok_iff.mp h
    exact hlimit
  · intro hlimit
    -- The inner frame is shorter, so that its limit is kept as well.
    have hinner : request.request.frameBytes ≤ limit := by
      rw [length_ownedRoot_eq] at hlimit
      exact (request.request.frameBytes_lt_ownedFrameBytes _ _ _ _).le.trans hlimit
    exact ⟨_, bind_eq_ok_iff.mpr
      ⟨_, (encodeInner_eq_ok_iff serde).mpr ⟨rfl, exists_encodeRequest_iff.mpr hinner⟩,
      bind_eq_ok_iff.mpr ⟨ownerInstanceId, ofOption_eq_ok_iff.mpr howner,
        encodeBounded_eq_ok_iff.mpr ⟨rfl, hlimit⟩⟩⟩⟩

end AgentBroker
