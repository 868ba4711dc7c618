import AgentBroker.Protocol.Request

/-!
# Which requests are retries of each other

A replica decides whether a proposal is a retry by comparing replicated commands
(`same_identified_request`), on the far side of dispatch, normalisation and
conversion.  This module says what that comparison means for the client: two
mutation requests match if and only if they are the same operation with the same
content, `BrokerRequest.SameContent`.

## Main results

* `dispatchIdentified_isOk` — every mutation request is dispatched.
* `sameIdentifiedRequest_dispatched_iff` — dispatched requests match if and only if they
  have the same content.
* `retry_matching_exact` — the same over any clocks and policies, and that matching is an
  equivalence of dispatched commands.
-/

namespace AgentBroker

open ReplicatedBrokerCommandV1 (ofBrokerCommand sameIdentifiedRequest_iff)

theorem LeaseDurationMs.toU64_inj {d e : LeaseDurationMs} : d.toU64 = e.toU64 ↔ d = e := by
  cases d
  cases e
  simp [toU64]

namespace BrokerRequest

/-! ## Content -/

/-- The same operation with equal fields.  The request id is no content, and neither are
the order and the duplicates of declared capabilities. -/
def SameContent : BrokerRequest → BrokerRequest → Prop
  | .health _, .health _ => True
  | .ensureNamespace _ namespaceId, .ensureNamespace _ otherNamespaceId =>
    namespaceId = otherNamespaceId
  | .publishTask _ namespaceId taskId objective,
      .publishTask _ otherNamespaceId otherTaskId otherObjective =>
      namespaceId = otherNamespaceId ∧ taskId = otherTaskId ∧ objective = otherObjective
  | .ensureConsumerGroup _ namespaceId groupId,
      .ensureConsumerGroup _ otherNamespaceId otherGroupId =>
      namespaceId = otherNamespaceId ∧ groupId = otherGroupId
  | .joinConsumerGroup _ groupId memberId capabilities,
      .joinConsumerGroup _ otherGroupId otherMemberId otherCapabilities =>
      groupId = otherGroupId ∧ memberId = otherMemberId ∧
        ∀ value, value ∈ capabilities.asSlice ↔ value ∈ otherCapabilities.asSlice
  | .heartbeat _ groupId memberId expectedGeneration,
      .heartbeat _ otherGroupId otherMemberId otherExpectedGeneration =>
      groupId = otherGroupId ∧ memberId = otherMemberId ∧
        expectedGeneration = otherExpectedGeneration
  | .leaveConsumerGroup _ groupId memberId expectedGeneration,
      .leaveConsumerGroup _ otherGroupId otherMemberId otherExpectedGeneration =>
      groupId = otherGroupId ∧ memberId = otherMemberId ∧
        expectedGeneration = otherExpectedGeneration
  | .claimTask _ groupId memberId expectedTerm expectedGeneration leaseId leaseDuration,
      .claimTask _ otherGroupId otherMemberId otherExpectedTerm otherExpectedGeneration
        otherLeaseId otherLeaseDuration =>
      groupId = otherGroupId ∧ memberId = otherMemberId ∧ expectedTerm = otherExpectedTerm ∧
        expectedGeneration = otherExpectedGeneration ∧ leaseId = otherLeaseId ∧
        leaseDuration = otherLeaseDuration
  | .renewTaskLease _ taskId groupId memberId expectedTerm expectedGeneration
        expectedLeaseEpoch leaseId leaseDuration,
      .renewTaskLease _ otherTaskId otherGroupId otherMemberId otherExpectedTerm
        otherExpectedGeneration otherExpectedLeaseEpoch otherLeaseId otherLeaseDuration =>
      taskId = otherTaskId ∧ groupId = otherGroupId ∧ memberId = otherMemberId ∧
        expectedTerm = otherExpectedTerm ∧ expectedGeneration = otherExpectedGeneration ∧
        expectedLeaseEpoch = otherExpectedLeaseEpoch ∧ leaseId = otherLeaseId ∧
        leaseDuration = otherLeaseDuration
  | .completeTask _ taskId groupId memberId expectedTerm expectedGeneration
        expectedLeaseEpoch leaseId result,
      .completeTask _ otherTaskId otherGroupId otherMemberId otherExpectedTerm
        otherExpectedGeneration otherExpectedLeaseEpoch otherLeaseId otherResult =>
      taskId = otherTaskId ∧ groupId = otherGroupId ∧ memberId = otherMemberId ∧
        expectedTerm = otherExpectedTerm ∧ expectedGeneration = otherExpectedGeneration ∧
        expectedLeaseEpoch = otherExpectedLeaseEpoch ∧ leaseId = otherLeaseId ∧
        result = otherResult
  | _, _ => False

/-! ## Dispatch of mutations -/

/-- Declared capabilities were validated with the limits of the domain, so they normalise. -/
theorem intoNormalized_isOk (declared : DeclaredCapabilities) :
    ∃ capabilities, declared.intoNormalized = .ok capabilities :=
  Capabilities.exists_new_eq_ok declared.bounded declared.valid

/-- **Every mutation request is dispatched.** -/
theorem dispatchIdentified_isOk {request : BrokerRequest} (h : request.isHealth = false)
    (policy : BrokerCapacityPolicy) (observedAtMs : TimestampMs) :
    ∃ command, request.dispatchIdentified policy observedAtMs = .ok command := by
  cases request with
  | health => cases h
  | joinConsumerGroup _ groupId memberId declared =>
    obtain ⟨capabilities, hcapabilities⟩ := intoNormalized_isOk declared
    refine ⟨.joinConsumerGroup ⟨groupId, memberId, capabilities, observedAtMs,
      policy.maxMembersPerGroup⟩, ?_⟩
    rw [dispatchIdentified, hcapabilities]
    rfl
  | _ => exact ⟨_, rfl⟩

/-- The command of a join carries the normalised capabilities. -/
theorem dispatchIdentified_join {requestId : RequestId} {groupId : ConsumerGroupId}
    {memberId : ConsumerId} {declared : DeclaredCapabilities} {policy : BrokerCapacityPolicy}
    {observedAtMs : TimestampMs} {command : BrokerCommand}
    (h : (joinConsumerGroup requestId groupId memberId declared).dispatchIdentified policy
      observedAtMs = .ok command) :
    ∃ capabilities, Capabilities.new declared.asSlice = .ok capabilities ∧
      command = .joinConsumerGroup
        ⟨groupId, memberId, capabilities, observedAtMs, policy.maxMembersPerGroup⟩ := by
  obtain ⟨capabilities, hcapabilities, h⟩ := Except.bind_eq_ok_iff.mp h
  cases h
  exact ⟨capabilities, Except.mapError_eq_ok_iff.mp hcapabilities, rfl⟩

/-! ## Matching -/

/-- **Dispatched requests match if and only if they have the same content.** -/
theorem sameIdentifiedRequest_dispatched_iff {request request' : BrokerRequest}
    {policy policy' : BrokerCapacityPolicy} {observedAtMs observedAtMs' : TimestampMs}
    {command command' : BrokerCommand}
    (h : request.dispatchIdentified policy observedAtMs = .ok command)
    (h' : request'.dispatchIdentified policy' observedAtMs' = .ok command') :
    (ofBrokerCommand command).sameIdentifiedRequest (ofBrokerCommand command') = true ↔
      request.SameContent request' := by
  rw [sameIdentifiedRequest_iff]
  cases request with
  | health => cases h
  | joinConsumerGroup =>
    obtain ⟨capabilities, hcapabilities, rfl⟩ := dispatchIdentified_join h
    cases request' with
    | health => cases h'
    | joinConsumerGroup =>
      obtain ⟨capabilities', hcapabilities', rfl⟩ := dispatchIdentified_join h'
      simp [ofBrokerCommand, ReplicatedBrokerCommandV1.identifiedPart, SameContent,
        Identifier.asStr_inj, Capabilities.asSlice_eq_iff_of_new hcapabilities hcapabilities']
    | _ =>
      cases h'
      simp [ofBrokerCommand, ReplicatedBrokerCommandV1.identifiedPart, SameContent]
  | _ =>
    cases h
    cases request' with
    | health => cases h'
    | joinConsumerGroup =>
      obtain ⟨capabilities', -, rfl⟩ := dispatchIdentified_join h'
      simp [ofBrokerCommand, ReplicatedBrokerCommandV1.identifiedPart, SameContent]
    | _ =>
      cases h'
      simp [ofBrokerCommand, ReplicatedBrokerCommandV1.identifiedPart, SameContent,
        Identifier.asStr_inj, TaskText.asStr_inj, Counter.toU64_inj, Term.toU64_inj,
        LeaseDurationMs.toU64_inj]

/-- A replicated command that some request was dispatched to. -/
def Dispatched (command : ReplicatedBrokerCommandV1) : Prop :=
  ∃ (request : BrokerRequest) (policy : BrokerCapacityPolicy) (observedAtMs : TimestampMs)
    (dispatched : BrokerCommand),
    request.dispatchIdentified policy observedAtMs = .ok dispatched ∧
      command = ofBrokerCommand dispatched

/-- **Retry matching is equality of content.**  Mutation requests are dispatched at any
time and under any policy, the commands match if and only if the requests have the same
content, and matching is an equivalence relation on dispatched commands. -/
theorem retry_matching_exact :
    (∀ (request request' : BrokerRequest) (policy policy' : BrokerCapacityPolicy)
        (observedAtMs observedAtMs' : TimestampMs),
      request.isHealth = false → request'.isHealth = false →
      ∃ command command',
        request.dispatchIdentified policy observedAtMs = .ok command ∧
        request'.dispatchIdentified policy' observedAtMs' = .ok command' ∧
        ((ofBrokerCommand command).sameIdentifiedRequest (ofBrokerCommand command') = true ↔
          request.SameContent request')) ∧
      Equivalence fun a b : { command // Dispatched command } =>
        a.val.sameIdentifiedRequest b.val = true := by
  refine ⟨?_, ?_⟩
  · intro request request' policy policy' observedAtMs observedAtMs' hmutation hmutation'
    obtain ⟨command, h⟩ := dispatchIdentified_isOk hmutation policy observedAtMs
    obtain ⟨command', h'⟩ := dispatchIdentified_isOk hmutation' policy' observedAtMs'
    exact ⟨command, command', h, h', sameIdentifiedRequest_dispatched_iff h h'⟩
  · simp only [sameIdentifiedRequest_iff]
    exact ⟨fun _ => rfl, fun h => h.symm, fun h h' => h.trans h'⟩

/-- A join of one worker with the given declarations. -/
def joinDeclaring (requestId : RequestId) (declared : DeclaredCapabilities) : BrokerRequest :=
  .joinConsumerGroup requestId ⟨"reviewers", by decide⟩ ⟨"worker-1", by decide⟩ declared

/-- A join that is sent again under a new request id, with its capabilities in another order
and one of them twice, matches. -/
theorem reordered_join_matches :
    ∃ command command',
      (joinDeclaring ⟨"req-1", by decide⟩
        ⟨["rust", "lean"], by decide, by decide⟩).dispatchIdentified .default 1 =
          .ok command ∧
      (joinDeclaring ⟨"req-2", by decide⟩
        ⟨["lean", "rust", "lean"], by decide, by decide⟩).dispatchIdentified .default
          9 = .ok command' ∧
      (ofBrokerCommand command).sameIdentifiedRequest (ofBrokerCommand command') = true := by
  obtain ⟨command, command', h, h', hmatch⟩ := retry_matching_exact.1
    (joinDeclaring ⟨"req-1", by decide⟩ ⟨["rust", "lean"], by decide, by decide⟩)
    (joinDeclaring ⟨"req-2", by decide⟩ ⟨["lean", "rust", "lean"], by decide, by decide⟩)
    .default .default 1 9 rfl rfl
  refine ⟨command, command', h, h', hmatch.mpr ⟨rfl, rfl, fun value => ?_⟩⟩
  simp only [List.mem_cons, List.not_mem_nil, or_false]
  tauto

end BrokerRequest

end AgentBroker
