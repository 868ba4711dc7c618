import AgentBroker.Consensus.ReplicatedCommand

/-!
# Requests and their dispatch

A validated request of the wire protocol (`request.rs`) and the command that the
dispatcher proposes for it (`dispatch.rs`, `service.rs`).  The server adds what the
client does not send: its clock and its capacity policy (`policy.rs`).

## Main results

* `dispatchIdentified_same` — two dispatches of one request are the same identified
  request, whatever the clock and the policy were.
-/

namespace AgentBroker

/-! ## Policies -/

/-- A validated lease duration. -/
structure LeaseDurationMs where
  get : Nat
  min_le : 1000 ≤ get
  le_max : get ≤ 30 * 60 * 1000
  deriving DecidableEq, Repr

/-- The duration as a raw `u64`. -/
def LeaseDurationMs.toU64 (d : LeaseDurationMs) : U64 :=
  ⟨d.get, lt_of_le_of_lt d.le_max (by decide)⟩

/-- `PolicyError::LeaseDurationOutOfRange` as it is displayed. -/
def leaseDurationOutOfRange : String :=
  "lease_duration_ms must be between 1000 and 1800000 milliseconds"

/-- Validate a lease duration. -/
def LeaseDurationMs.new (value : U64) : Except String LeaseDurationMs :=
  if h : 1000 ≤ value.get ∧ value.get ≤ 30 * 60 * 1000 then .ok ⟨value.get, h.1, h.2⟩
  else .error leaseDurationOutOfRange

theorem LeaseDurationMs.new_toU64 (d : LeaseDurationMs) : new d.toU64 = .ok d :=
  dif_pos ⟨d.min_le, d.le_max⟩

/-- The capacities a server enforces, none of them zero. -/
structure BrokerCapacityPolicy where
  maxNamespaces : Usize
  maxTasksPerNamespace : Usize
  maxGroupsPerNamespace : Usize
  maxMembersPerGroup : Usize
  namespaces_pos : 0 < maxNamespaces.get
  tasks_pos : 0 < maxTasksPerNamespace.get
  groups_pos : 0 < maxGroupsPerNamespace.get
  members_pos : 0 < maxMembersPerGroup.get
  deriving DecidableEq, Repr

/-- `BrokerCapacityPolicy::default`. -/
def BrokerCapacityPolicy.default : BrokerCapacityPolicy where
  maxNamespaces := 64
  maxTasksPerNamespace := 4096
  maxGroupsPerNamespace := 64
  maxMembersPerGroup := 256
  namespaces_pos := by decide
  tasks_pos := by decide
  groups_pos := by decide
  members_pos := by decide

/-! ## Requests -/

/-- Correlates a response with its request.  It obeys the rules of identifiers. -/
structure RequestId where
  asStr : String
  valid : identifierFault maxIdentifierBytes identifierTexts asStr = none
  deriving DecidableEq, Repr

/-- `Display` of `RequestIdError`. -/
def requestIdError : String := "request_id contains unsupported characters or length"

namespace RequestId

/-- Validate a request identifier. -/
def new (value : String) : Except String RequestId :=
  match h : identifierFault maxIdentifierBytes identifierTexts value with
  | none => .ok ⟨value, h⟩
  | some _ => .error requestIdError

theorem new_asStr (id : RequestId) : new id.asStr = .ok id := by
  unfold new
  split
  · rfl
  · rename_i reason h
    rw [id.valid] at h
    cases h

end RequestId

/-- Capability declarations in the order of the wire, duplicates included. -/
structure DeclaredCapabilities where
  asSlice : List String
  bounded : asSlice.length ≤ maxCapabilities
  valid : ∀ value ∈ asSlice, (Capability.new value).isOk = true
  deriving DecidableEq, Repr

/-- Validate declarations and keep them as they are. -/
def DeclaredCapabilities.new (values : List String) :
    Except CapabilitiesError DeclaredCapabilities :=
  if hlen : values.length ≤ maxCapabilities then
    match hvalues : values.mapM Capability.new with
    | .ok capabilities =>
      .ok ⟨values, hlen, fun value hvalue => by
        obtain ⟨capability, hcapability⟩ := Except.exists_of_mapM_eq_ok hvalues hvalue
        rw [hcapability]
        rfl⟩
    | .error error => .error error
  else .error (.tooMany maxCapabilities)

theorem DeclaredCapabilities.new_asSlice (declared : DeclaredCapabilities) :
    new declared.asSlice = .ok declared := by
  unfold new
  rw [dif_pos declared.bounded]
  split
  · rfl
  · rename_i error herror
    have hall : ∀ value ∈ declared.asSlice, ∃ c, Capability.new value = .ok c := by
      intro value hvalue
      have hok := declared.valid value hvalue
      cases hc : Capability.new value with
      | ok c => exact ⟨c, rfl⟩
      | error =>
        rw [hc] at hok
        cases hok
    obtain ⟨capabilities, hcapabilities⟩ := Except.exists_mapM_eq_ok hall
    rw [hcapabilities] at herror
    cases herror

/-- `into_normalized`. -/
def DeclaredCapabilities.intoNormalized (declared : DeclaredCapabilities) :
    Except CapabilitiesError Capabilities :=
  Capabilities.new declared.asSlice

/-- The operations of the protocol. -/
inductive Operation where
  | health
  | ensureNamespace
  | publishTask
  | ensureConsumerGroup
  | joinConsumerGroup
  | heartbeat
  | leaveConsumerGroup
  | claimTask
  | renewTaskLease
  | completeTask
  deriving DecidableEq, Repr

namespace Operation

/-- The stable name of an operation. -/
def asStr : Operation → String
  | .health => "health"
  | .ensureNamespace => "namespace.ensure"
  | .publishTask => "task.publish"
  | .ensureConsumerGroup => "group.ensure"
  | .joinConsumerGroup => "group.join"
  | .heartbeat => "group.heartbeat"
  | .leaveConsumerGroup => "group.leave"
  | .claimTask => "task.claim"
  | .renewTaskLease => "task.renew"
  | .completeTask => "task.complete"

/-- `TryFrom<&str>`: the operation of a name. -/
def tryFrom (value : String) : Option Operation :=
  if value = "health" then some .health
  else if value = "namespace.ensure" then some .ensureNamespace
  else if value = "task.publish" then some .publishTask
  else if value = "group.ensure" then some .ensureConsumerGroup
  else if value = "group.join" then some .joinConsumerGroup
  else if value = "group.heartbeat" then some .heartbeat
  else if value = "group.leave" then some .leaveConsumerGroup
  else if value = "task.claim" then some .claimTask
  else if value = "task.renew" then some .renewTaskLease
  else if value = "task.complete" then some .completeTask
  else none

theorem tryFrom_asStr (operation : Operation) : tryFrom operation.asStr = some operation := by
  cases operation <;> rfl

theorem asStr_of_tryFrom {value : String} {operation : Operation}
    (h : tryFrom value = some operation) : operation.asStr = value := by
  unfold tryFrom at h
  split_ifs at h with h₁ h₂ h₃ h₄ h₅ h₆ h₇ h₈ h₉ h₁₀
  all_goals
    cases h
    exact (by assumption : value = _).symm

end Operation

/-- A validated request. -/
inductive BrokerRequest where
  | health (requestId : RequestId)
  | ensureNamespace (requestId : RequestId) (namespaceId : NamespaceId)
  | publishTask (requestId : RequestId) (namespaceId : NamespaceId) (taskId : TaskId)
      (objective : TaskObjective)
  | ensureConsumerGroup (requestId : RequestId) (namespaceId : NamespaceId)
      (groupId : ConsumerGroupId)
  | joinConsumerGroup (requestId : RequestId) (groupId : ConsumerGroupId)
      (memberId : ConsumerId) (capabilities : DeclaredCapabilities)
  | heartbeat (requestId : RequestId) (groupId : ConsumerGroupId) (memberId : ConsumerId)
      (expectedGeneration : Generation)
  | leaveConsumerGroup (requestId : RequestId) (groupId : ConsumerGroupId)
      (memberId : ConsumerId) (expectedGeneration : Generation)
  | claimTask (requestId : RequestId) (groupId : ConsumerGroupId) (memberId : ConsumerId)
      (expectedTerm : Term) (expectedGeneration : Generation) (leaseId : LeaseId)
      (leaseDuration : LeaseDurationMs)
  | renewTaskLease (requestId : RequestId) (taskId : TaskId) (groupId : ConsumerGroupId)
      (memberId : ConsumerId) (expectedTerm : Term) (expectedGeneration : Generation)
      (expectedLeaseEpoch : LeaseEpoch) (leaseId : LeaseId) (leaseDuration : LeaseDurationMs)
  | completeTask (requestId : RequestId) (taskId : TaskId) (groupId : ConsumerGroupId)
      (memberId : ConsumerId) (expectedTerm : Term) (expectedGeneration : Generation)
      (expectedLeaseEpoch : LeaseEpoch) (leaseId : LeaseId) (result : TaskResult)
  deriving DecidableEq

namespace BrokerRequest

/-- `operation() == Operation::Health`. -/
def isHealth : BrokerRequest → Bool
  | .health _ => true
  | _ => false

/-- The operation of a request. -/
def operation : BrokerRequest → Operation
  | .health .. => .health
  | .ensureNamespace .. => .ensureNamespace
  | .publishTask .. => .publishTask
  | .ensureConsumerGroup .. => .ensureConsumerGroup
  | .joinConsumerGroup .. => .joinConsumerGroup
  | .heartbeat .. => .heartbeat
  | .leaveConsumerGroup .. => .leaveConsumerGroup
  | .claimTask .. => .claimTask
  | .renewTaskLease .. => .renewTaskLease
  | .completeTask .. => .completeTask

/-- What correlates a request with its response. -/
def requestId : BrokerRequest → RequestId
  | .health requestId => requestId
  | .ensureNamespace requestId .. => requestId
  | .publishTask requestId .. => requestId
  | .ensureConsumerGroup requestId .. => requestId
  | .joinConsumerGroup requestId .. => requestId
  | .heartbeat requestId .. => requestId
  | .leaveConsumerGroup requestId .. => requestId
  | .claimTask requestId .. => requestId
  | .renewTaskLease requestId .. => requestId
  | .completeTask requestId .. => requestId

/-! ## Dispatch -/

/-- The command that `dispatch_identified` proposes. -/
def dispatchIdentified (policy : BrokerCapacityPolicy) (observedAtMs : TimestampMs) :
    BrokerRequest → Except BrokerError BrokerCommand
  | .health _ => .error (.new .invalidRequest "identified protocol requests are mutation-only")
  | .ensureNamespace _ namespaceId => .ok (.ensureNamespace ⟨namespaceId, policy.maxNamespaces⟩)
  | .publishTask _ namespaceId taskId objective =>
    .ok (.publishTask
      ⟨namespaceId, taskId, objective, observedAtMs, policy.maxTasksPerNamespace⟩)
  | .ensureConsumerGroup _ namespaceId groupId =>
    .ok (.ensureConsumerGroup ⟨namespaceId, groupId, policy.maxGroupsPerNamespace⟩)
  | .joinConsumerGroup _ groupId memberId capabilities => do
      let capabilities ← capabilities.intoNormalized.mapError fun error =>
        BrokerError.new .invalidRequest error.display
      return .joinConsumerGroup
        ⟨groupId, memberId, capabilities, observedAtMs, policy.maxMembersPerGroup⟩
  | .heartbeat _ groupId memberId expectedGeneration =>
    .ok (.heartbeat ⟨groupId, memberId, expectedGeneration, observedAtMs⟩)
  | .leaveConsumerGroup _ groupId memberId expectedGeneration =>
    .ok (.leaveConsumerGroup ⟨groupId, memberId, expectedGeneration⟩)
  | .claimTask _ groupId memberId expectedTerm expectedGeneration leaseId leaseDuration =>
    .ok (.claimTask ⟨groupId, memberId, expectedTerm, expectedGeneration, leaseId,
      observedAtMs, leaseDuration.toU64⟩)
  | .renewTaskLease _ taskId groupId memberId expectedTerm expectedGeneration
      expectedLeaseEpoch leaseId leaseDuration =>
      .ok (.renewTaskLease ⟨taskId, groupId, memberId, expectedTerm, expectedGeneration,
        expectedLeaseEpoch, leaseId, observedAtMs, leaseDuration.toU64⟩)
  | .completeTask _ taskId groupId memberId expectedTerm expectedGeneration
      expectedLeaseEpoch leaseId result =>
      .ok (.completeTask ⟨taskId, groupId, memberId, expectedTerm, expectedGeneration,
        expectedLeaseEpoch, leaseId, result, observedAtMs⟩)

/-- **Two dispatches of one request are the same identified request.** -/
theorem dispatchIdentified_same {request : BrokerRequest} {policy policy' : BrokerCapacityPolicy}
    {observedAtMs observedAtMs' : TimestampMs} {command command' : BrokerCommand}
    (h : request.dispatchIdentified policy observedAtMs = .ok command)
    (h' : request.dispatchIdentified policy' observedAtMs' = .ok command') :
    (ReplicatedBrokerCommandV1.ofBrokerCommand command).sameIdentifiedRequest
      (.ofBrokerCommand command') = true := by
  cases request with
  | health => cases h
  | joinConsumerGroup =>
    obtain ⟨normalized, hnormalized, h⟩ := Except.bind_eq_ok_iff.mp h
    obtain ⟨normalized', hnormalized', h'⟩ := Except.bind_eq_ok_iff.mp h'
    rw [hnormalized] at hnormalized'
    cases hnormalized'
    cases h
    cases h'
    simp [ReplicatedBrokerCommandV1.ofBrokerCommand,
      ReplicatedBrokerCommandV1.sameIdentifiedRequest]
  | _ =>
    cases h
    cases h'
    simp [ReplicatedBrokerCommandV1.ofBrokerCommand,
      ReplicatedBrokerCommandV1.sameIdentifiedRequest]

end BrokerRequest

end AgentBroker
