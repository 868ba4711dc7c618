import AgentBroker.Application.CommandIdentity

/-!
# Replicated responses

What applying a log entry answers (`replicated_response.rs`).  A failed command is an
answer like any other: the entry was committed, and every replica answers it alike.
-/

namespace AgentBroker

open Except hiding error

/-- Term and revision in primitive values. -/
structure ReplicatedMutationMetadataV1 where
  term : U64
  revision : U64
  deriving DecidableEq, Repr

/-- A result in primitive values.  Counts are `usize` values. -/
inductive ReplicatedBrokerMutationResultV1 where
  | namespaceEnsured (metadata : ReplicatedMutationMetadataV1) (namespaceId : String)
      (namespaceRevision : U64)
  | taskPublished (metadata : ReplicatedMutationMetadataV1) (taskId : String)
      (taskRevision : U64) (status : TaskStatus)
  | consumerGroup (metadata : ReplicatedMutationMetadataV1) (groupId : String)
      (generation groupRevision : U64) (memberCount : Nat)
  | heartbeat (metadata : ReplicatedMutationMetadataV1) (groupId memberId : String)
      (generation memberRevision : U64)
  | staleMembersReaped (metadata : ReplicatedMutationMetadataV1)
      (reapedCount affectedGroupCount : Nat)
  | taskClaim (metadata : ReplicatedMutationMetadataV1) (taskId objective : Option String)
      (taskRevision : Option U64) (leaseId : Option String)
      (leaseEpoch leaseExpiresAtMs : Option U64) (generation : U64)
  | taskLeaseRenewed (metadata : ReplicatedMutationMetadataV1) (taskId : String)
      (taskRevision : U64) (leaseId : String) (leaseEpoch leaseExpiresAtMs generation : U64)
  | taskCompleted (metadata : ReplicatedMutationMetadataV1) (taskId : String)
      (taskRevision : U64) (status : TaskStatus)
  | completedTasksPruned (metadata : ReplicatedMutationMetadataV1) (prunedCount : Nat)
  | termAdvanced (metadata : ReplicatedMutationMetadataV1)
  deriving DecidableEq, Repr

/-- `From<MutationMetadata>`. -/
def ReplicatedMutationMetadataV1.ofMetadata (metadata : MutationMetadata) :
    ReplicatedMutationMetadataV1 :=
  ⟨metadata.term.toU64, metadata.revision.toU64⟩

/-- `TryFrom<BrokerMutationResult>`; `usize_to_u64` cannot fail. -/
def ReplicatedBrokerMutationResultV1.ofResult :
    BrokerMutationResult → ReplicatedBrokerMutationResultV1
  | .namespaceEnsured r =>
    .namespaceEnsured (.ofMetadata r.metadata) r.namespaceId.asStr r.namespaceRevision.toU64
  | .taskPublished r =>
    .taskPublished (.ofMetadata r.metadata) r.taskId.asStr r.taskRevision.toU64 r.status
  | .consumerGroup r =>
    .consumerGroup (.ofMetadata r.metadata) r.groupId.asStr r.generation.toU64
      r.groupRevision.toU64 r.memberCount
  | .heartbeat r =>
    .heartbeat (.ofMetadata r.metadata) r.groupId.asStr r.memberId.asStr r.generation.toU64
      r.memberRevision.toU64
  | .staleMembersReaped r =>
    .staleMembersReaped (.ofMetadata r.metadata) r.reapedCount r.affectedGroupCount
  | .taskClaim r =>
    .taskClaim (.ofMetadata r.metadata) (r.taskId.map Identifier.asStr)
      (r.objective.map TaskText.asStr) (r.taskRevision.map Counter.toU64)
      (r.leaseId.map Identifier.asStr) (r.leaseEpoch.map Counter.toU64)
      (r.leaseExpiresAtMs.map TimestampMs.toU64) r.generation.toU64
  | .taskLeaseRenewed r =>
    .taskLeaseRenewed (.ofMetadata r.metadata) r.taskId.asStr r.taskRevision.toU64
      r.leaseId.asStr r.leaseEpoch.toU64 r.leaseExpiresAtMs.toU64 r.generation.toU64
  | .taskCompleted r =>
    .taskCompleted (.ofMetadata r.metadata) r.taskId.asStr r.taskRevision.toU64 r.status
  | .completedTasksPruned r => .completedTasksPruned (.ofMetadata r.metadata) r.prunedCount
  | .termAdvanced r => .termAdvanced (.ofMetadata r.metadata)

/-! ## Decoding -/

/-- A replicated answer that cannot be decoded. -/
structure ReplicatedResponseError where
  message : String
  deriving DecidableEq, Repr

namespace ReplicatedResponseError

/-- `validation_error` on a fallible constructor. -/
def validated {ε α : Type} (display : ε → String) (x : Except ε α) :
    Except ReplicatedResponseError α :=
  x.mapError fun error =>
    ⟨"replicated Broker response failed domain validation: " ++ display error⟩

/-- `?` on an identifier. -/
def identifier (kind : IdentifierKind) (value : String) :
    Except ReplicatedResponseError (Identifier kind) :=
  validated IdentifierError.display (Identifier.new value)

/-- `?` on an objective. -/
def objective (value : String) : Except ReplicatedResponseError TaskObjective :=
  validated TaskTextError.display (TaskText.new value)

/-- `map(…).transpose()`: decode a value that may be absent. -/
def transposed {α β : Type} (f : α → Except ReplicatedResponseError β) :
    Option α → Except ReplicatedResponseError (Option β)
  | none => .ok none
  | some a => (f a).map some

@[simp] theorem identifier_asStr {kind : IdentifierKind} (i : Identifier kind) :
    identifier kind i.asStr = .ok i := by
  rw [identifier, validated, Identifier.new_asStr, mapError_ok]

@[simp] theorem objective_asStr (t : TaskObjective) : objective t.asStr = .ok t := by
  rw [objective, validated, TaskText.new_asStr, mapError_ok]

@[simp] theorem transposed_map {α β : Type} {f : α → Except ReplicatedResponseError β}
    {encode : β → α} (h : ∀ b, f (encode b) = .ok b) (o : Option β) :
    transposed f (o.map encode) = .ok o := by
  cases o with
  | none => rfl
  | some b =>
    show (f (encode b)).map some = .ok (some b)
    rw [h b]
    rfl

end ReplicatedResponseError

/-- `TryFrom<ReplicatedMutationMetadataV1>`. -/
def ReplicatedMutationMetadataV1.toMetadata (metadata : ReplicatedMutationMetadataV1) :
    Except ReplicatedResponseError MutationMetadata := do
  return ⟨← ReplicatedResponseError.validated FencingValueError.display (Term.new metadata.term),
    .new metadata.revision⟩

@[simp] theorem ReplicatedMutationMetadataV1.toMetadata_ofMetadata (metadata : MutationMetadata) :
    (ofMetadata metadata).toMetadata = .ok metadata := by
  rw [toMetadata, ofMetadata, ReplicatedResponseError.validated, Term.new_toU64, mapError_ok]
  rfl

namespace ReplicatedBrokerMutationResultV1

open ReplicatedResponseError (identifier transposed)

/-- `validate_claim_option_shape`: the lease is there as a whole or not at all. -/
def validateClaimOptionShape (taskId objective : Option String) (taskRevision : Option U64)
    (leaseId : Option String) (leaseEpoch leaseExpiresAtMs : Option U64) :
    Except ReplicatedResponseError Unit :=
  let presence := [taskId.isSome, objective.isSome, taskRevision.isSome, leaseId.isSome,
    leaseEpoch.isSome, leaseExpiresAtMs.isSome]
  .require (presence.all (fun present => present) = true ∨
      presence.all (fun present => !present) = true)
    ⟨"replicated TaskClaim response contains a partial lease payload"⟩

/-- `convert_coordination_result`. -/
def convertCoordinationResult :
    ReplicatedBrokerMutationResultV1 → Except ReplicatedResponseError BrokerMutationResult
  | .namespaceEnsured metadata namespaceId namespaceRevision => do
      return .namespaceEnsured ⟨← metadata.toMetadata, ← identifier .namespaceId namespaceId,
        .new namespaceRevision⟩
  | .taskPublished metadata taskId taskRevision status => do
      return .taskPublished ⟨← metadata.toMetadata, ← identifier .taskId taskId,
        .new taskRevision, status⟩
  | .consumerGroup metadata groupId generation groupRevision memberCount => do
      return .consumerGroup ⟨← metadata.toMetadata, ← identifier .groupId groupId,
        .new generation, .new groupRevision, memberCount⟩
  | .heartbeat metadata groupId memberId generation memberRevision => do
      return .heartbeat ⟨← metadata.toMetadata, ← identifier .groupId groupId,
        ← identifier .memberId memberId, .new generation, .new memberRevision⟩
  | .staleMembersReaped metadata reapedCount affectedGroupCount => do
      return .staleMembersReaped ⟨← metadata.toMetadata, reapedCount, affectedGroupCount⟩
  | _ => .error
      ⟨"replicated Broker response was routed to the wrong conversion family"⟩

/-- `BrokerMutationResult::try_from`; `u64_to_usize` cannot fail where `usize` has 64
bits. -/
def toResult :
    ReplicatedBrokerMutationResultV1 → Except ReplicatedResponseError BrokerMutationResult
  | .taskClaim metadata taskId objective taskRevision leaseId leaseEpoch leaseExpiresAtMs
      generation => do
      validateClaimOptionShape taskId objective taskRevision leaseId leaseEpoch leaseExpiresAtMs
      return .taskClaim ⟨← metadata.toMetadata, ← transposed (identifier .taskId) taskId,
        ← transposed ReplicatedResponseError.objective objective,
        taskRevision.map .new, ← transposed (identifier .leaseId) leaseId, leaseEpoch.map .new,
        leaseExpiresAtMs.map .new, .new generation⟩
  | .taskLeaseRenewed metadata taskId taskRevision leaseId leaseEpoch leaseExpiresAtMs
      generation => do
      return .taskLeaseRenewed ⟨← metadata.toMetadata, ← identifier .taskId taskId,
        .new taskRevision, ← identifier .leaseId leaseId, .new leaseEpoch, .new leaseExpiresAtMs,
        .new generation⟩
  | .taskCompleted metadata taskId taskRevision status => do
      return .taskCompleted ⟨← metadata.toMetadata, ← identifier .taskId taskId,
        .new taskRevision, status⟩
  | .completedTasksPruned metadata prunedCount => do
      return .completedTasksPruned ⟨← metadata.toMetadata, prunedCount⟩
  | .termAdvanced metadata => do
      return .termAdvanced ⟨← metadata.toMetadata⟩
  | result => convertCoordinationResult result

end ReplicatedBrokerMutationResultV1

/-- The lease a claim returns is there as a whole or not at all. -/
def TaskClaimResult.Whole (r : TaskClaimResult) : Prop :=
  (r.taskId.isSome ∧ r.objective.isSome ∧ r.taskRevision.isSome ∧ r.leaseId.isSome ∧
      r.leaseEpoch.isSome ∧ r.leaseExpiresAtMs.isSome) ∨
    (r.taskId = none ∧ r.objective = none ∧ r.taskRevision = none ∧ r.leaseId = none ∧
      r.leaseEpoch = none ∧ r.leaseExpiresAtMs = none)

/-- A result whose claim, if it is one, is whole. -/
def BrokerMutationResult.Whole : BrokerMutationResult → Prop
  | .taskClaim r => r.Whole
  | _ => True

namespace ReplicatedBrokerMutationResultV1

/-- A whole claim passes the shape check. -/
theorem validateClaimOptionShape_ofResult {r : TaskClaimResult} (h : r.Whole) :
    validateClaimOptionShape (r.taskId.map Identifier.asStr) (r.objective.map TaskText.asStr)
      (r.taskRevision.map Counter.toU64) (r.leaseId.map Identifier.asStr)
      (r.leaseEpoch.map Counter.toU64) (r.leaseExpiresAtMs.map TimestampMs.toU64) = .ok () := by
  refine require_pos ?_
  rcases h with ⟨h₁, h₂, h₃, h₄, h₅, h₆⟩ | ⟨h₁, h₂, h₃, h₄, h₅, h₆⟩
  · exact Or.inl (by simp [h₁, h₂, h₃, h₄, h₅, h₆])
  · exact Or.inr (by simp [h₁, h₂, h₃, h₄, h₅, h₆])

@[simp] theorem map_new_toU64 {kind : CounterKind} (o : Option (Counter kind)) :
    (o.map Counter.toU64).map Counter.new = o := by
  cases o <;> rfl

@[simp] theorem map_new_toU64_timestamp (o : Option TimestampMs) :
    (o.map TimestampMs.toU64).map TimestampMs.new = o := by
  cases o <;> rfl

/-- **A result survives the answer.** -/
theorem toResult_ofResult {result : BrokerMutationResult} (h : result.Whole) :
    (ofResult result).toResult = .ok result := by
  cases result with
  | taskClaim r =>
    have hshape := validateClaimOptionShape_ofResult (r := r) h
    have htask := ReplicatedResponseError.transposed_map
      (fun id : TaskId => ReplicatedResponseError.identifier_asStr id) r.taskId
    have hlease := ReplicatedResponseError.transposed_map
      (fun id : LeaseId => ReplicatedResponseError.identifier_asStr id) r.leaseId
    have hobjective := ReplicatedResponseError.transposed_map
      (fun text : TaskObjective => ReplicatedResponseError.objective_asStr text) r.objective
    rw [ofResult, toResult, hshape]
    simp only [ok_bind, ReplicatedMutationMetadataV1.toMetadata_ofMetadata, htask, hlease,
      hobjective, map_new_toU64, map_new_toU64_timestamp]
    rfl
  | namespaceEnsured | taskPublished | consumerGroup | heartbeat =>
    simp only [ofResult, toResult, convertCoordinationResult,
      ReplicatedMutationMetadataV1.toMetadata_ofMetadata,
      ReplicatedResponseError.identifier_asStr, ok_bind]
    rfl
  | staleMembersReaped r => simp [ofResult, toResult, convertCoordinationResult]
  | taskLeaseRenewed | taskCompleted =>
    simp only [ofResult, toResult, ReplicatedMutationMetadataV1.toMetadata_ofMetadata,
      ReplicatedResponseError.identifier_asStr, ok_bind]
    rfl
  | completedTasksPruned | termAdvanced => simp [ofResult, toResult]

end ReplicatedBrokerMutationResultV1

/-- The answer of the replicated state machine.  The error codes and dispositions of
`ReplicatedBrokerErrorV1` are those of `BrokerError` under the same names. -/
inductive ReplicatedBrokerResponseV1 where
  | raftControl
  | sessionOwnerAcquired (ownerEpoch : U64)
  | success (result : ReplicatedBrokerMutationResultV1)
  | applicationError (error : BrokerError)
  deriving DecidableEq, Repr

namespace ReplicatedBrokerResponseV1

/-- `from_application_result`: the outcome of an applied command. -/
def fromApplicationResult : Except BrokerError BrokerMutationResult → ReplicatedBrokerResponseV1
  | .ok result => .success (.ofResult result)
  | .error error => .applicationError (error.withDisposition .committed)

/-- `from_pre_application_rejection`: the command was not applied. -/
def fromPreApplicationRejection (error : BrokerError) : ReplicatedBrokerResponseV1 :=
  .applicationError (error.withDisposition .rejected)

/-- `normalize_stored_session_outcome`: a stored error was committed. -/
def normalizeStoredSessionOutcome : ReplicatedBrokerResponseV1 → ReplicatedBrokerResponseV1
  | .applicationError error => .applicationError (error.withDisposition .committed)
  | response => response

/-- `into_application_result`. -/
def intoApplicationResult : ReplicatedBrokerResponseV1 →
    Except ReplicatedResponseError (Except BrokerError BrokerMutationResult)
  | .raftControl | .sessionOwnerAcquired _ => .error
      ⟨"consensus control entry does not contain a Broker application result"⟩
  | .success result => return .ok (← result.toResult)
  | .applicationError error => .ok (.error error)

/-- **Decoding an answer** gives the result back, and an error with the disposition of a
committed entry. -/
theorem intoApplicationResult_fromApplicationResult
    {result : Except BrokerError BrokerMutationResult}
    (h : ∀ value, result = .ok value → value.Whole) :
    (fromApplicationResult result).intoApplicationResult =
      .ok (result.mapError (·.withDisposition .committed)) := by
  cases result with
  | error => rfl
  | ok value =>
    show (do return Except.ok (← (ReplicatedBrokerMutationResultV1.ofResult value).toResult)) = _
    rw [ReplicatedBrokerMutationResultV1.toResult_ofResult (h value rfl)]
    rfl

/-- The answer tells the client that its command was not applied. -/
def isRejection : ReplicatedBrokerResponseV1 → Bool
  | .applicationError error => error.disposition = .rejected
  | _ => false

@[simp] theorem isRejection_fromApplicationResult
    (result : Except BrokerError BrokerMutationResult) :
    (fromApplicationResult result).isRejection = false := by
  cases result <;> rfl

end ReplicatedBrokerResponseV1

end AgentBroker
