import AgentBroker.Application.CommandIdentity

/-!
# Replicated commands

The form in which commands are written to the Raft log (`replicated_command.rs`,
`replicated_proposal.rs`): primitive values only, validated again when a replica
applies them.  A proposal is a command with the identity of the client command it
stands for, if it has one.

## Main results

* `toBrokerCommand_ofBrokerCommand`, `intoParts_identified` — commands and identities
  survive the log.
-/

namespace AgentBroker

open Except hiding error

/-- A command in primitive values. -/
inductive ReplicatedBrokerCommandV1 where
  | ensureNamespace (namespaceId : String) (maxNamespaces : U64)
  | publishTask (namespaceId taskId objective : String) (createdAtMs maxNamespaceTasks : U64)
  | ensureConsumerGroup (namespaceId groupId : String) (maxNamespaceGroups : U64)
  | joinConsumerGroup (groupId memberId : String) (capabilities : List String)
      (nowMs maxGroupMembers : U64)
  | heartbeat (groupId memberId : String) (expectedGeneration nowMs : U64)
  | leaveConsumerGroup (groupId memberId : String) (expectedGeneration : U64)
  | reapStaleMembers (staleBeforeMs maxMembers : U64)
  | claimTask (groupId memberId : String) (expectedTerm expectedGeneration : U64)
      (leaseId : String) (nowMs leaseDurationMs : U64)
  | renewTaskLease (taskId groupId memberId : String)
      (expectedTerm expectedGeneration expectedLeaseEpoch : U64) (leaseId : String)
      (nowMs leaseDurationMs : U64)
  | completeTask (taskId groupId memberId : String)
      (expectedTerm expectedGeneration expectedLeaseEpoch : U64) (leaseId result : String)
      (completedAtMs : U64)
  | pruneCompletedTasks (completedBeforeMs maxTasks : U64)
  | advanceTerm (expectedTerm newTerm : U64)
  | acquireCommandSessionOwner (sessionId : String) (expectedOwnerEpoch : U64)
      (ownerInstanceId : String)
  deriving DecidableEq, Repr

/-- A replicated command that cannot be applied, with the reason. -/
structure ReplicatedCommandError where
  message : String
  deriving DecidableEq, Repr

namespace ReplicatedBrokerCommandV1

/-! ## Retries -/

/-- `same_identified_request`: equal up to what the server adds, its clock and its
capacity limits. -/
def sameIdentifiedRequest : ReplicatedBrokerCommandV1 → ReplicatedBrokerCommandV1 → Bool
  | .ensureNamespace namespaceId _, .ensureNamespace otherNamespaceId _ =>
    namespaceId = otherNamespaceId
  | .publishTask namespaceId taskId objective _ _,
      .publishTask otherNamespaceId otherTaskId otherObjective _ _ =>
      namespaceId = otherNamespaceId ∧ taskId = otherTaskId ∧ objective = otherObjective
  | .ensureConsumerGroup namespaceId groupId _,
      .ensureConsumerGroup otherNamespaceId otherGroupId _ =>
      namespaceId = otherNamespaceId ∧ groupId = otherGroupId
  | .joinConsumerGroup groupId memberId capabilities _ _,
      .joinConsumerGroup otherGroupId otherMemberId otherCapabilities _ _ =>
      groupId = otherGroupId ∧ memberId = otherMemberId ∧ capabilities = otherCapabilities
  | .heartbeat groupId memberId expectedGeneration _,
      .heartbeat otherGroupId otherMemberId otherExpectedGeneration _ =>
      groupId = otherGroupId ∧ memberId = otherMemberId ∧
        expectedGeneration = otherExpectedGeneration
  | .leaveConsumerGroup groupId memberId expectedGeneration,
      .leaveConsumerGroup otherGroupId otherMemberId otherExpectedGeneration =>
      groupId = otherGroupId ∧ memberId = otherMemberId ∧
        expectedGeneration = otherExpectedGeneration
  | .reapStaleMembers staleBeforeMs maxMembers,
      .reapStaleMembers otherStaleBeforeMs otherMaxMembers =>
      staleBeforeMs = otherStaleBeforeMs ∧ maxMembers = otherMaxMembers
  | .claimTask groupId memberId expectedTerm expectedGeneration leaseId _ leaseDurationMs,
      .claimTask otherGroupId otherMemberId otherExpectedTerm otherExpectedGeneration
        otherLeaseId _ otherLeaseDurationMs =>
      groupId = otherGroupId ∧ memberId = otherMemberId ∧ expectedTerm = otherExpectedTerm ∧
        expectedGeneration = otherExpectedGeneration ∧ leaseId = otherLeaseId ∧
        leaseDurationMs = otherLeaseDurationMs
  | .renewTaskLease taskId groupId memberId expectedTerm expectedGeneration expectedLeaseEpoch
        leaseId _ leaseDurationMs,
      .renewTaskLease otherTaskId otherGroupId otherMemberId otherExpectedTerm
        otherExpectedGeneration otherExpectedLeaseEpoch otherLeaseId _ otherLeaseDurationMs =>
      taskId = otherTaskId ∧ groupId = otherGroupId ∧ memberId = otherMemberId ∧
        expectedTerm = otherExpectedTerm ∧ expectedGeneration = otherExpectedGeneration ∧
        expectedLeaseEpoch = otherExpectedLeaseEpoch ∧ leaseId = otherLeaseId ∧
        leaseDurationMs = otherLeaseDurationMs
  | .completeTask taskId groupId memberId expectedTerm expectedGeneration expectedLeaseEpoch
        leaseId result _,
      .completeTask otherTaskId otherGroupId otherMemberId otherExpectedTerm
        otherExpectedGeneration otherExpectedLeaseEpoch otherLeaseId otherResult _ =>
      taskId = otherTaskId ∧ groupId = otherGroupId ∧ memberId = otherMemberId ∧
        expectedTerm = otherExpectedTerm ∧ expectedGeneration = otherExpectedGeneration ∧
        expectedLeaseEpoch = otherExpectedLeaseEpoch ∧ leaseId = otherLeaseId ∧
        result = otherResult
  | .pruneCompletedTasks completedBeforeMs maxTasks,
      .pruneCompletedTasks otherCompletedBeforeMs otherMaxTasks =>
      completedBeforeMs = otherCompletedBeforeMs ∧ maxTasks = otherMaxTasks
  | .advanceTerm expectedTerm newTerm, .advanceTerm otherExpectedTerm otherNewTerm =>
    expectedTerm = otherExpectedTerm ∧ newTerm = otherNewTerm
  | .acquireCommandSessionOwner sessionId expectedOwnerEpoch ownerInstanceId,
      .acquireCommandSessionOwner otherSessionId otherExpectedOwnerEpoch
        otherOwnerInstanceId =>
      sessionId = otherSessionId ∧ expectedOwnerEpoch = otherExpectedOwnerEpoch ∧
        ownerInstanceId = otherOwnerInstanceId
  | _, _ => false

/-- A command without what the server adds. -/
def identifiedPart : ReplicatedBrokerCommandV1 → ReplicatedBrokerCommandV1
  | .ensureNamespace namespaceId _ => .ensureNamespace namespaceId 0
  | .publishTask namespaceId taskId objective _ _ =>
    .publishTask namespaceId taskId objective 0 0
  | .ensureConsumerGroup namespaceId groupId _ =>
    .ensureConsumerGroup namespaceId groupId 0
  | .joinConsumerGroup groupId memberId capabilities _ _ =>
    .joinConsumerGroup groupId memberId capabilities 0 0
  | .heartbeat groupId memberId expectedGeneration _ =>
    .heartbeat groupId memberId expectedGeneration 0
  | .claimTask groupId memberId expectedTerm expectedGeneration leaseId _ leaseDurationMs =>
    .claimTask groupId memberId expectedTerm expectedGeneration leaseId 0
      leaseDurationMs
  | .renewTaskLease taskId groupId memberId expectedTerm expectedGeneration expectedLeaseEpoch
      leaseId _ leaseDurationMs =>
      .renewTaskLease taskId groupId memberId expectedTerm expectedGeneration
        expectedLeaseEpoch leaseId 0 leaseDurationMs
  | .completeTask taskId groupId memberId expectedTerm expectedGeneration expectedLeaseEpoch
      leaseId result _ =>
      .completeTask taskId groupId memberId expectedTerm expectedGeneration expectedLeaseEpoch
        leaseId result 0
  | command => command

/-- The comparison is equality of the identified parts. -/
theorem sameIdentifiedRequest_iff {a b : ReplicatedBrokerCommandV1} :
    a.sameIdentifiedRequest b = true ↔ a.identifiedPart = b.identifiedPart := by
  cases a <;> cases b <;> simp [sameIdentifiedRequest, identifiedPart]

/-- An acquisition is the same request as itself only. -/
theorem eq_of_sameIdentifiedRequest_acquisition {sessionId ownerInstanceId : String}
    {expectedOwnerEpoch : U64} {command : ReplicatedBrokerCommandV1}
    (h : (acquireCommandSessionOwner sessionId expectedOwnerEpoch
      ownerInstanceId).sameIdentifiedRequest command = true) :
    command = .acquireCommandSessionOwner sessionId expectedOwnerEpoch ownerInstanceId := by
  cases command with
  | acquireCommandSessionOwner =>
    simp only [sameIdentifiedRequest, decide_eq_true_eq] at h
    rw [h.1, h.2.1, h.2.2]
  | _ => cases h

/-! ## Conversion -/

/-- `?` on a validated constructor. -/
def validated {ε α : Type} (display : ε → String) (x : Except ε α) :
    Except ReplicatedCommandError α :=
  x.mapError fun error =>
    ⟨"replicated Broker command failed domain validation: " ++ display error⟩

/-- `?` on an identifier. -/
def identifier (kind : IdentifierKind) (value : String) :
    Except ReplicatedCommandError (Identifier kind) :=
  validated IdentifierError.display (Identifier.new value)

/-- `?` on a term. -/
def term (value : U64) : Except ReplicatedCommandError Term :=
  validated FencingValueError.display (Term.new value)

/-- `?` on a task text. -/
def taskText (kind : TaskTextKind) (value : String) :
    Except ReplicatedCommandError (TaskText kind) :=
  validated TaskTextError.display (TaskText.new value)

/-- `BrokerCommand::try_from`: the fields are validated in the order in which the
source builds the command.  `u64_to_usize` cannot fail where `usize` has 64 bits. -/
def toBrokerCommand : ReplicatedBrokerCommandV1 → Except ReplicatedCommandError BrokerCommand
  | .ensureNamespace namespaceId maxNamespaces => do
      return .ensureNamespace ⟨← identifier .namespaceId namespaceId, maxNamespaces⟩
  | .publishTask namespaceId taskId objective createdAtMs maxNamespaceTasks => do
      return .publishTask ⟨← identifier .namespaceId namespaceId, ← identifier .taskId taskId,
        ← taskText .objective objective, .new createdAtMs, maxNamespaceTasks⟩
  | .ensureConsumerGroup namespaceId groupId maxNamespaceGroups => do
      return .ensureConsumerGroup ⟨← identifier .namespaceId namespaceId,
        ← identifier .groupId groupId, maxNamespaceGroups⟩
  | .joinConsumerGroup groupId memberId capabilities nowMs maxGroupMembers => do
      return .joinConsumerGroup ⟨← identifier .groupId groupId, ← identifier .memberId memberId,
        ← validated CapabilitiesError.display (Capabilities.new capabilities), .new nowMs,
        maxGroupMembers⟩
  | .heartbeat groupId memberId expectedGeneration nowMs => do
      return .heartbeat ⟨← identifier .groupId groupId, ← identifier .memberId memberId,
        .new expectedGeneration, .new nowMs⟩
  | .leaveConsumerGroup groupId memberId expectedGeneration => do
      return .leaveConsumerGroup ⟨← identifier .groupId groupId, ← identifier .memberId memberId,
        .new expectedGeneration⟩
  | .reapStaleMembers staleBeforeMs maxMembers =>
    .ok (.reapStaleMembers ⟨.new staleBeforeMs, maxMembers⟩)
  | .claimTask groupId memberId expectedTerm expectedGeneration leaseId nowMs
      leaseDurationMs => do
      return .claimTask ⟨← identifier .groupId groupId, ← identifier .memberId memberId,
        ← term expectedTerm, .new expectedGeneration, ← identifier .leaseId leaseId, .new nowMs,
        leaseDurationMs⟩
  | .renewTaskLease taskId groupId memberId expectedTerm expectedGeneration expectedLeaseEpoch
      leaseId nowMs leaseDurationMs => do
      return .renewTaskLease ⟨← identifier .taskId taskId, ← identifier .groupId groupId,
        ← identifier .memberId memberId, ← term expectedTerm, .new expectedGeneration,
        .new expectedLeaseEpoch, ← identifier .leaseId leaseId, .new nowMs, leaseDurationMs⟩
  | .completeTask taskId groupId memberId expectedTerm expectedGeneration expectedLeaseEpoch
      leaseId result completedAtMs => do
      return .completeTask ⟨← identifier .taskId taskId, ← identifier .groupId groupId,
        ← identifier .memberId memberId, ← term expectedTerm, .new expectedGeneration,
        .new expectedLeaseEpoch, ← identifier .leaseId leaseId, ← taskText .result result,
        .new completedAtMs⟩
  | .pruneCompletedTasks completedBeforeMs maxTasks =>
    .ok (.pruneCompletedTasks ⟨.new completedBeforeMs, maxTasks⟩)
  | .advanceTerm expectedTerm newTerm => do
      return .advanceTerm ⟨← term expectedTerm, ← term newTerm⟩
  | .acquireCommandSessionOwner _ _ _ =>
    .error ⟨"command-session owner acquisition is consensus-owned and cannot become a " ++
      "Broker domain command"⟩

/-- `ReplicatedBrokerCommandV1::try_from`; `usize_to_u64` cannot fail. -/
def ofBrokerCommand : BrokerCommand → ReplicatedBrokerCommandV1
  | .ensureNamespace c => .ensureNamespace c.namespaceId.asStr c.maxNamespaces
  | .publishTask c => .publishTask c.namespaceId.asStr c.taskId.asStr c.objective.asStr
      c.createdAtMs.toU64 c.maxNamespaceTasks
  | .ensureConsumerGroup c =>
    .ensureConsumerGroup c.namespaceId.asStr c.groupId.asStr c.maxNamespaceGroups
  | .joinConsumerGroup c => .joinConsumerGroup c.groupId.asStr c.memberId.asStr
      (c.capabilities.asSlice.map Capability.asStr) c.nowMs.toU64 c.maxGroupMembers
  | .heartbeat c => .heartbeat c.groupId.asStr c.memberId.asStr c.expectedGeneration.toU64
      c.nowMs.toU64
  | .leaveConsumerGroup c =>
    .leaveConsumerGroup c.groupId.asStr c.memberId.asStr c.expectedGeneration.toU64
  | .reapStaleMembers c => .reapStaleMembers c.staleBeforeMs.toU64 c.maxMembers
  | .claimTask c => .claimTask c.groupId.asStr c.memberId.asStr c.expectedTerm.toU64
      c.expectedGeneration.toU64 c.leaseId.asStr c.nowMs.toU64 c.leaseDurationMs
  | .renewTaskLease c => .renewTaskLease c.taskId.asStr c.groupId.asStr c.memberId.asStr
      c.expectedTerm.toU64 c.expectedGeneration.toU64 c.expectedLeaseEpoch.toU64 c.leaseId.asStr
      c.nowMs.toU64 c.leaseDurationMs
  | .completeTask c => .completeTask c.taskId.asStr c.groupId.asStr c.memberId.asStr
      c.expectedTerm.toU64 c.expectedGeneration.toU64 c.expectedLeaseEpoch.toU64 c.leaseId.asStr
      c.result.asStr c.completedAtMs.toU64
  | .pruneCompletedTasks c => .pruneCompletedTasks c.completedBeforeMs.toU64 c.maxTasks
  | .advanceTerm c => .advanceTerm c.expectedTerm.toU64 c.newTerm.toU64

@[simp] theorem identifier_asStr {kind : IdentifierKind} (i : Identifier kind) :
    identifier kind i.asStr = .ok i := by
  rw [identifier, validated, Identifier.new_asStr, mapError_ok]

@[simp] theorem term_toU64 (t : Term) : term t.toU64 = .ok t := by
  rw [term, validated, Term.new_toU64, mapError_ok]

@[simp] theorem taskText_asStr {kind : TaskTextKind} (t : TaskText kind) :
    taskText kind t.asStr = .ok t := by
  rw [taskText, validated, TaskText.new_asStr, mapError_ok]

@[simp] theorem capabilities_asSlice (c : Capabilities) :
    validated CapabilitiesError.display (Capabilities.new (c.asSlice.map Capability.asStr)) =
      .ok c := by
  rw [validated, Capabilities.new_asSlice, mapError_ok]

/-- **A command survives the log.** -/
theorem toBrokerCommand_ofBrokerCommand (c : BrokerCommand) :
    (ofBrokerCommand c).toBrokerCommand = .ok c := by
  cases c <;> simp [ofBrokerCommand, toBrokerCommand] <;> rfl

end ReplicatedBrokerCommandV1

/-! ## Proposals -/

/-- The identity of a proposal in primitive values. -/
structure ReplicatedCommandIdentityV1 where
  sessionId : String
  ownerEpoch : U64
  ownerInstanceId : Option String
  sequence : U64
  deriving DecidableEq, Repr

namespace ReplicatedCommandIdentityV1

/-- `?` on a part of an identity. -/
def validated {α : Type} (x : Except CommandIdentityError α) : Except ReplicatedCommandError α :=
  x.mapError fun error => ⟨"invalid replicated command identity: " ++ error.display⟩

/-- `CommandIdentity::try_from`. -/
def toCommandIdentity (identity : ReplicatedCommandIdentityV1) :
    Except ReplicatedCommandError CommandIdentity := do
  let sessionId ← validated (SessionText.new identity.sessionId)
  let ownerEpoch ← validated (SessionCounter.new identity.ownerEpoch)
  let ownerInstanceId ←
    identity.ownerInstanceId.mapM fun value => validated (SessionText.new value)
  let sequence ← validated (SessionCounter.new identity.sequence)
  return ⟨sessionId, ownerEpoch, ownerInstanceId, sequence⟩

/-- `From<&CommandIdentity>`. -/
def ofCommandIdentity (identity : CommandIdentity) : ReplicatedCommandIdentityV1 where
  sessionId := identity.sessionId.asStr
  ownerEpoch := identity.ownerEpoch.toU64
  ownerInstanceId := identity.ownerInstanceId.map SessionText.asStr
  sequence := identity.sequence.toU64

theorem toCommandIdentity_ofCommandIdentity (identity : CommandIdentity) :
    (ofCommandIdentity identity).toCommandIdentity = .ok identity := by
  obtain ⟨sessionId, ownerEpoch, ownerInstanceId, sequence⟩ := identity
  cases ownerInstanceId <;>
    simp [toCommandIdentity, ofCommandIdentity, validated, SessionText.new_asStr,
      SessionCounter.new_toU64]

end ReplicatedCommandIdentityV1

/-- An entry of the log: a command, identified or not. -/
structure ReplicatedBrokerProposalV1 where
  identity : Option ReplicatedCommandIdentityV1
  command : ReplicatedBrokerCommandV1
  deriving DecidableEq, Repr

namespace ReplicatedBrokerProposalV1

/-- A proposal without identity. -/
def legacy (command : ReplicatedBrokerCommandV1) : ReplicatedBrokerProposalV1 := ⟨none, command⟩

/-- A proposal with identity. -/
def identified (identity : CommandIdentity) (command : ReplicatedBrokerCommandV1) :
    ReplicatedBrokerProposalV1 :=
  ⟨some (.ofCommandIdentity identity), command⟩

/-- `into_parts`. -/
def intoParts (proposal : ReplicatedBrokerProposalV1) :
    Except ReplicatedCommandError (Option CommandIdentity × ReplicatedBrokerCommandV1) := do
  let identity ← proposal.identity.mapM ReplicatedCommandIdentityV1.toCommandIdentity
  return (identity, proposal.command)

theorem intoParts_legacy (command : ReplicatedBrokerCommandV1) :
    (legacy command).intoParts = .ok (none, command) := rfl

theorem intoParts_identified (identity : CommandIdentity) (command : ReplicatedBrokerCommandV1) :
    (identified identity command).intoParts = .ok (some identity, command) := by
  simp [intoParts, identified, ReplicatedCommandIdentityV1.toCommandIdentity_ofCommandIdentity]

/-- The parts carry the command of the proposal. -/
theorem command_of_intoParts {p : ReplicatedBrokerProposalV1} {identity : Option CommandIdentity}
    {command : ReplicatedBrokerCommandV1} (h : p.intoParts = .ok (identity, command)) :
    p.command = command := by
  obtain ⟨_, -, h⟩ := bind_eq_ok_iff.mp h
  cases h
  rfl

end ReplicatedBrokerProposalV1

end AgentBroker
