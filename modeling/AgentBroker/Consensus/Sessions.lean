import AgentBroker.Domain.StateMachine
import AgentBroker.Consensus.ReplicatedCommand
import AgentBroker.Consensus.ReplicatedResponse

/-!
# Applying proposals

The replicated state machine applies proposals in log order
(`raft_state_machine.rs`).  Beside the Broker it keeps one record per client session:
its owner, and the last command of that owner that was applied, with its answer.  An
identified command first passes the session checks; they answer a retry from the
record and refuse what is out of order.

## Main results

* `applyProposal_step` — everything a proposal can do.
-/

namespace AgentBroker

open Except hiding error

/-- `MAX_COMMAND_SESSIONS`. -/
def maxCommandSessions : Nat := 4096

/-- The last command of a session's owner that was applied. -/
structure CommandSessionOutcome where
  sequence : CommandSequence
  command : ReplicatedBrokerCommandV1
  response : ReplicatedBrokerResponseV1
  deriving DecidableEq, Repr

/-- What is known of a session. -/
structure CommandSessionRecord where
  ownerEpoch : SessionOwnerEpoch
  ownerInstanceId : Option SessionOwnerInstanceId
  lastOutcome : Option CommandSessionOutcome
  deriving DecidableEq, Repr

/-- An `io::Error` of kind `InvalidData`: the entry cannot be applied at all. -/
structure InvalidData where
  message : String
  deriving DecidableEq, Repr

/-- The part of the replicated state machine that proposals change. -/
structure SessionedBroker where
  broker : BrokerStateMachine
  commandSessions : OrdMap CommandSessionId CommandSessionRecord
  deriving DecidableEq

namespace SessionedBroker

/-- The empty state machine. -/
def initial : SessionedBroker := ⟨.initial, ∅⟩

/-- `replicated_application_error`. -/
def replicatedApplicationError (code : BrokerErrorCode) (message : String) :
    ReplicatedBrokerResponseV1 :=
  .fromPreApplicationRejection ((BrokerError.new code message).withDisposition .rejected)

/-- `invalid_state_machine_data`. -/
def invalidStateMachineData {ε α : Type} (display : ε → String) (x : Except ε α) :
    Except InvalidData α :=
  x.mapError fun error => ⟨display error⟩

/-! ## Identified commands -/

/-- The checks of `apply_identified` for a session that has a record.  An early return
is an error that carries the answer. -/
def checkRecord (record : CommandSessionRecord) (identity : CommandIdentity)
    (command : ReplicatedBrokerCommandV1) : Except ReplicatedBrokerResponseV1 Unit := do
  Except.require (identity.ownerEpoch = record.ownerEpoch)
    (replicatedApplicationError .staleFence
      ("command session " ++ identity.sessionId.asStr ++ " owner epoch " ++
        toString identity.ownerEpoch.get ++ " does not match broker-authoritative epoch " ++
        toString record.ownerEpoch.get))
  Except.require (identity.ownerInstanceId = record.ownerInstanceId)
    (replicatedApplicationError .staleFence
      ("command session " ++ identity.sessionId.asStr ++
        " owner instance does not match broker-authoritative owner instance"))
  match record.lastOutcome with
  | some outcome => do
      Except.require (¬identity.sequence < outcome.sequence)
        (replicatedApplicationError .staleFence
          ("command_sequence " ++ toString identity.sequence.get ++
            " is older than committed sequence " ++ toString outcome.sequence.get ++
            " for session " ++ identity.sessionId.asStr))
      if identity.sequence = outcome.sequence then
        if command.sameIdentifiedRequest outcome.command then .error outcome.response
        else .error (replicatedApplicationError .conflict
          ("command_sequence " ++ toString identity.sequence.get ++ " for session " ++
            identity.sessionId.asStr ++
            " is already committed with different command content"))
      else .ok ()
  | none =>
    Except.require (identity.sequence.get = 1)
      (replicatedApplicationError .staleFence
        ("new owner epoch " ++ toString identity.ownerEpoch.get ++ " for session " ++
          identity.sessionId.asStr ++ " must restart command_sequence at 1, got " ++
          toString identity.sequence.get))

/-- The text of a full session table. -/
def capacityText : String :=
  "command session capacity reached: max " ++ toString maxCommandSessions ++
    " active sessions"

/-- The checks of `apply_identified` for a session without record. -/
def checkNewSession (s : SessionedBroker) (identity : CommandIdentity) :
    Except ReplicatedBrokerResponseV1 Unit := do
  Except.require (identity.ownerEpoch = .initial)
    (replicatedApplicationError .staleFence
      ("new command session " ++ identity.sessionId.asStr ++
        " must begin at broker-authoritative owner epoch 1, got " ++
        toString identity.ownerEpoch.get))
  Except.require (identity.ownerInstanceId = none)
    (replicatedApplicationError .staleFence
      ("new command session " ++ identity.sessionId.asStr ++
        " cannot self-authorize an owner instance before broker acquisition"))
  Except.require (s.commandSessions.size < maxCommandSessions)
    (replicatedApplicationError .capacityExceeded capacityText)

/-- The session checks of `apply_identified`. -/
def checkSession (s : SessionedBroker) (identity : CommandIdentity)
    (command : ReplicatedBrokerCommandV1) : Except ReplicatedBrokerResponseV1 Unit :=
  match s.commandSessions.get identity.sessionId with
  | some record => checkRecord record identity command
  | none => s.checkNewSession identity

/-- `apply_replicated_command`. -/
def applyReplicatedCommand (s : SessionedBroker) (command : ReplicatedBrokerCommandV1) :
    SessionedBroker × Except InvalidData ReplicatedBrokerResponseV1 :=
  match command.toBrokerCommand with
  | .error error => (s, .error ⟨error.message⟩)
  | .ok brokerCommand =>
    let applied := s.broker.apply brokerCommand
    ({ s with broker := applied.1 },
      .ok (.fromApplicationResult
        ((applied.2.map AppliedMutation.result).mapError BrokerError.ofStateMachine)))

/-- `apply_identified`. -/
def applyIdentified (s : SessionedBroker) (identity : CommandIdentity)
    (command : ReplicatedBrokerCommandV1) :
    SessionedBroker × Except InvalidData ReplicatedBrokerResponseV1 :=
  match s.checkSession identity command with
  | .error response => (s, .ok response)
  | .ok () =>
    match s.applyReplicatedCommand command with
    | (s', .error error) => (s', .error error)
    | (s', .ok response) =>
      ({ s' with
        commandSessions := s'.commandSessions.insert identity.sessionId
          { ownerEpoch := identity.ownerEpoch
            ownerInstanceId := identity.ownerInstanceId
            lastOutcome := some ⟨identity.sequence, command, response⟩ } },
        .ok response)

/-! ## Acquisition of a session -/

/-- The answer to an acquisition that succeeds. -/
def acquired (epoch : SessionOwnerEpoch) : ReplicatedBrokerResponseV1 :=
  .sessionOwnerAcquired epoch.toU64

/-- `acquire_command_session_owner` for validated arguments: the table afterwards and
the answer. -/
def acquireOwner (sessions : OrdMap CommandSessionId CommandSessionRecord)
    (sessionId : CommandSessionId) (expectedOwnerEpoch : SessionOwnerEpoch)
    (ownerInstanceId : SessionOwnerInstanceId) :
    OrdMap CommandSessionId CommandSessionRecord × ReplicatedBrokerResponseV1 :=
  match sessions.get sessionId with
  | none =>
    if expectedOwnerEpoch ≠ .initial then
      (sessions, replicatedApplicationError .staleFence
        ("new command session " ++ sessionId.asStr ++
          " must begin at broker-authoritative owner epoch 1, got " ++
          toString expectedOwnerEpoch.get))
    else if sessions.size ≥ maxCommandSessions then
      (sessions, replicatedApplicationError .capacityExceeded capacityText)
    else
      (sessions.insert sessionId ⟨.initial, some ownerInstanceId, none⟩, acquired .initial)
  | some record =>
    if record.ownerInstanceId = some ownerInstanceId ∧
        (record.ownerEpoch = expectedOwnerEpoch ∨
          expectedOwnerEpoch.next = some record.ownerEpoch) then
      (sessions, acquired record.ownerEpoch)
    else if record.ownerEpoch ≠ expectedOwnerEpoch then
      (sessions, replicatedApplicationError .staleFence
        ("command session " ++ sessionId.asStr ++ " expected owner epoch " ++
          toString expectedOwnerEpoch.get ++ " but broker-authoritative epoch is " ++
          toString record.ownerEpoch.get))
    else
      match record.ownerEpoch.next with
      | none =>
        (sessions, replicatedApplicationError .capacityExceeded
          ("command session " ++ sessionId.asStr ++ " owner epoch is exhausted"))
      | some nextOwnerEpoch =>
        (sessions.insert sessionId ⟨nextOwnerEpoch, some ownerInstanceId, none⟩,
          acquired nextOwnerEpoch)

/-- `acquire_command_session_owner`. -/
def acquireCommandSessionOwner (s : SessionedBroker) (sessionId : String)
    (expectedOwnerEpoch : U64) (ownerInstanceId : String) :
    SessionedBroker × Except InvalidData ReplicatedBrokerResponseV1 :=
  let arguments : Except InvalidData
      (CommandSessionId × SessionOwnerEpoch × SessionOwnerInstanceId) := do
    let sessionId ← invalidStateMachineData CommandIdentityError.display
      (SessionText.new sessionId)
    let expectedOwnerEpoch ← invalidStateMachineData CommandIdentityError.display
      (SessionCounter.new expectedOwnerEpoch)
    let ownerInstanceId ← invalidStateMachineData CommandIdentityError.display
      (SessionText.new ownerInstanceId)
    return (sessionId, expectedOwnerEpoch, ownerInstanceId)
  match arguments with
  | .error error => (s, .error error)
  | .ok (sessionId, expectedOwnerEpoch, ownerInstanceId) =>
    let (sessions, response) :=
      acquireOwner s.commandSessions sessionId expectedOwnerEpoch ownerInstanceId
    ({ s with commandSessions := sessions }, .ok response)

/-! ## Proposals -/

/-- `apply_proposal`. -/
def applyProposal (s : SessionedBroker) (proposal : ReplicatedBrokerProposalV1) :
    SessionedBroker × Except InvalidData ReplicatedBrokerResponseV1 :=
  match proposal.intoParts with
  | .error error => (s, .error ⟨error.message⟩)
  | .ok (identity, .acquireCommandSessionOwner sessionId expectedOwnerEpoch ownerInstanceId) =>
    match identity with
    | some _ =>
      (s, .error ⟨"command-session owner acquisition must not carry identified mutation " ++
        "identity"⟩)
    | none => s.acquireCommandSessionOwner sessionId expectedOwnerEpoch ownerInstanceId
  | .ok (some identity, command) => s.applyIdentified identity command
  | .ok (none, command) => s.applyReplicatedCommand command

/-! ## What a proposal does -/

/-- The machine after an identified command was applied. -/
def recorded (s : SessionedBroker) (identity : CommandIdentity)
    (command : ReplicatedBrokerCommandV1) (brokerCommand : BrokerCommand)
    (response : ReplicatedBrokerResponseV1) : SessionedBroker where
  broker := (s.broker.apply brokerCommand).1
  commandSessions := s.commandSessions.insert identity.sessionId
    { ownerEpoch := identity.ownerEpoch
      ownerInstanceId := identity.ownerInstanceId
      lastOutcome := some ⟨identity.sequence, command, response⟩ }

/-- The answer to a command that is applied. -/
def applicationResponse (s : SessionedBroker) (brokerCommand : BrokerCommand) :
    ReplicatedBrokerResponseV1 :=
  .fromApplicationResult (((s.broker.apply brokerCommand).2.map
    AppliedMutation.result).mapError BrokerError.ofStateMachine)

/-- Everything a proposal can do, with its answer. -/
inductive ProposalStep (s : SessionedBroker) (p : ReplicatedBrokerProposalV1) :
    SessionedBroker → Except InvalidData ReplicatedBrokerResponseV1 → Prop
  /-- The entry cannot be applied at all. -/
  | invalid (error : InvalidData) : ProposalStep s p s (.error error)
  /-- A command without identity is applied. -/
  | legacy {command : ReplicatedBrokerCommandV1} {brokerCommand : BrokerCommand}
      (parts : p.intoParts = .ok (none, command))
      (valid : command.toBrokerCommand = .ok brokerCommand) :
      ProposalStep s p { s with broker := (s.broker.apply brokerCommand).1 }
        (.ok (s.applicationResponse brokerCommand))
  /-- The session checks answer an identified command. -/
  | answered {identity : CommandIdentity} {command : ReplicatedBrokerCommandV1}
      {response : ReplicatedBrokerResponseV1}
      (parts : p.intoParts = .ok (some identity, command))
      (mutation : ∀ session expected owner,
        command ≠ .acquireCommandSessionOwner session expected owner)
      (check : s.checkSession identity command = .error response) :
      ProposalStep s p s (.ok response)
  /-- An identified command is applied. -/
  | applied {identity : CommandIdentity} {command : ReplicatedBrokerCommandV1}
      {brokerCommand : BrokerCommand} (parts : p.intoParts = .ok (some identity, command))
      (check : s.checkSession identity command = .ok ())
      (valid : command.toBrokerCommand = .ok brokerCommand) :
      ProposalStep s p
        (s.recorded identity command brokerCommand (s.applicationResponse brokerCommand))
        (.ok (s.applicationResponse brokerCommand))
  /-- A session is acquired, or not. -/
  | acquisition {session : CommandSessionId} {expected : SessionOwnerEpoch}
      {owner : SessionOwnerInstanceId}
      (parts : p.intoParts = .ok
        (none, .acquireCommandSessionOwner session.asStr expected.toU64 owner.asStr)) :
      ProposalStep s p
        { s with commandSessions := (acquireOwner s.commandSessions session expected owner).1 }
        (.ok (acquireOwner s.commandSessions session expected owner).2)

variable {s : SessionedBroker} {p : ReplicatedBrokerProposalV1}

theorem commandSessions_recorded (identity : CommandIdentity)
    (command : ReplicatedBrokerCommandV1) (brokerCommand : BrokerCommand)
    (response : ReplicatedBrokerResponseV1) :
    (s.recorded identity command brokerCommand response).commandSessions =
      s.commandSessions.insert identity.sessionId
        ⟨identity.ownerEpoch, identity.ownerInstanceId,
          some ⟨identity.sequence, command, response⟩⟩ := rfl

variable {command : ReplicatedBrokerCommandV1}

theorem applyReplicatedCommand_ok {brokerCommand : BrokerCommand}
    (h : command.toBrokerCommand = .ok brokerCommand) :
    s.applyReplicatedCommand command =
      ({ s with broker := (s.broker.apply brokerCommand).1 },
        .ok (s.applicationResponse brokerCommand)) := by
  rw [applyReplicatedCommand, h]
  rfl

theorem applyReplicatedCommand_error {error : ReplicatedCommandError}
    (h : command.toBrokerCommand = .error error) :
    s.applyReplicatedCommand command = (s, .error ⟨error.message⟩) := by
  rw [applyReplicatedCommand, h]

theorem applyIdentified_step {identity : CommandIdentity}
    (hparts : p.intoParts = .ok (some identity, command))
    (hmutation : ∀ session expected owner,
      command ≠ .acquireCommandSessionOwner session expected owner) :
    ProposalStep s p (s.applyIdentified identity command).1
      (s.applyIdentified identity command).2 := by
  unfold applyIdentified
  cases hcheck : s.checkSession identity command with
  | error => exact .answered hparts hmutation hcheck
  | ok u =>
    cases hvalid : command.toBrokerCommand with
    | error =>
      rw [applyReplicatedCommand_error hvalid]
      exact .invalid _
    | ok =>
      rw [applyReplicatedCommand_ok hvalid]
      exact .applied hparts hcheck hvalid

theorem acquireCommandSessionOwner_step {sessionId : String} {expectedOwnerEpoch : U64}
    {ownerInstanceId : String}
    (hparts : p.intoParts = .ok
      (none, .acquireCommandSessionOwner sessionId expectedOwnerEpoch ownerInstanceId)) :
    ProposalStep s p
      (s.acquireCommandSessionOwner sessionId expectedOwnerEpoch ownerInstanceId).1
      (s.acquireCommandSessionOwner sessionId expectedOwnerEpoch ownerInstanceId).2 := by
  unfold acquireCommandSessionOwner
  dsimp only
  split
  · exact .invalid _
  · rename_i session expected owner harguments
    obtain ⟨_, hsession, harguments⟩ := bind_eq_ok_iff.mp harguments
    obtain ⟨_, hexpected, harguments⟩ := bind_eq_ok_iff.mp harguments
    obtain ⟨_, howner, harguments⟩ := bind_eq_ok_iff.mp harguments
    cases harguments
    refine .acquisition ?_
    rw [hparts, SessionText.asStr_of_new (mapError_eq_ok_iff.mp hsession),
      SessionCounter.toU64_of_new (mapError_eq_ok_iff.mp hexpected),
      SessionText.asStr_of_new (mapError_eq_ok_iff.mp howner)]

/-- **Everything a proposal can do.** -/
theorem applyProposal_step (s : SessionedBroker) (p : ReplicatedBrokerProposalV1) :
    ProposalStep s p (s.applyProposal p).1 (s.applyProposal p).2 := by
  unfold applyProposal
  split
  · exact .invalid _
  · rename_i identity sessionId expectedOwnerEpoch ownerInstanceId hparts
    cases identity with
    | some => exact .invalid _
    | none => exact acquireCommandSessionOwner_step hparts
  · rename_i hmutation hparts
    exact applyIdentified_step hparts hmutation
  · rename_i command _ hparts
    cases hvalid : command.toBrokerCommand with
    | error =>
      rw [applyReplicatedCommand_error hvalid]
      exact .invalid _
    | ok =>
      rw [applyReplicatedCommand_ok hvalid]
      exact .legacy hparts hvalid

end SessionedBroker

end AgentBroker
