import AgentBroker.Client.SessionStore
import AgentBroker.Consensus.ExactlyOnce
import AgentBroker.Protocol.FrameSize

/-!
# One durable session against the server

A client executes the commands of one session (`client.rs`, `execute_reserved_durable`):
it reserves a command in its store, sends the frame, and sends it again after a lost or
ambiguous answer.  The server (`tcp_server.rs`, `state_owner.rs`) queues a request or
answers that its queue is full; the state owner hands it to consensus and may answer
before it is decided; other clients use the same replicated state machine.

## The design decisions

* **The state is the whole system**: what the client knows, every attempt that is still
  somewhere on its way, the answers written so far, and the replicated state machine.  An
  event that is not possible in a state leaves it as it is, so that every list of events is a
  run.
* **Reservations are numbered.**  The store gives the sequence of a rejected command to the
  next one; only the number tells two reservations with one identity apart, and `applied` and
  `released` are recorded under it.
* **A frame is measured where it is written.**  `execute_owned` encodes the command in flight
  with the limit the client is configured with, and sends nothing if the frame is too long:
  the command then stays in flight.  A server with the same limit, which is also the default of
  both, reads every frame that was sent.  An acquisition consists of identities and counters,
  and no answer carries more than an objective, so that neither comes near the default limit;
  they are not measured.

## What is load-bearing

`SessionStep` lists everything an event can do to the state, with the facts that made it
possible, and `step_step` says that the list is complete.  Every invariant of a session is
proved by cases over it; no later module unfolds `step` for that.

## Main results

* `ReservedCommand.exists_ownedFrame_iff` — which commands can be sent.
* `step_step` — everything an event can do.
-/

namespace AgentBroker

open Except hiding error
open List

/-- The frame that `execute_owned` writes for a reserved command.  It reads back only what it
wrote itself, so that nothing depends on what `serde` leaves open. -/
def ReservedCommand.ownedFrame (serde : Serde) (reserved : ReservedCommand)
    (maxFrameBytes : Nat) : Except ProtocolCodecError Bytes := do
  let owned ← OwnerIdentifiedBrokerRequestV3.new reserved.identity reserved.request
  encodeOwnerMutationRequestWithLimit serde owned maxFrameBytes

theorem operation_ne_health {request : BrokerRequest} (h : request.isHealth = false) :
    request.operation ≠ .health := by
  cases request with
  | health => cases h
  | _ => exact fun heq => nomatch heq

namespace ReservedCommand

variable {serde : Serde} {reserved : ReservedCommand} {ownerInstanceId : SessionOwnerInstanceId}
  {limit : Nat}

/-- What is sent keeps the limit. -/
theorem ownedFrameBytes_le (howner : reserved.identity.ownerInstanceId = some ownerInstanceId)
    {frame : Bytes} (h : reserved.ownedFrame serde limit = .ok frame) :
    reserved.request.ownedFrameBytes reserved.identity.sessionId reserved.identity.ownerEpoch
      ownerInstanceId reserved.identity.sequence ≤ limit := by
  obtain ⟨owned, hnew, hframe⟩ := bind_eq_ok_iff.mp h
  obtain ⟨hidentity, hrequest⟩ := OwnerIdentifiedBrokerRequestV3.new_ok hnew
  rw [← hidentity] at howner ⊢
  rw [← hrequest]
  exact (exists_encodeOwnerMutation_iff serde howner).mp ⟨frame, hframe⟩

/-- **Which commands can be sent**: mutations of an owner whose frame of the third version
keeps the limit. -/
theorem exists_ownedFrame_iff (serde : Serde)
    (howner : reserved.identity.ownerInstanceId = some ownerInstanceId)
    (hrequest : reserved.request.isHealth = false) :
    (∃ frame, reserved.ownedFrame serde limit = .ok frame) ↔
      reserved.request.ownedFrameBytes reserved.identity.sessionId reserved.identity.ownerEpoch
        ownerInstanceId reserved.identity.sequence ≤ limit := by
  constructor
  · rintro ⟨frame, h⟩
    exact ownedFrameBytes_le howner h
  · intro hfits
    have howned : reserved.identity.ownerInstanceId ≠ none := by
      rw [howner]
      exact Option.some_ne_none _
    have hmutation := operation_ne_health hrequest
    let owned : OwnerIdentifiedBrokerRequestV3 :=
      ⟨reserved.identity, reserved.request, howned, hmutation⟩
    have hnew : OwnerIdentifiedBrokerRequestV3.new reserved.identity reserved.request =
        .ok owned := by
      rw [OwnerIdentifiedBrokerRequestV3.new, dif_neg howned, dif_neg hmutation]
    obtain ⟨frame, hframe⟩ : ∃ frame,
        encodeOwnerMutationRequestWithLimit serde owned limit = .ok frame :=
      (exists_encodeOwnerMutation_iff serde howner).mpr hfits
    exact ⟨frame, bind_eq_ok_iff.mpr ⟨owned, hnew, hframe⟩⟩

end ReservedCommand

/-- What the client sends: an acquisition of the session, or the command of a
reservation.  Reservations are numbered. -/
inductive Message where
  | acquisition (pending : PendingOwnerAcquisition)
  | mutation (reservation : Nat) (reserved : ReservedCommand)
  deriving DecidableEq

/-- One attempt to send a message. -/
structure Attempt where
  number : Nat
  message : Message
  deriving DecidableEq

/-- Where an attempt is: its frame is not read yet, its job waits for the state owner,
or its proposal was submitted to consensus. -/
inductive Stage where
  | network
  | queue
  | consensus (proposal : ReplicatedBrokerProposalV1)
  deriving DecidableEq

/-- What the client makes of a response. -/
inductive Answer where
  | succeeded
  | acquired (ownerEpoch : SessionOwnerEpoch)
  | failed (error : BrokerError)
  deriving DecidableEq, Repr

/-- `into_application_result`, as far as the client distinguishes answers. -/
def mutationAnswer : ReplicatedBrokerResponseV1 → Answer
  | .success _ => .succeeded
  | .applicationError error => .failed error
  | _ => .failed (.new .internalError
      "consensus control entry does not contain a Broker application result")

/-- The answer to an acquisition. -/
def acquisitionAnswer : ReplicatedBrokerResponseV1 → Answer
  | .sessionOwnerAcquired ownerEpoch =>
    match SessionCounter.new ownerEpoch with
    | .ok ownerEpoch => .acquired ownerEpoch
    | .error error => .failed (.new .internalError
        ("committed command-session owner epoch was invalid: " ++ error.display))
  | .applicationError error => .failed error
  | _ => .failed (.new .internalError
      "command-session owner acquisition returned unexpected response")

namespace Message

/-- The reservation a message belongs to. -/
def reservation : Message → Option Nat
  | .acquisition _ => none
  | .mutation reservation _ => some reservation

/-- The answer to a message. -/
def answer : Message → ReplicatedBrokerResponseV1 → Answer
  | .acquisition _ => acquisitionAnswer
  | .mutation _ _ => mutationAnswer

/-- The proposal that the state owner submits for a message. -/
def proposal (policy : BrokerCapacityPolicy) (observedAtMs : TimestampMs) :
    Message → Except BrokerError ReplicatedBrokerProposalV1
  | .acquisition pending =>
    .ok (.legacy (.acquireCommandSessionOwner pending.sessionId.asStr
      pending.expectedOwnerEpoch.toU64 pending.ownerInstanceId.asStr))
  | .mutation _ reserved => do
      let command ← reserved.request.dispatchIdentified policy observedAtMs
      return .identified reserved.identity (.ofBrokerCommand command)

end Message

/-- A client, its attempts and the replicated state machine. -/
structure DurableSession where
  /-- `max_response_frame_bytes` of the client's configuration: no frame that it writes is
  longer. -/
  maxResponseFrameBytes : Nat
  store : DurableClientSessionStore
  /-- The number of reservations; the command in flight is the last of them. -/
  reservations : Nat
  /-- The number of attempts sent. -/
  sent : Nat
  /-- The attempt whose answer the client waits for. -/
  awaiting : Option Attempt
  outstanding : List (Attempt × Stage)
  answers : List (Attempt × Answer)
  machine : SessionedBroker
  /-- The reservations that were applied to the Broker. -/
  applied : List Nat
  /-- The reservations that the client released because they were rejected. -/
  released : List Nat
  deriving DecidableEq

/-- What can happen. -/
inductive SessionEvent where
  /-- The client begins to acquire its session. -/
  | beginAcquisition (ownerInstanceId : SessionOwnerInstanceId)
  /-- The client sends the pending acquisition. -/
  | sendAcquisition
  /-- The client reserves a command. -/
  | reserve (request : BrokerRequest)
  /-- The client sends the command in flight. -/
  | send
  /-- The client gets no answer and stops waiting. -/
  | giveUp
  /-- The client reads an answer. -/
  | receive (answer : Answer)
  /-- An attempt is lost, wherever it is. -/
  | lose (attempt : Attempt) (stage : Stage)
  /-- The server reads a frame while its queue is full. -/
  | saturate (attempt : Attempt)
  /-- The server queues a job. -/
  | accept (attempt : Attempt)
  /-- The state owner submits a job to consensus. -/
  | dispatch (attempt : Attempt) (policy : BrokerCapacityPolicy) (observedAtMs : TimestampMs)
  /-- The server answers a job without knowing what becomes of it. -/
  | fail (attempt : Attempt) (stage : Stage) (code : BrokerErrorCode) (message : String)
  /-- A submitted proposal is applied. -/
  | commit (attempt : Attempt) (proposal : ReplicatedBrokerProposalV1)
  /-- A proposal of another client is applied. -/
  | foreign (proposal : ReplicatedBrokerProposalV1)

namespace DurableSession

/-- A new session against an empty state machine. -/
def initial (maxResponseFrameBytes : Nat) (sessionId : CommandSessionId) : DurableSession where
  maxResponseFrameBytes := maxResponseFrameBytes
  store := .create sessionId
  reservations := 0
  sent := 0
  awaiting := none
  outstanding := []
  answers := []
  machine := .initial
  applied := []
  released := []

/-- The answer of a server whose queue is full. -/
def saturated : BrokerError :=
  (BrokerError.new .capacityExceeded "Broker request queue is saturated.").withDisposition
    .rejected

/-- Send a message and wait for its answer. -/
def sendMessage (s : DurableSession) (message : Message) : DurableSession :=
  { s with
    sent := s.sent + 1
    awaiting := some ⟨s.sent, message⟩
    outstanding := (⟨s.sent, message⟩, .network) :: s.outstanding }

/-- The client confirms its acquisition. -/
def confirm (s : DurableSession) (ownerEpoch : SessionOwnerEpoch) : DurableSession :=
  match s.store.confirmOwnerAcquisition ownerEpoch with
  | .ok store => { s with store := store, awaiting := none }
  | .error _ => { s with awaiting := none }

/-- The client acknowledges a definitive outcome. -/
def acknowledge (s : DurableSession) (reserved : ReservedCommand) : DurableSession :=
  match s.store.acknowledgeInFlightOutcome reserved.identity with
  | .ok store => { s with store := store, awaiting := none }
  | .error _ => { s with awaiting := none }

/-- The client releases a rejected command. -/
def release (s : DurableSession) (reservation : Nat) (reserved : ReservedCommand) :
    DurableSession :=
  match s.store.releaseRejectedInFlight reserved.identity with
  | .ok store =>
    { s with store := store, awaiting := none, released := reservation :: s.released }
  | .error _ => { s with awaiting := none }

/-- An iteration of `execute_reserved_durable`, or the caller of an acquisition, on an
answer. -/
def handle (s : DurableSession) : Message → Answer → DurableSession
  | .acquisition _, .acquired ownerEpoch => s.confirm ownerEpoch
  | .acquisition _, _ => { s with awaiting := none }
  | .mutation reservation reserved, .failed error =>
    match error.disposition with
    | .committed => s.acknowledge reserved
    | .rejected => s.release reservation reserved
    | .unknown => { s with awaiting := none }
  | .mutation _ reserved, _ => s.acknowledge reserved

/-- The proposal speaks for one of the client's own instances. -/
def speaksFor (own : SessionOwnerInstanceId → Bool) (sessionId : CommandSessionId)
    (p : ReplicatedBrokerProposalV1) : Bool :=
  match p.intoParts with
  | .ok (some identity, _) =>
    identity.sessionId = sessionId && identity.ownerInstanceId.any own
  | .ok (none, .acquireCommandSessionOwner session _ owner) =>
    session = sessionId.asStr &&
      match SessionText.new owner with
      | .ok owner => own owner
      | .error _ => false
  | _ => false

/-- A submitted proposal is applied and its attempt answered.  An entry that cannot be
applied at all is not answered. -/
def commit (s : DurableSession) (attempt : Attempt) (proposal : ReplicatedBrokerProposalV1) :
    DurableSession :=
  { s with
    outstanding := s.outstanding.erase (attempt, .consensus proposal)
    machine := (s.machine.applyProposal proposal).1
    answers :=
      match (s.machine.applyProposal proposal).2 with
      | .ok response => (attempt, attempt.message.answer response) :: s.answers
      | .error _ => s.answers
    applied :=
      match attempt.message, s.machine.appliedEntry proposal with
      | .mutation reservation _, some _ => reservation :: s.applied
      | _, _ => s.applied }

/-- What is on its way after the server answered an attempt as failed.  A proposal that
consensus has may still be applied. -/
def afterFailure (s : DurableSession) (attempt : Attempt) : Stage → List (Attempt × Stage)
  | .consensus _ => s.outstanding
  | stage => s.outstanding.erase (attempt, stage)

/-- One event.  `own` are the owner instances that this client uses, and no other. -/
def step (own : SessionOwnerInstanceId → Bool) (s : DurableSession) :
    SessionEvent → DurableSession
  | .beginAcquisition ownerInstanceId =>
    if own ownerInstanceId then
      match s.store.beginOwnerAcquisition ownerInstanceId with
      | .ok store => { s with store := store }
      | .error _ => s
    else s
  | .sendAcquisition =>
    match s.awaiting, s.store.pendingOwnerAcquisition with
    | none, some pending => s.sendMessage (.acquisition pending)
    | _, _ => s
  | .reserve request =>
    match s.store.reserveCommand request with
    | .ok store => { s with store := store, reservations := s.reservations + 1 }
    | .error _ => s
  | .send =>
    match s.awaiting, s.store.inFlight with
    | none, some reserved =>
      -- A frame that is too long is an error of the caller, and the command stays in flight.
      match reserved.ownedFrame default s.maxResponseFrameBytes with
      | .ok _ => s.sendMessage (.mutation s.reservations reserved)
      | .error _ => s
    | _, _ => s
  | .giveUp => { s with awaiting := none }
  | .receive answer =>
    match s.awaiting with
    | none => s
    | some attempt =>
      if (attempt, answer) ∈ s.answers then s.handle attempt.message answer else s
  | .lose attempt stage => { s with outstanding := s.outstanding.erase (attempt, stage) }
  | .saturate attempt =>
    if (attempt, .network) ∈ s.outstanding then
      { s with
        outstanding := s.outstanding.erase (attempt, .network)
        answers := (attempt, .failed saturated) :: s.answers }
    else s
  | .accept attempt =>
    if (attempt, .network) ∈ s.outstanding then
      { s with
        outstanding := (attempt, .queue) :: s.outstanding.erase (attempt, .network) }
    else s
  | .dispatch attempt policy observedAtMs =>
    if (attempt, .queue) ∈ s.outstanding then
      match attempt.message.proposal policy observedAtMs with
      | .ok proposal =>
        { s with
          outstanding :=
            (attempt, .consensus proposal) :: s.outstanding.erase (attempt, .queue) }
      | .error error =>
        { s with
          outstanding := s.outstanding.erase (attempt, .queue)
          answers := (attempt, .failed error) :: s.answers }
    else s
  | .fail attempt stage code message =>
    if (attempt, stage) ∈ s.outstanding then
      { s with
        outstanding := s.afterFailure attempt stage
        answers := (attempt, .failed (.new code message)) :: s.answers }
    else s
  | .commit attempt proposal =>
    if (attempt, .consensus proposal) ∈ s.outstanding then s.commit attempt proposal else s
  | .foreign proposal =>
    if speaksFor own s.store.sessionId proposal then s
    else { s with machine := (s.machine.applyProposal proposal).1 }

/-! ## What an event does -/

/-- Attempts on their way move on or are lost, and are at most answered as unknown. -/
structure Moves (s : DurableSession) (outstanding : List (Attempt × Stage))
    (answers : List (Attempt × Answer)) : Prop where
  attempts : ∀ attempt stage, (attempt, stage) ∈ outstanding →
    ∃ stage', (attempt, stage') ∈ s.outstanding
  proposals : ∀ attempt proposal, (attempt, Stage.consensus proposal) ∈ outstanding →
    (attempt, Stage.consensus proposal) ∈ s.outstanding ∨
      ∃ policy observedAtMs, attempt.message.proposal policy observedAtMs = .ok proposal
  answered : ∀ attempt answer, (attempt, answer) ∈ answers →
    (attempt, answer) ∈ s.answers ∨
      ∃ stage error, (attempt, stage) ∈ s.outstanding ∧ answer = .failed error ∧
        error.disposition = .unknown

theorem Moves.refl (s : DurableSession) : s.Moves s.outstanding s.answers :=
  ⟨fun _ stage h => ⟨stage, h⟩, fun _ _ h => Or.inl h, fun _ _ h => Or.inl h⟩

/-- Everything an event can do. -/
inductive SessionStep (own : SessionOwnerInstanceId → Bool) (s : DurableSession) :
    SessionEvent → DurableSession → Prop
  | idle (event : SessionEvent) : SessionStep own s event s
  | began {ownerInstanceId : SessionOwnerInstanceId} {store : DurableClientSessionStore}
      (isOwn : own ownerInstanceId = true)
      (ok : s.store.beginOwnerAcquisition ownerInstanceId = .ok store) :
      SessionStep own s (.beginAcquisition ownerInstanceId) { s with store := store }
  | asked {pending : PendingOwnerAcquisition} (free : s.awaiting = none)
      (found : s.store.pendingOwnerAcquisition = some pending) :
      SessionStep own s .sendAcquisition (s.sendMessage (.acquisition pending))
  | reserved {request : BrokerRequest} {store : DurableClientSessionStore}
      (ok : s.store.reserveCommand request = .ok store) :
      SessionStep own s (.reserve request)
        { s with store := store, reservations := s.reservations + 1 }
  | sent {reserved : ReservedCommand} {frame : Bytes} (free : s.awaiting = none)
      (found : s.store.inFlight = some reserved)
      (written : reserved.ownedFrame default s.maxResponseFrameBytes = .ok frame) :
      SessionStep own s .send (s.sendMessage (.mutation s.reservations reserved))
  | gaveUp (event : SessionEvent) : SessionStep own s event { s with awaiting := none }
  | confirmed {number : Nat} {pending : PendingOwnerAcquisition} {epoch : SessionOwnerEpoch}
      {store : DurableClientSessionStore}
      (awaited : s.awaiting = some ⟨number, .acquisition pending⟩)
      (answered : (⟨number, .acquisition pending⟩, .acquired epoch) ∈ s.answers)
      (ok : s.store.confirmOwnerAcquisition epoch = .ok store) :
      SessionStep own s (.receive (.acquired epoch)) { s with store := store, awaiting := none }
  | acknowledged {number reservation : Nat} {reserved : ReservedCommand} {answer : Answer}
      {store : DurableClientSessionStore}
      (awaited : s.awaiting = some ⟨number, .mutation reservation reserved⟩)
      (answered : (⟨number, .mutation reservation reserved⟩, answer) ∈ s.answers)
      (definitive : ∀ error, answer = .failed error → error.disposition = .committed)
      (ok : s.store.acknowledgeInFlightOutcome reserved.identity = .ok store) :
      SessionStep own s (.receive answer) { s with store := store, awaiting := none }
  | released {number reservation : Nat} {reserved : ReservedCommand} {error : BrokerError}
      {store : DurableClientSessionStore}
      (awaited : s.awaiting = some ⟨number, .mutation reservation reserved⟩)
      (answered : (⟨number, .mutation reservation reserved⟩, .failed error) ∈ s.answers)
      (rejected : error.disposition = .rejected)
      (ok : s.store.releaseRejectedInFlight reserved.identity = .ok store) :
      SessionStep own s (.receive (.failed error))
        { s with store := store, awaiting := none, released := reservation :: s.released }
  | moved (event : SessionEvent) {outstanding : List (Attempt × Stage)}
      {answers : List (Attempt × Answer)} (moves : s.Moves outstanding answers) :
      SessionStep own s event { s with outstanding := outstanding, answers := answers }
  | saturated {attempt : Attempt} (found : (attempt, Stage.network) ∈ s.outstanding) :
      SessionStep own s (.saturate attempt)
        { s with
          outstanding := s.outstanding.erase (attempt, .network)
          answers := (attempt, .failed DurableSession.saturated) :: s.answers }
  | committed {attempt : Attempt} {proposal : ReplicatedBrokerProposalV1}
      (found : (attempt, Stage.consensus proposal) ∈ s.outstanding) :
      SessionStep own s (.commit attempt proposal) (s.commit attempt proposal)
  | foreign {proposal : ReplicatedBrokerProposalV1}
      (other : speaksFor own s.store.sessionId proposal = false) :
      SessionStep own s (.foreign proposal)
        { s with machine := (s.machine.applyProposal proposal).1 }

variable {own : SessionOwnerInstanceId → Bool} {s : DurableSession}

theorem Moves.erase (attempt : Attempt) (stage : Stage) :
    s.Moves (s.outstanding.erase (attempt, stage)) s.answers :=
  ⟨fun _ stage' h => ⟨stage', mem_of_mem_erase h⟩,
    fun _ _ h => Or.inl (mem_of_mem_erase h), fun _ _ h => Or.inl h⟩

/-- An attempt moves to another stage. -/
theorem Moves.advance {attempt : Attempt} {stage stage' : Stage}
    (hfound : (attempt, stage) ∈ s.outstanding)
    (hproposal : ∀ proposal, stage' = .consensus proposal →
      ∃ policy observedAtMs, attempt.message.proposal policy observedAtMs = .ok proposal) :
    s.Moves ((attempt, stage') :: s.outstanding.erase (attempt, stage)) s.answers where
  attempts := by
    intro other stage'' h
    rcases mem_cons.mp h with heq | h
    · cases heq
      exact ⟨stage, hfound⟩
    · exact ⟨stage'', mem_of_mem_erase h⟩
  proposals := by
    intro other proposal h
    rcases mem_cons.mp h with heq | h
    · injection heq with hattempt hstage
      subst hattempt
      exact Or.inr (hproposal proposal hstage.symm)
    · exact Or.inl (mem_of_mem_erase h)
  answered := fun _ _ h => Or.inl h

/-- A move together with an answer that leaves the outcome open. -/
theorem Moves.unknown {outstanding : List (Attempt × Stage)} {attempt : Attempt} {stage : Stage}
    {error : BrokerError} (h : s.Moves outstanding s.answers)
    (hfound : (attempt, stage) ∈ s.outstanding) (herror : error.disposition = .unknown) :
    s.Moves outstanding ((attempt, .failed error) :: s.answers) where
  attempts := h.attempts
  proposals := h.proposals
  answered := by
    intro other answer hanswer
    rcases mem_cons.mp hanswer with heq | hanswer
    · cases heq
      exact Or.inr ⟨stage, error, hfound, rfl, herror⟩
    · exact Or.inl hanswer

theorem proposal_error_unknown {message : Message} {policy : BrokerCapacityPolicy}
    {observedAtMs : TimestampMs} {error : BrokerError}
    (h : message.proposal policy observedAtMs = .error error) : error.disposition = .unknown := by
  cases message with
  | acquisition => cases h
  | mutation _ reserved =>
    cases hrequest : reserved.request with
    | health =>
      simp only [Message.proposal, hrequest, BrokerRequest.dispatchIdentified] at h
      cases h
      rfl
    | joinConsumerGroup _ _ _ capabilities =>
      simp only [Message.proposal, hrequest, BrokerRequest.dispatchIdentified] at h
      cases hnormalized : capabilities.intoNormalized with
      | error =>
        rw [hnormalized] at h
        cases h
        rfl
      | ok =>
        rw [hnormalized] at h
        cases h
    | _ =>
      simp only [Message.proposal, hrequest, BrokerRequest.dispatchIdentified] at h
      cases h

theorem acknowledge_step {number reservation : Nat} {reserved : ReservedCommand}
    {answer : Answer} (hawaited : s.awaiting = some ⟨number, .mutation reservation reserved⟩)
    (hanswered : (⟨number, .mutation reservation reserved⟩, answer) ∈ s.answers)
    (hdefinitive : ∀ error, answer = .failed error → error.disposition = .committed) :
    SessionStep own s (.receive answer) (s.acknowledge reserved) := by
  unfold acknowledge
  cases hok : s.store.acknowledgeInFlightOutcome reserved.identity with
  | error => exact .gaveUp _
  | ok => exact .acknowledged hawaited hanswered hdefinitive hok

/-- What the client makes of an answer. -/
theorem handle_step {attempt : Attempt} {answer : Answer} (hawaited : s.awaiting = some attempt)
    (hanswered : (attempt, answer) ∈ s.answers) :
    SessionStep own s (.receive answer) (s.handle attempt.message answer) := by
  obtain ⟨number, message⟩ := attempt
  cases message with
  | acquisition =>
    cases answer with
    | acquired epoch =>
      show SessionStep own s _ (s.confirm epoch)
      unfold confirm
      cases hok : s.store.confirmOwnerAcquisition epoch with
      | error => exact .gaveUp _
      | ok => exact .confirmed hawaited hanswered hok
    | succeeded | failed => exact .gaveUp _
  | mutation reservation reserved =>
    cases answer with
    | succeeded | acquired =>
      exact acknowledge_step hawaited hanswered fun error h => by cases h
    | failed error =>
      show SessionStep own s _ (match error.disposition with
        | .committed => s.acknowledge reserved
        | .rejected => s.release reservation reserved
        | .unknown => { s with awaiting := none })
      cases hdisposition : error.disposition with
      | committed =>
        refine acknowledge_step hawaited hanswered fun error' h => ?_
        cases h
        exact hdisposition
      | rejected =>
        dsimp only
        unfold release
        cases hok : s.store.releaseRejectedInFlight reserved.identity with
        | error => exact .gaveUp _
        | ok => exact .released hawaited hanswered hdisposition hok
      | unknown => exact .gaveUp _

/-- **Everything an event can do.** -/
theorem step_step (own : SessionOwnerInstanceId → Bool) (s : DurableSession)
    (event : SessionEvent) : SessionStep own s event (step own s event) := by
  cases event with
  | beginAcquisition ownerInstanceId =>
    rw [step]
    split_ifs with hown
    · cases hok : s.store.beginOwnerAcquisition ownerInstanceId with
      | error => exact .idle _
      | ok => exact .began hown hok
    · exact .idle _
  | sendAcquisition =>
    rw [step]
    split
    · exact .asked ‹_› ‹_›
    · exact .idle _
  | reserve request =>
    rw [step]
    cases hok : s.store.reserveCommand request with
    | error => exact .idle _
    | ok => exact .reserved hok
  | send =>
    rw [step]
    split
    · split
      · exact .sent ‹_› ‹_› ‹_›
      · exact .idle _
    · exact .idle _
  | giveUp => exact .gaveUp _
  | receive =>
    rw [step]
    cases hawaited : s.awaiting with
    | none => exact .idle _
    | some =>
      dsimp only
      split_ifs with hanswered
      · exact handle_step hawaited hanswered
      · exact .idle _
  | lose attempt stage => exact .moved _ (Moves.erase attempt stage)
  | saturate =>
    rw [step]
    split_ifs with hfound
    · exact .saturated hfound
    · exact .idle _
  | accept =>
    rw [step]
    split_ifs with hfound
    · exact .moved _ (Moves.advance hfound fun _ h => by cases h)
    · exact .idle _
  | dispatch attempt policy observedAtMs =>
    rw [step]
    split_ifs with hfound
    · cases hproposal : attempt.message.proposal policy observedAtMs with
      | ok =>
        refine .moved _ (Moves.advance hfound fun proposal' h => ?_)
        cases h
        exact ⟨policy, observedAtMs, hproposal⟩
      | error =>
        exact .moved _
          ((Moves.erase attempt .queue).unknown hfound (proposal_error_unknown hproposal))
    · exact .idle _
  | fail attempt stage =>
    rw [step]
    split_ifs with hfound
    · cases stage with
      -- The proposal stays on its way: it may still be applied.
      | consensus => exact .moved _ ((Moves.refl s).unknown hfound rfl)
      | network => exact .moved _ ((Moves.erase attempt .network).unknown hfound rfl)
      | queue => exact .moved _ ((Moves.erase attempt .queue).unknown hfound rfl)
    · exact .idle _
  | commit =>
    rw [step]
    split_ifs with hfound
    · exact .committed hfound
    · exact .idle _
  | foreign =>
    rw [step]
    split_ifs with hother
    · exact .idle _
    · exact .foreign (Bool.not_eq_true _ ▸ hother)

end DurableSession

end AgentBroker
