import AgentBroker.Client.DurableSession
import AgentBroker.Consensus.ConsensusSnapshot

/-!
# What a client knows of its session

A store knows its session by the owner that the Broker confirmed, by the acquisition that is
pending and by the command in flight.  The Broker's record can be ahead of all three: another
client may have taken the session over, and answers may be lost.

This module relates the two in every run, whatever is lost, rejected or taken over.  What is on
its way was sent for what the store had pending or in flight at the time, what the store and the
answers say of an owner is on record or was overtaken, and the record only grows.

## The design decisions

* **One invariant for every run.**  `Informed` asks nothing of the events.  What holds only
  while no event makes a rejection ambiguous, and what a client that was overtaken can still do,
  is built on it.
* **The operations of the store are one kind of step.**  Beginning and confirming an acquisition,
  reserving, acknowledging and releasing a command change the store and send nothing; `StoreStep`
  says what they have in common, and the invariants are shown to survive it once.

## Main results

* `Informed.began`, `Informed.of_reserved`, `Informed.confirmed`, `Informed.acknowledged`,
  `Informed.released` — the operations of the store.
* `step_informed` — the invariant is kept by every event.
* `run_informed` — and holds in every run.
-/

namespace AgentBroker

open SessionedBroker DurableClientSessionStore
open List Option

namespace PersistedSessionState

variable {state state' : PersistedSessionState} {identity : CommandIdentity}

/-- The epoch that an acquisition expects. -/
def knownEpoch (state : PersistedSessionState) : SessionOwnerEpoch :=
  (state.owner.map DurableSessionOwner.ownerEpoch).getD SessionCounter.initial

theorem knownEpoch_of_some {owner : DurableSessionOwner} (h : state.owner = some owner) :
    state.knownEpoch = owner.ownerEpoch := by
  rw [knownEpoch, h]
  rfl

theorem knownEpoch_of_none (h : state.owner = none) : state.knownEpoch = .initial := by
  rw [knownEpoch, h]
  rfl

theorem knownEpoch_congr (h : state'.owner = state.owner) :
    state'.knownEpoch = state.knownEpoch := by
  rw [knownEpoch, h, knownEpoch]

/-- The command is of an earlier owner, or of the confirmed one and no later than its
next sequence. -/
def Bounds (state : PersistedSessionState) (identity : CommandIdentity) : Prop :=
  ∃ owner, state.owner = some owner ∧
    (identity.ownerEpoch < owner.ownerEpoch ∨
      identity.ownerEpoch = owner.ownerEpoch ∧ identity.sequence ≤ state.nextSequence)

/-- The sequence advances under one owner. -/
theorem Bounds.mono (h : state.Bounds identity) (howner : state'.owner = state.owner)
    (hnext : state.nextSequence ≤ state'.nextSequence) : state'.Bounds identity := by
  obtain ⟨owner, hold, hbound⟩ := h
  refine ⟨owner, howner.trans hold, hbound.imp_right fun hsame => ?_⟩
  exact ⟨hsame.1, hsame.2.trans hnext⟩

theorem Bounds.epoch_le (h : state.Bounds identity) : identity.ownerEpoch ≤ state.knownEpoch := by
  obtain ⟨owner, howner, hbound⟩ := h
  rw [knownEpoch_of_some howner]
  exact hbound.elim le_of_lt fun hsame => le_of_eq hsame.1

end PersistedSessionState

namespace DurableSession

variable {own : SessionOwnerInstanceId → Bool} {s s' : DurableSession}

/-! ## The invariant -/

/-- The session record at the state machine. -/
def record (s : DurableSession) : Option CommandSessionRecord :=
  s.machine.commandSessions.get s.store.sessionId

/-- The session record has seen a command, so it can no longer be applied. -/
def Covered (s : DurableSession) (identity : CommandIdentity) : Prop :=
  ∃ record, s.record = some record ∧ record.Covers identity

/-- The instance is the owner on record under the epoch, or was and is overtaken. -/
def Named (s : DurableSession) (epoch : SessionOwnerEpoch) (owner : SessionOwnerInstanceId) :
    Prop :=
  ∃ record, s.record = some record ∧ record.Names epoch owner

/-- What the store has pending was prepared by its own operations. -/
structure Prepared (own : SessionOwnerInstanceId → Bool) (store : DurableClientSessionStore) :
    Prop where
  pending : ∀ pending, store.state.pendingOwnerAcquisition = some pending →
    own pending.ownerInstanceId = true ∧ pending.expectedOwnerEpoch = store.state.knownEpoch ∧
      ∀ owner, store.state.owner = some owner → owner.ownerInstanceId ≠ pending.ownerInstanceId
  inFlight : ∀ inFlight, store.state.inFlight = some inFlight →
    inFlight.request.isHealth = false ∧ ∃ next, inFlight.sequence.next = some next

/-- What is known of a command that was sent, after so many reservations. -/
structure WasSent (own : SessionOwnerInstanceId → Bool) (store : DurableClientSessionStore)
    (reservations reservation : Nat) (reserved : ReservedCommand) : Prop where
  le : reservation ≤ reservations
  current : ∀ inFlight, store.inFlight = some inFlight → reservation = reservations →
    reserved = inFlight
  session : reserved.identity.sessionId = store.sessionId
  owner : ∃ owner, reserved.identity.ownerInstanceId = some owner ∧ own owner = true
  bounds : store.state.Bounds reserved.identity

/-- The message says what the store has pending, or its last reservation. -/
def Awaited (store : DurableClientSessionStore) (reservations : Nat) : Message → Prop
  | .acquisition pending => store.pendingOwnerAcquisition = some pending
  | .mutation reservation reserved =>
    reservation = reservations ∧ store.inFlight = some reserved

/-- The messages on their way and the client's own state. -/
structure Traffic (own : SessionOwnerInstanceId → Bool) (s : DurableSession) : Prop where
  prepared : Prepared own s.store
  numbered : ∀ attempt stage, (attempt, stage) ∈ s.outstanding → attempt.number < s.sent
  answered : ∀ attempt answer, (attempt, answer) ∈ s.answers → attempt.number < s.sent
  mutation : ∀ number reservation reserved stage,
    (⟨number, .mutation reservation reserved⟩, stage) ∈ s.outstanding →
      WasSent own s.store s.reservations reservation reserved
  acquisition : ∀ number pending stage,
    (⟨number, .acquisition pending⟩, stage) ∈ s.outstanding →
      pending.sessionId = s.store.sessionId ∧
        pending.expectedOwnerEpoch ≤ s.store.state.knownEpoch
  proposals : ∀ attempt proposal, (attempt, Stage.consensus proposal) ∈ s.outstanding →
    ∃ policy observedAtMs, attempt.message.proposal policy observedAtMs = .ok proposal
  awaited : ∀ attempt, s.awaiting = some attempt → Awaited s.store s.reservations attempt.message
  applied : ∀ reservation ∈ s.applied, reservation ≤ s.reservations
  released : ∀ reservation ∈ s.released, reservation ≤ s.reservations ∧
    (reservation = s.reservations → s.store.inFlight = none)

/-- The client's view of its ownership, and the record. -/
structure Holdings (own : SessionOwnerInstanceId → Bool) (s : DurableSession) : Prop where
  owner : ∀ owner, s.store.state.owner = some owner →
    own owner.ownerInstanceId = true ∧ s.Named owner.ownerEpoch owner.ownerInstanceId
  acquired : ∀ number pending epoch,
    (⟨number, .acquisition pending⟩, .acquired epoch) ∈ s.answers →
      s.Named epoch pending.ownerInstanceId
  storable : s.machine.Storable

/-- The invariant of every run. -/
structure Informed (own : SessionOwnerInstanceId → Bool) (s : DurableSession) : Prop where
  traffic : s.Traffic own
  holdings : s.Holdings own

/-! ## A proposal is applied -/

/-- The state after a proposal was applied. -/
def applyTo (s : DurableSession) (p : ReplicatedBrokerProposalV1) : DurableSession :=
  { s with machine := (s.machine.applyProposal p).1 }

variable {identity : CommandIdentity} {p : ReplicatedBrokerProposalV1} {attempt : Attempt}
  {command : ReplicatedBrokerCommandV1} {reserved : ReservedCommand} {reservation number : Nat}
  {epoch : SessionOwnerEpoch} {owner : SessionOwnerInstanceId} {store : DurableClientSessionStore}

theorem recordStep_applyTo (s : DurableSession) (p : ReplicatedBrokerProposalV1) :
    SessionedBroker.RecordStep s.machine p s.store.sessionId (s.applyTo p).record :=
  (applyProposal_step s.machine p).recordStep s.store.sessionId

theorem record_grows (p : ReplicatedBrokerProposalV1) {record : CommandSessionRecord}
    (h : s.record = some record) :
    ∃ record', (s.applyTo p).record = some record' ∧ record.Grows record' :=
  applyProposal_grows s.machine p s.store.sessionId record h

theorem Covered.applyTo (h : s.Covered identity) (p : ReplicatedBrokerProposalV1) :
    (s.applyTo p).Covered identity := by
  obtain ⟨record, hrecord, hcovers⟩ := h
  obtain ⟨record', hrecord', hgrows⟩ := record_grows p hrecord
  exact ⟨record', hrecord', hcovers.grows hgrows⟩

theorem Named.applyTo (h : s.Named epoch owner) (p : ReplicatedBrokerProposalV1) :
    (s.applyTo p).Named epoch owner := by
  obtain ⟨record, hrecord, hnames⟩ := h
  obtain ⟨record', hrecord', hgrows⟩ := record_grows p hrecord
  exact ⟨record', hrecord', hnames.grows hgrows⟩

/-- Applying a proposal keeps the client's view of its ownership right. -/
theorem Holdings.applyTo (h : s.Holdings own) (p : ReplicatedBrokerProposalV1) :
    (s.applyTo p).Holdings own where
  owner := fun owner howner => ⟨(h.owner owner howner).1, (h.owner owner howner).2.applyTo p⟩
  acquired := fun number pending epoch hanswer =>
    (h.acquired number pending epoch hanswer).applyTo p
  storable := (applyProposal_step s.machine p).storable h.storable

/-- A session without record has no confirmed owner. -/
theorem Holdings.unowned (h : s.Holdings own) (hnone : s.record = none) :
    s.store.state.owner = none := by
  cases howner : s.store.state.owner with
  | none => rfl
  | some owner =>
    obtain ⟨-, _, hrecord, -⟩ := h.owner owner howner
    exact absurd (hrecord.symm.trans hnone) (some_ne_none _)

/-- A command that the record has seen does not pass the session checks. -/
theorem Covered.not_check (h : s.Covered identity)
    (hsession : identity.sessionId = s.store.sessionId) (command : ReplicatedBrokerCommandV1) :
    s.machine.checkSession identity command ≠ .ok () := by
  intro hcheck
  obtain ⟨record, hrecord, hcovers⟩ := h
  unfold DurableSession.record at hrecord
  rcases checkSession_ok hcheck with
    ⟨_, hrecord', hepoch, -, hlater⟩ | ⟨hnone, -⟩
  · rw [hsession, hrecord] at hrecord'
    cases hrecord'
    rcases hcovers with hlt | ⟨-, outcome, houtcome, hle⟩
    · exact absurd hepoch (ne_of_lt hlt)
    · exact absurd (hlater outcome houtcome) (not_lt.mpr hle)
  · rw [hsession, hrecord] at hnone
    cases hnone

theorem proposal_mutation {policy : BrokerCapacityPolicy} {observedAtMs : TimestampMs}
    (h : (Message.mutation reservation reserved).proposal policy observedAtMs = .ok p) :
    ∃ command, reserved.request.dispatchIdentified policy observedAtMs = .ok command ∧
      p.intoParts = .ok (some reserved.identity, .ofBrokerCommand command) := by
  obtain ⟨command, hcommand, hp⟩ := Except.bind_eq_ok_iff.mp h
  cases hp
  exact ⟨command, hcommand, ReplicatedBrokerProposalV1.intoParts_identified _ _⟩

theorem mem_applied_commit (h : reservation ∈ (s.commit attempt p).applied) :
    reservation ∈ s.applied ∨ ∃ reserved entry,
      attempt.message = .mutation reservation reserved ∧ s.machine.appliedEntry p = some entry := by
  unfold DurableSession.commit at h
  dsimp only at h
  split at h
  · rename_i number reserved entry hmessage hentry
    rcases mem_cons.mp h with rfl | h
    · exact Or.inr ⟨reserved, entry, hmessage, hentry⟩
    · exact Or.inl h
  · exact Or.inl h

theorem mem_answers_commit {other : Attempt} {answer : Answer}
    (h : (other, answer) ∈ (s.commit attempt p).answers) :
    (other, answer) ∈ s.answers ∨ ∃ response, other = attempt ∧
      (s.machine.applyProposal p).2 = .ok response ∧
      answer = attempt.message.answer response := by
  unfold DurableSession.commit at h
  dsimp only at h
  split at h
  · rename_i response hresponse
    rcases mem_cons.mp h with heq | h
    · cases heq
      exact Or.inr ⟨response, rfl, hresponse, rfl⟩
    · exact Or.inl h
  · exact Or.inl h

/-- What the record has seen is not applied again: an attempt of it changes nothing that was
applied. -/
theorem Traffic.not_applied (h : s.Traffic own)
    (hfound : (attempt, Stage.consensus p) ∈ s.outstanding)
    (hcovered : ∀ number reserved, attempt = ⟨number, .mutation reservation reserved⟩ →
      s.Covered reserved.identity)
    (hmem : reservation ∈ (s.commit attempt p).applied) : reservation ∈ s.applied := by
  rcases mem_applied_commit hmem with hold | ⟨reserved, entry, hmessage, hentry⟩
  · exact hold
  · exfalso
    obtain ⟨number, message⟩ := attempt
    subst hmessage
    obtain ⟨policy, observedAtMs, hproposal⟩ := h.proposals _ p hfound
    obtain ⟨command, -, hparts⟩ := proposal_mutation hproposal
    obtain ⟨_, hparts', hcheck, -⟩ := appliedEntry_eq_some hentry
    simp only [hparts, Except.ok.injEq, Prod.mk.injEq, Option.some.injEq] at hparts'
    rw [← hparts'.1] at hcheck
    exact (hcovered number reserved rfl).not_check
      (h.mutation number reservation reserved _ hfound).session _ hcheck

/-! ## Messages move -/

/-- What does not change the client's own state. -/
theorem Traffic.frame (h : s.Traffic own) {outstanding : List (Attempt × Stage)}
    {answers : List (Attempt × Answer)} {machine : SessionedBroker} {applied : List Nat}
    (houtstanding : ∀ attempt stage, (attempt, stage) ∈ outstanding →
      ∃ stage', (attempt, stage') ∈ s.outstanding)
    (hproposals : ∀ attempt proposal, (attempt, Stage.consensus proposal) ∈ outstanding →
      (attempt, Stage.consensus proposal) ∈ s.outstanding ∨
        ∃ policy observedAtMs, attempt.message.proposal policy observedAtMs = .ok proposal)
    (hanswers : ∀ attempt answer, (attempt, answer) ∈ answers →
      (attempt, answer) ∈ s.answers ∨ ∃ stage, (attempt, stage) ∈ s.outstanding)
    (happlied : ∀ reservation ∈ applied, reservation ≤ s.reservations) :
    Traffic own { s with
      outstanding := outstanding, answers := answers, machine := machine, applied := applied } where
  prepared := h.prepared
  numbered := by
    intro attempt stage hmem
    obtain ⟨stage', hold⟩ := houtstanding attempt stage hmem
    exact h.numbered attempt stage' hold
  answered := by
    intro attempt answer hmem
    rcases hanswers attempt answer hmem with hold | ⟨stage, hfound⟩
    · exact h.answered attempt answer hold
    · exact h.numbered attempt stage hfound
  mutation := by
    intro number reservation reserved stage hmem
    obtain ⟨stage', hold⟩ := houtstanding _ stage hmem
    exact h.mutation number reservation reserved stage' hold
  acquisition := by
    intro number pending stage hmem
    obtain ⟨stage', hold⟩ := houtstanding _ stage hmem
    exact h.acquisition number pending stage' hold
  proposals := fun attempt proposal hmem =>
    (hproposals attempt proposal hmem).elim (h.proposals attempt proposal) id
  awaited := h.awaited
  applied := happlied
  released := h.released

/-- Attempts move on, are lost, or are answered with a failure. -/
theorem Informed.frame (h : s.Informed own) {outstanding : List (Attempt × Stage)}
    {answers : List (Attempt × Answer)}
    (houtstanding : ∀ attempt stage, (attempt, stage) ∈ outstanding →
      ∃ stage', (attempt, stage') ∈ s.outstanding)
    (hproposals : ∀ attempt proposal, (attempt, Stage.consensus proposal) ∈ outstanding →
      (attempt, Stage.consensus proposal) ∈ s.outstanding ∨
        ∃ policy observedAtMs, attempt.message.proposal policy observedAtMs = .ok proposal)
    (hanswers : ∀ attempt answer, (attempt, answer) ∈ answers → (attempt, answer) ∈ s.answers ∨
      (∃ stage, (attempt, stage) ∈ s.outstanding) ∧ ∃ error, answer = .failed error) :
    Informed own { s with outstanding := outstanding, answers := answers } where
  traffic := h.traffic.frame houtstanding hproposals
    (fun attempt answer hmem => (hanswers attempt answer hmem).imp_right And.left)
    h.traffic.applied
  holdings := by
    refine ⟨h.holdings.owner, fun number pending epoch hmem => ?_, h.holdings.storable⟩
    rcases hanswers _ _ hmem with hold | ⟨-, _, hanswer⟩
    · exact h.holdings.acquired number pending epoch hold
    · cases hanswer

theorem Informed.moved (h : s.Informed own) {outstanding : List (Attempt × Stage)}
    {answers : List (Attempt × Answer)} (hmoves : s.Moves outstanding answers) :
    Informed own { s with outstanding := outstanding, answers := answers } := by
  refine h.frame hmoves.attempts hmoves.proposals fun attempt answer hmem => ?_
  refine (hmoves.answered attempt answer hmem).imp_right ?_
  rintro ⟨stage, error, hfound, hanswer, -⟩
  exact ⟨⟨stage, hfound⟩, error, hanswer⟩

/-- The server reads a frame while its queue is full. -/
theorem Informed.saturated (h : s.Informed own)
    (hfound : (attempt, Stage.network) ∈ s.outstanding) :
    Informed own { s with
      outstanding := s.outstanding.erase (attempt, .network)
      answers := (attempt, .failed DurableSession.saturated) :: s.answers } := by
  refine h.frame (fun _ stage hmem => ⟨stage, mem_of_mem_erase hmem⟩)
    (fun _ _ hmem => Or.inl (mem_of_mem_erase hmem)) fun other answer hmem => ?_
  rcases mem_cons.mp hmem with heq | hold
  · cases heq
    exact Or.inr ⟨⟨_, hfound⟩, _, rfl⟩
  · exact Or.inl hold

theorem Informed.foreign (h : s.Informed own) (p : ReplicatedBrokerProposalV1) :
    (s.applyTo p).Informed own where
  traffic := h.traffic.frame (fun _ stage hmem => ⟨stage, hmem⟩) (fun _ _ hmem => Or.inl hmem)
    (fun _ _ hmem => Or.inl hmem) h.traffic.applied
  holdings := h.holdings.applyTo p

theorem Traffic.commit (h : s.Traffic own)
    (hfound : (attempt, Stage.consensus p) ∈ s.outstanding) :
    (s.commit attempt p).Traffic own := by
  refine h.frame (fun _ stage hmem => ⟨stage, mem_of_mem_erase hmem⟩)
    (fun _ _ hmem => Or.inl (mem_of_mem_erase hmem)) ?_ ?_
  · intro other answer hmem
    rcases mem_answers_commit hmem with hold | ⟨_, rfl, -⟩
    · exact Or.inl hold
    · exact Or.inr ⟨_, hfound⟩
  · intro reservation hmem
    rcases mem_applied_commit hmem with hold | ⟨reserved, -, hmessage, -⟩
    · exact h.applied reservation hold
    · obtain ⟨number, message⟩ := attempt
      subst hmessage
      exact (h.mutation number reservation reserved _ hfound).le

/-- A proposal of the client is applied and answered. -/
theorem Informed.commit (h : s.Informed own)
    (hfound : (attempt, Stage.consensus p) ∈ s.outstanding) :
    (s.commit attempt p).Informed own := by
  have happlied := h.holdings.applyTo p
  refine ⟨h.traffic.commit hfound, happlied.owner, ?_, happlied.storable⟩
  intro number pending epoch hmem
  rcases mem_answers_commit hmem with hold | ⟨response, rfl, hresponse, hanswer⟩
  · exact happlied.acquired number pending epoch hold
  · -- The acquisition was just answered: its owner is the one on record.
    obtain ⟨policy, observedAtMs, hproposal⟩ := h.traffic.proposals _ p hfound
    cases hproposal
    cases response with
    | sessionOwnerAcquired =>
      obtain ⟨session, owner, record, hsession, howner, hrecord, hepoch, hinstance⟩ :=
        (applyProposal_step s.machine _).owner_on_record rfl hresponse
      obtain rfl := SessionText.asStr_injective hsession
      obtain rfl := SessionText.asStr_injective howner
      refine ⟨record, ?_, Or.inr ⟨?_, hinstance⟩⟩
      · show (s.machine.applyProposal _).1.commandSessions.get s.store.sessionId = _
        rw [← (h.traffic.acquisition number pending _ hfound).1]
        exact hrecord
      · rw [← hepoch] at hanswer
        simp only [Message.answer, acquisitionAnswer, SessionCounter.new_toU64] at hanswer
        exact Answer.acquired.inj hanswer
    | _ => cases hanswer

/-- What the client sends is what its store has in flight. -/
theorem wasSent_of_awaited (h : s.Holdings own)
    (hawaited : Awaited s.store s.reservations (.mutation reservation reserved)) :
    WasSent own s.store s.reservations reservation reserved := by
  obtain ⟨hcurrent, hinFlight⟩ := hawaited
  obtain ⟨owner, howner, hidentity⟩ := s.store.inFlight_owner hinFlight
  refine ⟨le_of_eq hcurrent, fun inFlight hinFlight' _ => ?_, ?_, ?_, owner, howner, Or.inr ?_⟩
  · exact Option.some.inj (hinFlight.symm.trans hinFlight')
  · rw [hidentity]
  · exact ⟨owner.ownerInstanceId, by rw [hidentity], (h.owner owner howner).1⟩
  · rw [hidentity]
    exact ⟨rfl, le_rfl⟩

/-- The client sends a message. -/
theorem Informed.sendMessage (h : s.Informed own) {message : Message}
    (hawaited : Awaited s.store s.reservations message) :
    (s.sendMessage message).Informed own where
  traffic :=
    { prepared := h.traffic.prepared
      numbered := by
        intro attempt stage hmem
        rcases mem_cons.mp hmem with heq | hold
        · cases heq
          exact Nat.lt_succ_self _
        · exact Nat.lt_succ_of_lt (h.traffic.numbered attempt stage hold)
      answered := fun attempt answer hmem =>
        Nat.lt_succ_of_lt (h.traffic.answered attempt answer hmem)
      mutation := by
        intro number reservation reserved stage hmem
        rcases mem_cons.mp hmem with heq | hold
        · cases heq
          exact wasSent_of_awaited (s := s) h.holdings hawaited
        · exact h.traffic.mutation number reservation reserved stage hold
      acquisition := by
        intro number pending stage hmem
        rcases mem_cons.mp hmem with heq | hold
        · cases heq
          obtain ⟨persisted, hpersisted, rfl⟩ := map_eq_some_iff.mp hawaited
          exact ⟨rfl, le_of_eq (h.traffic.prepared.pending persisted hpersisted).2.1⟩
        · exact h.traffic.acquisition number pending stage hold
      proposals := by
        intro attempt proposal hmem
        rcases mem_cons.mp hmem with heq | hold
        · cases heq
        · exact h.traffic.proposals attempt proposal hold
      awaited := by
        intro attempt hawaiting
        cases hawaiting
        exact hawaited
      applied := h.traffic.applied
      released := h.traffic.released }
  holdings := ⟨h.holdings.owner, h.holdings.acquired, h.holdings.storable⟩

/-- The client stops waiting. -/
theorem Informed.gaveUp (h : s.Informed own) : Informed own { s with awaiting := none } where
  traffic := { h.traffic with awaited := nofun }
  holdings := ⟨h.holdings.owner, h.holdings.acquired, h.holdings.storable⟩

/-! ## The store moves on -/

/-- The record depends on the state machine and the session only. -/
theorem record_congr (hmachine : s'.machine = s.machine)
    (hsession : s'.store.sessionId = s.store.sessionId) : s'.record = s.record := by
  rw [record, record, hmachine, hsession]

theorem Covered.congr (h : s.Covered identity) (hrecord : s'.record = s.record) :
    s'.Covered identity := by
  obtain ⟨record, hfound, hcovers⟩ := h
  exact ⟨record, hrecord.trans hfound, hcovers⟩

theorem Named.congr (h : s.Named epoch owner) (hrecord : s'.record = s.record) :
    s'.Named epoch owner := by
  obtain ⟨record, hfound, hnames⟩ := h
  exact ⟨record, hrecord.trans hfound, hnames⟩

/-- The client does not wait for anything while its store has nothing pending. -/
theorem Traffic.not_awaiting (h : s.Traffic own) (hinFlight : s.store.state.inFlight = none)
    (hpending : s.store.state.pendingOwnerAcquisition = none) : s.awaiting = none := by
  cases hawaiting : s.awaiting with
  | none => rfl
  | some attempt =>
    have hawaited := h.awaited attempt hawaiting
    cases hmessage : attempt.message with
    | acquisition =>
      rw [hmessage] at hawaited
      have hnone := s.store.pendingOwnerAcquisition_of_state_none hpending
      exact absurd (hawaited.symm.trans hnone) (some_ne_none _)
    | mutation =>
      rw [hmessage] at hawaited
      have hnone := s.store.inFlight_of_state_none hinFlight
      exact absurd (hawaited.2.symm.trans hnone) (some_ne_none _)

/-- A step of the client that changes its store and sends nothing. -/
structure StoreStep (own : SessionOwnerInstanceId → Bool) (s s' : DurableSession) : Prop where
  machine : s'.machine = s.machine
  sent : s'.sent = s.sent
  outstanding : s'.outstanding = s.outstanding
  answers : s'.answers = s.answers
  applied : s'.applied = s.applied
  session : s'.store.sessionId = s.store.sessionId
  awaiting : s'.awaiting = none
  reservations : s.reservations ≤ s'.reservations
  /-- Only a new reservation is in flight. -/
  inFlight : s'.store.inFlight ≠ none → s.reservations < s'.reservations
  prepared : Prepared own s'.store
  released : ∀ reservation ∈ s'.released, reservation ∈ s.released ∨ reservation ≤ s.reservations
  owner : ∀ owner, s'.store.state.owner = some owner →
    own owner.ownerInstanceId = true ∧ s.Named owner.ownerEpoch owner.ownerInstanceId
  known : s.store.state.knownEpoch ≤ s'.store.state.knownEpoch
  bounds : ∀ identity, s.store.state.Bounds identity → s'.store.state.Bounds identity

theorem StoreStep.record (hstep : StoreStep own s s') : s'.record = s.record :=
  record_congr hstep.machine hstep.session

/-- **The invariant survives the operations of the store.** -/
theorem StoreStep.informed (hstep : StoreStep own s s') (h : s.Informed own) : s'.Informed own where
  traffic :=
    { prepared := hstep.prepared
      numbered := by
        rw [hstep.outstanding, hstep.sent]
        exact h.traffic.numbered
      answered := by
        rw [hstep.answers, hstep.sent]
        exact h.traffic.answered
      mutation := by
        intro number reservation reserved stage hmem
        rw [hstep.outstanding] at hmem
        have hsent := h.traffic.mutation number reservation reserved stage hmem
        refine ⟨hsent.le.trans hstep.reservations, fun inFlight hinFlight hlast => ?_,
          hsent.session.trans hstep.session.symm, hsent.owner, hstep.bounds _ hsent.bounds⟩
        -- What is in flight was reserved after this attempt was sent.
        have hnew := hstep.inFlight (hinFlight ▸ some_ne_none _)
        have hle := hsent.le
        omega
      acquisition := by
        intro number pending stage hmem
        rw [hstep.outstanding] at hmem
        obtain ⟨hsession, hle⟩ := h.traffic.acquisition number pending stage hmem
        exact ⟨hsession.trans hstep.session.symm, hle.trans hstep.known⟩
      proposals := by
        rw [hstep.outstanding]
        exact h.traffic.proposals
      awaited := by
        rw [hstep.awaiting]
        exact nofun
      applied := by
        rw [hstep.applied]
        exact fun reservation hmem => (h.traffic.applied reservation hmem).trans hstep.reservations
      released := by
        intro reservation hmem
        have hle : reservation ≤ s.reservations :=
          (hstep.released reservation hmem).elim (fun hold => (h.traffic.released _ hold).1) id
        refine ⟨hle.trans hstep.reservations, fun hlast => ?_⟩
        by_contra hinFlight
        have hnew := hstep.inFlight hinFlight
        omega }
  holdings := by
    refine ⟨fun owner howner => ?_, fun number pending epoch hmem => ?_,
      hstep.machine ▸ h.holdings.storable⟩
    · exact ⟨(hstep.owner owner howner).1, (hstep.owner owner howner).2.congr hstep.record⟩
    · rw [hstep.answers] at hmem
      exact (h.holdings.acquired number pending epoch hmem).congr hstep.record

/-- Nothing new is pending, and nothing is in flight any more. -/
theorem Prepared.settled (h : Prepared own s.store) (howner : store.state.owner = s.store.state.owner)
    (hpending : store.state.pendingOwnerAcquisition = s.store.state.pendingOwnerAcquisition)
    (hnone : store.state.inFlight = none) : Prepared own store where
  pending := by
    rw [hpending, howner, PersistedSessionState.knownEpoch_congr howner]
    exact h.pending
  inFlight := by
    rw [hnone]
    exact nofun

/-- The client begins an acquisition. -/
theorem Informed.began (h : s.Informed own) (hown : own owner = true)
    (hok : s.store.beginOwnerAcquisition owner = .ok store) :
    StoreStep own s { s with store := store } := by
  obtain ⟨hinFlight, hpending, hsession, hstate⟩ := beginOwnerAcquisition_ok hok
  have howner : store.state.owner = s.store.state.owner := by rw [hstate]
  have hknown := PersistedSessionState.knownEpoch_congr howner
  have hnone : store.state.inFlight = none := by
    rw [hstate]
    exact hinFlight
  refine ⟨rfl, rfl, rfl, rfl, rfl, hsession, h.traffic.not_awaiting hinFlight hpending, le_rfl,
    fun hsome => absurd (store.inFlight_of_state_none hnone) hsome, ⟨?_, ?_⟩,
    fun _ hmem => Or.inl hmem, fun owner hfound => h.holdings.owner owner (howner ▸ hfound),
    le_of_eq hknown.symm, fun _ hbounds => hbounds.mono howner (by rw [hstate])⟩
  · intro pending hfound
    rw [hstate] at hfound
    cases hfound
    exact ⟨hown, hknown.symm, fun owner hfound =>
      other_of_beginOwnerAcquisition hok (howner ▸ hfound)⟩
  · intro inFlight hfound
    exact absurd (hfound.symm.trans hnone) (some_ne_none _)

/-- The client reserves a command. -/
theorem Informed.of_reserved (h : s.Informed own) {request : BrokerRequest}
    (hok : s.store.reserveCommand request = .ok store) :
    StoreStep own s { s with store := store, reservations := s.reservations + 1 } := by
  obtain ⟨_, -, hpending, hinFlight, hsession, hstate⟩ := reserveCommand_ok hok
  have howner : store.state.owner = s.store.state.owner := by rw [hstate]
  refine ⟨rfl, rfl, rfl, rfl, rfl, hsession, h.traffic.not_awaiting hinFlight hpending,
    Nat.le_succ _, fun _ => Nat.lt_succ_self _, ⟨?_, ?_⟩, fun _ hmem => Or.inl hmem,
    fun owner hfound => h.holdings.owner owner (howner ▸ hfound),
    le_of_eq (PersistedSessionState.knownEpoch_congr howner).symm,
    fun _ hbounds => hbounds.mono howner (by rw [hstate])⟩
  · intro pending hfound
    rw [hstate, hpending] at hfound
    cases hfound
  · intro inFlight hfound
    rw [hstate] at hfound
    cases hfound
    exact guards_of_reserveCommand hok

/-- The acquisition that is confirmed is the pending one, and its epoch is later than that of
the owner it replaces. -/
theorem Informed.confirmed_epoch (h : s.Informed own) {pending : PendingOwnerAcquisition}
    (hawaiting : s.awaiting = some ⟨number, .acquisition pending⟩)
    (hanswered : (⟨number, .acquisition pending⟩, .acquired epoch) ∈ s.answers)
    (hok : s.store.confirmOwnerAcquisition epoch = .ok store) :
    own pending.ownerInstanceId = true ∧ s.Named epoch pending.ownerInstanceId ∧
      (∀ owner, s.store.state.owner = some owner → owner.ownerEpoch < epoch) ∧
      store.sessionId = s.store.sessionId ∧
      store.state = ⟨some ⟨epoch, pending.ownerInstanceId⟩, none, .initial, none⟩ := by
  obtain ⟨persisted, hpersisted, hepoch, hsession, hstate⟩ := confirmOwnerAcquisition_ok hok
  have hawaited : s.store.pendingOwnerAcquisition = some pending := h.traffic.awaited _ hawaiting
  rw [s.store.pendingOwnerAcquisition_of_state hpersisted] at hawaited
  cases hawaited
  obtain ⟨hown, hexpected, -⟩ := h.traffic.prepared.pending persisted hpersisted
  refine ⟨hown, h.holdings.acquired number _ epoch hanswered, fun owner howner => ?_, hsession,
    hstate⟩
  rw [howner, hexpected, PersistedSessionState.knownEpoch_of_some howner] at hepoch
  exact SessionCounter.lt_next (validateAcquiredEpoch_replacing hepoch)

/-- The Broker confirmed an acquisition. -/
theorem Informed.confirmed (h : s.Informed own) {pending : PendingOwnerAcquisition}
    (hawaiting : s.awaiting = some ⟨number, .acquisition pending⟩)
    (hanswered : (⟨number, .acquisition pending⟩, .acquired epoch) ∈ s.answers)
    (hok : s.store.confirmOwnerAcquisition epoch = .ok store) :
    StoreStep own s { s with store := store, awaiting := none } := by
  obtain ⟨hown, hnamed, hlater, hsession, hstate⟩ := h.confirmed_epoch hawaiting hanswered hok
  have howner : store.state.owner = some ⟨epoch, pending.ownerInstanceId⟩ := by rw [hstate]
  have hnone : store.inFlight = none := store.inFlight_of_state_none (by rw [hstate])
  refine ⟨rfl, rfl, rfl, rfl, rfl, hsession, rfl, le_rfl, fun hsome => absurd hnone hsome,
    ⟨?_, ?_⟩, fun _ hmem => Or.inl hmem, ?_, ?_, ?_⟩
  · rw [hstate]
    exact nofun
  · rw [hstate]
    exact nofun
  · intro owner hfound
    obtain rfl := Option.some.inj (howner.symm.trans hfound)
    exact ⟨hown, hnamed⟩
  · show _ ≤ store.state.knownEpoch
    rw [PersistedSessionState.knownEpoch_of_some howner]
    cases hold : s.store.state.owner with
    | none =>
      rw [PersistedSessionState.knownEpoch_of_none hold]
      exact epoch.pos
    | some old =>
      rw [PersistedSessionState.knownEpoch_of_some hold]
      exact le_of_lt (hlater old hold)
  · rintro identity ⟨old, hold, hbound⟩
    refine ⟨_, howner, Or.inl ?_⟩
    rcases hbound with hlt | ⟨heq, -⟩
    · exact hlt.trans (hlater old hold)
    · exact heq ▸ hlater old hold

/-- A definitive outcome is acknowledged. -/
theorem Informed.acknowledged (h : s.Informed own)
    (hawaiting : s.awaiting = some ⟨number, .mutation reservation reserved⟩)
    (hok : s.store.acknowledgeInFlightOutcome reserved.identity = .ok store) :
    StoreStep own s { s with store := store, awaiting := none } ∧
      s.store.state.nextSequence < store.state.nextSequence := by
  obtain ⟨-, hinFlight⟩ := h.traffic.awaited _ hawaiting
  obtain ⟨_, -, hidentity⟩ := s.store.inFlight_owner hinFlight
  obtain ⟨next, hnext, hsession, hstate⟩ := acknowledgeInFlightOutcome_ok hok
  rw [hidentity] at hnext
  have howner : store.state.owner = s.store.state.owner := by rw [hstate]
  have hnone : store.state.inFlight = none := by rw [hstate]
  have hlt : s.store.state.nextSequence < store.state.nextSequence := by
    rw [hstate]
    exact SessionCounter.lt_next hnext
  exact ⟨⟨rfl, rfl, rfl, rfl, rfl, hsession, rfl, le_rfl,
    fun hsome => absurd (store.inFlight_of_state_none hnone) hsome,
    h.traffic.prepared.settled howner (by rw [hstate]) hnone, fun _ hmem => Or.inl hmem,
    fun owner hfound => h.holdings.owner owner (howner ▸ hfound),
    le_of_eq (PersistedSessionState.knownEpoch_congr howner).symm,
    fun _ hbounds => hbounds.mono howner (le_of_lt hlt)⟩, hlt⟩

/-- A rejected command is released. -/
theorem Informed.released (h : s.Informed own)
    (hawaiting : s.awaiting = some ⟨number, .mutation reservation reserved⟩)
    (hok : s.store.releaseRejectedInFlight reserved.identity = .ok store) :
    StoreStep own s
      { s with store := store, awaiting := none, released := reservation :: s.released } := by
  obtain ⟨hcurrent, -⟩ := h.traffic.awaited _ hawaiting
  obtain ⟨hsession, hstate⟩ := releaseRejectedInFlight_ok hok
  have howner : store.state.owner = s.store.state.owner := by rw [hstate]
  have hnone : store.state.inFlight = none := by rw [hstate]
  refine ⟨rfl, rfl, rfl, rfl, rfl, hsession, rfl, le_rfl,
    fun hsome => absurd (store.inFlight_of_state_none hnone) hsome,
    h.traffic.prepared.settled howner (by rw [hstate]) hnone, fun other hmem => ?_,
    fun owner hfound => h.holdings.owner owner (howner ▸ hfound),
    le_of_eq (PersistedSessionState.knownEpoch_congr howner).symm,
    fun _ hbounds => hbounds.mono howner (by rw [hstate])⟩
  rcases mem_cons.mp hmem with rfl | hold
  · exact Or.inr (le_of_eq hcurrent)
  · exact Or.inl hold

/-! ## Runs -/

/-- **The invariant is kept by every event.** -/
theorem step_informed (h : s.Informed own) (event : SessionEvent) :
    (step own s event).Informed own := by
  have hstep := step_step own s event
  generalize step own s event = after at hstep
  cases hstep with
  | idle => exact h
  | began isOwn ok => exact (h.began isOwn ok).informed h
  | asked _ found => exact h.sendMessage found
  | reserved ok => exact (h.of_reserved ok).informed h
  | sent _ found => exact h.sendMessage ⟨rfl, found⟩
  | gaveUp => exact h.gaveUp
  | confirmed awaited answered ok => exact (h.confirmed awaited answered ok).informed h
  | acknowledged awaited _ _ ok => exact (h.acknowledged awaited ok).1.informed h
  | released awaited _ _ ok => exact (h.released awaited ok).informed h
  | moved _ moves => exact h.moved moves
  | saturated found => exact h.saturated found
  | committed found => exact h.commit found
  | foreign => exact h.foreign _

theorem initial_informed (own : SessionOwnerInstanceId → Bool) (maxResponseFrameBytes : Nat)
    (sessionId : CommandSessionId) : (initial maxResponseFrameBytes sessionId).Informed own where
  traffic := by
    refine ⟨⟨nofun, nofun⟩, ?_, ?_, ?_, ?_, ?_, ?_, ?_, ?_⟩ <;> intros <;> contradiction
  holdings := by
    refine ⟨?_, ?_, initial_storable⟩ <;> intros <;> contradiction

/-- The system after a list of events. -/
def run (own : SessionOwnerInstanceId → Bool) (s : DurableSession)
    (events : List SessionEvent) : DurableSession :=
  Run.final (fun s event => (step own s event, ())) s events

/-- **The invariant holds in every run.** -/
theorem run_informed (h : s.Informed own) (events : List SessionEvent) :
    (run own s events).Informed own :=
  Run.final_invariant (P := Informed own) (fun _ event hs => step_informed hs event) h events

end DurableSession

end AgentBroker
