import AgentBroker.Domain.Counters
import AgentBroker.Consensus.RaftStateMachine

/-!
# Term synchronisation

The Broker term follows the Raft term: before a leader proposes anything it compares its
Raft term with the Broker term it observes and, if that is behind, proposes an
`AdvanceTerm` entry (`cluster_raft.rs`).  The Broker term is observed at the applied index;
the entry is applied at the end of the log.  An entry between the two that advances the
term makes the proposal stale, the replica rejects it, and the adapter takes the rejection
for an internal error, which stops it for good.

A leader's log is any log that leaders of earlier terms could leave behind (`LeaderLog`).

## Main results

* `LeaderLog.term_le` — the Broker term is never ahead of the leader's Raft term.
* `term_sync_ok_iff` — when term synchronisation succeeds.
* `lagging_leader_fail_stops` — a leader that has not applied its predecessor's entry
  stops itself.
-/

namespace AgentBroker

open BrokerStateMachine
open ReplicatedBrokerCommandV1 (ofBrokerCommand)

/-! ## The adapter -/

/-- The entry that raises the Broker term. -/
def termAdvanceProposal (brokerTerm newTerm : Term) : ReplicatedBrokerProposalV1 :=
  .legacy (ofBrokerCommand (.advanceTerm ⟨brokerTerm, newTerm⟩))

/-- `sync_broker_term_to_raft`, with what `client_write` answers to a proposal. -/
def syncBrokerTermToRaft (raftTerm : U64) (observation : RaftBrokerObservation)
    (clientWrite : ReplicatedBrokerProposalV1 → Except BrokerError ReplicatedBrokerResponseV1) :
    Except BrokerError Unit := do
  let brokerTerm ← observation.validatedTerm.mapError fun error =>
    BrokerError.new .internalError error.display
  if raftTerm.get < brokerTerm.get then
    .error (.new .persistenceError ("cluster Raft term " ++ toString raftTerm.get ++
      " is behind committed Broker term " ++ toString brokerTerm.get))
  else if raftTerm.get = brokerTerm.get then
    .ok ()
  else do
    let newTerm ← (Term.new raftTerm).mapError fun error =>
      BrokerError.new .internalError
        ("cluster Raft produced invalid Broker fencing term: " ++ error.display)
    let response ← clientWrite (termAdvanceProposal brokerTerm newTerm)
    let outcome ← response.intoApplicationResult.mapError fun error =>
      BrokerError.new .internalError ("failed to decode cluster term response: " ++ error.message)
    match outcome with
    | .ok (.termAdvanced _) => .ok ()
    | .ok other => .error (.new .internalError
        ("cluster term synchronization returned unexpected result: " ++ reprStr other))
    | .error error => .error (.new .internalError
        ("cluster term synchronization was rejected: " ++ error.message))

/-- `should_poison`. -/
def shouldPoison (error : BrokerError) : Bool :=
  error.code = .persistenceError || error.code = .internalError

/-! ## Leaders and their logs -/

/-- The replica that has applied a log from the start. -/
def appliedLog (log : List EntryPayload) : SessionedBroker :=
  Run.final applyPayload .initial log

/-- The proposals that clients get into the log.  A term advance is refused by `propose`
and `propose_identified`. -/
inductive ClientProposal : ReplicatedBrokerProposalV1 → Prop
  | legacy (c : BrokerCommand) (notTerm : ∀ t, c ≠ .advanceTerm t) :
      ClientProposal (.legacy (ofBrokerCommand c))
  | identified (identity : CommandIdentity) (c : BrokerCommand)
      (notTerm : ∀ t, c ≠ .advanceTerm t) :
      ClientProposal (.identified identity (ofBrokerCommand c))
  | acquisition (session : CommandSessionId) (expected : SessionOwnerEpoch)
      (owner : SessionOwnerInstanceId) :
      ClientProposal (.legacy
        (.acquireCommandSessionOwner session.asStr expected.toU64 owner.asStr))

/-- The Broker term that a replica observes when it has applied a log. -/
def brokerTerm (log : List EntryPayload) : Term := (appliedLog log).broker.state.term

/-- The logs that the leader of a Raft term can have.  A new leader starts from a part of an
earlier leader's log; a leader appends control entries, what clients propose, and its own
term advances, from whatever part of its log it has applied. -/
inductive LeaderLog : Term → List EntryPayload → Prop
  | start (raftTerm : Term) : LeaderLog raftTerm []
  | elected {raftTerm later : Term} {log : List EntryPayload} (before : LeaderLog raftTerm log)
      (greater : raftTerm < later) (kept : Nat) : LeaderLog later (log.take kept)
  | blank {raftTerm : Term} {log : List EntryPayload} (before : LeaderLog raftTerm log) :
      LeaderLog raftTerm (log ++ [.blank])
  | membership {raftTerm : Term} {log : List EntryPayload} (before : LeaderLog raftTerm log)
      (voters : List Nat) : LeaderLog raftTerm (log ++ [.membership voters])
  | client {raftTerm : Term} {log : List EntryPayload} (before : LeaderLog raftTerm log)
      {proposal : ReplicatedBrokerProposalV1} (built : ClientProposal proposal) :
      LeaderLog raftTerm (log ++ [.normal proposal])
  | synchronised {raftTerm : Term} {log : List EntryPayload} (before : LeaderLog raftTerm log)
      (applied : Nat) (behind : brokerTerm (log.take applied) < raftTerm) :
      LeaderLog raftTerm
        (log ++ [.normal (termAdvanceProposal (brokerTerm (log.take applied)) raftTerm)])

/-- What `client_write` answers on a leader that stays leader: the proposal is appended to
its log, and applied after all of it. -/
def clientWrite (log : List EntryPayload) (proposal : ReplicatedBrokerProposalV1) :
    Except BrokerError ReplicatedBrokerResponseV1 :=
  (applyPayload (appliedLog log) (.normal proposal)).2.mapError fun error =>
    .new .persistenceError error.message

/-- Term synchronisation on the leader of a Raft term that has applied the first `applied`
entries of its log. -/
def syncOnLeader (raftTerm : Term) (log : List EntryPayload) (applied : Nat) :
    Except BrokerError Unit :=
  syncBrokerTermToRaft raftTerm.toU64
    (.update (appliedLog (log.take applied)).broker.state (some applied)) (clientWrite log)

/-- The adapter stops itself: the error it got poisons it. -/
def failStops (raftTerm : Term) (log : List EntryPayload) (applied : Nat) : Bool :=
  match syncOnLeader raftTerm log applied with
  | .ok _ => false
  | .error error => shouldPoison error

/-! ## Terms along a log -/

variable {log : List EntryPayload} {raftTerm : Term}

/-- What a proposal does to the Broker: nothing, or what one command does. -/
theorem SessionedBroker.ProposalStep.broker {s s' : SessionedBroker}
    {p : ReplicatedBrokerProposalV1} {answer : Except InvalidData ReplicatedBrokerResponseV1}
    (h : SessionedBroker.ProposalStep s p s' answer) :
    s'.broker = s.broker ∨ ∃ c, s'.broker = (s.broker.apply c).1 := by
  cases h with
  | invalid | answered | acquisition => exact Or.inl rfl
  | @legacy _ brokerCommand | @applied _ _ brokerCommand =>
    exact Or.inr ⟨brokerCommand, rfl⟩

theorem applyPayload_broker (s : SessionedBroker) (payload : EntryPayload) :
    (applyPayload s payload).1.broker = s.broker ∨
      ∃ c, (applyPayload s payload).1.broker = (s.broker.apply c).1 := by
  cases payload with
  | blank | membership => exact Or.inl rfl
  | normal proposal => exact (SessionedBroker.applyProposal_step s proposal).broker

theorem applyPayload_indexed {s : SessionedBroker} (h : s.broker.Indexed)
    (payload : EntryPayload) : (applyPayload s payload).1.broker.Indexed := by
  rcases applyPayload_broker s payload with hsame | ⟨c, hc⟩
  · rw [hsame]
    exact h
  · rw [hc]
    exact apply_indexed h c

theorem appliedLog_indexed (log : List EntryPayload) : (appliedLog log).broker.Indexed :=
  Run.final_invariant (P := fun s : SessionedBroker => s.broker.Indexed)
    (fun _ payload h => applyPayload_indexed h payload) initial_indexed log

theorem applyPayload_term_le {s : SessionedBroker} (h : s.broker.Indexed) (payload : EntryPayload) :
    s.broker.state.term ≤ (applyPayload s payload).1.broker.state.term := by
  rcases applyPayload_broker s payload with hsame | ⟨c, hc⟩
  · rw [hsame]
  · rw [hc]
    exact apply_term_le h c

theorem appliedLog_append (log suffix : List EntryPayload) :
    appliedLog (log ++ suffix) = Run.final applyPayload (appliedLog log) suffix :=
  Run.final_append _ _ _ _

theorem brokerTerm_take_le (log : List EntryPayload) (n : Nat) :
    brokerTerm (log.take n) ≤ brokerTerm log := by
  have hsplit := appliedLog_append (log.take n) (log.drop n)
  rw [List.take_append_drop] at hsplit
  unfold brokerTerm
  rw [hsplit]
  exact Run.le_final (P := fun s : SessionedBroker => s.broker.Indexed)
    (f := fun s => s.broker.state.term) (fun _ payload h => applyPayload_indexed h payload)
    (fun _ payload h => applyPayload_term_le h payload) (appliedLog_indexed _) _

theorem brokerTerm_snoc (log : List EntryPayload) (payload : EntryPayload) :
    brokerTerm (log ++ [payload]) =
      (applyPayload (appliedLog log) payload).1.broker.state.term := by
  rw [brokerTerm, appliedLog_append]
  rfl

/-- The command of a proposal without identity is applied as it is. -/
theorem applyPayload_legacy (s : SessionedBroker) (c : BrokerCommand) :
    applyPayload s (.normal (.legacy (ofBrokerCommand c))) =
      ({ s with broker := (s.broker.apply c).1 }, .ok (s.applicationResponse c)) := by
  show s.applyProposal _ = _
  rw [SessionedBroker.applyProposal_legacy, SessionedBroker.applyReplicatedCommand_ok
    (ReplicatedBrokerCommandV1.toBrokerCommand_ofBrokerCommand c)]

/-- A command that is not a term advance keeps the term. -/
theorem apply_term_of_not_advance {m : BrokerStateMachine} (h : m.Indexed) {c : BrokerCommand}
    (hc : ∀ t, c ≠ .advanceTerm t) : (m.apply c).1.state.term = m.state.term := by
  rcases apply_counters h c with hsame | ⟨t, rfl, -⟩
  · exact hsame.term
  · exact absurd rfl (hc t)

/-- What clients propose keeps the term. -/
theorem ClientProposal.term_eq {proposal : ReplicatedBrokerProposalV1}
    (h : ClientProposal proposal) {s : SessionedBroker} (hs : s.broker.Indexed) :
    (applyPayload s (.normal proposal)).1.broker.state.term = s.broker.state.term := by
  cases h with
  | legacy c notTerm =>
    rw [applyPayload_legacy]
    exact apply_term_of_not_advance hs notTerm
  | identified identity c notTerm =>
    show (s.applyProposal _).1.broker.state.term = _
    rw [SessionedBroker.applyProposal_adapterIdentified, SessionedBroker.applyIdentified]
    cases s.checkSession identity (ofBrokerCommand c) with
    | error => rfl
    | ok u =>
      rw [SessionedBroker.applyReplicatedCommand_ok
        (ReplicatedBrokerCommandV1.toBrokerCommand_ofBrokerCommand c)]
      exact apply_term_of_not_advance hs notTerm
  | acquisition session expected owner =>
    show (s.applyProposal _).1.broker.state.term = _
    rw [SessionedBroker.applyProposal, ReplicatedBrokerProposalV1.intoParts_legacy]
    show (s.acquireCommandSessionOwner session.asStr expected.toU64
      owner.asStr).1.broker.state.term = _
    unfold SessionedBroker.acquireCommandSessionOwner
    dsimp only
    split <;> rfl

/-- **The Broker term is never ahead of the Raft term** of a leader whose log it is. -/
theorem LeaderLog.term_le (h : LeaderLog raftTerm log) : brokerTerm log ≤ raftTerm := by
  induction h with
  | start raftTerm => exact raftTerm.pos
  | elected _ greater kept ih =>
    -- A later leader may have lost the end of the log, but terms only grow along a log.
    exact (brokerTerm_take_le _ kept).trans (ih.trans (le_of_lt greater))
  | blank _ ih | membership _ _ ih =>
    rw [brokerTerm_snoc]
    exact ih
  | client _ built ih =>
    rw [brokerTerm_snoc, built.term_eq (appliedLog_indexed _)]
    exact ih
  | @synchronised raftTerm log _ applied _ ih =>
    -- Applied or rejected, the entry cannot set any term but the leader's own.
    rw [brokerTerm_snoc, termAdvanceProposal, applyPayload_legacy]
    rcases apply_counters (appliedLog_indexed log)
      (.advanceTerm ⟨brokerTerm (log.take applied), raftTerm⟩) with hsame | ⟨t, heq, -, hterm, -⟩
    · rw [hsame.term]
      exact ih
    · cases heq
      exact le_of_eq hterm

/-! ## Synchronising -/

/-- No entry after the applied index advances the Broker term. -/
def CaughtUp (log : List EntryPayload) (applied : Nat) : Prop :=
  Run.Meets applyPayload
    (fun s payload => (applyPayload s payload).1.broker.state.term = s.broker.state.term)
    (appliedLog (log.take applied)) (log.drop applied)

instance (log : List EntryPayload) (applied : Nat) : Decidable (CaughtUp log applied) :=
  Run.decidableMeets _ _ _ _

/-- Terms only grow: with no such entry, and only then, the term at the applied index is that
at the end of the log. -/
theorem caughtUp_iff (log : List EntryPayload) (applied : Nat) :
    CaughtUp log applied ↔ brokerTerm log = brokerTerm (log.take applied) := by
  have hsplit := appliedLog_append (log.take applied) (log.drop applied)
  rw [List.take_append_drop] at hsplit
  unfold brokerTerm
  rw [hsplit]
  exact (Run.final_eq_iff_meets (P := fun s : SessionedBroker => s.broker.Indexed)
    (f := fun s => s.broker.state.term) (fun _ payload h => applyPayload_indexed h payload)
    (fun _ payload h => applyPayload_term_le h payload) (appliedLog_indexed _) _).symm

theorem syncOnLeader_of_eq {applied : Nat} (h : brokerTerm (log.take applied) = raftTerm) :
    syncOnLeader raftTerm log applied = .ok () := by
  have hterm : (appliedLog (log.take applied)).broker.state.term = raftTerm := h
  rw [syncOnLeader, syncBrokerTermToRaft, RaftBrokerObservation.validatedTerm_update, hterm]
  simp [Term.toU64]

/-- A leader that is ahead proposes a term advance, and gets what applying it gives. -/
theorem syncOnLeader_of_lt {applied : Nat} (h : brokerTerm (log.take applied) < raftTerm) :
    syncOnLeader raftTerm log applied =
      match ((appliedLog log).broker.apply
        (.advanceTerm ⟨brokerTerm (log.take applied), raftTerm⟩)).2 with
      | .ok ⟨.termAdvanced _, _⟩ => .ok ()
      | .ok ⟨other, _⟩ => .error (.new .internalError
          ("cluster term synchronization returned unexpected result: " ++ reprStr other))
      | .error error => .error (.new .internalError
          ("cluster term synchronization was rejected: " ++
            (BrokerError.ofStateMachine error).message)) := by
  -- Neither of the two early exits is taken.
  have hge : ¬raftTerm.toU64.get < (brokerTerm (log.take applied)).get :=
    Nat.not_lt.mpr (le_of_lt h)
  have hne : ¬raftTerm.toU64.get = (brokerTerm (log.take applied)).get := ne_of_gt h
  have hwrite : clientWrite log (termAdvanceProposal (brokerTerm (log.take applied)) raftTerm) =
      .ok ((appliedLog log).applicationResponse
        (.advanceTerm ⟨brokerTerm (log.take applied), raftTerm⟩)) := by
    rw [clientWrite, termAdvanceProposal, applyPayload_legacy]
    rfl
  have hobserved : (RaftBrokerObservation.update
      (appliedLog (log.take applied)).broker.state (some applied)).validatedTerm =
        .ok (brokerTerm (log.take applied)) :=
    RaftBrokerObservation.validatedTerm_update _ _
  rw [syncOnLeader, syncBrokerTermToRaft, hobserved]
  simp only [Except.mapError_ok, Except.ok_bind, if_neg hge, if_neg hne, Term.new_toU64, hwrite,
    SessionedBroker.intoApplicationResult_applicationResponse]
  cases ((appliedLog log).broker.apply
      (.advanceTerm ⟨brokerTerm (log.take applied), raftTerm⟩)).2 with
  | error => rfl
  | ok outcome =>
    obtain ⟨result, changes⟩ := outcome
    cases result <;> rfl

/-- Term synchronisation on a leader goes through: the entry it proposes, if any, advances
the term, and the adapter stays up. -/
def Synchronises (raftTerm : Term) (log : List EntryPayload) (applied : Nat) : Prop :=
  (brokerTerm (log.take applied) ≠ raftTerm →
    ∃ advanced changes, ((appliedLog log).broker.apply
      (.advanceTerm ⟨brokerTerm (log.take applied), raftTerm⟩)).2 =
        .ok ⟨.termAdvanced advanced, changes⟩) ∧
  failStops raftTerm log applied = false

/-- **When term synchronisation succeeds.**  For every leader, every log it can have and
every lag: no entry after its applied index advances the Broker term and, if the Broker is
behind, its revision can advance. -/
theorem term_sync_ok_iff {raftTerm : Term} {log : List EntryPayload}
    (h : LeaderLog raftTerm log) (applied : Nat) :
    Synchronises raftTerm log applied ↔
      CaughtUp log applied ∧ (brokerTerm (log.take applied) = raftTerm ∨
        (appliedLog log).broker.state.revision.get + 1 < u64Size) := by
  have hle : brokerTerm (log.take applied) ≤ brokerTerm log := brokerTerm_take_le log applied
  rw [caughtUp_iff]
  rcases (hle.trans h.term_le).eq_or_lt with heq | hlt
  · -- Nothing is proposed; the term cannot move any further.
    refine iff_of_true ⟨fun hne => absurd heq hne, ?_⟩ ⟨?_, Or.inl heq⟩
    · rw [failStops, syncOnLeader_of_eq heq]
    · exact le_antisymm (heq ▸ h.term_le) hle
  · have hadvances := BrokerStateMachine.apply_advanceTerm_ok_iff (appliedLog log).broker
      ⟨brokerTerm (log.take applied), raftTerm⟩
    have hcan : BrokerStateMachine.CanAdvanceTerm (appliedLog log).broker
        ⟨brokerTerm (log.take applied), raftTerm⟩ ↔
        brokerTerm log = brokerTerm (log.take applied) ∧
          (brokerTerm (log.take applied) = raftTerm ∨
            (appliedLog log).broker.state.revision.get + 1 < u64Size) := by
      constructor
      · exact fun hall => ⟨hall.1, Or.inr hall.2.2⟩
      · rintro ⟨hsame, heq | hroom⟩
        · exact absurd heq hlt.ne
        · exact ⟨hsame, lt_of_eq_of_lt hsame hlt, hroom⟩
    rw [← hcan, ← hadvances]
    refine ⟨fun hsync => hsync.1 hlt.ne, fun hadvanced => ⟨fun _ => hadvanced, ?_⟩⟩
    obtain ⟨advanced, changes, hok⟩ := hadvanced
    rw [failStops, syncOnLeader_of_lt hlt, hok]

/-! ## Two leaders -/

/-- The Raft terms of two leaders after the first. -/
def secondTerm : Term := 2
def thirdTerm : Term := 3

/-- The log that the leader of the second term leaves behind: its term advance. -/
def inheritedLog : List EntryPayload := [.normal (termAdvanceProposal .initial secondTerm)]

/-- It is a log that the leader of the third term can have. -/
theorem leaderLog_inheritedLog : LeaderLog thirdTerm inheritedLog :=
  .elected (.synchronised (.start secondTerm) 0 (show Term.initial < secondTerm by decide))
    (show secondTerm < thirdTerm by decide) 1

/-- The next leader synchronises its term once it has applied the entry. -/
theorem caught_up_leader_synchronises :
    LeaderLog thirdTerm inheritedLog ∧ Synchronises thirdTerm inheritedLog 1 :=
  ⟨leaderLog_inheritedLog, (term_sync_ok_iff leaderLog_inheritedLog 1).mpr
    ⟨by decide +kernel, Or.inr (by decide +kernel)⟩⟩

/-- **A leader that lags stops itself.**  It has its predecessor's term advance in its log
but has not applied it: it proposes to advance from the first term, the replica is at the
second by then and rejects the entry, and the adapter fails for good. -/
theorem lagging_leader_fail_stops :
    LeaderLog thirdTerm inheritedLog ∧ ¬Synchronises thirdTerm inheritedLog 0 ∧
      syncOnLeader thirdTerm inheritedLog 0 = .error (.new .internalError
        ("cluster term synchronization was rejected: " ++
          "Broker term is stale: expected 1, actual 2")) := by
  refine ⟨leaderLog_inheritedLog, fun hsync => ?_, ?_⟩
  · have hstops : failStops thirdTerm inheritedLog 0 = true := by decide +kernel
    rw [hsync.2] at hstops
    cases hstops
  · decide +kernel

end AgentBroker
