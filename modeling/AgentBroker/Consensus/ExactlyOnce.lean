import AgentBroker.Consensus.Sessions

/-!
# Exactly-once commands

Whatever log of proposals is applied, with duplicates, delays and takeovers in any
order, a command that a session's owner identifies by its sequence number reaches the
Broker at most once, and a retry of the last one gets the stored answer.

Session records only grow (`CommandSessionRecord.Grows`): the owner epoch first, then
the sequence of the last outcome.  What was applied, and who was answered as owner, is
collected along the log and stays behind the record of its session.

## Main results

* `ProposalStep.recordStep` — what a proposal can make of a session record.
* `applyProposal_grows` — session records only grow.
* `exactly_once` — the guarantee, for every log.
-/

namespace AgentBroker

open Except List

/-! ## Records grow -/

/-- A later record of a session: a new owner, or the same owner and a later outcome. -/
inductive CommandSessionRecord.Grows (record record' : CommandSessionRecord) : Prop
  | takeover (later : record.ownerEpoch < record'.ownerEpoch)
  | sameOwner (epoch : record.ownerEpoch = record'.ownerEpoch)
      (owner : record.ownerInstanceId = record'.ownerInstanceId)
      (outcome : ∀ outcome, record.lastOutcome = some outcome →
        ∃ outcome', record'.lastOutcome = some outcome' ∧ outcome.sequence ≤ outcome'.sequence)

namespace CommandSessionRecord

theorem Grows.refl (record : CommandSessionRecord) : record.Grows record :=
  .sameOwner rfl rfl fun outcome h => ⟨outcome, h, le_rfl⟩

variable {record record' : CommandSessionRecord}

theorem Grows.epoch_le (h : record.Grows record') :
    record.ownerEpoch ≤ record'.ownerEpoch := by
  cases h with
  | takeover later => exact le_of_lt later
  | sameOwner epoch => exact le_of_eq epoch

/-- The record has seen the command: its owner is a later one, or it has the outcome of
that command or of a later one. -/
def Covers (record : CommandSessionRecord) (identity : CommandIdentity) : Prop :=
  identity.ownerEpoch < record.ownerEpoch ∨
    identity.ownerEpoch = record.ownerEpoch ∧
      ∃ outcome, record.lastOutcome = some outcome ∧ identity.sequence ≤ outcome.sequence

theorem Covers.grows {identity : CommandIdentity} (h : record.Covers identity)
    (hgrows : record.Grows record') : record'.Covers identity := by
  rcases h with hlt | ⟨heq, outcome, houtcome, hle⟩
  · exact Or.inl (lt_of_lt_of_le hlt hgrows.epoch_le)
  · cases hgrows with
    | takeover later => exact Or.inl (heq ▸ later)
    | sameOwner epoch _ later =>
      obtain ⟨outcome', houtcome', hle'⟩ := later outcome houtcome
      exact Or.inr ⟨heq.trans epoch, outcome', houtcome', hle.trans hle'⟩

/-- The record names the owner of an epoch, or that epoch is over. -/
def Names (record : CommandSessionRecord) (epoch : SessionOwnerEpoch)
    (owner : SessionOwnerInstanceId) : Prop :=
  epoch < record.ownerEpoch ∨ epoch = record.ownerEpoch ∧ record.ownerInstanceId = some owner

theorem Names.epoch_le {epoch : SessionOwnerEpoch} {owner : SessionOwnerInstanceId}
    (h : record.Names epoch owner) : epoch ≤ record.ownerEpoch := by
  rcases h with hlt | ⟨heq, -⟩
  · exact le_of_lt hlt
  · exact le_of_eq heq

theorem Names.grows {epoch : SessionOwnerEpoch} {owner : SessionOwnerInstanceId}
    (h : record.Names epoch owner) (hgrows : record.Grows record') : record'.Names epoch owner := by
  rcases h with hlt | ⟨heq, howner⟩
  · exact Or.inl (lt_of_lt_of_le hlt hgrows.epoch_le)
  · cases hgrows with
    | takeover later => exact Or.inl (heq ▸ later)
    | sameOwner epoch' owner' => exact Or.inr ⟨heq.trans epoch', owner' ▸ howner⟩

end CommandSessionRecord

namespace SessionedBroker

variable {s s' : SessionedBroker} {p : ReplicatedBrokerProposalV1}
variable {answer : Except InvalidData ReplicatedBrokerResponseV1}

/-- The machine after a log of proposals. -/
def run (s : SessionedBroker) (log : List ReplicatedBrokerProposalV1) : SessionedBroker :=
  Run.final applyProposal s log

/-- The table of sessions. -/
abbrev SessionTable := OrdMap CommandSessionId CommandSessionRecord

/-! ## The session checks -/

/-- What the checks of a session record can find. -/
inductive RecordCheck (record : CommandSessionRecord) (identity : CommandIdentity)
    (command : ReplicatedBrokerCommandV1) : Except ReplicatedBrokerResponseV1 Unit → Prop
  /-- The owner's next command. -/
  | accepted (epoch : identity.ownerEpoch = record.ownerEpoch)
      (owner : identity.ownerInstanceId = record.ownerInstanceId)
      (later : ∀ outcome, record.lastOutcome = some outcome →
        outcome.sequence < identity.sequence) :
      RecordCheck record identity command (.ok ())
  /-- The owner's last command once more. -/
  | repeated {outcome : CommandSessionOutcome} (epoch : identity.ownerEpoch = record.ownerEpoch)
      (found : record.lastOutcome = some outcome) (same : identity.sequence = outcome.sequence) :
      RecordCheck record identity command (.error outcome.response)
  /-- Another owner, a sequence that is taken, or not the first of its owner. -/
  | refused {response : ReplicatedBrokerResponseV1} (rejection : response.isRejection = true)
      (reason : identity.ownerEpoch ≠ record.ownerEpoch ∨
        identity.ownerInstanceId ≠ record.ownerInstanceId ∨
        (∃ outcome, record.lastOutcome = some outcome ∧
          identity.sequence ≤ outcome.sequence) ∨
        record.lastOutcome = none ∧ identity.sequence.get ≠ 1) :
      RecordCheck record identity command (.error response)

/-- **What the checks of a session record find.** -/
theorem recordCheck (record : CommandSessionRecord) (identity : CommandIdentity)
    (command : ReplicatedBrokerCommandV1) :
    RecordCheck record identity command (checkRecord record identity command) := by
  unfold checkRecord
  by_cases hepoch : identity.ownerEpoch = record.ownerEpoch
  · rw [require_pos hepoch]
    by_cases howner : identity.ownerInstanceId = record.ownerInstanceId
    · rw [require_pos howner]
      cases houtcome : record.lastOutcome with
      | none =>
        by_cases hfirst : identity.sequence.get = 1
        · rw [require_pos hfirst]
          exact .accepted hepoch howner fun outcome h => by rw [houtcome] at h; cases h
        · rw [require_neg hfirst]
          exact .refused rfl (Or.inr (Or.inr (Or.inr ⟨houtcome, hfirst⟩)))
      | some outcome =>
        dsimp only
        by_cases holder : identity.sequence < outcome.sequence
        · rw [require_neg (not_not.mpr holder)]
          exact .refused rfl (Or.inr (Or.inr (Or.inl ⟨outcome, houtcome, le_of_lt holder⟩)))
        · rw [require_pos holder]
          show RecordCheck record identity command
            (if identity.sequence = outcome.sequence then _ else _)
          split_ifs with hsame hcommand
          · exact .repeated hepoch houtcome hsame
          · exact .refused rfl (Or.inr (Or.inr (Or.inl ⟨outcome, houtcome, le_of_eq hsame⟩)))
          · refine .accepted hepoch howner fun outcome' h => ?_
            rw [houtcome] at h
            cases h
            exact lt_of_le_of_ne (not_lt.mp holder) (Ne.symm hsame)
    · rw [require_neg howner]
      exact .refused rfl (Or.inr (Or.inl howner))
  · rw [require_neg hepoch]
    exact .refused rfl (Or.inl hepoch)

variable {identity : CommandIdentity} {record : CommandSessionRecord}
  {command : ReplicatedBrokerCommandV1} {sessions : SessionTable} {session : CommandSessionId}
  {owner : SessionOwnerInstanceId} {entry : AppliedEntry} {entries : List AppliedEntry}

theorem checkSession_of_record (h : s.commandSessions.get identity.sessionId = some record)
    (command : ReplicatedBrokerCommandV1) :
    s.checkSession identity command = checkRecord record identity command := by
  rw [checkSession, h]

/-- An identified command that passes the session checks comes from the owner of its
session and is the next in sequence, or the first of a new session. -/
theorem checkSession_ok (h : s.checkSession identity command = .ok ()) :
    (∃ record, s.commandSessions.get identity.sessionId = some record ∧
      identity.ownerEpoch = record.ownerEpoch ∧
      identity.ownerInstanceId = record.ownerInstanceId ∧
      ∀ outcome, record.lastOutcome = some outcome → outcome.sequence < identity.sequence) ∨
    (s.commandSessions.get identity.sessionId = none ∧ identity.ownerInstanceId = none) := by
  unfold checkSession at h
  cases hrecord : s.commandSessions.get identity.sessionId with
  | none =>
    rw [hrecord] at h
    obtain ⟨_, -, h⟩ := bind_eq_ok_iff.mp h
    obtain ⟨_, howner, -⟩ := bind_eq_ok_iff.mp h
    exact Or.inr ⟨rfl, require_eq_ok_iff.mp howner⟩
  | some record =>
    rw [hrecord] at h
    have hcheck := recordCheck record identity command
    rw [show checkRecord record identity command = .ok () from h] at hcheck
    cases hcheck with
    | accepted epoch owner later => exact Or.inl ⟨record, rfl, epoch, owner, later⟩

/-- A retry of the last command is answered from the record. -/
theorem checkSession_retry {outcome : CommandSessionOutcome}
    (hrecord : s.commandSessions.get identity.sessionId =
      some ⟨identity.ownerEpoch, identity.ownerInstanceId, some outcome⟩)
    (hsequence : identity.sequence = outcome.sequence)
    (hcommand : command.sameIdentifiedRequest outcome.command = true) :
    s.checkSession identity command = .error outcome.response := by
  rw [checkSession_of_record hrecord]
  simp [checkRecord, Except.require, hsequence, hcommand]

/-! ## Acquisitions -/

/-- What an acquisition can do, with its answer. -/
inductive Acquisition (sessions : SessionTable) (session : CommandSessionId)
    (expected : SessionOwnerEpoch) (owner : SessionOwnerInstanceId) :
    SessionTable × ReplicatedBrokerResponseV1 → Prop
  | refused {response : ReplicatedBrokerResponseV1} (rejection : response.isRejection = true) :
      Acquisition sessions session expected owner (sessions, response)
  /-- The owner asks once more. -/
  | repeated {record : CommandSessionRecord} (found : sessions.get session = some record)
      (same : record.ownerInstanceId = some owner)
      (epoch : record.ownerEpoch = expected ∨ expected.next = some record.ownerEpoch) :
      Acquisition sessions session expected owner (sessions, acquired record.ownerEpoch)
  /-- The session is new. -/
  | first (absent : sessions.get session = none) (epoch : expected = .initial) :
      Acquisition sessions session expected owner
        (sessions.insert session ⟨.initial, some owner, none⟩, acquired .initial)
  /-- Another owner takes the session over. -/
  | takeover {record : CommandSessionRecord} {epoch : SessionOwnerEpoch}
      (found : sessions.get session = some record) (current : record.ownerEpoch = expected)
      (other : record.ownerInstanceId ≠ some owner) (next : expected.next = some epoch) :
      Acquisition sessions session expected owner
        (sessions.insert session ⟨epoch, some owner, none⟩, acquired epoch)

/-- **What an acquisition does.** -/
theorem acquireOwner_acquisition (sessions : SessionTable) (session : CommandSessionId)
    (expected : SessionOwnerEpoch) (owner : SessionOwnerInstanceId) :
    Acquisition sessions session expected owner
      (acquireOwner sessions session expected owner) := by
  unfold acquireOwner
  cases hrecord : sessions.get session with
  | none =>
    dsimp only
    split_ifs with hexpected
    · exact .refused rfl
    · exact .refused rfl
    · exact .first hrecord (not_not.mp hexpected)
  | some record =>
    dsimp only
    split_ifs with hretry hstale
    · exact .repeated hrecord hretry.1 hretry.2
    · exact .refused rfl
    · have hcurrent : record.ownerEpoch = expected := not_not.mp hstale
      cases hnext : record.ownerEpoch.next with
      | none => exact .refused rfl
      | some =>
        refine .takeover hrecord hcurrent (fun howner => ?_) (hcurrent ▸ hnext)
        exact hretry ⟨howner, Or.inl hcurrent⟩

/-- The table and the answer, in three cases. -/
theorem acquireOwner_cases (sessions : SessionTable) (session : CommandSessionId)
    (expected : SessionOwnerEpoch) (owner : SessionOwnerInstanceId) :
    ((acquireOwner sessions session expected owner).1 = sessions ∧
      (acquireOwner sessions session expected owner).2.isRejection = true) ∨
    (∃ record, sessions.get session = some record ∧ record.ownerInstanceId = some owner ∧
      acquireOwner sessions session expected owner = (sessions, acquired record.ownerEpoch)) ∨
    (∃ epoch, acquireOwner sessions session expected owner =
        (sessions.insert session ⟨epoch, some owner, none⟩, acquired epoch) ∧
      ∀ record, sessions.get session = some record → record.ownerEpoch = expected ∧
        record.ownerEpoch < epoch ∧ record.ownerInstanceId ≠ some owner) := by
  have hacquisition := acquireOwner_acquisition sessions session expected owner
  generalize acquireOwner sessions session expected owner = result at hacquisition
  cases hacquisition with
  | refused rejection => exact Or.inl ⟨rfl, rejection⟩
  | repeated found same => exact Or.inr (Or.inl ⟨_, found, same, rfl⟩)
  | first absent =>
    refine Or.inr (Or.inr ⟨_, rfl, fun record hrecord => ?_⟩)
    rw [absent] at hrecord
    cases hrecord
  | takeover found current other next =>
    refine Or.inr (Or.inr ⟨_, rfl, fun record hrecord => ?_⟩)
    obtain rfl := Option.some.inj (found.symm.trans hrecord)
    exact ⟨current, current ▸ SessionCounter.lt_next next, other⟩

/-- A new session is acquired while there is room for it. -/
theorem acquireOwner_first (habsent : sessions.get session = none)
    (hroom : sessions.size < maxCommandSessions) (owner : SessionOwnerInstanceId) :
    acquireOwner sessions session .initial owner =
      (sessions.insert session ⟨.initial, some owner, none⟩, acquired .initial) := by
  simp [acquireOwner, habsent, hroom]

/-- The owner is answered once more. -/
theorem acquireOwner_repeated {expected : SessionOwnerEpoch}
    (hfound : sessions.get session = some record) (howner : record.ownerInstanceId = some owner)
    (hepoch : record.ownerEpoch = expected ∨ expected.next = some record.ownerEpoch) :
    acquireOwner sessions session expected owner = (sessions, acquired record.ownerEpoch) := by
  simp only [acquireOwner, hfound]
  exact if_pos ⟨howner, hepoch⟩

/-- Another owner takes over from the epoch on record. -/
theorem acquireOwner_takeover {epoch : SessionOwnerEpoch}
    (hfound : sessions.get session = some record) (howner : record.ownerInstanceId ≠ some owner)
    (hnext : record.ownerEpoch.next = some epoch) :
    acquireOwner sessions session record.ownerEpoch owner =
      (sessions.insert session ⟨epoch, some owner, none⟩, acquired epoch) := by
  simp [acquireOwner, hfound, howner, hnext]

/-- An acquisition with valid arguments. -/
theorem applyProposal_acquisition {expected : SessionOwnerEpoch}
    (hparts : p.intoParts = .ok
      (none, .acquireCommandSessionOwner session.asStr expected.toU64 owner.asStr)) :
    s.applyProposal p =
      ({ s with commandSessions := (acquireOwner s.commandSessions session expected owner).1 },
        .ok (acquireOwner s.commandSessions session expected owner).2) := by
  unfold applyProposal
  rw [hparts]
  dsimp only
  unfold acquireCommandSessionOwner
  rw [SessionText.new_asStr, SessionText.new_asStr, SessionCounter.new_toU64]
  rfl

/-! ## Tables grow -/

/-- What a proposal can make of the record of a session. -/
inductive RecordStep (s : SessionedBroker) (p : ReplicatedBrokerProposalV1)
    (session : CommandSessionId) : Option CommandSessionRecord → Prop
  | kept : RecordStep s p session (s.commandSessions.get session)
  /-- A command of the session was applied. -/
  | applied {identity : CommandIdentity} {command : ReplicatedBrokerCommandV1}
      {brokerCommand : BrokerCommand} (parts : p.intoParts = .ok (some identity, command))
      (same : identity.sessionId = session) (check : s.checkSession identity command = .ok ())
      (valid : command.toBrokerCommand = .ok brokerCommand) :
      RecordStep s p session (some ⟨identity.ownerEpoch, identity.ownerInstanceId,
        some ⟨identity.sequence, command, s.applicationResponse brokerCommand⟩⟩)
  /-- The session got a new owner, who starts without outcome. -/
  | acquired {expected epoch : SessionOwnerEpoch} {owner : SessionOwnerInstanceId}
      (parts : p.intoParts = .ok
        (none, .acquireCommandSessionOwner session.asStr expected.toU64 owner.asStr))
      (later : ∀ record, s.commandSessions.get session = some record →
        record.ownerEpoch = expected ∧ record.ownerEpoch < epoch ∧
          record.ownerInstanceId ≠ some owner) :
      RecordStep s p session (some ⟨epoch, some owner, none⟩)

/-- **What a proposal makes of a session record.** -/
theorem ProposalStep.recordStep (h : ProposalStep s p s' answer) (session : CommandSessionId) :
    RecordStep s p session (s'.commandSessions.get session) := by
  cases h with
  | invalid | legacy | answered => exact .kept
  | applied parts check valid =>
    rw [commandSessions_recorded, OrdMap.get_insert]
    split_ifs with hsession
    · exact .applied parts hsession.symm check valid
    · exact .kept
  | @acquisition key expected owner parts =>
    show RecordStep _ _ _ ((acquireOwner s.commandSessions key expected owner).1.get session)
    rcases acquireOwner_cases s.commandSessions key expected owner with
      ⟨hsame, -⟩ | ⟨_, -, -, hsame⟩ | ⟨epoch, hsame, hlater⟩
    · rw [hsame]
      exact .kept
    · rw [hsame]
      exact .kept
    · rw [hsame, OrdMap.get_insert]
      split_ifs with hsession
      · subst hsession
        exact .acquired parts hlater
      · exact .kept

/-- Every record of `s` is followed in `s'` by a later one. -/
def SessionsGrow (s s' : SessionedBroker) : Prop :=
  ∀ session record, s.commandSessions.get session = some record →
    ∃ record', s'.commandSessions.get session = some record' ∧ record.Grows record'

theorem ProposalStep.grows (h : ProposalStep s p s' answer) : SessionsGrow s s' := by
  intro session record hrecord
  have hstep := h.recordStep session
  generalize s'.commandSessions.get session = after at hstep
  cases hstep with
  | kept => exact ⟨record, hrecord, .refl record⟩
  | applied _ same check =>
    refine ⟨_, rfl, ?_⟩
    rcases checkSession_ok check with ⟨_, hrecord', hepoch, howner, hlater⟩ | ⟨hnone, -⟩
    · obtain rfl : _ = record := Option.some.inj ((same ▸ hrecord').symm.trans hrecord)
      exact .sameOwner hepoch.symm howner.symm fun outcome houtcome =>
        ⟨_, rfl, le_of_lt (hlater outcome houtcome)⟩
    · rw [same, hrecord] at hnone
      cases hnone
  | acquired _ later => exact ⟨_, rfl, .takeover (later record hrecord).2.1⟩

/-- **A proposal lets every session record grow.** -/
theorem applyProposal_grows (s : SessionedBroker) (p : ReplicatedBrokerProposalV1) :
    SessionsGrow s (s.applyProposal p).1 :=
  (applyProposal_step s p).grows

/-- An epoch never decreases along a log. -/
theorem run_epoch_le (s : SessionedBroker) (log : List ReplicatedBrokerProposalV1)
    (h : s.commandSessions.get session = some record) :
    ∃ record', (s.run log).commandSessions.get session = some record' ∧
      record.ownerEpoch ≤ record'.ownerEpoch := by
  have hstep : ∀ (t : SessionedBroker) p,
      (∃ record', t.commandSessions.get session = some record' ∧
        record.ownerEpoch ≤ record'.ownerEpoch) →
      ∃ record', (t.applyProposal p).1.commandSessions.get session = some record' ∧
        record.ownerEpoch ≤ record'.ownerEpoch := by
    rintro t p ⟨record', hrecord', hle⟩
    obtain ⟨record'', hrecord'', hgrows⟩ := applyProposal_grows t p session record' hrecord'
    exact ⟨record'', hrecord'', hle.trans hgrows.epoch_le⟩
  exact Run.final_invariant hstep ⟨record, h, le_rfl⟩ log

/-! ## What was applied -/

/-- An identified command that was applied to the Broker, with its answer. -/
structure AppliedEntry where
  identity : CommandIdentity
  command : ReplicatedBrokerCommandV1
  response : ReplicatedBrokerResponseV1
  deriving DecidableEq, Repr

/-- The identified command that a proposal applies to the Broker, if it does. -/
def appliedEntry (s : SessionedBroker) (p : ReplicatedBrokerProposalV1) : Option AppliedEntry :=
  match p.intoParts with
  | .ok (some identity, command) =>
    match s.checkSession identity command, command.toBrokerCommand with
    | .ok (), .ok brokerCommand =>
      some ⟨identity, command, s.applicationResponse brokerCommand⟩
    | _, _ => none
  | _ => none

/-- The identified commands that a log applies, in order. -/
def appliedEntries (log : List ReplicatedBrokerProposalV1) : List AppliedEntry :=
  Run.emitted applyProposal appliedEntry initial log

theorem appliedEntry_eq_some (h : s.appliedEntry p = some entry) :
    ∃ brokerCommand, p.intoParts = .ok (some entry.identity, entry.command) ∧
      s.checkSession entry.identity entry.command = .ok () ∧
      entry.command.toBrokerCommand = .ok brokerCommand ∧
      entry.response = s.applicationResponse brokerCommand := by
  unfold appliedEntry at h
  split at h
  · rename_i identity command hparts
    split at h
    · rename_i brokerCommand hcheck hvalid
      cases h
      exact ⟨brokerCommand, hparts, hcheck, hvalid, rfl⟩
    · cases h
  · cases h

theorem appliedEntry_of_applied {brokerCommand : BrokerCommand}
    (hparts : p.intoParts = .ok (some identity, command))
    (hcheck : s.checkSession identity command = .ok ())
    (hvalid : command.toBrokerCommand = .ok brokerCommand) :
    s.appliedEntry p = some ⟨identity, command, s.applicationResponse brokerCommand⟩ := by
  simp only [appliedEntry, hparts, hcheck, hvalid]

theorem applyProposal_identified (hparts : p.intoParts = .ok (some identity, command))
    (hmutation : ∀ session expected owner,
      command ≠ .acquireCommandSessionOwner session expected owner) :
    s.applyProposal p = s.applyIdentified identity command := by
  unfold applyProposal
  rw [hparts]
  cases command <;> first | rfl | exact absurd rfl (hmutation _ _ _)

/-- An acquisition is no Broker command. -/
theorem ne_acquisition_of_valid {brokerCommand : BrokerCommand}
    (hvalid : command.toBrokerCommand = .ok brokerCommand) (session : String) (expected : U64)
    (owner : String) :
    command ≠ .acquireCommandSessionOwner session expected owner := by
  rintro rfl
  cases hvalid

/-- A proposal that applies an identified command to the Broker. -/
theorem applyProposal_of_appliedEntry (h : s.appliedEntry p = some entry) :
    ∃ brokerCommand, entry.command.toBrokerCommand = .ok brokerCommand ∧
      s.applyProposal p =
        (s.recorded entry.identity entry.command brokerCommand entry.response,
          .ok entry.response) := by
  obtain ⟨brokerCommand, hparts, hcheck, hvalid, hresponse⟩ := appliedEntry_eq_some h
  refine ⟨brokerCommand, hvalid, ?_⟩
  rw [applyProposal_identified hparts (ne_acquisition_of_valid hvalid), applyIdentified, hcheck]
  dsimp only
  rw [applyReplicatedCommand_ok hvalid, hresponse]
  rfl

/-- The outcome in a record is that of a command applied just now, or was there before. -/
theorem ProposalStep.outcome (h : ProposalStep s p s' answer) {outcome : CommandSessionOutcome}
    (hrecord : s'.commandSessions.get session = some record)
    (houtcome : record.lastOutcome = some outcome) :
    s.commandSessions.get session = some record ∨
      s.appliedEntry p = some
        ⟨⟨session, record.ownerEpoch, record.ownerInstanceId, outcome.sequence⟩,
          outcome.command, outcome.response⟩ := by
  have hstep := h.recordStep session
  rw [hrecord] at hstep
  generalize hafter : some record = after at hstep
  cases hstep with
  | kept => exact Or.inl rfl
  | applied parts same check valid =>
    cases hafter
    cases houtcome
    exact Or.inr (same ▸ appliedEntry_of_applied parts check valid)
  | acquired =>
    cases hafter
    cases houtcome

/-- Within one ownership of a session the second command is the later one. -/
def AppliedEntry.Before (entry later : AppliedEntry) : Prop :=
  entry.identity.sessionId = later.identity.sessionId →
    entry.identity.ownerEpoch = later.identity.ownerEpoch →
      entry.identity.sequence < later.identity.sequence

/-- The commands applied so far, against the session records. -/
structure Accounted (entries : List AppliedEntry) (s : SessionedBroker) : Prop where
  increasing : entries.Pairwise AppliedEntry.Before
  covered : ∀ entry ∈ entries, ∃ record,
    s.commandSessions.get entry.identity.sessionId = some record ∧ record.Covers entry.identity
  valid : ∀ entry ∈ entries, ∃ brokerCommand, entry.command.toBrokerCommand = .ok brokerCommand
  outcomes : ∀ session record outcome, s.commandSessions.get session = some record →
    record.lastOutcome = some outcome →
      (⟨⟨session, record.ownerEpoch, record.ownerInstanceId, outcome.sequence⟩,
        outcome.command, outcome.response⟩ : AppliedEntry) ∈ entries

/-- A command that passes the session checks is later than those its record covers. -/
theorem before_of_checkSession {later : AppliedEntry}
    (hcovered : ∃ record, s.commandSessions.get entry.identity.sessionId = some record ∧
      record.Covers entry.identity)
    (hcheck : s.checkSession later.identity later.command = .ok ()) : entry.Before later := by
  intro hsession hepoch
  obtain ⟨record, hrecord, hcovers⟩ := hcovered
  rw [hsession] at hrecord
  rcases checkSession_ok hcheck with ⟨_, hrecord', hepoch', -, hlater⟩ | ⟨hnone, -⟩
  · obtain rfl : record = _ := Option.some.inj (hrecord.symm.trans hrecord')
    rcases hcovers with hlt | ⟨-, outcome, houtcome, hle⟩
    · exact absurd (hepoch.trans hepoch') (ne_of_lt hlt)
    · exact lt_of_le_of_lt hle (hlater outcome houtcome)
  · rw [hnone] at hrecord
    cases hrecord

/-- A step keeps the account. -/
theorem Accounted.step (h : Accounted entries s) (p : ReplicatedBrokerProposalV1) :
    Accounted (entries ++ (s.appliedEntry p).toList) (s.applyProposal p).1 where
  increasing := by
    refine pairwise_append.mpr ⟨h.increasing, ?_, fun entry hentry later hlater => ?_⟩
    · cases s.appliedEntry p with
      | none => exact List.Pairwise.nil
      | some entry => exact pairwise_singleton _ entry
    · obtain ⟨_, -, hcheck, -⟩ := appliedEntry_eq_some (Option.mem_toList.mp hlater)
      exact before_of_checkSession (h.covered entry hentry) hcheck
  covered := by
    intro entry hentry
    rcases mem_append.mp hentry with hold | hnew
    · obtain ⟨record, hrecord, hcovers⟩ := h.covered entry hold
      obtain ⟨record', hrecord', hgrows⟩ := applyProposal_grows s p _ record hrecord
      exact ⟨record', hrecord', hcovers.grows hgrows⟩
    · obtain ⟨_, -, happly⟩ := applyProposal_of_appliedEntry (Option.mem_toList.mp hnew)
      rw [happly]
      exact ⟨_, OrdMap.get_insert_self _ _ _, Or.inr ⟨rfl, _, rfl, le_rfl⟩⟩
  valid := by
    intro entry hentry
    rcases mem_append.mp hentry with hold | hnew
    · exact h.valid entry hold
    · obtain ⟨brokerCommand, -, -, hvalid, -⟩ := appliedEntry_eq_some (Option.mem_toList.mp hnew)
      exact ⟨brokerCommand, hvalid⟩
  outcomes := by
    intro session record outcome hrecord houtcome
    rcases (applyProposal_step s p).outcome hrecord houtcome with hold | hnew
    · exact mem_append_left _ (h.outcomes session record outcome hold houtcome)
    · exact mem_append_right _ (Option.mem_toList.mpr hnew)

theorem accounted (log : List ReplicatedBrokerProposalV1) :
    Accounted (appliedEntries log) (initial.run log) := by
  refine Run.emitted_invariant (fun entries s p h => h.step p)
    ⟨List.Pairwise.nil, ?_, ?_, ?_⟩ log
  · intro entry hentry
    cases hentry
  · intro entry hentry
    cases hentry
  · intro session record outcome hrecord
    cases hrecord

/-! ## Who was answered as owner -/

/-- An acquisition that was answered with an epoch. -/
structure OwnerAnswer where
  session : String
  epoch : U64
  owner : String
  deriving DecidableEq, Repr

/-- The ownership a proposal is answered with, if it is. -/
def ownerAnswer (s : SessionedBroker) (p : ReplicatedBrokerProposalV1) : Option OwnerAnswer :=
  match p.command, (s.applyProposal p).2 with
  | .acquireCommandSessionOwner session _ owner, .ok (.sessionOwnerAcquired epoch) =>
    some ⟨session, epoch, owner⟩
  | _, _ => none

/-- The ownerships that a log is answered with, in order. -/
def ownerAnswers (log : List ReplicatedBrokerProposalV1) : List OwnerAnswer :=
  Run.emitted applyProposal ownerAnswer initial log

/-- Who is answered as owner is the owner on record. -/
theorem ProposalStep.owner_on_record (h : ProposalStep s p s' answer) {session owner : String}
    {expected epoch : U64}
    (hcommand : p.command = .acquireCommandSessionOwner session expected owner)
    (hanswer : answer = .ok (.sessionOwnerAcquired epoch)) :
    ∃ key instance' record, SessionText.asStr key = session ∧
      SessionText.asStr instance' = owner ∧
      s'.commandSessions.get key = some record ∧
      SessionCounter.toU64 record.ownerEpoch = epoch ∧
      record.ownerInstanceId = some instance' := by
  cases h with
  | invalid => cases hanswer
  | legacy parts valid | applied parts _ valid =>
    exact absurd (p.command_of_intoParts parts ▸ hcommand) (ne_acquisition_of_valid valid _ _ _)
  | answered parts mutation =>
    exact absurd ((p.command_of_intoParts parts).symm.trans hcommand) (mutation _ _ _)
  | @acquisition key expected' instance' parts =>
    have hcommand' := p.command_of_intoParts parts
    rw [hcommand] at hcommand'
    injection hcommand' with hsession _ howner
    rcases acquireOwner_cases s.commandSessions key expected' instance' with
      ⟨-, hrejected⟩ | ⟨record, hrecord, hinstance, hsame⟩ | ⟨next, hsame, -⟩
    · rw [Except.ok.inj hanswer] at hrejected
      cases hrejected
    · rw [hsame] at hanswer ⊢
      cases hanswer
      exact ⟨key, instance', record, hsession.symm, howner.symm, hrecord, rfl, hinstance⟩
    · rw [hsame] at hanswer ⊢
      cases hanswer
      exact ⟨key, instance', _, hsession.symm, howner.symm,
        OrdMap.get_insert_self _ _ _, rfl, rfl⟩

theorem ownerAnswer_eq_some {a : OwnerAnswer} (h : s.ownerAnswer p = some a) :
    ∃ expected, p.command = .acquireCommandSessionOwner a.session expected a.owner ∧
      (s.applyProposal p).2 = .ok (.sessionOwnerAcquired a.epoch) := by
  unfold ownerAnswer at h
  split at h
  · rename_i session expected owner epoch hcommand hanswer
    cases h
    exact ⟨expected, hcommand, hanswer⟩
  · cases h

/-- The answers given so far: each is on record, and no epoch has two owners. -/
structure OwnersNamed (answers : List OwnerAnswer) (s : SessionedBroker) : Prop where
  named : ∀ a ∈ answers, ∃ session epoch owner record,
    a = ⟨SessionText.asStr session, SessionCounter.toU64 epoch, SessionText.asStr owner⟩ ∧
      s.commandSessions.get session = some record ∧
      CommandSessionRecord.Names record epoch owner
  unique : ∀ a ∈ answers, ∀ b ∈ answers, a.session = b.session → a.epoch = b.epoch →
    a.owner = b.owner

/-- A new answer names the owner whom every earlier answer for its epoch named. -/
theorem owner_eq_of_named {a : OwnerAnswer}
    (hnamed : ∃ session epoch owner record,
      a = ⟨SessionText.asStr session, SessionCounter.toU64 epoch, SessionText.asStr owner⟩ ∧
        s.commandSessions.get session = some record ∧
        CommandSessionRecord.Names record epoch owner)
    (hrecord : s.commandSessions.get session = some record)
    (howner : record.ownerInstanceId = some owner) (hsession : a.session = session.asStr)
    (hepoch : a.epoch = record.ownerEpoch.toU64) : a.owner = owner.asStr := by
  obtain ⟨session', epoch, owner', record', rfl, hrecord', hnames⟩ := hnamed
  obtain rfl : session' = session := SessionText.asStr_injective hsession
  obtain rfl : record' = record := Option.some.inj (hrecord'.symm.trans hrecord)
  rcases hnames with hlt | ⟨-, howner'⟩
  · exact absurd (congrArg U64.get hepoch) (ne_of_lt (SessionCounter.lt_def.mp hlt))
  · rw [Option.some.inj (howner'.symm.trans howner)]

/-- A step keeps the answers on record. -/
theorem OwnersNamed.step {answers : List OwnerAnswer} (h : OwnersNamed answers s)
    (p : ReplicatedBrokerProposalV1) :
    OwnersNamed (answers ++ (s.ownerAnswer p).toList) (s.applyProposal p).1 := by
  have hold : ∀ a ∈ answers, ∃ session epoch owner record,
      a = ⟨SessionText.asStr session, SessionCounter.toU64 epoch, SessionText.asStr owner⟩ ∧
        (s.applyProposal p).1.commandSessions.get session = some record ∧
        CommandSessionRecord.Names record epoch owner := by
    intro a ha
    obtain ⟨session, epoch, owner, record, rfl, hrecord, hnames⟩ := h.named a ha
    obtain ⟨record', hrecord', hgrows⟩ := applyProposal_grows s p session record hrecord
    exact ⟨session, epoch, owner, record', rfl, hrecord', hnames.grows hgrows⟩
  cases hanswer : s.ownerAnswer p with
  | none =>
    rw [Option.toList_none, append_nil]
    exact ⟨hold, h.unique⟩
  | some new =>
    obtain ⟨expected, hcommand, hacquired⟩ := ownerAnswer_eq_some hanswer
    obtain ⟨session, owner, record, hsession, howner, hrecord, hepoch, hinstance⟩ :=
      (applyProposal_step s p).owner_on_record hcommand hacquired
    rw [Option.toList_some]
    refine ⟨?_, ?_⟩
    · intro a ha
      rcases mem_append.mp ha with ha | ha
      · exact hold a ha
      · obtain rfl := mem_singleton.mp ha
        refine ⟨session, record.ownerEpoch, owner, record, ?_, hrecord, Or.inr ⟨rfl, hinstance⟩⟩
        rw [hsession, hepoch, howner]
    · -- An earlier answer for the same epoch names the owner on record.
      have hnew : ∀ a ∈ answers, a.session = new.session → a.epoch = new.epoch →
          a.owner = new.owner := fun a ha hs he =>
        (owner_eq_of_named (hold a ha) hrecord hinstance (hs.trans hsession.symm)
          (he.trans hepoch.symm)).trans howner
      intro a ha b hb hs he
      rcases mem_append.mp ha with ha | ha <;> rcases mem_append.mp hb with hb | hb
      · exact h.unique a ha b hb hs he
      · rw [mem_singleton.mp hb] at hs he ⊢
        exact hnew a ha hs he
      · rw [mem_singleton.mp ha] at hs he ⊢
        exact (hnew b hb hs.symm he.symm).symm
      · rw [mem_singleton.mp ha, mem_singleton.mp hb]

theorem ownersNamed (log : List ReplicatedBrokerProposalV1) :
    OwnersNamed (ownerAnswers log) (initial.run log) := by
  refine Run.emitted_invariant (fun answers s p h => h.step p) ⟨?_, ?_⟩ log
  · intro a ha
    cases ha
  · intro a ha
    cases ha

/-! ## Exactly once -/

/-- Within one session and epoch no sequence is applied twice. -/
theorem applied_nodup (h : entries.Pairwise AppliedEntry.Before) :
    (entries.map fun entry =>
      (entry.identity.sessionId, entry.identity.ownerEpoch, entry.identity.sequence)).Nodup := by
  refine pairwise_map.mpr (h.imp fun {entry later} hbefore heq => ?_)
  simp only [Prod.mk.injEq] at heq
  exact absurd heq.2.2 (ne_of_lt (hbefore heq.1 heq.2.1))

/-- A repetition of the last applied command of a session that has kept its owner. -/
theorem Accounted.retry (h : Accounted entries s) (hentry : entry ∈ entries)
    (hlast : ∀ other ∈ entries, other.identity.sessionId = entry.identity.sessionId →
      other.identity.ownerEpoch = entry.identity.ownerEpoch →
      other.identity.sequence ≤ entry.identity.sequence)
    (hepoch : (s.commandSessions.get entry.identity.sessionId).map
      CommandSessionRecord.ownerEpoch = some entry.identity.ownerEpoch)
    (hsame : command.sameIdentifiedRequest entry.command = true) :
    s.checkSession entry.identity command = .error entry.response := by
  obtain ⟨record, hrecord, hcovers⟩ := h.covered entry hentry
  rw [hrecord] at hepoch
  have hepoch : record.ownerEpoch = entry.identity.ownerEpoch := Option.some.inj hepoch
  rcases hcovers with hlt | ⟨-, outcome, houtcome, hle⟩
  · exact absurd hepoch.symm (ne_of_lt hlt)
  · -- The outcome on record belongs to an applied command, and no other has its position.
    have hstored := h.outcomes _ record outcome hrecord houtcome
    have hsequence : outcome.sequence = entry.identity.sequence :=
      le_antisymm (hlast _ hstored rfl hepoch) hle
    have hentry : _ = entry :=
      inj_on_of_nodup_map (applied_nodup h.increasing) hstored hentry
        (by simp only [hepoch, hsequence])
    rw [← hentry] at hsame ⊢
    exact checkSession_retry (hrecord.trans (by rw [← houtcome])) rfl hsame

/-- An identified command that is not applied changes nothing. -/
theorem ProposalStep.unchanged (h : ProposalStep s p s' answer)
    (hparts : p.intoParts = .ok (some identity, command)) (hentry : s.appliedEntry p = none) :
    s' = s := by
  cases h with
  | invalid | answered => rfl
  | legacy parts | acquisition parts =>
    rw [hparts] at parts
    cases parts
  | applied parts check valid =>
    rw [appliedEntry_of_applied parts check valid] at hentry
    cases hentry

/-- An acquisition leaves the Broker as it is. -/
theorem ProposalStep.broker_eq (h : ProposalStep s p s' answer) {session owner : String}
    {expected : U64} (hcommand : p.command = .acquireCommandSessionOwner session expected owner) :
    s'.broker = s.broker := by
  cases h with
  | invalid | answered | acquisition => rfl
  | legacy parts valid | applied parts _ valid =>
    exact absurd (p.command_of_intoParts parts ▸ hcommand) (ne_acquisition_of_valid valid _ _ _)

/-- The answer of the session checks is the answer of the proposal. -/
theorem applyProposal_of_checkSession_error {response : ReplicatedBrokerResponseV1}
    (hparts : p.intoParts = .ok (some identity, command))
    (hmutation : ∀ session expected owner,
      command ≠ .acquireCommandSessionOwner session expected owner)
    (hcheck : s.checkSession identity command = .error response) :
    s.applyProposal p = (s, .ok response) := by
  rw [applyProposal_identified hparts hmutation, applyIdentified, hcheck]

/-- What clients can rely on, whatever is in the log. -/
structure ExactlyOnce (log : List ReplicatedBrokerProposalV1) : Prop where
  /-- No position of a session is applied twice. -/
  once : ((appliedEntries log).map fun entry =>
    (entry.identity.sessionId, entry.identity.ownerEpoch, entry.identity.sequence)).Nodup
  /-- Within one ownership of a session the applied sequences strictly increase. -/
  increasing : (appliedEntries log).Pairwise AppliedEntry.Before
  /-- The epoch of a session never decreases. -/
  epochs : ∀ before after, log = before ++ after → ∀ session record,
    (initial.run before).commandSessions.get session = some record →
      ∃ record', (initial.run log).commandSessions.get session = some record' ∧
        record.ownerEpoch ≤ record'.ownerEpoch
  /-- An epoch of a session has one owner. -/
  owner : ∀ a ∈ ownerAnswers log, ∀ b ∈ ownerAnswers log,
    a.session = b.session → a.epoch = b.epoch → a.owner = b.owner
  /-- While the session has the same owner, a repetition of its last applied command is
  answered as that was, and changes nothing. -/
  retry : ∀ entry ∈ appliedEntries log,
    (∀ other ∈ appliedEntries log, other.identity.sessionId = entry.identity.sessionId →
      other.identity.ownerEpoch = entry.identity.ownerEpoch →
      other.identity.sequence ≤ entry.identity.sequence) →
    ((initial.run log).commandSessions.get entry.identity.sessionId).map
      CommandSessionRecord.ownerEpoch = some entry.identity.ownerEpoch →
    ∀ p command, p.intoParts = .ok (some entry.identity, command) →
      command.sameIdentifiedRequest entry.command = true →
      (initial.run log).applyProposal p = (initial.run log, .ok entry.response)
  /-- An identified command that does not pass the session checks changes nothing. -/
  refused : ∀ p identity command response, p.intoParts = .ok (some identity, command) →
    (initial.run log).checkSession identity command = .error response →
    ((initial.run log).applyProposal p).1 = initial.run log
  /-- An acquisition leaves the Broker as it is. -/
  acquisition : ∀ p session expected owner,
    p.command = .acquireCommandSessionOwner session expected owner →
    ((initial.run log).applyProposal p).1.broker = (initial.run log).broker
  /-- An identified command reaches the Broker only as an applied one. -/
  reached : ∀ p identity command, p.intoParts = .ok (some identity, command) →
    ((initial.run log).appliedEntry p = none ∧
        ((initial.run log).applyProposal p).1 = initial.run log) ∨
      ∃ entry brokerCommand, (initial.run log).appliedEntry p = some entry ∧
        entry.identity = identity ∧ entry.command = command ∧
        command.toBrokerCommand = .ok brokerCommand ∧
        ((initial.run log).applyProposal p).1.broker =
          ((initial.run log).broker.apply brokerCommand).1 ∧
        ((initial.run log).applyProposal p).2 = .ok entry.response

/-- **Exactly once.** -/
theorem exactly_once (log : List ReplicatedBrokerProposalV1) : ExactlyOnce log where
  once := applied_nodup (accounted log).increasing
  increasing := (accounted log).increasing
  epochs := by
    rintro before after rfl session record hrecord
    have hrun : initial.run (before ++ after) = (initial.run before).run after :=
      Run.final_append applyProposal initial before after
    rw [hrun]
    exact run_epoch_le _ after hrecord
  owner := (ownersNamed log).unique
  retry := by
    intro entry hentry hlast hepoch p command hparts hsame
    obtain ⟨_, hvalid⟩ := (accounted log).valid entry hentry
    refine applyProposal_of_checkSession_error hparts ?_
      ((accounted log).retry hentry hlast hepoch hsame)
    rintro session expected owner rfl
    exact ne_acquisition_of_valid hvalid session expected owner
      (ReplicatedBrokerCommandV1.eq_of_sameIdentifiedRequest_acquisition hsame)
  refused := by
    intro p identity command response hparts hcheck
    refine (applyProposal_step _ p).unchanged hparts ?_
    simp only [appliedEntry, hparts, hcheck]
  acquisition := fun p _ _ _ hcommand => (applyProposal_step _ p).broker_eq hcommand
  reached := by
    intro p identity command hparts
    cases hentry : (initial.run log).appliedEntry p with
    | none => exact Or.inl ⟨rfl, (applyProposal_step _ p).unchanged hparts hentry⟩
    | some entry =>
      obtain ⟨brokerCommand, hvalid, happly⟩ := applyProposal_of_appliedEntry hentry
      obtain ⟨_, hparts', -⟩ := appliedEntry_eq_some hentry
      rw [hparts] at hparts'
      cases hparts'
      exact Or.inr ⟨entry, brokerCommand, rfl, rfl, rfl, hvalid, by rw [happly]; rfl,
        by rw [happly]⟩

end SessionedBroker

end AgentBroker
