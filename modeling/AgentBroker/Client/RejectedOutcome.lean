import AgentBroker.Client.OwnershipView

/-!
# Rejected commands

A client that releases a command because its answer says `REJECTED` counts on the
command never having been applied, nor being applied later.

Two things can break this.  A full queue rejects an attempt while an earlier attempt of
the same command is still on its way or already applied.  And another client can take
over the session after the command was applied and before its outcome was read: the
retry then meets the new owner's record.  `unambiguous` excludes both; every other
rejection is final, because it comes from the session record, which only grows.

## The invariant

`Sound` adds to what a client knows in every run (`Informed`) what holds while the events are
unambiguous: nothing was applied under an ownership that is not confirmed yet, what was applied
under the confirmed one is no later than the next sequence (`Outcomes`), and whatever was
answered or released is settled for good (`Settled`).  The heart of it is `Dead`: a reservation
that was not applied, of which every attempt still on its way is one the record has seen.

## Main results

* `step_sound` — the invariant of the client, its messages and the session record.
* `rejected_never_applied` — in a run without such steps, `REJECTED` means never
  applied.
* `rejected_but_applied` — a run with such a step breaks it.
-/

namespace AgentBroker

open SessionedBroker DurableClientSessionStore
open List Option

namespace DurableSession

variable {own : SessionOwnerInstanceId → Bool} {s s' : DurableSession}

/-! ## The invariant -/

/-- The reservation was not applied, and no attempt of it can be. -/
structure Dead (s : DurableSession) (reservation : Nat) : Prop where
  notApplied : reservation ∉ s.applied
  covered : ∀ number reserved stage,
    (⟨number, .mutation reservation reserved⟩, stage) ∈ s.outstanding →
      s.Covered reserved.identity

/-- The record holds the outcome of the command. -/
def Stored (s : DurableSession) (reserved : ReservedCommand) : Prop :=
  ∃ policy observedAtMs command response,
    reserved.request.dispatchIdentified policy observedAtMs = .ok command ∧
      response.isRejection = false ∧
      s.record = some ⟨reserved.identity.ownerEpoch, reserved.identity.ownerInstanceId,
        some ⟨reserved.identity.sequence, .ofBrokerCommand command, response⟩⟩

/-- What was applied in the name of the client. -/
structure Outcomes (own : SessionOwnerInstanceId → Bool) (s : DurableSession) : Prop where
  /-- Under an ownership that is not confirmed yet nothing was applied. -/
  fresh : ∀ record owner, s.record = some record → record.ownerInstanceId = some owner →
    own owner = true →
    (∀ confirmed, s.store.state.owner = some confirmed →
      confirmed.ownerEpoch < record.ownerEpoch) →
    record.lastOutcome = none
  /-- Under the confirmed one, what was applied is no later than the next sequence. -/
  outcome : ∀ record owner, s.record = some record → s.store.state.owner = some owner →
    record.ownerEpoch = owner.ownerEpoch →
    (∀ outcome, record.lastOutcome = some outcome →
      outcome.sequence ≤ s.store.state.nextSequence) ∧
    (s.store.state.nextSequence.get ≠ 1 → record.lastOutcome ≠ none)

/-- What the answers and the released commands stand for. -/
structure Settled (s : DurableSession) : Prop where
  definitive : ∀ number reservation reserved answer,
    s.awaiting = some ⟨number, .mutation reservation reserved⟩ →
    (⟨number, .mutation reservation reserved⟩, answer) ∈ s.answers →
    (∀ error, answer = .failed error → error.disposition = .committed) →
    s.Covered reserved.identity
  rejected : ∀ number reservation reserved error,
    s.awaiting = some ⟨number, .mutation reservation reserved⟩ →
    (⟨number, .mutation reservation reserved⟩, Answer.failed error) ∈ s.answers →
    error.disposition = .rejected → s.Dead reservation
  released : ∀ reservation ∈ s.released, s.Dead reservation
  inFlight : ∀ reserved, s.store.inFlight = some reserved → s.reservations ∈ s.applied →
    s.Stored reserved

/-- The invariant of a run. -/
structure Sound (own : SessionOwnerInstanceId → Bool) (s : DurableSession) : Prop where
  informed : s.Informed own
  outcomes : s.Outcomes own
  settled : s.Settled

/-! ## The condition -/

/-- The proposal gives the session of the command in flight to another owner although
that command was applied. -/
def overtakes (s : DurableSession) (p : ReplicatedBrokerProposalV1) : Bool :=
  s.reservations ∈ s.applied &&
    match s.store.inFlight, p.command with
    | some reserved, .acquireCommandSessionOwner session _ owner =>
      session = s.store.sessionId.asStr &&
        reserved.identity.ownerInstanceId.map SessionText.asStr ≠ some owner
    | _, _ => false

/-- No other attempt of the reservation is on its way, and it was not applied. -/
def alone (s : DurableSession) (attempt : Attempt) (reservation : Nat) : Bool :=
  reservation ∉ s.applied &&
    (s.outstanding.erase (attempt, .network)).all fun other =>
      other.1.message.reservation ≠ some reservation

/-- The two steps that can make a rejection wrong do not happen: a full queue answers the
attempt that the client waits for only if no other attempt of its command is on its way
and it was not applied, and nobody takes over the session of a command that was applied
and not yet acknowledged. -/
def unambiguous (s : DurableSession) : SessionEvent → Bool
  | .saturate attempt =>
    s.awaiting ≠ some attempt || attempt.message.reservation.all (s.alone attempt)
  | .commit _ proposal => !s.overtakes proposal
  | .foreign proposal => !s.overtakes proposal
  | _ => true

/-! ## A proposal is applied -/

/-- Commands in the name of the client are commands that it sent. -/
def Entering (own : SessionOwnerInstanceId → Bool) (s : DurableSession)
    (p : ReplicatedBrokerProposalV1) : Prop :=
  ∀ identity command owner, p.intoParts = .ok (some identity, command) →
    identity.sessionId = s.store.sessionId → identity.ownerInstanceId = some owner →
    own owner = true → s.store.state.Bounds identity

variable {identity : CommandIdentity} {p : ReplicatedBrokerProposalV1}
  {command : ReplicatedBrokerCommandV1} {reserved : ReservedCommand} {reservation number : Nat}
  {attempt : Attempt} {response : ReplicatedBrokerResponseV1} {store : DurableClientSessionStore}

/-- A command that is applied under the confirmed epoch is one of the client. -/
theorem Holdings.bounds_of_check (h : s.Holdings own) (hp : s.Entering own p)
    {owner : DurableSessionOwner} (hparts : p.intoParts = .ok (some identity, command))
    (hsession : identity.sessionId = s.store.sessionId)
    (hcheck : s.machine.checkSession identity command = .ok ())
    (howner : s.store.state.owner = some owner) (hepoch : identity.ownerEpoch = owner.ownerEpoch) :
    identity.sequence ≤ s.store.state.nextSequence := by
  obtain ⟨hown, record, hrecord, hnames⟩ := h.owner owner howner
  unfold DurableSession.record at hrecord
  rcases checkSession_ok hcheck with
    ⟨_, hrecord', hepoch', howner', -⟩ | ⟨hnone, -⟩
  · rw [hsession, hrecord] at hrecord'
    cases hrecord'
    rcases hnames with hlt | ⟨-, hinstance⟩
    · exact absurd (hepoch.symm.trans hepoch') (ne_of_lt hlt)
    · obtain ⟨confirmed, hconfirmed, hbound⟩ :=
        hp identity command _ hparts hsession (howner'.trans hinstance) hown
      rw [howner] at hconfirmed
      cases hconfirmed
      rcases hbound with hlt | ⟨-, hle⟩
      · exact absurd hepoch (ne_of_lt hlt)
      · exact hle
  · rw [hsession, hrecord] at hnone
    cases hnone

/-- Applying a proposal keeps the client's view of what was applied right. -/
theorem Outcomes.applyTo (h : s.Outcomes own) (hheld : s.Holdings own) (hp : s.Entering own p) :
    (s.applyTo p).Outcomes own where
  fresh := by
    intro record owner hrecord howner hown hlater
    have hstep := recordStep_applyTo s p
    rw [hrecord] at hstep
    generalize hafter : some record = after at hstep
    cases hstep with
    | kept => exact h.fresh record owner hafter.symm howner hown hlater
    -- A command of this client is bounded by the owner it has confirmed.
    | applied parts same =>
      cases hafter
      obtain ⟨confirmed, hconfirmed, hbound⟩ := hp _ _ owner parts same howner hown
      have hlt := hlater confirmed hconfirmed
      rcases hbound with hbound | ⟨hbound, -⟩
      · exact absurd (hlt.trans hbound) (lt_irrefl _)
      · exact absurd hbound.symm (ne_of_lt hlt)
    | acquired =>
      cases hafter
      rfl
  outcome := by
    intro record owner hrecord howner hepoch
    have hstep := recordStep_applyTo s p
    rw [hrecord] at hstep
    generalize hafter : some record = after at hstep
    cases hstep with
    | kept => exact h.outcome record owner hafter.symm howner hepoch
    | applied parts same check =>
      cases hafter
      refine ⟨fun outcome houtcome => ?_, fun _ => some_ne_none _⟩
      cases houtcome
      exact hheld.bounds_of_check hp parts same check howner hepoch
    | acquired _ later =>
      cases hafter
      obtain ⟨-, old, hold, hnames⟩ := hheld.owner owner howner
      exact absurd hepoch.symm
        (ne_of_lt (lt_of_le_of_lt hnames.epoch_le (later old hold).2.1))

/-- The outcome of the command in flight stays on record while nobody overtakes it. -/
theorem Stored.applyTo (h : s.Stored reserved) (hheld : s.Holdings own) (hp : s.Entering own p)
    (hinFlight : s.store.inFlight = some reserved) (happlied : s.reservations ∈ s.applied)
    (hovertakes : s.overtakes p = false) : (s.applyTo p).Stored reserved := by
  obtain ⟨policy, observedAtMs, command, response, hdispatch, hresponse, hrecord⟩ := h
  refine ⟨policy, observedAtMs, command, response, hdispatch, hresponse, ?_⟩
  obtain ⟨owner, howner, hidentity⟩ := s.store.inFlight_owner hinFlight
  have hstep := recordStep_applyTo s p
  generalize (s.applyTo p).record = after at hstep
  cases hstep with
  | kept => exact hrecord
  | applied parts same check =>
    exfalso
    unfold DurableSession.record at hrecord
    rcases checkSession_ok check with
      ⟨_, hrecord', hepoch', -, hlater⟩ | ⟨hnone, -⟩
    · rw [same, hrecord] at hrecord'
      cases hrecord'
      have hle := hheld.bounds_of_check hp parts same check howner
        (hepoch'.trans (by rw [hidentity]))
      have hlt := hlater _ rfl
      rw [hidentity] at hlt
      exact absurd hlt (not_lt.mpr hle)
    · rw [same, hrecord] at hnone
      cases hnone
  | @acquired _ _ owner' parts later =>
    exfalso
    have hother : reserved.identity.ownerInstanceId.map SessionText.asStr ≠
        some owner'.asStr := by
      intro hsame
      rw [hidentity] at hsame
      have hinstance : owner.ownerInstanceId = owner' :=
        SessionText.asStr_injective (Option.some.inj hsame)
      exact (later _ hrecord).2.2 (by rw [hidentity, ← hinstance])
    simp [overtakes, happlied, hinFlight, p.command_of_intoParts parts, hother] at hovertakes

/-! ## An attempt of the client is applied -/

theorem entering_of_found (h : s.Traffic own)
    (hfound : (attempt, Stage.consensus p) ∈ s.outstanding) :
    s.Entering own p := by
  intro identity command owner hparts _ _ _
  obtain ⟨policy, observedAtMs, hproposal⟩ := h.proposals attempt p hfound
  obtain ⟨number, message⟩ := attempt
  cases message with
  | acquisition =>
    cases hproposal
    rw [ReplicatedBrokerProposalV1.intoParts_legacy] at hparts
    cases hparts
  | mutation reservation reserved =>
    obtain ⟨_, -, hparts'⟩ := proposal_mutation hproposal
    rw [hparts] at hparts'
    cases hparts'
    exact (h.mutation number reservation reserved _ hfound).bounds

theorem entering_of_foreign (h : speaksFor own s.store.sessionId p = false) : s.Entering own p := by
  intro identity command owner hparts hsession howner hown
  simp [speaksFor, hparts, hsession, howner, hown] at h

/-- A reservation that cannot be applied any more is not applied. -/
theorem Dead.commit (h : s.Dead reservation) (htraffic : s.Traffic own)
    (hfound : (attempt, Stage.consensus p) ∈ s.outstanding) :
    (s.commit attempt p).Dead reservation where
  notApplied := by
    intro happlied
    refine h.notApplied (htraffic.not_applied hfound (fun number reserved hattempt => ?_) happlied)
    exact h.covered number reserved _ (hattempt ▸ hfound)
  covered := fun number reserved stage hmem =>
    (h.covered number reserved stage (mem_of_mem_erase hmem)).applyTo p

/-- Fewer messages on their way, and a later record, cannot revive a command. -/
theorem Dead.mono (h : s.Dead reservation) (happlied : s'.applied = s.applied)
    (houtstanding : ∀ attempt stage, (attempt, stage) ∈ s'.outstanding →
      ∃ stage', (attempt, stage') ∈ s.outstanding)
    (hcovered : ∀ identity, s.Covered identity → s'.Covered identity) : s'.Dead reservation where
  notApplied := happlied ▸ h.notApplied
  covered := by
    intro number reserved stage hmem
    obtain ⟨stage', hold⟩ := houtstanding _ stage hmem
    exact hcovered _ (h.covered number reserved stage' hold)

/-- What applying an identified command does. -/
theorem applyProposal_identified_cases (m : SessionedBroker) {command : BrokerCommand}
    (hparts : p.intoParts = .ok (some identity, .ofBrokerCommand command)) :
    (∃ response, m.checkSession identity (.ofBrokerCommand command) = .error response ∧
      m.applyProposal p = (m, .ok response) ∧ m.appliedEntry p = none) ∨
    (m.checkSession identity (.ofBrokerCommand command) = .ok () ∧
      m.applyProposal p =
        (m.recorded identity (.ofBrokerCommand command) command (m.applicationResponse command),
          .ok (m.applicationResponse command))) := by
  have hvalid := ReplicatedBrokerCommandV1.toBrokerCommand_ofBrokerCommand command
  cases hcheck : m.checkSession identity (.ofBrokerCommand command) with
  | error response =>
    refine Or.inl ⟨response, rfl, ?_, ?_⟩
    · exact applyProposal_of_checkSession_error hparts
        (ne_acquisition_of_valid hvalid) hcheck
    · simp only [SessionedBroker.appliedEntry, hparts, hcheck]
  | ok u =>
    refine Or.inr ⟨rfl, ?_⟩
    obtain ⟨_, hvalid', happly⟩ := applyProposal_of_appliedEntry
      (appliedEntry_of_applied hparts hcheck hvalid)
    rw [hvalid] at hvalid'
    cases hvalid'
    exact happly

/-- A rejection of the command in flight shows that the record has seen it. -/
theorem covered_of_rejection (h : s.Informed own) (houtcomes : s.Outcomes own)
    (hinFlight : s.store.inFlight = some reserved)
    (hcheck : s.machine.checkSession reserved.identity command = .error response) :
    s.Covered reserved.identity := by
  obtain ⟨owner, howner, hidentity⟩ := s.store.inFlight_owner hinFlight
  obtain ⟨-, record, hrecord, hnames⟩ := h.holdings.owner owner howner
  have hget : s.machine.commandSessions.get reserved.identity.sessionId = some record := by
    rw [hidentity]
    exact hrecord
  rw [checkSession_of_record hget] at hcheck
  refine ⟨record, hrecord, ?_⟩
  have hfound := SessionedBroker.recordCheck record reserved.identity command
  rw [hcheck] at hfound
  cases hfound with
  | repeated epoch found same => exact Or.inr ⟨epoch, _, found, le_of_eq same⟩
  | refused _ reason =>
    rw [hidentity] at reason ⊢
    rcases hnames with hlt | ⟨hepoch, hinstance⟩
    · exact Or.inl hlt
    · rcases reason with hother | hother | ⟨outcome, houtcome, hle⟩ | ⟨hnone, hnext⟩
      · exact absurd hepoch hother
      · exact absurd hinstance.symm hother
      · exact Or.inr ⟨hepoch, outcome, houtcome, hle⟩
      · exact absurd hnone ((houtcomes.outcome record owner hrecord howner hepoch.symm).2 hnext)

/-- A command whose outcome is on record is answered with it. -/
theorem Stored.check (h : s.Stored reserved)
    (hsession : reserved.identity.sessionId = s.store.sessionId) {policy : BrokerCapacityPolicy}
    {observedAtMs : TimestampMs} {command : BrokerCommand}
    (hdispatch : reserved.request.dispatchIdentified policy observedAtMs = .ok command)
    (hcheck : s.machine.checkSession reserved.identity (.ofBrokerCommand command) =
      .error response) : response.isRejection = false := by
  obtain ⟨policy', observedAtMs', command', response', hdispatch', hresponse, hrecord⟩ := h
  unfold DurableSession.record at hrecord
  rw [← hsession] at hrecord
  have hretry := checkSession_retry hrecord rfl
    (BrokerRequest.dispatchIdentified_same hdispatch hdispatch')
  rw [hcheck] at hretry
  cases hretry
  exact hresponse

theorem record_of_recorded (s : DurableSession) (hsession : identity.sessionId = s.store.sessionId)
    {brokerCommand : BrokerCommand}
    (happly : (s.machine.applyProposal p).1 =
      s.machine.recorded identity command brokerCommand response) :
    (s.applyTo p).record = some ⟨identity.ownerEpoch, identity.ownerInstanceId,
      some ⟨identity.sequence, command, response⟩⟩ := by
  show (s.machine.applyProposal p).1.commandSessions.get s.store.sessionId = _
  rw [happly, commandSessions_recorded, ← hsession, OrdMap.get_insert_self]

theorem isRejection_of_mutationAnswer {error : BrokerError}
    (h : mutationAnswer response = .failed error) (herror : error.disposition = .rejected) :
    response.isRejection = true := by
  cases response with
  | raftControl | sessionOwnerAcquired =>
    cases h
    cases herror
  | success => cases h
  | applicationError =>
    cases h
    exact decide_eq_true herror

/-- The awaited command is the one in flight: while no attempt of it is rejected wrongly,
an answer of the state machine settles it. -/
theorem Settled.commit (h : s.Settled) (hinformed : s.Informed own) (houtcomes : s.Outcomes own)
    (hfound : (attempt, Stage.consensus p) ∈ s.outstanding) (hovertakes : s.overtakes p = false) :
    (s.commit attempt p).Settled := by
  obtain ⟨policy, observedAtMs, hproposal⟩ := hinformed.traffic.proposals attempt p hfound
  refine ⟨?_, ?_, fun reservation hmem => (h.released reservation hmem).commit hinformed.traffic hfound, ?_⟩
  · intro number reservation reserved answer hawaiting hmem hdefinitive
    rcases mem_answers_commit hmem with hold | ⟨response, rfl, -, -⟩
    · exact (h.definitive number reservation reserved answer hawaiting hold hdefinitive).applyTo p
    · obtain ⟨-, hinFlight⟩ := hinformed.traffic.awaited _ hawaiting
      have hsession := (hinformed.traffic.mutation number reservation reserved _ hfound).session
      obtain ⟨command, -, hparts⟩ := proposal_mutation hproposal
      rcases applyProposal_identified_cases s.machine hparts with
        ⟨_, hcheck, -, -⟩ | ⟨-, happly⟩
      · exact (covered_of_rejection hinformed houtcomes hinFlight hcheck).applyTo p
      · exact ⟨_, record_of_recorded s hsession (congrArg Prod.fst happly),
          Or.inr ⟨rfl, _, rfl, le_rfl⟩⟩
  · intro number reservation reserved error hawaiting hmem hrejected
    rcases mem_answers_commit hmem with hold | ⟨response, rfl, hresponse, hanswer⟩
    · exact (h.rejected number reservation reserved error hawaiting hold hrejected).commit
        hinformed.traffic hfound
    · obtain ⟨hcurrent, hinFlight⟩ := hinformed.traffic.awaited _ hawaiting
      have hrejection := isRejection_of_mutationAnswer hanswer.symm hrejected
      obtain ⟨command, hdispatch, hparts⟩ := proposal_mutation hproposal
      -- Only the check of the session rejects; an application never answers with a rejection.
      rcases applyProposal_identified_cases s.machine hparts with
        ⟨response', hcheck, happly, -⟩ | ⟨-, happly⟩
      · rw [happly] at hresponse
        cases hresponse
        refine Dead.commit ⟨fun happlied => ?_, fun number' other stage hother => ?_⟩ hinformed.traffic
          hfound
        · -- An applied command would have been answered from the record.
          have hstored := h.inFlight reserved hinFlight (hcurrent ▸ happlied)
          have hnot := hstored.check
            (hinformed.traffic.mutation number reservation reserved _ hfound).session hdispatch hcheck
          rw [hrejection] at hnot
          cases hnot
        · obtain rfl := (hinformed.traffic.mutation number' reservation other stage hother).current
            reserved hinFlight hcurrent
          exact covered_of_rejection hinformed houtcomes hinFlight hcheck
      · rw [happly] at hresponse
        cases hresponse
        rw [SessionedBroker.applicationResponse,
          ReplicatedBrokerResponseV1.isRejection_fromApplicationResult] at hrejection
        cases hrejection
  · intro reserved (hinFlight : s.store.inFlight = some reserved)
      (happlied : s.reservations ∈ (s.commit attempt p).applied)
    rcases mem_applied_commit happlied with hold | ⟨other, entry, hmessage, hentry⟩
    · exact (h.inFlight reserved hinFlight hold).applyTo hinformed.holdings
        (entering_of_found hinformed.traffic hfound) hinFlight hold hovertakes
    · obtain ⟨number, message⟩ := attempt
      subst hmessage
      have hsent := hinformed.traffic.mutation number _ other _ hfound
      obtain rfl := hsent.current reserved hinFlight rfl
      obtain ⟨command, hdispatch, hparts⟩ := proposal_mutation hproposal
      rcases applyProposal_identified_cases s.machine hparts with
        ⟨_, -, -, hnone⟩ | ⟨-, happly⟩
      · rw [hentry] at hnone
        cases hnone
      · exact ⟨policy, observedAtMs, command, _, hdispatch,
          ReplicatedBrokerResponseV1.isRejection_fromApplicationResult _,
          record_of_recorded s hsent.session (congrArg Prod.fst happly)⟩

theorem Sound.commit (h : s.Sound own) (hfound : (attempt, Stage.consensus p) ∈ s.outstanding)
    (hovertakes : s.overtakes p = false) : (s.commit attempt p).Sound own := by
  have houtcomes := h.outcomes.applyTo h.informed.holdings
    (entering_of_found h.informed.traffic hfound)
  exact ⟨h.informed.commit hfound, ⟨houtcomes.fresh, houtcomes.outcome⟩,
    h.settled.commit h.informed h.outcomes hfound hovertakes⟩

/-! ## The other events -/

/-- A proposal of another client. -/
theorem Sound.foreign (h : s.Sound own) (hother : speaksFor own s.store.sessionId p = false)
    (hovertakes : s.overtakes p = false) :
    (s.applyTo p).Sound own where
  informed := h.informed.foreign p
  outcomes := h.outcomes.applyTo h.informed.holdings (entering_of_foreign hother)
  settled := by
    have hdead : ∀ reservation, s.Dead reservation → (s.applyTo p).Dead reservation :=
      fun _ hdead => hdead.mono rfl (fun _ stage hmem => ⟨stage, hmem⟩)
        fun _ hcovered => hcovered.applyTo p
    refine ⟨?_, ?_, fun reservation hmem => hdead reservation (h.settled.released _ hmem), ?_⟩
    · intro number reservation reserved answer hawaiting hmem hdefinitive
      exact (h.settled.definitive number reservation reserved answer hawaiting hmem
        hdefinitive).applyTo p
    · intro number reservation reserved error hawaiting hmem hrejected
      exact hdead reservation
        (h.settled.rejected number reservation reserved error hawaiting hmem hrejected)
    · intro reserved hinFlight happlied
      exact (h.settled.inFlight reserved hinFlight happlied).applyTo h.informed.holdings
        (entering_of_foreign hother) hinFlight happlied hovertakes

/-- Attempts move on, are lost, or are answered with a failure: what was settled stays so, if
a rejection among the new answers is right. -/
theorem Settled.frame (h : s.Settled) {outstanding : List (Attempt × Stage)}
    {answers : List (Attempt × Answer)}
    (houtstanding : ∀ attempt stage, (attempt, stage) ∈ outstanding →
      ∃ stage', (attempt, stage') ∈ s.outstanding)
    (hanswers : ∀ attempt answer, (attempt, answer) ∈ answers → (attempt, answer) ∈ s.answers ∨
      ∃ error, answer = .failed error ∧ error.disposition ≠ .committed ∧
        (error.disposition = .rejected → ∀ number reservation reserved,
          s.awaiting = some ⟨number, .mutation reservation reserved⟩ →
          attempt = ⟨number, .mutation reservation reserved⟩ →
          Dead { s with outstanding := outstanding, answers := answers } reservation)) :
    Settled { s with outstanding := outstanding, answers := answers } := by
  have hdead : ∀ reservation, s.Dead reservation →
      Dead { s with outstanding := outstanding, answers := answers } reservation :=
    fun _ hdead => hdead.mono rfl houtstanding fun _ hcovered => hcovered
  refine ⟨?_, ?_, fun reservation hmem => hdead reservation (h.released _ hmem), h.inFlight⟩
  · intro number reservation reserved answer hawaiting hmem hdefinitive
    rcases hanswers _ _ hmem with hold | ⟨error, hanswer, hopen, -⟩
    · exact h.definitive number reservation reserved answer hawaiting hold hdefinitive
    · exact absurd (hdefinitive error hanswer) hopen
  · intro number reservation reserved error hawaiting hmem hrejected
    rcases hanswers _ _ hmem with hold | ⟨_, hanswer, -, hright⟩
    · exact hdead reservation
        (h.rejected number reservation reserved error hawaiting hold hrejected)
    · cases hanswer
      exact hright hrejected number reservation reserved hawaiting rfl

/-- Attempts move on. -/
theorem Sound.moved (h : s.Sound own) {outstanding : List (Attempt × Stage)}
    {answers : List (Attempt × Answer)} (hmoves : s.Moves outstanding answers) :
    Sound own { s with outstanding := outstanding, answers := answers } where
  informed := h.informed.moved hmoves
  outcomes := ⟨h.outcomes.fresh, h.outcomes.outcome⟩
  settled := by
    refine h.settled.frame hmoves.attempts fun attempt answer hmem => ?_
    refine (hmoves.answered attempt answer hmem).imp_right ?_
    rintro ⟨_, error, -, hanswer, hunknown⟩
    refine ⟨error, hanswer, ?_, fun hrejected => ?_⟩
    · rw [hunknown]
      exact nofun
    · rw [hunknown] at hrejected
      cases hrejected

/-- The server reads a frame while its queue is full. -/
theorem Sound.saturated (h : s.Sound own) (hfound : (attempt, Stage.network) ∈ s.outstanding)
    (hunambiguous : s.unambiguous (.saturate attempt) = true) :
    Sound own { s with
      outstanding := s.outstanding.erase (attempt, .network)
      answers := (attempt, .failed DurableSession.saturated) :: s.answers } where
  informed := h.informed.saturated hfound
  outcomes := ⟨h.outcomes.fresh, h.outcomes.outcome⟩
  settled := by
    refine h.settled.frame (fun _ stage hmem => ⟨stage, mem_of_mem_erase hmem⟩)
      fun other answer hmem => ?_
    rcases mem_cons.mp hmem with heq | hold
    · cases heq
      refine Or.inr ⟨_, rfl, nofun, fun _ number reservation reserved hawaiting hattempt => ?_⟩
      subst hattempt
      simp only [unambiguous, hawaiting, ne_eq, not_true_eq_false, decide_false,
        Bool.false_or, Message.reservation, all_some, alone, Bool.and_eq_true,
        decide_eq_true_eq, List.all_eq_true] at hunambiguous
      exact ⟨hunambiguous.1, fun number' other stage hother =>
        absurd rfl (of_decide_eq_true (hunambiguous.2 _ hother))⟩
    · exact Or.inl hold

/-- The client stops waiting. -/
theorem Sound.gaveUp (h : s.Sound own) : Sound own { s with awaiting := none } where
  informed := h.informed.gaveUp
  outcomes := ⟨h.outcomes.fresh, h.outcomes.outcome⟩
  settled :=
    { definitive := fun _ _ _ _ hawaiting => nomatch hawaiting
      rejected := fun _ _ _ _ hawaiting => nomatch hawaiting
      released := fun reservation hmem => (h.settled.released reservation hmem).mono rfl
        (fun _ stage hmem => ⟨stage, hmem⟩) fun _ hcovered => hcovered
      inFlight := h.settled.inFlight }

/-- **What is settled stays so while the store moves on**: what the store releases is dead. -/
theorem StoreStep.settled (hstep : StoreStep own s s') (h : s.Sound own)
    (hreleased : ∀ reservation ∈ s'.released, reservation ∈ s.released ∨ s.Dead reservation) :
    s'.Settled where
  definitive _ _ _ _ hawaiting := nomatch hstep.awaiting.symm.trans hawaiting
  rejected _ _ _ _ hawaiting := nomatch hstep.awaiting.symm.trans hawaiting
  released := by
    intro reservation hmem
    have hdead : s.Dead reservation :=
      (hreleased reservation hmem).elim (h.settled.released reservation) id
    exact hdead.mono hstep.applied (fun _ stage hmem => ⟨stage, hstep.outstanding ▸ hmem⟩)
      fun _ hcovered => hcovered.congr hstep.record
  inFlight := by
    intro reserved hinFlight happlied
    have hnew := hstep.inFlight (hinFlight ▸ some_ne_none _)
    rw [hstep.applied] at happlied
    have hle := h.informed.traffic.applied _ happlied
    omega

theorem StoreStep.sound (hstep : StoreStep own s s') (h : s.Sound own) (houtcomes : s'.Outcomes own)
    (hreleased : ∀ reservation ∈ s'.released, reservation ∈ s.released ∨ s.Dead reservation) :
    s'.Sound own :=
  ⟨hstep.informed h.informed, houtcomes, hstep.settled h hreleased⟩

theorem Outcomes.congr (h : s.Outcomes own) (hstep : StoreStep own s s')
    (howner : s'.store.state.owner = s.store.state.owner)
    (hnext : s'.store.state.nextSequence = s.store.state.nextSequence) : s'.Outcomes own := by
  refine ⟨?_, ?_⟩
  · rw [hstep.record, howner]
    exact h.fresh
  · rw [hstep.record, howner, hnext]
    exact h.outcome

/-- The client begins an acquisition. -/
theorem Sound.began (h : s.Sound own) {ownerInstanceId : SessionOwnerInstanceId}
    (hown : own ownerInstanceId = true)
    (hok : s.store.beginOwnerAcquisition ownerInstanceId = .ok store) :
    Sound own { s with store := store } := by
  obtain ⟨-, -, -, hstate⟩ := beginOwnerAcquisition_ok hok
  have hstep := h.informed.began hown hok
  exact hstep.sound h (h.outcomes.congr hstep (by rw [hstate]) (by rw [hstate]))
    fun _ hmem => Or.inl hmem

/-- The client reserves a command. -/
theorem Sound.of_reserved (h : s.Sound own) {request : BrokerRequest}
    (hok : s.store.reserveCommand request = .ok store) :
    Sound own { s with store := store, reservations := s.reservations + 1 } := by
  obtain ⟨_, -, -, -, -, hstate⟩ := reserveCommand_ok hok
  have hstep := h.informed.of_reserved hok
  exact hstep.sound h (h.outcomes.congr hstep (by rw [hstate]) (by rw [hstate]))
    fun _ hmem => Or.inl hmem

/-- The Broker confirmed an acquisition. -/
theorem Sound.confirmed (h : s.Sound own) {pending : PendingOwnerAcquisition}
    {epoch : SessionOwnerEpoch} (hawaiting : s.awaiting = some ⟨number, .acquisition pending⟩)
    (hanswered : (⟨number, .acquisition pending⟩, .acquired epoch) ∈ s.answers)
    (hok : s.store.confirmOwnerAcquisition epoch = .ok store) :
    Sound own { s with store := store, awaiting := none } := by
  have hstep := h.informed.confirmed hawaiting hanswered hok
  obtain ⟨hown, ⟨current, hcurrent, hnames⟩, hlater, -, hstate⟩ :=
    h.informed.confirmed_epoch hawaiting hanswered hok
  have howner : store.state.owner = some ⟨epoch, pending.ownerInstanceId⟩ := by rw [hstate]
  refine hstep.sound h ⟨?_, ?_⟩ fun _ hmem => Or.inl hmem
  · intro found owner hfound hfoundOwner hfoundOwn hfoundLater
    rw [hstep.record] at hfound
    refine h.outcomes.fresh found owner hfound hfoundOwner hfoundOwn fun old hold => ?_
    exact (hlater old hold).trans (hfoundLater _ howner)
  · intro found owner hfound (howner' : store.state.owner = some owner) hfoundEpoch
    rw [howner] at howner'
    cases howner'
    rw [hstep.record, hcurrent] at hfound
    cases hfound
    -- Nothing was applied under an ownership that is confirmed only now.
    have hfresh : current.lastOutcome = none := by
      rcases hnames with hlt | ⟨-, hfoundOwner⟩
      · exact absurd hfoundEpoch.symm (ne_of_lt hlt)
      · exact h.outcomes.fresh current _ hcurrent hfoundOwner hown fun old hold =>
          hfoundEpoch ▸ hlater old hold
    have hnext : store.state.nextSequence = .initial := by rw [hstate]
    refine ⟨fun outcome houtcome => ?_, fun hne => absurd (congrArg SessionCounter.get hnext) hne⟩
    rw [hfresh] at houtcome
    cases houtcome

/-- A definitive outcome is acknowledged. -/
theorem Sound.acknowledged (h : s.Sound own) {answer : Answer}
    (hawaiting : s.awaiting = some ⟨number, .mutation reservation reserved⟩)
    (hanswered : (⟨number, .mutation reservation reserved⟩, answer) ∈ s.answers)
    (hdefinitive : ∀ error, answer = .failed error → error.disposition = .committed)
    (hok : s.store.acknowledgeInFlightOutcome reserved.identity = .ok store) :
    Sound own { s with store := store, awaiting := none } := by
  obtain ⟨hstep, hlt⟩ := h.informed.acknowledged hawaiting hok
  obtain ⟨-, hinFlight⟩ := h.informed.traffic.awaited _ hawaiting
  obtain ⟨confirmed, hconfirmed, hidentity⟩ := s.store.inFlight_owner hinFlight
  obtain ⟨_, -, -, hstate⟩ := acknowledgeInFlightOutcome_ok hok
  have howner : store.state.owner = s.store.state.owner := by rw [hstate]
  refine hstep.sound h ⟨?_, ?_⟩ fun _ hmem => Or.inl hmem
  · rw [hstep.record]
    intro found owner hfound hfoundOwner hfoundOwn hfoundLater
    exact h.outcomes.fresh found owner hfound hfoundOwner hfoundOwn fun confirmed' hconfirmed' =>
      hfoundLater confirmed' (howner.trans hconfirmed')
  · rw [hstep.record]
    intro found owner hfound (howner' : store.state.owner = some owner) hfoundEpoch
    rw [howner, hconfirmed] at howner'
    cases howner'
    refine ⟨fun outcome houtcome => ?_, fun _ => ?_⟩
    · have hle := (h.outcomes.outcome found confirmed hfound hconfirmed hfoundEpoch).1
        outcome houtcome
      exact hle.trans (le_of_lt hlt)
    · obtain ⟨record, hfound', hcovers⟩ := h.settled.definitive number reservation reserved answer
        hawaiting hanswered hdefinitive
      rw [hfound] at hfound'
      cases hfound'
      rw [hidentity] at hcovers
      rcases hcovers with hlater | ⟨-, outcome, houtcome, -⟩
      · exact absurd hfoundEpoch.symm (ne_of_lt hlater)
      · rw [houtcome]
        exact some_ne_none _

/-- A rejected command is released. -/
theorem Sound.released (h : s.Sound own) {error : BrokerError}
    (hawaiting : s.awaiting = some ⟨number, .mutation reservation reserved⟩)
    (hanswered : (⟨number, .mutation reservation reserved⟩, Answer.failed error) ∈ s.answers)
    (hrejected : error.disposition = .rejected)
    (hok : s.store.releaseRejectedInFlight reserved.identity = .ok store) :
    Sound own
      { s with store := store, awaiting := none, released := reservation :: s.released } := by
  obtain ⟨-, hstate⟩ := releaseRejectedInFlight_ok hok
  have hstep := h.informed.released hawaiting hok
  have hdead := h.settled.rejected number reservation reserved error hawaiting hanswered hrejected
  refine hstep.sound h (h.outcomes.congr hstep (by rw [hstate]) (by rw [hstate])) fun _ hmem => ?_
  rcases mem_cons.mp hmem with rfl | hold
  · exact Or.inr hdead
  · exact Or.inl hold

/-- The client sends a message. -/
theorem Sound.sendMessage (h : s.Sound own) {message : Message}
    (hawaited : Awaited s.store s.reservations message) :
    (s.sendMessage message).Sound own where
  informed := h.informed.sendMessage hawaited
  outcomes := ⟨h.outcomes.fresh, h.outcomes.outcome⟩
  settled := by
    -- The attempt is new, so no answer to it exists yet.
    have hnew : ∀ number message' answer,
        (s.sendMessage message).awaiting = some ⟨number, message'⟩ →
          (⟨number, message'⟩, answer) ∉ s.answers := by
      intro number message' answer hawaiting hmem
      cases hawaiting
      exact lt_irrefl _ (h.informed.traffic.answered _ answer hmem)
    refine ⟨?_, ?_, ?_, h.settled.inFlight⟩
    · intro number reservation reserved answer hawaiting hmem
      exact absurd hmem (hnew number _ answer hawaiting)
    · intro number reservation reserved error hawaiting hmem
      exact absurd hmem (hnew number _ _ hawaiting)
    · intro reservation hmem
      have hdead := h.settled.released reservation hmem
      refine ⟨hdead.notApplied, fun number reserved stage hout => ?_⟩
      rcases mem_cons.mp hout with heq | hold
      · cases heq
        exact absurd hawaited.2 (by
          rw [(h.informed.traffic.released reservation hmem).2 hawaited.1]
          exact (some_ne_none _).symm)
      · exact hdead.covered number reserved stage hold

/-! ## Runs -/

/-- **The invariant is kept by every unambiguous event.** -/
theorem step_sound (h : s.Sound own) {event : SessionEvent} (hevent : s.unambiguous event = true) :
    (step own s event).Sound own := by
  have hstep := step_step own s event
  generalize step own s event = after at hstep
  cases hstep with
  | idle => exact h
  | began isOwn ok => exact h.began isOwn ok
  | asked free found => exact h.sendMessage found
  | reserved ok => exact h.of_reserved ok
  | sent free found => exact h.sendMessage ⟨rfl, found⟩
  | gaveUp => exact h.gaveUp
  | confirmed awaited answered ok => exact h.confirmed awaited answered ok
  | acknowledged awaited answered definitive ok =>
    exact h.acknowledged awaited answered definitive ok
  | released awaited answered rejected ok => exact h.released awaited answered rejected ok
  | moved _ moves => exact h.moved moves
  | saturated found => exact h.saturated found hevent
  | committed found => exact h.commit found (Bool.not_eq_true' _ ▸ hevent)
  | foreign other => exact h.foreign other (Bool.not_eq_true' _ ▸ hevent)

theorem initial_sound (own : SessionOwnerInstanceId → Bool) (maxResponseFrameBytes : Nat)
    (sessionId : CommandSessionId) : (initial maxResponseFrameBytes sessionId).Sound own where
  informed := initial_informed own maxResponseFrameBytes sessionId
  outcomes := by
    refine ⟨?_, ?_⟩ <;> intros <;> contradiction
  settled := by
    refine ⟨?_, ?_, ?_, ?_⟩ <;> intros <;> contradiction

/-- **`REJECTED` means never applied.**  In a run whose events are all unambiguous, a
reservation that was released because of a rejection is not applied, up to then or later,
whatever frame limit the client is configured with. -/
theorem rejected_never_applied (own : SessionOwnerInstanceId → Bool)
    (maxResponseFrameBytes : Nat) (sessionId : CommandSessionId)
    (before after : List SessionEvent)
    (h : Run.Meets (fun s event => (step own s event, ()))
      (fun s event => s.unambiguous event = true) (initial maxResponseFrameBytes sessionId)
      (before ++ after)) :
    ∀ reservation ∈ (run own (initial maxResponseFrameBytes sessionId) before).released,
      reservation ∉
        (run own (initial maxResponseFrameBytes sessionId) (before ++ after)).applied := by
  intro reservation hreleased
  have hkept : ∀ s event, reservation ∈ s.released → reservation ∈ (step own s event).released := by
    intro s event hmem
    have hstep := step_step own s event
    generalize step own s event = after' at hstep
    cases hstep with
    | released => exact mem_cons_of_mem _ hmem
    | _ => exact hmem
  have hlast : reservation ∈
      (run own (initial maxResponseFrameBytes sessionId) (before ++ after)).released := by
    rw [run, Run.final_append]
    exact Run.final_invariant (P := fun s : DurableSession => reservation ∈ s.released)
      (fun s event => hkept s event) hreleased after
  have hsound : (run own (initial maxResponseFrameBytes sessionId) (before ++ after)).Sound own :=
    Run.final_invariant_of_meets (P := Sound own) (fun s event hs hevent => step_sound hs hevent)
      (initial_sound own maxResponseFrameBytes sessionId) h
  exact (hsound.settled.released reservation hlast).notApplied

/-! ## The two exceptions -/

/-- A client that acquired its session and has reserved its first command. -/
def acquiring : PendingOwnerAcquisition where
  sessionId := ⟨"s", by decide +kernel⟩
  expectedOwnerEpoch := .initial
  ownerInstanceId := ⟨"i", by decide +kernel⟩

/-- Its session, under the limit that both sides have by default. -/
def sampleSession : DurableSession := initial defaultMaxFrameBytes acquiring.sessionId

/-- Its first command. -/
def ensuring : ReservedCommand where
  identity := ⟨acquiring.sessionId, .initial, some acquiring.ownerInstanceId, .initial⟩
  request := .ensureNamespace ⟨"r", by decide +kernel⟩ ⟨"n", by decide⟩

/-- The proposal for the first command. -/
def ensuringProposal : ReplicatedBrokerProposalV1 :=
  .identified ensuring.identity (.ensureNamespace "n" BrokerCapacityPolicy.default.maxNamespaces)

/-- The proposal for an acquisition. -/
def acquiringProposal (owner : String) : ReplicatedBrokerProposalV1 :=
  .legacy (.acquireCommandSessionOwner "s" 1 owner)

/-- The instances of the client. -/
def onlyInstance (owner : SessionOwnerInstanceId) : Bool := owner = acquiring.ownerInstanceId

/-- The session is acquired, a command reserved, and its first attempt queued. -/
def firstAttempt : List SessionEvent :=
  [.beginAcquisition acquiring.ownerInstanceId, .sendAcquisition,
    .accept ⟨0, .acquisition acquiring⟩,
    .dispatch ⟨0, .acquisition acquiring⟩ .default 0,
    .commit ⟨0, .acquisition acquiring⟩ (acquiringProposal "i"),
    .receive (.acquired .initial), .reserve ensuring.request, .send,
    .accept ⟨1, .mutation 1 ensuring⟩]

/-- The first attempt is handed to consensus and applied. -/
def firstApplied : List SessionEvent :=
  [.dispatch ⟨1, .mutation 1 ensuring⟩ .default 0,
    .commit ⟨1, .mutation 1 ensuring⟩ ensuringProposal]

/-- The client waits no longer for the first attempt and makes a second, which meets a
full queue. -/
def secondSaturated : List SessionEvent :=
  [.giveUp, .send, .saturate ⟨2, .mutation 1 ensuring⟩, .receive (.failed saturated)]

/-- Another client acquires the session, and the second attempt is refused. -/
def secondOvertaken : List SessionEvent :=
  [.giveUp, .foreign (acquiringProposal "j"), .send, .accept ⟨2, .mutation 1 ensuring⟩,
    .dispatch ⟨2, .mutation 1 ensuring⟩ .default 0,
    .commit ⟨2, .mutation 1 ensuring⟩ ensuringProposal]

/-- The refusal of the second attempt. -/
def staleOwner : BrokerError where
  code := .staleFence
  message := "command session s owner epoch 1 does not match broker-authoritative epoch 2"
  disposition := .rejected

/-- The first attempt meets a full queue. -/
def firstSaturated : List SessionEvent :=
  firstAttempt.take 8 ++ [.saturate ⟨1, .mutation 1 ensuring⟩, .receive (.failed saturated)]

/-- A command rejected by a full queue at its first attempt is not applied. -/
theorem rejected_first_attempt :
    Run.Meets (fun s event => (step onlyInstance s event, ()))
      (fun s event => s.unambiguous event = true) sampleSession (firstSaturated ++ firstApplied) ∧
    (run onlyInstance sampleSession firstSaturated).released = [1] ∧
    1 ∉ (run onlyInstance sampleSession (firstSaturated ++ firstApplied)).applied := by
  have hmeets : Run.Meets (fun s event => (step onlyInstance s event, ()))
      (fun s event => s.unambiguous event = true) sampleSession
      (firstSaturated ++ firstApplied) := by
    decide +kernel
  exact ⟨hmeets, by decide +kernel,
    rejected_never_applied onlyInstance defaultMaxFrameBytes acquiring.sessionId firstSaturated
      firstApplied hmeets 1 (by decide +kernel)⟩

/-- The client releases a command that a full queue rejected, and then its first attempt
is applied; or it releases a command that was applied before another client took over the
session. -/
theorem rejected_but_applied :
    ¬∀ own sessionId before after,
      ∀ reservation ∈ (run own (initial defaultMaxFrameBytes sessionId) before).released,
        reservation ∉
          (run own (initial defaultMaxFrameBytes sessionId) (before ++ after)).applied := by
  intro h
  have hreleased : 1 ∈ (run onlyInstance sampleSession
      (firstAttempt ++ secondSaturated)).released := by
    decide +kernel
  have happlied : 1 ∈ (run onlyInstance sampleSession
      (firstAttempt ++ secondSaturated ++ firstApplied)).applied := by
    decide +kernel
  exact h onlyInstance acquiring.sessionId _ firstApplied 1 hreleased happlied

example : (run onlyInstance sampleSession
    (firstAttempt ++ firstApplied ++ secondOvertaken ++ [.receive (.failed staleOwner)])).released =
      (run onlyInstance sampleSession
        (firstAttempt ++ firstApplied)).applied := by
  decide +kernel

end DurableSession

end AgentBroker
