import AgentBroker.Protocol.WireV1

/-!
# The durable session store of a client

A client keeps the state of its command session in a file (`session_store.rs`): the
owner that the Broker confirmed, an acquisition that is not confirmed yet, the next
sequence, and the command in flight.  Every change is validated and written before
anything is sent.

## The design decisions

* **The store is typed.**  The state holds counters, identities and a request, not the numbers
  and texts of the file.  `Client/SessionFile.lean` has the plain records and shows that its
  operations are the ones here.
* **A store carries its validation.**  `commit_state` validates what it is about to write, so
  `DurableClientSessionStore` has a field that says so, and no lemma has to assume it.
* **An operation returns the next store, or an error that leaves it as it was.**  Failures to
  write the file are modelled in `Client/SessionWorld.lean`.

## What is load-bearing

`reserve_command` encodes the request before it keeps it, and refuses one whose frame of the
*first* version is too long.  The command is sent in a frame of the third version, which is
longer: what the check leaves open is the subject of `Client/Sendable.lean`, and what it means
for a session that of `Client/Resumption.lean`.

## Main results

* `validateStateRelationships_iff` — what a valid state is.
* `inFlight_owner` — the command in flight carries the confirmed owner and the next
  sequence.
* `_ok` lemmas — what each operation requires and writes.
* `exists_` lemmas — when each operation succeeds.
-/

namespace AgentBroker

open Except hiding error
open Option

/-- The owner that the Broker confirmed. -/
structure DurableSessionOwner where
  ownerEpoch : SessionOwnerEpoch
  ownerInstanceId : SessionOwnerInstanceId
  deriving DecidableEq, Repr

/-- An acquisition that was reserved before it was sent. -/
structure PendingOwnerAcquisition where
  sessionId : CommandSessionId
  expectedOwnerEpoch : SessionOwnerEpoch
  ownerInstanceId : SessionOwnerInstanceId
  deriving DecidableEq, Repr

/-- A command that was reserved before it was sent. -/
structure ReservedCommand where
  identity : CommandIdentity
  request : BrokerRequest
  deriving DecidableEq

/-- The errors of the store that do not come from the file system. -/
inductive ClientSessionStoreError where
  | protocol (error : ProtocolCodecError)
  | invalidState (message : String)
  | operationBlocked (message : String)
  | sequenceExhausted
  deriving DecidableEq

/-! ## The persisted state -/

/-- A pending acquisition as it is persisted. -/
structure PersistedPendingOwnerAcquisition where
  expectedOwnerEpoch : SessionOwnerEpoch
  ownerInstanceId : SessionOwnerInstanceId
  deriving DecidableEq, Repr

/-- A command in flight as it is persisted.  The file keeps the request as its frame of the
first version, which was encoded from this one and decodes to it again. -/
structure PersistedInFlight where
  ownerEpoch : SessionOwnerEpoch
  ownerInstanceId : SessionOwnerInstanceId
  sequence : CommandSequence
  request : BrokerRequest
  deriving DecidableEq

/-- The persisted state of a session. -/
structure PersistedSessionState where
  owner : Option DurableSessionOwner
  pendingOwnerAcquisition : Option PersistedPendingOwnerAcquisition
  nextSequence : CommandSequence
  inFlight : Option PersistedInFlight
  deriving DecidableEq

/-- `validate_state_relationships`. -/
def validateStateRelationships (state : PersistedSessionState) :
    Except ClientSessionStoreError Unit := do
  Except.require (¬(state.pendingOwnerAcquisition.isSome ∧ state.inFlight.isSome))
    (.invalidState "owner acquisition and command cannot both be in flight")
  Except.require (¬(state.owner.isNone ∧ state.nextSequence.get ≠ 1))
    (.invalidState "unowned session must keep next_sequence at 1")
  match state.owner, state.inFlight with
  | some owner, some inFlight =>
    Except.require
      (¬(inFlight.ownerEpoch ≠ owner.ownerEpoch ∨
        inFlight.ownerInstanceId ≠ owner.ownerInstanceId ∨
        inFlight.sequence ≠ state.nextSequence))
      (.invalidState "in-flight command identity does not match durable owner/next sequence")
  | none, some _ => .error (.invalidState "in-flight command requires a confirmed owner")
  | _, none => .ok ()

/-- What a valid state is. -/
theorem validateStateRelationships_iff {state : PersistedSessionState} :
    validateStateRelationships state = .ok () ↔
      (state.pendingOwnerAcquisition = none ∨ state.inFlight = none) ∧
        (state.owner = none → state.nextSequence.get = 1) ∧
        ∀ inFlight, state.inFlight = some inFlight → ∃ owner, state.owner = some owner ∧
          inFlight.ownerEpoch = owner.ownerEpoch ∧
          inFlight.ownerInstanceId = owner.ownerInstanceId ∧
          inFlight.sequence = state.nextSequence := by
  obtain ⟨owner, pending, next, inFlight⟩ := state
  cases owner <;> cases pending <;> cases inFlight <;>
    simp [validateStateRelationships, bind_eq_ok_iff, require_eq_ok_iff]

/-- The store of one session.  Whatever is loaded or committed was validated. -/
structure DurableClientSessionStore where
  sessionId : CommandSessionId
  state : PersistedSessionState
  valid : validateStateRelationships state = .ok ()
  deriving DecidableEq

namespace DurableClientSessionStore

/-! ## Operations -/

/-- The store of a new session. -/
def create (sessionId : CommandSessionId) : DurableClientSessionStore :=
  ⟨sessionId, ⟨none, none, .initial, none⟩, by decide⟩

/-- `in_flight`. -/
def inFlight (store : DurableClientSessionStore) : Option ReservedCommand :=
  store.state.inFlight.map fun inFlight =>
    { identity := ⟨store.sessionId, inFlight.ownerEpoch, some inFlight.ownerInstanceId,
        inFlight.sequence⟩
      request := inFlight.request }

/-- `pending_owner_acquisition`. -/
def pendingOwnerAcquisition (store : DurableClientSessionStore) :
    Option PendingOwnerAcquisition :=
  store.state.pendingOwnerAcquisition.map fun pending =>
    ⟨store.sessionId, pending.expectedOwnerEpoch, pending.ownerInstanceId⟩

/-- `commit_state`. -/
def commitState (store : DurableClientSessionStore) (next : PersistedSessionState) :
    Except ClientSessionStoreError DurableClientSessionStore :=
  match h : validateStateRelationships next with
  | .error error => .error error
  | .ok () => .ok ⟨store.sessionId, next, h⟩

/-- `begin_owner_acquisition`. -/
def beginOwnerAcquisition (store : DurableClientSessionStore)
    (ownerInstanceId : SessionOwnerInstanceId) :
    Except ClientSessionStoreError DurableClientSessionStore := do
  Except.require (store.state.inFlight = none)
    (.operationBlocked
      "cannot acquire a new session owner while an in-flight command is unresolved")
  Except.require (store.state.pendingOwnerAcquisition = none)
    (.operationBlocked "session owner acquisition is already pending")
  Except.require (store.state.owner.map DurableSessionOwner.ownerInstanceId ≠ some ownerInstanceId)
    (.operationBlocked
      ("confirmed owner instance must continue its current sequence domain instead of " ++
        "reacquiring ownership"))
  let expectedOwnerEpoch :=
    (store.state.owner.map DurableSessionOwner.ownerEpoch).getD SessionCounter.initial
  store.commitState
    { store.state with pendingOwnerAcquisition := some ⟨expectedOwnerEpoch, ownerInstanceId⟩ }

/-- `validate_acquired_epoch`. -/
def validateAcquiredEpoch (expected actual : SessionOwnerEpoch) (replacingConfirmedOwner : Bool) :
    Except ClientSessionStoreError Unit :=
  if replacingConfirmedOwner = true ∧ expected.next = some actual then .ok ()
  else if replacingConfirmedOwner = false ∧
      (actual = expected ∨ expected.next = some actual) then .ok ()
  else .error (.invalidState
    ("Broker returned owner epoch " ++ toString actual.get ++ " for expected epoch " ++
      toString expected.get))

/-- `confirm_owner_acquisition`. -/
def confirmOwnerAcquisition (store : DurableClientSessionStore) (ownerEpoch : SessionOwnerEpoch) :
    Except ClientSessionStoreError DurableClientSessionStore :=
  match store.state.pendingOwnerAcquisition with
  | none => .error (.invalidState
      "owner acquisition response received without a durable pending acquisition")
  | some pending => do
      validateAcquiredEpoch pending.expectedOwnerEpoch ownerEpoch store.state.owner.isSome
      store.commitState
        { owner := some ⟨ownerEpoch, pending.ownerInstanceId⟩
          pendingOwnerAcquisition := none
          nextSequence := .initial
          inFlight := none }

/-- `reserve_command`. -/
def reserveCommand (store : DurableClientSessionStore) (request : BrokerRequest) :
    Except ClientSessionStoreError DurableClientSessionStore := do
  Except.require (store.state.pendingOwnerAcquisition = none)
    (.operationBlocked "cannot reserve a command while owner acquisition is unresolved")
  Except.require (store.state.inFlight = none)
    (.operationBlocked
      "cannot reserve a second command while an in-flight command is unresolved")
  Except.require (request.isHealth = false)
    (.operationBlocked "durable command sessions are mutation-only")
  -- The last sequence is kept back, so that acknowledging can always advance.
  Except.require (store.state.nextSequence.get ≠ u64Size - 1) .sequenceExhausted
  match store.state.owner with
  | none => .error (.operationBlocked "cannot reserve a command before Broker owner acquisition")
  | some owner => do
    -- What the file keeps is the frame; here only its length matters.
    let _ ← (encodeRequest request).mapError .protocol
    store.commitState
      { store.state with
        inFlight := some
          ⟨owner.ownerEpoch, owner.ownerInstanceId, store.state.nextSequence, request⟩ }

/-- The guards of an outcome: it must name the command in flight. -/
def requireInFlight (store : DurableClientSessionStore) (identity : CommandIdentity)
    (absent mismatch : String) : Except ClientSessionStoreError Unit :=
  match store.inFlight with
  | none => .error (.invalidState absent)
  | some inFlight => Except.require (inFlight.identity = identity) (.invalidState mismatch)

/-- `acknowledge_in_flight_outcome`. -/
def acknowledgeInFlightOutcome (store : DurableClientSessionStore) (identity : CommandIdentity) :
    Except ClientSessionStoreError DurableClientSessionStore := do
  store.requireInFlight identity "cannot acknowledge an outcome without an in-flight command"
    "outcome identity does not match durable in-flight command"
  match identity.sequence.next with
  | none => .error .sequenceExhausted
  | some nextSequence =>
    store.commitState { store.state with nextSequence := nextSequence, inFlight := none }

/-- `release_rejected_in_flight`: the sequence is not advanced. -/
def releaseRejectedInFlight (store : DurableClientSessionStore) (identity : CommandIdentity) :
    Except ClientSessionStoreError DurableClientSessionStore := do
  store.requireInFlight identity "cannot release a rejected command without an in-flight command"
    "rejected outcome identity does not match durable in-flight command"
  store.commitState { store.state with inFlight := none }

/-! ## What the operations do -/

variable {store store' : DurableClientSessionStore}

theorem commitState_ok {next : PersistedSessionState} (h : store.commitState next = .ok store') :
    store'.sessionId = store.sessionId ∧ store'.state = next := by
  unfold commitState at h
  split at h
  · cases h
  · cases h
    exact ⟨rfl, rfl⟩

theorem commitState_of_valid {next : PersistedSessionState}
    (h : validateStateRelationships next = .ok ()) :
    store.commitState next = .ok ⟨store.sessionId, next, h⟩ := by
  unfold commitState
  split
  · rename_i hinvalid
    rw [h] at hinvalid
    cases hinvalid
  · rfl

variable {owner : DurableSessionOwner} {reserved : ReservedCommand}
  {ownerInstanceId : SessionOwnerInstanceId} {expected actual : SessionOwnerEpoch}
  {request : BrokerRequest}

/-- Under an owner nothing else is required once no command is in flight. -/
theorem valid_of_owner {state : PersistedSessionState} (howner : state.owner = some owner)
    (hinFlight : state.inFlight = none) :
    validateStateRelationships state = .ok () := by
  refine validateStateRelationships_iff.mpr ⟨Or.inr hinFlight, fun hnone => ?_, ?_⟩
  · exact absurd (howner.symm.trans hnone) (some_ne_none _)
  · intro inFlight hfound
    exact absurd (hfound.symm.trans hinFlight) (some_ne_none _)

/-- **The command in flight carries the confirmed owner and the next sequence.** -/
theorem inFlight_owner (h : store.inFlight = some reserved) :
    ∃ owner, store.state.owner = some owner ∧
      reserved.identity =
        ⟨store.sessionId, owner.ownerEpoch, some owner.ownerInstanceId,
          store.state.nextSequence⟩ := by
  obtain ⟨inFlight, hinFlight, rfl⟩ := map_eq_some_iff.mp h
  -- The store carries its validation, which relates the command to the owner.
  obtain ⟨owner, howner, hepoch, hinstance, hsequence⟩ :=
    (validateStateRelationships_iff.mp store.valid).2.2 inFlight hinFlight
  refine ⟨owner, howner, ?_⟩
  rw [hepoch, hinstance, hsequence]

theorem inFlight_of_state_none (h : store.state.inFlight = none) : store.inFlight = none := by
  rw [inFlight, h]
  rfl

theorem pendingOwnerAcquisition_of_state_none (h : store.state.pendingOwnerAcquisition = none) :
    store.pendingOwnerAcquisition = none := by
  rw [pendingOwnerAcquisition, h]
  rfl

theorem pendingOwnerAcquisition_of_state {pending : PersistedPendingOwnerAcquisition}
    (h : store.state.pendingOwnerAcquisition = some pending) :
    store.pendingOwnerAcquisition =
      some ⟨store.sessionId, pending.expectedOwnerEpoch, pending.ownerInstanceId⟩ := by
  rw [pendingOwnerAcquisition, h]
  rfl

theorem beginOwnerAcquisition_ok (h : store.beginOwnerAcquisition ownerInstanceId = .ok store') :
    store.state.inFlight = none ∧ store.state.pendingOwnerAcquisition = none ∧
      store'.sessionId = store.sessionId ∧
      store'.state =
        { store.state with
          pendingOwnerAcquisition := some
            ⟨(store.state.owner.map DurableSessionOwner.ownerEpoch).getD SessionCounter.initial,
              ownerInstanceId⟩ } := by
  obtain ⟨_, hinFlight, h⟩ := bind_eq_ok_iff.mp h
  obtain ⟨_, hpending, h⟩ := bind_eq_ok_iff.mp h
  obtain ⟨_, -, h⟩ := bind_eq_ok_iff.mp h
  exact ⟨require_eq_ok_iff.mp hinFlight, require_eq_ok_iff.mp hpending,
    commitState_ok h⟩

/-- Only another instance than the confirmed one acquires the session. -/
theorem other_of_beginOwnerAcquisition
    (h : store.beginOwnerAcquisition ownerInstanceId = .ok store')
    (howner : store.state.owner = some owner) : owner.ownerInstanceId ≠ ownerInstanceId := by
  obtain ⟨_, -, h⟩ := bind_eq_ok_iff.mp h
  obtain ⟨_, -, h⟩ := bind_eq_ok_iff.mp h
  obtain ⟨_, hother, -⟩ := bind_eq_ok_iff.mp h
  have hother := require_eq_ok_iff.mp hother
  rw [howner] at hother
  exact fun hsame => hother (congrArg some hsame)

theorem confirmOwnerAcquisition_ok {ownerEpoch : SessionOwnerEpoch}
    (h : store.confirmOwnerAcquisition ownerEpoch = .ok store') :
    ∃ pending, store.state.pendingOwnerAcquisition = some pending ∧
      validateAcquiredEpoch pending.expectedOwnerEpoch ownerEpoch store.state.owner.isSome =
        .ok () ∧
      store'.sessionId = store.sessionId ∧
      store'.state = ⟨some ⟨ownerEpoch, pending.ownerInstanceId⟩, none, .initial, none⟩ := by
  unfold confirmOwnerAcquisition at h
  cases hpending : store.state.pendingOwnerAcquisition with
  | none =>
    rw [hpending] at h
    cases h
  | some pending =>
    rw [hpending] at h
    obtain ⟨_, hepoch, h⟩ := bind_eq_ok_iff.mp h
    exact ⟨pending, rfl, hepoch, commitState_ok h⟩

/-- The next epoch is always accepted. -/
theorem validateAcquiredEpoch_next (h : expected.next = some actual) (replacing : Bool) :
    validateAcquiredEpoch expected actual replacing = .ok () := by
  cases replacing <;> simp [validateAcquiredEpoch, h]

/-- A confirmed owner is replaced by the next epoch only. -/
theorem validateAcquiredEpoch_replacing (h : validateAcquiredEpoch expected actual true = .ok ()) :
    expected.next = some actual := by
  unfold validateAcquiredEpoch at h
  split_ifs at h with hnext hfirst
  · exact hnext.2
  · cases hfirst.1

theorem reserveCommand_ok (h : store.reserveCommand request = .ok store') :
    ∃ owner, store.state.owner = some owner ∧ store.state.pendingOwnerAcquisition = none ∧
      store.state.inFlight = none ∧ store'.sessionId = store.sessionId ∧
      store'.state = { store.state with
        inFlight := some
          ⟨owner.ownerEpoch, owner.ownerInstanceId, store.state.nextSequence, request⟩ } := by
  obtain ⟨_, hpending, h⟩ := bind_eq_ok_iff.mp h
  obtain ⟨_, hinFlight, h⟩ := bind_eq_ok_iff.mp h
  obtain ⟨_, -, h⟩ := bind_eq_ok_iff.mp h
  obtain ⟨_, -, h⟩ := bind_eq_ok_iff.mp h
  cases howner : store.state.owner with
  | none =>
    rw [howner] at h
    cases h
  | some owner =>
    rw [howner] at h
    obtain ⟨_, -, h⟩ := bind_eq_ok_iff.mp h
    obtain ⟨hsession, hstate⟩ := commitState_ok h
    exact ⟨owner, rfl, require_eq_ok_iff.mp hpending,
      require_eq_ok_iff.mp hinFlight, hsession, hstate⟩

/-- Only a mutation is reserved, and never the last sequence. -/
theorem guards_of_reserveCommand (h : store.reserveCommand request = .ok store') :
    request.isHealth = false ∧ ∃ next, store.state.nextSequence.next = some next := by
  obtain ⟨_, -, h⟩ := bind_eq_ok_iff.mp h
  obtain ⟨_, -, h⟩ := bind_eq_ok_iff.mp h
  obtain ⟨_, hmutation, h⟩ := bind_eq_ok_iff.mp h
  obtain ⟨_, hlast, -⟩ := bind_eq_ok_iff.mp h
  refine ⟨require_eq_ok_iff.mp hmutation, ?_⟩
  have hne := require_eq_ok_iff.mp hlast
  have hlt := store.state.nextSequence.isLt
  exact SessionCounter.exists_next (by omega)

theorem acknowledgeInFlightOutcome_ok {identity : CommandIdentity}
    (h : store.acknowledgeInFlightOutcome identity = .ok store') :
    ∃ nextSequence, identity.sequence.next = some nextSequence ∧
      store'.sessionId = store.sessionId ∧
      store'.state = { store.state with nextSequence := nextSequence, inFlight := none } := by
  obtain ⟨_, -, h⟩ := bind_eq_ok_iff.mp h
  cases hnext : identity.sequence.next with
  | none =>
    rw [hnext] at h
    cases h
  | some nextSequence =>
    rw [hnext] at h
    exact ⟨nextSequence, rfl, commitState_ok h⟩

theorem releaseRejectedInFlight_ok {identity : CommandIdentity}
    (h : store.releaseRejectedInFlight identity = .ok store') :
    store'.sessionId = store.sessionId ∧ store'.state = { store.state with inFlight := none } := by
  obtain ⟨_, -, h⟩ := bind_eq_ok_iff.mp h
  exact commitState_ok h

/-! ## When the operations succeed -/

theorem exists_beginOwnerAcquisition (hinFlight : store.state.inFlight = none)
    (hpending : store.state.pendingOwnerAcquisition = none)
    (hother : store.state.owner.map DurableSessionOwner.ownerInstanceId ≠ some ownerInstanceId) :
    ∃ store', store.beginOwnerAcquisition ownerInstanceId = .ok store' := by
  obtain ⟨-, hunowned, -⟩ := validateStateRelationships_iff.mp store.valid
  have hvalid : validateStateRelationships
      { store.state with
        pendingOwnerAcquisition := some
          ⟨(store.state.owner.map DurableSessionOwner.ownerEpoch).getD SessionCounter.initial,
            ownerInstanceId⟩ } = .ok () := by
    refine validateStateRelationships_iff.mpr ⟨Or.inr hinFlight, hunowned, ?_⟩
    intro inFlight hfound
    exact absurd (hfound.symm.trans hinFlight) (some_ne_none _)
  unfold beginOwnerAcquisition
  rw [require_pos hinFlight, require_pos hpending, require_pos hother]
  exact ⟨_, commitState_of_valid hvalid⟩

theorem exists_confirmOwnerAcquisition {pending : PersistedPendingOwnerAcquisition}
    {ownerEpoch : SessionOwnerEpoch} (hpending : store.state.pendingOwnerAcquisition = some pending)
    (hepoch : validateAcquiredEpoch pending.expectedOwnerEpoch ownerEpoch
      store.state.owner.isSome = .ok ()) :
    ∃ store', store.confirmOwnerAcquisition ownerEpoch = .ok store' := by
  have hvalid : validateStateRelationships
      ⟨some ⟨ownerEpoch, pending.ownerInstanceId⟩, none, .initial, none⟩ = .ok () := rfl
  unfold confirmOwnerAcquisition
  rw [hpending]
  dsimp only
  rw [hepoch]
  exact ⟨_, commitState_of_valid hvalid⟩

theorem exists_reserveCommand (howner : store.state.owner = some owner)
    (hpending : store.state.pendingOwnerAcquisition = none)
    (hinFlight : store.state.inFlight = none) (hrequest : request.isHealth = false)
    (hnext : store.state.nextSequence.get ≠ u64Size - 1) {frame : Bytes}
    (hframe : encodeRequest request = .ok frame) :
    ∃ store', store.reserveCommand request = .ok store' := by
  have hvalid : validateStateRelationships
      { store.state with
        inFlight := some
          ⟨owner.ownerEpoch, owner.ownerInstanceId, store.state.nextSequence, request⟩ } =
      .ok () := by
    refine validateStateRelationships_iff.mpr ⟨Or.inl hpending, fun hnone => ?_, ?_⟩
    · exact absurd (howner.symm.trans hnone) (some_ne_none _)
    · intro inFlight hfound
      cases hfound
      exact ⟨owner, howner, rfl, rfl, rfl⟩
  unfold reserveCommand
  rw [require_pos hpending, require_pos hinFlight, require_pos hrequest, require_pos hnext, howner,
    hframe]
  exact ⟨_, commitState_of_valid hvalid⟩

theorem requireInFlight_self (h : store.inFlight = some reserved) (absent mismatch : String) :
    store.requireInFlight reserved.identity absent mismatch = .ok () := by
  unfold requireInFlight
  rw [h]
  exact require_eq_ok_iff.mpr rfl

theorem exists_acknowledgeInFlightOutcome {next : CommandSequence}
    (h : store.inFlight = some reserved) (hnext : reserved.identity.sequence.next = some next) :
    ∃ store', store.acknowledgeInFlightOutcome reserved.identity = .ok store' := by
  obtain ⟨owner, howner, -⟩ := inFlight_owner h
  have hvalid : validateStateRelationships
      { store.state with nextSequence := next, inFlight := none } = .ok () :=
    valid_of_owner howner rfl
  unfold acknowledgeInFlightOutcome
  rw [requireInFlight_self h, hnext]
  exact ⟨_, commitState_of_valid hvalid⟩

theorem exists_releaseRejectedInFlight (h : store.inFlight = some reserved) :
    ∃ store', store.releaseRejectedInFlight reserved.identity = .ok store' := by
  obtain ⟨owner, howner, -⟩ := inFlight_owner h
  have hvalid : validateStateRelationships { store.state with inFlight := none } = .ok () :=
    valid_of_owner howner rfl
  unfold releaseRejectedInFlight
  rw [requireInFlight_self h]
  exact ⟨_, commitState_of_valid hvalid⟩

end DurableClientSessionStore

end AgentBroker
