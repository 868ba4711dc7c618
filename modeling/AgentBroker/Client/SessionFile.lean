import AgentBroker.Client.SessionStore

/-!
# The file of a session store

The state of a command session as the file has it (`session_store.rs`): plain numbers and
texts, with the request in flight kept as its version-1 frame.  Whatever is loaded or about
to be written is validated, and validation reads the plain records back into the typed state
of `DurableClientSessionStore`.

The operations here work on the plain records, as the source does, and stop right before the
file is written.

## Main results

* `decodeState_eq_ok_iff` — which plain record stands for which typed state.
* `_refines` lemmas — an operation on the plain records is the operation of the typed store.
-/

namespace AgentBroker

open DurableClientSessionStore
open Except hiding error

/-! ## Records -/

/-- `PersistedOwner`. -/
structure StoredOwner where
  ownerEpoch : U64
  ownerInstanceId : String
  deriving DecidableEq

/-- `PersistedPendingOwnerAcquisition`. -/
structure StoredPendingOwnerAcquisition where
  expectedOwnerEpoch : U64
  ownerInstanceId : String
  deriving DecidableEq

/-- `PersistedInFlight`. -/
structure StoredInFlight where
  ownerEpoch : U64
  ownerInstanceId : String
  sequence : U64
  requestFrame : String
  deriving DecidableEq

/-- `PersistedSessionState`. -/
structure StoredSessionState where
  version : UInt32
  sessionId : String
  owner : Option StoredOwner
  pendingOwnerAcquisition : Option StoredPendingOwnerAcquisition
  nextSequence : U64
  inFlight : Option StoredInFlight
  deriving DecidableEq

/-- `SESSION_STORE_VERSION`. -/
def sessionStoreVersion : UInt32 := 1

/-- The state of a new session. -/
def StoredSessionState.new (sessionId : CommandSessionId) : StoredSessionState :=
  ⟨sessionStoreVersion, sessionId.asStr, none, none, 1, none⟩

/-- `From<&DurableSessionOwner>`. -/
def StoredOwner.ofOwner (owner : DurableSessionOwner) : StoredOwner :=
  ⟨owner.ownerEpoch.toU64, owner.ownerInstanceId.asStr⟩

/-- `From<&PendingOwnerAcquisition>`. -/
def StoredPendingOwnerAcquisition.ofPending (pending : PersistedPendingOwnerAcquisition) :
    StoredPendingOwnerAcquisition :=
  ⟨pending.expectedOwnerEpoch.toU64, pending.ownerInstanceId.asStr⟩

/-- The errors of the store, with those of the file system. -/
inductive SessionFileError where
  | io (context : String)
  | stateAlreadyOwned
  | store (error : ClientSessionStoreError)
  deriving DecidableEq

/-! ## Validation -/

section Validation

variable (serde : Serde)

/-- An error of an identity inside of the file. -/
def stateField {α : Type} (value : Except CommandIdentityError α) : Except SessionFileError α :=
  value.mapError fun error => .store (.invalidState error.display)

/-- `decode_owner`. -/
def decodeOwner (owner : StoredOwner) : Except SessionFileError DurableSessionOwner := do
  return ⟨← stateField (SessionCounter.new owner.ownerEpoch),
    ← stateField (SessionText.new owner.ownerInstanceId)⟩

/-- `decode_pending`. -/
def decodePending (pending : StoredPendingOwnerAcquisition) :
    Except SessionFileError PersistedPendingOwnerAcquisition := do
  return ⟨← stateField (SessionCounter.new pending.expectedOwnerEpoch),
    ← stateField (SessionText.new pending.ownerInstanceId)⟩

/-- `decode_in_flight`. -/
def decodeInFlight (inFlight : StoredInFlight) : Except SessionFileError PersistedInFlight := do
  let ownerEpoch ← stateField (SessionCounter.new inFlight.ownerEpoch)
  let ownerInstanceId ← stateField (SessionText.new inFlight.ownerInstanceId)
  let sequence ← stateField (SessionCounter.new inFlight.sequence)
  let request ← (decodeRequest serde (Bytes.ofString inFlight.requestFrame)).mapError
    fun error => .store (.protocol error)
  Except.require (request.isHealth = false)
    (.store (.invalidState "in-flight durable command cannot be health"))
  return ⟨ownerEpoch, ownerInstanceId, sequence, request⟩

/-- The typed state that a record stands for: `validate_state` up to the relations between
its parts. -/
def decodeState (state : StoredSessionState) (expectedSessionId : CommandSessionId) :
    Except SessionFileError PersistedSessionState := do
  Except.require (state.version = sessionStoreVersion)
    (.store (.invalidState ("unsupported version " ++ toString state.version)))
  let storedSessionId ← stateField (SessionText.new state.sessionId)
  Except.require (storedSessionId = expectedSessionId)
    (.store (.invalidState ("session id mismatch: expected " ++ expectedSessionId.asStr ++
      ", found " ++ state.sessionId)))
  let nextSequence ← stateField (SessionCounter.new state.nextSequence)
  let owner ← state.owner.mapM decodeOwner
  let pending ← state.pendingOwnerAcquisition.mapM decodePending
  let inFlight ← state.inFlight.mapM (decodeInFlight serde)
  return ⟨owner, pending, nextSequence, inFlight⟩

/-- `validate_state`. -/
def validateState (state : StoredSessionState) (expectedSessionId : CommandSessionId) :
    Except SessionFileError Unit := do
  let decoded ← decodeState serde state expectedSessionId
  (validateStateRelationships decoded).mapError .store

end Validation

/-! ## Operations -/

/-- An open store, without its lock. -/
structure SessionHandle where
  sessionId : CommandSessionId
  state : StoredSessionState
  deriving DecidableEq

namespace SessionHandle

variable (serde : Serde)

/-- `owner`. -/
def owner (handle : SessionHandle) : Except SessionFileError (Option DurableSessionOwner) :=
  handle.state.owner.mapM decodeOwner

/-- `pending_owner_acquisition`. -/
def pendingOwnerAcquisition (handle : SessionHandle) :
    Except SessionFileError (Option PendingOwnerAcquisition) := do
  let pending ← handle.state.pendingOwnerAcquisition.mapM decodePending
  return pending.map fun pending =>
    ⟨handle.sessionId, pending.expectedOwnerEpoch, pending.ownerInstanceId⟩

/-- `in_flight`. -/
def inFlight (handle : SessionHandle) : Except SessionFileError (Option ReservedCommand) := do
  let inFlight ← handle.state.inFlight.mapM (decodeInFlight serde)
  return inFlight.map fun inFlight =>
    { identity := ⟨handle.sessionId, inFlight.ownerEpoch, some inFlight.ownerInstanceId,
        inFlight.sequence⟩
      request := inFlight.request }

/-- `begin_owner_acquisition`, up to the write. -/
def beginOwnerAcquisition (handle : SessionHandle) (ownerInstanceId : SessionOwnerInstanceId) :
    Except SessionFileError (StoredSessionState × PendingOwnerAcquisition) := do
  Except.require (handle.state.inFlight = none) (.store (.operationBlocked
    "cannot acquire a new session owner while an in-flight command is unresolved"))
  Except.require (handle.state.pendingOwnerAcquisition = none)
    (.store (.operationBlocked "session owner acquisition is already pending"))
  let currentOwner ← handle.owner
  Except.require (currentOwner.map DurableSessionOwner.ownerInstanceId ≠ some ownerInstanceId)
    (.store (.operationBlocked
      ("confirmed owner instance must continue its current sequence domain instead of " ++
        "reacquiring ownership")))
  let expectedOwnerEpoch :=
    (currentOwner.map DurableSessionOwner.ownerEpoch).getD SessionCounter.initial
  let next := { handle.state with
    pendingOwnerAcquisition := some (.ofPending ⟨expectedOwnerEpoch, ownerInstanceId⟩) }
  validateState serde next handle.sessionId
  return (next, ⟨handle.sessionId, expectedOwnerEpoch, ownerInstanceId⟩)

/-- `confirm_owner_acquisition`, up to the write. -/
def confirmOwnerAcquisition (handle : SessionHandle) (ownerEpoch : SessionOwnerEpoch) :
    Except SessionFileError (StoredSessionState × DurableSessionOwner) := do
  match ← handle.pendingOwnerAcquisition with
  | none => .error (.store (.invalidState
      "owner acquisition response received without a durable pending acquisition"))
  | some pending => do
      (DurableClientSessionStore.validateAcquiredEpoch pending.expectedOwnerEpoch ownerEpoch
        handle.state.owner.isSome).mapError .store
      let next := { handle.state with
        owner := some (.ofOwner ⟨ownerEpoch, pending.ownerInstanceId⟩)
        pendingOwnerAcquisition := none
        nextSequence := 1
        inFlight := none }
      validateState serde next handle.sessionId
      return (next, ⟨ownerEpoch, pending.ownerInstanceId⟩)

/-- `reserve_command`, up to the write. -/
def reserveCommand (handle : SessionHandle) (request : BrokerRequest) :
    Except SessionFileError (StoredSessionState × ReservedCommand) := do
  Except.require (handle.state.pendingOwnerAcquisition = none) (.store (.operationBlocked
    "cannot reserve a command while owner acquisition is unresolved"))
  Except.require (handle.state.inFlight = none) (.store (.operationBlocked
    "cannot reserve a second command while an in-flight command is unresolved"))
  Except.require (request.isHealth = false)
    (.store (.operationBlocked "durable command sessions are mutation-only"))
  Except.require (handle.state.nextSequence.get ≠ u64Size - 1) (.store .sequenceExhausted)
  match ← handle.owner with
  | none => .error (.store (.operationBlocked
      "cannot reserve a command before Broker owner acquisition"))
  | some owner => do
      let sequence ← stateField (SessionCounter.new handle.state.nextSequence)
      let frame ← (encodeRequest request).mapError fun error => .store (.protocol error)
      -- The frame is JSON, so this never fails.
      let requestFrame ← Except.ofOption (.store (.invalidState "invalid utf-8 sequence"))
        frame.toString?
      let next := { handle.state with
        inFlight := some ⟨owner.ownerEpoch.toU64, owner.ownerInstanceId.asStr, sequence.toU64,
          requestFrame⟩ }
      validateState serde next handle.sessionId
      return (next, ⟨⟨handle.sessionId, owner.ownerEpoch, some owner.ownerInstanceId, sequence⟩,
        request⟩)

/-- The guards of an outcome: it must name the command in flight. -/
def requireInFlight (handle : SessionHandle) (identity : CommandIdentity)
    (absent mismatch : String) : Except SessionFileError Unit := do
  match ← handle.inFlight serde with
  | none => .error (.store (.invalidState absent))
  | some inFlight =>
    Except.require (inFlight.identity = identity) (.store (.invalidState mismatch))

/-- `acknowledge_in_flight_outcome`, up to the write. -/
def acknowledgeInFlightOutcome (handle : SessionHandle) (identity : CommandIdentity) :
    Except SessionFileError StoredSessionState := do
  handle.requireInFlight serde identity
    "cannot acknowledge an outcome without an in-flight command"
    "outcome identity does not match durable in-flight command"
  match identity.sequence.next with
  | none => .error (.store .sequenceExhausted)
  | some nextSequence => do
      let next := { handle.state with nextSequence := nextSequence.toU64, inFlight := none }
      validateState serde next handle.sessionId
      return next

/-- `release_rejected_in_flight`, up to the write: the sequence is not advanced. -/
def releaseRejectedInFlight (handle : SessionHandle) (identity : CommandIdentity) :
    Except SessionFileError StoredSessionState := do
  handle.requireInFlight serde identity
    "cannot release a rejected command without an in-flight command"
    "rejected outcome identity does not match durable in-flight command"
  let next := { handle.state with inFlight := none }
  validateState serde next handle.sessionId
  return next

end SessionHandle

/-! ## Which record stands for which state -/

section Decoding

variable {serde : Serde} {sessionId : CommandSessionId}

theorem stateField_text_eq_ok_iff {kind : SessionTextKind} {value : String}
    {t : SessionText kind} : stateField (SessionText.new value) = .ok t ↔ value = t.asStr := by
  rw [stateField, mapError_eq_ok_iff]
  constructor
  · exact fun h => (SessionText.asStr_of_new h).symm
  · rintro rfl
    exact SessionText.new_asStr t

theorem stateField_counter_eq_ok_iff {kind : SessionCounterKind} {value : U64}
    {c : SessionCounter kind} :
    stateField (SessionCounter.new value) = .ok c ↔ value = c.toU64 := by
  rw [stateField, mapError_eq_ok_iff]
  constructor
  · exact fun h => (SessionCounter.toU64_of_new h).symm
  · rintro rfl
    exact SessionCounter.new_toU64 c

theorem decodeOwner_eq_ok_iff (stored : StoredOwner) (owner : DurableSessionOwner) :
    decodeOwner stored = .ok owner ↔ stored = .ofOwner owner := by
  obtain ⟨epoch, instanceId⟩ := stored
  obtain ⟨epoch', instanceId'⟩ := owner
  constructor
  · intro h
    obtain ⟨_, hepoch, h⟩ := bind_eq_ok_iff.mp h
    obtain ⟨_, hinstance, h⟩ := bind_eq_ok_iff.mp h
    cases h
    rw [StoredOwner.ofOwner, ← stateField_counter_eq_ok_iff.mp hepoch,
      ← stateField_text_eq_ok_iff.mp hinstance]
  · intro h
    cases h
    exact bind_eq_ok_iff.mpr ⟨_, stateField_counter_eq_ok_iff.mpr rfl,
      bind_eq_ok_iff.mpr ⟨_, stateField_text_eq_ok_iff.mpr rfl, rfl⟩⟩

theorem decodePending_eq_ok_iff (stored : StoredPendingOwnerAcquisition)
    (pending : PersistedPendingOwnerAcquisition) :
    decodePending stored = .ok pending ↔ stored = .ofPending pending := by
  obtain ⟨epoch, instanceId⟩ := stored
  obtain ⟨epoch', instanceId'⟩ := pending
  constructor
  · intro h
    obtain ⟨_, hepoch, h⟩ := bind_eq_ok_iff.mp h
    obtain ⟨_, hinstance, h⟩ := bind_eq_ok_iff.mp h
    cases h
    rw [StoredPendingOwnerAcquisition.ofPending, ← stateField_counter_eq_ok_iff.mp hepoch,
      ← stateField_text_eq_ok_iff.mp hinstance]
  · intro h
    cases h
    exact bind_eq_ok_iff.mpr ⟨_, stateField_counter_eq_ok_iff.mpr rfl,
      bind_eq_ok_iff.mpr ⟨_, stateField_text_eq_ok_iff.mpr rfl, rfl⟩⟩

theorem decodeInFlight_eq_ok_iff {stored : StoredInFlight} {inFlight : PersistedInFlight} :
    decodeInFlight serde stored = .ok inFlight ↔
      stored.ownerEpoch = inFlight.ownerEpoch.toU64 ∧
        stored.ownerInstanceId = inFlight.ownerInstanceId.asStr ∧
        stored.sequence = inFlight.sequence.toU64 ∧
        decodeRequest serde (Bytes.ofString stored.requestFrame) = .ok inFlight.request ∧
        inFlight.request.isHealth = false := by
  constructor
  · intro h
    obtain ⟨_, hepoch, h⟩ := bind_eq_ok_iff.mp h
    obtain ⟨_, hinstance, h⟩ := bind_eq_ok_iff.mp h
    obtain ⟨_, hsequence, h⟩ := bind_eq_ok_iff.mp h
    obtain ⟨_, hrequest, h⟩ := bind_eq_ok_iff.mp h
    obtain ⟨_, hhealth, h⟩ := bind_eq_ok_iff.mp h
    cases h
    exact ⟨stateField_counter_eq_ok_iff.mp hepoch, stateField_text_eq_ok_iff.mp hinstance,
      stateField_counter_eq_ok_iff.mp hsequence, mapError_eq_ok_iff.mp hrequest,
      require_eq_ok_iff.mp hhealth⟩
  · rintro ⟨hepoch, hinstance, hsequence, hrequest, hhealth⟩
    exact bind_eq_ok_iff.mpr ⟨_, stateField_counter_eq_ok_iff.mpr hepoch,
      bind_eq_ok_iff.mpr ⟨_, stateField_text_eq_ok_iff.mpr hinstance,
      bind_eq_ok_iff.mpr ⟨_, stateField_counter_eq_ok_iff.mpr hsequence,
      bind_eq_ok_iff.mpr ⟨_, mapError_eq_ok_iff.mpr hrequest,
      bind_eq_ok_iff.mpr ⟨⟨⟩, require_eq_ok_iff.mpr hhealth, rfl⟩⟩⟩⟩⟩

/-- **Which record stands for which state.** -/
theorem decodeState_eq_ok_iff {stored : StoredSessionState} {state : PersistedSessionState} :
    decodeState serde stored sessionId = .ok state ↔
      stored.version = sessionStoreVersion ∧ stored.sessionId = sessionId.asStr ∧
        stored.nextSequence = state.nextSequence.toU64 ∧
        stored.owner = state.owner.map .ofOwner ∧
        stored.pendingOwnerAcquisition = state.pendingOwnerAcquisition.map .ofPending ∧
        stored.inFlight.mapM (decodeInFlight serde) = .ok state.inFlight := by
  constructor
  · intro h
    obtain ⟨_, hversion, h⟩ := bind_eq_ok_iff.mp h
    obtain ⟨_, hstored, h⟩ := bind_eq_ok_iff.mp h
    obtain ⟨_, hsession, h⟩ := bind_eq_ok_iff.mp h
    obtain ⟨_, hsequence, h⟩ := bind_eq_ok_iff.mp h
    obtain ⟨_, howner, h⟩ := bind_eq_ok_iff.mp h
    obtain ⟨_, hpending, h⟩ := bind_eq_ok_iff.mp h
    obtain ⟨_, hinFlight, h⟩ := bind_eq_ok_iff.mp h
    cases h
    have hsession := require_eq_ok_iff.mp hsession
    subst hsession
    exact ⟨require_eq_ok_iff.mp hversion, stateField_text_eq_ok_iff.mp hstored,
      stateField_counter_eq_ok_iff.mp hsequence,
      (optionMapM_eq_ok_iff_map decodeOwner_eq_ok_iff).mp howner,
      (optionMapM_eq_ok_iff_map decodePending_eq_ok_iff).mp hpending, hinFlight⟩
  · rintro ⟨hversion, hsession, hsequence, howner, hpending, hinFlight⟩
    exact bind_eq_ok_iff.mpr ⟨⟨⟩, require_eq_ok_iff.mpr hversion,
      bind_eq_ok_iff.mpr ⟨_, stateField_text_eq_ok_iff.mpr hsession,
      bind_eq_ok_iff.mpr ⟨⟨⟩, require_eq_ok_iff.mpr rfl,
      bind_eq_ok_iff.mpr ⟨_, stateField_counter_eq_ok_iff.mpr hsequence,
      bind_eq_ok_iff.mpr
        ⟨_, (optionMapM_eq_ok_iff_map decodeOwner_eq_ok_iff).mpr howner,
      bind_eq_ok_iff.mpr
        ⟨_, (optionMapM_eq_ok_iff_map decodePending_eq_ok_iff).mpr hpending,
      bind_eq_ok_iff.mpr ⟨_, hinFlight, rfl⟩⟩⟩⟩⟩⟩⟩

theorem validateState_eq_ok_iff {stored : StoredSessionState} :
    validateState serde stored sessionId = .ok () ↔
      ∃ state, decodeState serde stored sessionId = .ok state ∧
        validateStateRelationships state = .ok () := by
  rw [validateState, bind_eq_ok_iff]
  simp only [mapError_eq_ok_iff]

end Decoding

/-- What a reserved command is made of. -/
theorem SessionHandle.reserveCommand_ok {serde : Serde} {handle : SessionHandle}
    {request : BrokerRequest} {next : StoredSessionState} {reserved : ReservedCommand}
    (h : handle.reserveCommand serde request = .ok (next, reserved)) :
    ∃ owner sequence frame, handle.owner = .ok (some owner) ∧
      handle.state.nextSequence = sequence.toU64 ∧ request.isHealth = false ∧
      encodeRequest request = .ok frame ∧
      reserved = ⟨⟨handle.sessionId, owner.ownerEpoch, some owner.ownerInstanceId, sequence⟩,
        request⟩ := by
  obtain ⟨_, -, h⟩ := bind_eq_ok_iff.mp h
  obtain ⟨_, -, h⟩ := bind_eq_ok_iff.mp h
  obtain ⟨_, hhealth, h⟩ := bind_eq_ok_iff.mp h
  obtain ⟨_, -, h⟩ := bind_eq_ok_iff.mp h
  obtain ⟨found, howner, h⟩ := bind_eq_ok_iff.mp h
  cases found with
  | none => cases h
  | some owner =>
    obtain ⟨sequence, hsequence, h⟩ := bind_eq_ok_iff.mp h
    obtain ⟨frame, hframe, h⟩ := bind_eq_ok_iff.mp h
    obtain ⟨_, -, h⟩ := bind_eq_ok_iff.mp h
    obtain ⟨_, -, h⟩ := bind_eq_ok_iff.mp h
    cases h
    exact ⟨owner, sequence, frame, howner, stateField_counter_eq_ok_iff.mp hsequence,
      require_eq_ok_iff.mp hhealth, mapError_eq_ok_iff.mp hframe, rfl⟩

/-! ## The operations are those of the typed store -/

/-- An open store and the typed store it stands for. -/
structure Reads (serde : Serde) (handle : SessionHandle) (store : DurableClientSessionStore) :
    Prop where
  session : store.sessionId = handle.sessionId
  state : decodeState serde handle.state handle.sessionId = .ok store.state

namespace Reads

variable {serde : Serde} {handle : SessionHandle} {store : DurableClientSessionStore}

/-- What stands for a store is valid. -/
theorem validate (hreads : Reads serde handle store) :
    validateState serde handle.state handle.sessionId = .ok () :=
  validateState_eq_ok_iff.mpr ⟨store.state, hreads.state, store.valid⟩

theorem owner_eq (hreads : Reads serde handle store) : handle.owner = .ok store.state.owner :=
  (optionMapM_eq_ok_iff_map decodeOwner_eq_ok_iff).mpr
    (decodeState_eq_ok_iff.mp hreads.state).2.2.2.1

theorem pending_eq (hreads : Reads serde handle store) :
    handle.pendingOwnerAcquisition = .ok store.pendingOwnerAcquisition := by
  have hpending := (optionMapM_eq_ok_iff_map decodePending_eq_ok_iff).mpr
    (decodeState_eq_ok_iff.mp hreads.state).2.2.2.2.1
  rw [SessionHandle.pendingOwnerAcquisition, hpending, ok_bind,
    DurableClientSessionStore.pendingOwnerAcquisition, hreads.session]
  rfl

theorem inFlight_eq (hreads : Reads serde handle store) :
    handle.inFlight serde = .ok store.inFlight := by
  have hinFlight := (decodeState_eq_ok_iff.mp hreads.state).2.2.2.2.2
  rw [SessionHandle.inFlight, hinFlight, ok_bind, DurableClientSessionStore.inFlight,
    hreads.session]
  rfl

theorem inFlight_none_iff (hreads : Reads serde handle store) :
    handle.state.inFlight = none ↔ store.state.inFlight = none := by
  have hinFlight := (decodeState_eq_ok_iff.mp hreads.state).2.2.2.2.2
  rcases optionMapM_eq_ok_iff.mp hinFlight with ⟨hnone, hnone'⟩ | ⟨a, b, ha, hb, -⟩
  · simp [hnone, hnone']
  · simp [ha, hb]

theorem pending_none_iff (hreads : Reads serde handle store) :
    handle.state.pendingOwnerAcquisition = none ↔
      store.state.pendingOwnerAcquisition = none := by
  rw [(decodeState_eq_ok_iff.mp hreads.state).2.2.2.2.1, Option.map_eq_none_iff]

theorem isSome_owner (hreads : Reads serde handle store) :
    handle.state.owner.isSome = store.state.owner.isSome := by
  rw [(decodeState_eq_ok_iff.mp hreads.state).2.2.2.1, Option.isSome_map]

variable {next : StoredSessionState} {identity : CommandIdentity}

/-- Beginning an acquisition is that of the typed store. -/
theorem beginOwnerAcquisition_refines (hreads : Reads serde handle store)
    {ownerInstanceId : SessionOwnerInstanceId} {pending : PendingOwnerAcquisition}
    (h : handle.beginOwnerAcquisition serde ownerInstanceId = .ok (next, pending)) :
    ∃ store', store.beginOwnerAcquisition ownerInstanceId = .ok store' ∧
      Reads serde ⟨handle.sessionId, next⟩ store' := by
  obtain ⟨_, hinFlight, h⟩ := bind_eq_ok_iff.mp h
  obtain ⟨_, hpending, h⟩ := bind_eq_ok_iff.mp h
  obtain ⟨owner, howner, h⟩ := bind_eq_ok_iff.mp h
  obtain ⟨_, hother, h⟩ := bind_eq_ok_iff.mp h
  obtain ⟨_, -, h⟩ := bind_eq_ok_iff.mp h
  cases h
  cases hreads.owner_eq.symm.trans howner
  have hinFlight := hreads.inFlight_none_iff.mp (require_eq_ok_iff.mp hinFlight)
  have hpending := hreads.pending_none_iff.mp (require_eq_ok_iff.mp hpending)
  obtain ⟨store', hstore'⟩ := exists_beginOwnerAcquisition hinFlight
    hpending (require_eq_ok_iff.mp hother)
  obtain ⟨-, -, hsession, hstate⟩ := beginOwnerAcquisition_ok hstore'
  refine ⟨store', hstore', hsession.trans hreads.session, ?_⟩
  obtain ⟨hversion, hid, hsequence, howner, -, hflight⟩ := decodeState_eq_ok_iff.mp hreads.state
  rw [hstate]
  exact decodeState_eq_ok_iff.mpr ⟨hversion, hid, hsequence, howner, rfl, hflight⟩

/-- Confirming an acquisition is that of the typed store. -/
theorem confirmOwnerAcquisition_refines (hreads : Reads serde handle store)
    {ownerEpoch : SessionOwnerEpoch} {owner : DurableSessionOwner}
    (h : handle.confirmOwnerAcquisition serde ownerEpoch = .ok (next, owner)) :
    ∃ store', store.confirmOwnerAcquisition ownerEpoch = .ok store' ∧
      Reads serde ⟨handle.sessionId, next⟩ store' := by
  obtain ⟨pending, hpending, h⟩ := bind_eq_ok_iff.mp h
  cases hreads.pending_eq.symm.trans hpending
  cases hfound : store.state.pendingOwnerAcquisition with
  | none =>
    rw [pendingOwnerAcquisition_of_state_none hfound] at h
    cases h
  | some =>
    rw [pendingOwnerAcquisition_of_state hfound] at h
    obtain ⟨_, hepoch, h⟩ := bind_eq_ok_iff.mp h
    obtain ⟨_, -, h⟩ := bind_eq_ok_iff.mp h
    cases h
    have hepoch := mapError_eq_ok_iff.mp hepoch
    rw [hreads.isSome_owner] at hepoch
    obtain ⟨store', hstore'⟩ :=
      exists_confirmOwnerAcquisition hfound hepoch
    obtain ⟨pending', hpending', -, hsession, hstate⟩ :=
      confirmOwnerAcquisition_ok hstore'
    cases hfound.symm.trans hpending'
    refine ⟨store', hstore', hsession.trans hreads.session, ?_⟩
    obtain ⟨hversion, hid, -, -, -, -⟩ := decodeState_eq_ok_iff.mp hreads.state
    rw [hstate]
    exact decodeState_eq_ok_iff.mpr ⟨hversion, hid, rfl, rfl, rfl, rfl⟩

/-- Reserving a command is that of the typed store, and the frame that is kept decodes to the
request. -/
theorem reserveCommand_refines (hreads : Reads serde handle store) {request : BrokerRequest}
    {reserved : ReservedCommand} (h : handle.reserveCommand serde request = .ok (next, reserved)) :
    ∃ store', store.reserveCommand request = .ok store' ∧
      Reads serde ⟨handle.sessionId, next⟩ store' ∧ store'.inFlight = some reserved := by
  obtain ⟨_, hpending, h⟩ := bind_eq_ok_iff.mp h
  obtain ⟨_, hinFlight, h⟩ := bind_eq_ok_iff.mp h
  obtain ⟨_, hhealth, h⟩ := bind_eq_ok_iff.mp h
  obtain ⟨_, hlast, h⟩ := bind_eq_ok_iff.mp h
  obtain ⟨found, howner, h⟩ := bind_eq_ok_iff.mp h
  cases hreads.owner_eq.symm.trans howner
  cases hfound : store.state.owner with
  | none =>
    rw [hfound] at h
    cases h
  | some =>
    rw [hfound] at h
    obtain ⟨sequence, hsequence, h⟩ := bind_eq_ok_iff.mp h
    obtain ⟨frame, hframe, h⟩ := bind_eq_ok_iff.mp h
    obtain ⟨text, htext, h⟩ := bind_eq_ok_iff.mp h
    obtain ⟨_, -, h⟩ := bind_eq_ok_iff.mp h
    cases h
    obtain ⟨hversion, hid, hnext, hstored, hstoredPending, hflight⟩ :=
      decodeState_eq_ok_iff.mp hreads.state
    have hsequence := stateField_counter_eq_ok_iff.mp hsequence
    cases SessionCounter.toU64_injective (hnext.symm.trans hsequence)
    have hhealth := require_eq_ok_iff.mp hhealth
    have hlast := require_eq_ok_iff.mp hlast
    rw [hnext] at hlast
    have hframe := mapError_eq_ok_iff.mp hframe
    obtain ⟨store', hstore'⟩ := exists_reserveCommand hfound
      (hreads.pending_none_iff.mp (require_eq_ok_iff.mp hpending))
      (hreads.inFlight_none_iff.mp (require_eq_ok_iff.mp hinFlight)) hhealth hlast hframe
    obtain ⟨owner', howner', -, -, hsession, hstate⟩ :=
      reserveCommand_ok hstore'
    cases hfound.symm.trans howner'
    have hlimit := (encodeBounded_eq_ok_iff.mp hframe).2
    have hdecode : decodeRequest serde (Bytes.ofString text) = .ok request := by
      rw [Bytes.ofString_of_toString? (ofOption_eq_ok_iff.mp htext)]
      exact decodeRequest_of_encodeRequest serde hframe hlimit
    refine ⟨store', hstore', ⟨hsession.trans hreads.session, ?_⟩, ?_⟩
    · rw [hstate]
      refine decodeState_eq_ok_iff.mpr ⟨hversion, hid, hnext, ?_, hstoredPending, ?_⟩
      · rw [hstored, hfound]
      · exact optionMapM_eq_ok_iff.mpr (Or.inr ⟨_, _, rfl, rfl,
          decodeInFlight_eq_ok_iff.mpr ⟨rfl, rfl, rfl, hdecode, hhealth⟩⟩)
    · rw [DurableClientSessionStore.inFlight, hstate, hsession, hreads.session]
      rfl

/-- A command whose frame is not too long is reserved wherever the typed store reserves it. -/
theorem exists_reserveCommand (hreads : Reads serde handle store) {owner : DurableSessionOwner}
    (howner : store.state.owner = some owner)
    (hpending : store.state.pendingOwnerAcquisition = none)
    (hinFlight : store.state.inFlight = none) {request : BrokerRequest}
    (hhealth : request.isHealth = false) (hlast : store.state.nextSequence.get ≠ u64Size - 1)
    {frame : Bytes} (hframe : encodeRequest request = .ok frame) :
    ∃ next, handle.reserveCommand serde request = .ok (next,
      ⟨⟨handle.sessionId, owner.ownerEpoch, some owner.ownerInstanceId,
        store.state.nextSequence⟩, request⟩) := by
  obtain ⟨hversion, hid, hnext, hstored, hstoredPending, -⟩ :=
    decodeState_eq_ok_iff.mp hreads.state
  obtain ⟨hcompact, hlimit⟩ := encodeBounded_eq_ok_iff.mp hframe
  -- A frame is JSON and its line feed, hence a text.
  obtain ⟨text, htext⟩ : frame.IsText := by
    rw [hcompact]
    exact (Json.isText_compact (requestRoot_regular (requestPayload_regular request)).whole).append
      (Bytes.IsText.byte (by decide))
  have hdecode : decodeRequest serde (Bytes.ofString text) = .ok request := by
    rw [← htext]
    exact decodeRequest_of_encodeRequest serde hframe hlimit
  have hvalid : validateState serde
      { handle.state with
        inFlight := some ⟨owner.ownerEpoch.toU64, owner.ownerInstanceId.asStr,
          store.state.nextSequence.toU64, text⟩ } handle.sessionId = .ok () := by
    refine validateState_eq_ok_iff.mpr ⟨{ store.state with
      inFlight := some
        ⟨owner.ownerEpoch, owner.ownerInstanceId, store.state.nextSequence, request⟩ }, ?_, ?_⟩
    · exact decodeState_eq_ok_iff.mpr ⟨hversion, hid, hnext, hstored, hstoredPending,
        optionMapM_eq_ok_iff.mpr (Or.inr ⟨_, _, rfl, rfl,
          decodeInFlight_eq_ok_iff.mpr ⟨rfl, rfl, rfl, hdecode, hhealth⟩⟩)⟩
    · obtain ⟨store', hstore'⟩ :=
        DurableClientSessionStore.exists_reserveCommand howner hpending
          hinFlight hhealth hlast hframe
      obtain ⟨owner', howner', -, -, -, hstate⟩ :=
        reserveCommand_ok hstore'
      cases howner.symm.trans howner'
      rw [← hstate]
      exact store'.valid
  rw [SessionHandle.reserveCommand, require_pos (hreads.pending_none_iff.mpr hpending), ok_bind,
    require_pos (hreads.inFlight_none_iff.mpr hinFlight), ok_bind, require_pos hhealth, ok_bind,
    require_pos (show handle.state.nextSequence.get ≠ u64Size - 1 by rw [hnext]; exact hlast),
    ok_bind, hreads.owner_eq, howner, ok_bind]
  exact ⟨_, bind_eq_ok_iff.mpr ⟨_, stateField_counter_eq_ok_iff.mpr hnext,
    bind_eq_ok_iff.mpr ⟨frame, mapError_eq_ok_iff.mpr hframe,
    bind_eq_ok_iff.mpr ⟨text, ofOption_eq_ok_iff.mpr
      (htext ▸ Bytes.toString?_ofString text),
    bind_eq_ok_iff.mpr ⟨⟨⟩, hvalid, rfl⟩⟩⟩⟩⟩

/-- The guards of an outcome are those of the typed store. -/
theorem requireInFlight_refines (hreads : Reads serde handle store) {absent mismatch : String}
    (h : handle.requireInFlight serde identity absent mismatch = .ok ()) :
    ∃ reserved, store.inFlight = some reserved ∧ reserved.identity = identity := by
  obtain ⟨inFlight, hinFlight, h⟩ := bind_eq_ok_iff.mp h
  cases hreads.inFlight_eq.symm.trans hinFlight
  cases hfound : store.inFlight with
  | none =>
    rw [hfound] at h
    cases h
  | some reserved =>
    rw [hfound] at h
    exact ⟨reserved, rfl, require_eq_ok_iff.mp h⟩

/-- Acknowledging an outcome is that of the typed store. -/
theorem acknowledgeInFlightOutcome_refines (hreads : Reads serde handle store)
    (h : handle.acknowledgeInFlightOutcome serde identity = .ok next) :
    ∃ store', store.acknowledgeInFlightOutcome identity = .ok store' ∧
      Reads serde ⟨handle.sessionId, next⟩ store' := by
  obtain ⟨_, hrequire, h⟩ := bind_eq_ok_iff.mp h
  obtain ⟨reserved, hreserved, rfl⟩ := hreads.requireInFlight_refines hrequire
  cases hnext : reserved.identity.sequence.next with
  | none =>
    rw [hnext] at h
    cases h
  | some =>
    rw [hnext] at h
    obtain ⟨_, -, h⟩ := bind_eq_ok_iff.mp h
    cases h
    obtain ⟨store', hstore'⟩ :=
      exists_acknowledgeInFlightOutcome hreserved hnext
    obtain ⟨sequence', hsequence', hsession, hstate⟩ :=
      acknowledgeInFlightOutcome_ok hstore'
    cases hnext.symm.trans hsequence'
    refine ⟨store', hstore', hsession.trans hreads.session, ?_⟩
    obtain ⟨hversion, hid, -, howner, hpending, -⟩ := decodeState_eq_ok_iff.mp hreads.state
    rw [hstate]
    exact decodeState_eq_ok_iff.mpr ⟨hversion, hid, rfl, howner, hpending, rfl⟩

/-- Releasing a rejected command is that of the typed store. -/
theorem releaseRejectedInFlight_refines (hreads : Reads serde handle store)
    (h : handle.releaseRejectedInFlight serde identity = .ok next) :
    ∃ store', store.releaseRejectedInFlight identity = .ok store' ∧
      Reads serde ⟨handle.sessionId, next⟩ store' := by
  obtain ⟨_, hrequire, hcommit⟩ := bind_eq_ok_iff.mp h
  obtain ⟨reserved, hreserved, rfl⟩ := hreads.requireInFlight_refines hrequire
  obtain ⟨_, -, hcommit⟩ := bind_eq_ok_iff.mp hcommit
  cases hcommit
  obtain ⟨store', hstore'⟩ := exists_releaseRejectedInFlight hreserved
  obtain ⟨hsession, hstate⟩ := releaseRejectedInFlight_ok hstore'
  refine ⟨store', hstore', hsession.trans hreads.session, ?_⟩
  obtain ⟨hversion, hid, hsequence, howner, hpending, -⟩ := decodeState_eq_ok_iff.mp hreads.state
  rw [hstate]
  exact decodeState_eq_ok_iff.mpr ⟨hversion, hid, hsequence, howner, hpending, rfl⟩

end Reads

end AgentBroker
