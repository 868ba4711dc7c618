import AgentBroker.Client.SessionJson
import AgentBroker.Protocol.WireRequest
import AgentBroker.Lib.Run

/-!
# Crashes of a client

The file of a session store, the process that has it open, and everything that can happen to
them: the process calls the store, a write fails, the process stops or crashes in the middle
of a write, and it opens the file again.  Replacing the file is atomic, so that a crash
leaves the old state or the new one; and a state that was written is read back.

## Main results

* `sound_run` — along every run the file holds a valid state, and an open store agrees with
  it.
* `session_store_invariant` — what the file holds, how it changes from one event to the next,
  and that a reserved command survives until it is resolved.
-/

namespace AgentBroker

open DurableClientSessionStore
open Except hiding error
open Option

/-! ## The file and the process -/

/-- The file at the path of a store, and the store if it is open. -/
structure SessionWorld where
  file : Option Bytes
  handle : Option SessionHandle

/-- How an attempt to replace the file ends. -/
inductive WriteOutcome where
  | written
  | failed (context : String)
  /-- The process crashes and the old file stays. -/
  | crashedBefore
  /-- The process crashes after the file was replaced. -/
  | crashedAfter
  deriving DecidableEq, Repr

/-- The new state is in the file. -/
def WriteOutcome.replaces : WriteOutcome → Bool
  | .written => true
  | .crashedAfter => true
  | _ => false

/-- The calls that change a store. -/
inductive SessionCall where
  | beginOwnerAcquisition (ownerInstanceId : SessionOwnerInstanceId)
  | confirmOwnerAcquisition (ownerEpoch : SessionOwnerEpoch)
  | reserveCommand (request : BrokerRequest)
  | acknowledgeInFlightOutcome (identity : CommandIdentity)
  | releaseRejectedInFlight (identity : CommandIdentity)
  deriving DecidableEq

/-- What happens to a store. -/
inductive StoreEvent where
  | openOrCreate (sessionId : CommandSessionId) (outcome : WriteOutcome)
  | call (call : SessionCall) (outcome : WriteOutcome)
  /-- The process closes the store, or crashes between two calls. -/
  | stop
  deriving DecidableEq

/-- How a call ends. -/
inductive SessionAnswer where
  | done
  | refused (error : SessionFileError)
  | crashed
  /-- There was no open store to call. -/
  | closed
  deriving DecidableEq

section Step

variable (json : SessionJson) (serde : Serde)

/-- The state a call is about to write. -/
def SessionCall.next (handle : SessionHandle) :
    SessionCall → Except SessionFileError StoredSessionState
  | .beginOwnerAcquisition ownerInstanceId =>
    Prod.fst <$> handle.beginOwnerAcquisition serde ownerInstanceId
  | .confirmOwnerAcquisition ownerEpoch =>
    Prod.fst <$> handle.confirmOwnerAcquisition serde ownerEpoch
  | .reserveCommand request => Prod.fst <$> handle.reserveCommand serde request
  | .acknowledgeInFlightOutcome identity => handle.acknowledgeInFlightOutcome serde identity
  | .releaseRejectedInFlight identity => handle.releaseRejectedInFlight serde identity

/-- `persist_state`, and what the process then holds. -/
def SessionWorld.write (world : SessionWorld) (sessionId : CommandSessionId)
    (next : StoredSessionState) : WriteOutcome → SessionWorld × SessionAnswer
  | .written => (⟨some (json.toVec next), some ⟨sessionId, next⟩⟩, .done)
  | .failed context => (world, .refused (.io context))
  | .crashedBefore => (⟨world.file, none⟩, .crashed)
  | .crashedAfter => (⟨some (json.toVec next), none⟩, .crashed)

/-- `load_state`. -/
def loadState (bytes : Bytes) (expectedSessionId : CommandSessionId) :
    Except SessionFileError StoredSessionState := do
  let state ← (json.fromSlice bytes).mapError fun error =>
    .store (.invalidState ("state JSON decode failed: " ++ error))
  validateState serde state expectedSessionId
  return state

/-- `open_or_create`, under the lock that keeps out a second process. -/
def SessionWorld.openOrCreate (world : SessionWorld) (sessionId : CommandSessionId)
    (outcome : WriteOutcome) : SessionWorld × SessionAnswer :=
  match world.handle, world.file with
  | some _, _ => (world, .refused .stateAlreadyOwned)
  | none, none => world.write json sessionId (.new sessionId) outcome
  | none, some bytes =>
    match loadState json serde bytes sessionId with
    | .error error => (world, .refused error)
    | .ok state => ({ world with handle := some ⟨sessionId, state⟩ }, .done)

/-- One event. -/
def SessionWorld.step (world : SessionWorld) : StoreEvent → SessionWorld × SessionAnswer
  | .openOrCreate sessionId outcome => world.openOrCreate json serde sessionId outcome
  | .call call outcome =>
    match world.handle with
    | none => (world, .closed)
    | some handle =>
      match call.next serde handle with
      | .error error => (world, .refused error)
      | .ok next => world.write json handle.sessionId next outcome
  | .stop => ({ world with handle := none }, .done)

/-- The end of a run that starts without a file. -/
def SessionWorld.run (events : List StoreEvent) : SessionWorld :=
  Run.final (SessionWorld.step json serde) ⟨none, none⟩ events

/-- What the file holds. -/
def SessionWorld.persisted (world : SessionWorld) : Option StoredSessionState :=
  world.file.bind fun bytes => (json.fromSlice bytes).toOption

end Step

/-! ## The typed store behind the file -/

/-- The calls on the typed store. -/
def DurableClientSessionStore.apply (store : DurableClientSessionStore) :
    SessionCall → Except ClientSessionStoreError DurableClientSessionStore
  | .beginOwnerAcquisition ownerInstanceId => store.beginOwnerAcquisition ownerInstanceId
  | .confirmOwnerAcquisition ownerEpoch => store.confirmOwnerAcquisition ownerEpoch
  | .reserveCommand request => store.reserveCommand request
  | .acknowledgeInFlightOutcome identity => store.acknowledgeInFlightOutcome identity
  | .releaseRejectedInFlight identity => store.releaseRejectedInFlight identity

section Sound

variable {json : SessionJson} {serde : Serde} {handle : SessionHandle}
  {store : DurableClientSessionStore}

theorem exists_of_fst_map {α β ε : Type} {x : Except ε (α × β)} {a : α}
    (h : Prod.fst <$> x = .ok a) : ∃ b, x = .ok (a, b) := by
  cases x with
  | error => cases h
  | ok pair =>
    cases h
    exact ⟨pair.2, rfl⟩

variable {call : SessionCall} {next state : StoredSessionState} {sessionId : CommandSessionId}
  {outcome : WriteOutcome}

/-- **Every call is that of the typed store.** -/
theorem Reads.next_refines (hreads : Reads serde handle store)
    (h : call.next serde handle = .ok next) :
    ∃ store', store.apply call = .ok store' ∧ Reads serde ⟨handle.sessionId, next⟩ store' := by
  cases call with
  | beginOwnerAcquisition =>
    obtain ⟨pending, h⟩ := exists_of_fst_map h
    exact hreads.beginOwnerAcquisition_refines h
  | confirmOwnerAcquisition =>
    obtain ⟨owner, h⟩ := exists_of_fst_map h
    exact hreads.confirmOwnerAcquisition_refines h
  | reserveCommand =>
    obtain ⟨reserved, h⟩ := exists_of_fst_map h
    obtain ⟨store', hstore', hreads', -⟩ := hreads.reserveCommand_refines h
    exact ⟨store', hstore', hreads'⟩
  | acknowledgeInFlightOutcome => exact hreads.acknowledgeInFlightOutcome_refines h
  | releaseRejectedInFlight => exact hreads.releaseRejectedInFlight_refines h

/-- What every reachable store has besides its validity: a pending acquisition expects the
epoch of the confirmed owner, and the last sequence is never in flight. -/
structure DurableClientSessionStore.Anchored (store : DurableClientSessionStore) : Prop where
  expected : ∀ pending, store.state.pendingOwnerAcquisition = some pending →
    pending.expectedOwnerEpoch =
      (store.state.owner.map DurableSessionOwner.ownerEpoch).getD SessionCounter.initial
  notLast : ∀ inFlight, store.state.inFlight = some inFlight →
    ∃ next, store.state.nextSequence.next = some next

theorem DurableClientSessionStore.anchored_create (sessionId : CommandSessionId) :
    (create sessionId).Anchored := by
  refine ⟨fun pending h => ?_, fun inFlight h => ?_⟩ <;> cases h

theorem DurableClientSessionStore.Anchored.apply {store' : DurableClientSessionStore}
    (hstore : store.Anchored) (h : store.apply call = .ok store') :
    store'.Anchored := by
  cases call with
  | beginOwnerAcquisition =>
    obtain ⟨hinFlight, -, -, hstate⟩ := beginOwnerAcquisition_ok h
    refine ⟨fun pending hpending => ?_, fun inFlight hfound => ?_⟩
    · rw [hstate] at hpending ⊢
      cases hpending
      rfl
    · rw [hstate] at hfound
      exact absurd (hfound.symm.trans hinFlight) (some_ne_none _)
  | confirmOwnerAcquisition =>
    obtain ⟨_, -, -, -, hstate⟩ := confirmOwnerAcquisition_ok h
    refine ⟨fun pending hpending => ?_, fun inFlight hfound => ?_⟩
    · rw [hstate] at hpending
      cases hpending
    · rw [hstate] at hfound
      cases hfound
  | reserveCommand =>
    obtain ⟨owner, -, hpending, -, -, hstate⟩ := reserveCommand_ok h
    obtain ⟨-, hnext⟩ := guards_of_reserveCommand h
    refine ⟨fun pending hfound => ?_, fun _ _ => ?_⟩
    · rw [hstate] at hfound
      exact absurd (hfound.symm.trans hpending) (some_ne_none _)
    · rw [hstate]
      exact hnext
  | acknowledgeInFlightOutcome =>
    obtain ⟨next, -, -, hstate⟩ := acknowledgeInFlightOutcome_ok h
    refine ⟨fun pending hpending => ?_, fun inFlight hfound => ?_⟩
    · rw [hstate] at hpending ⊢
      exact hstore.expected pending hpending
    · rw [hstate] at hfound
      cases hfound
  | releaseRejectedInFlight =>
    obtain ⟨-, hstate⟩ := releaseRejectedInFlight_ok h
    refine ⟨fun pending hpending => ?_, fun inFlight hfound => ?_⟩
    · rw [hstate] at hpending ⊢
      exact hstore.expected pending hpending
    · rw [hstate] at hfound
      cases hfound

/-- A new file stands for a new store. -/
theorem reads_new (serde : Serde) (sessionId : CommandSessionId) :
    Reads serde ⟨sessionId, .new sessionId⟩ (.create sessionId) :=
  ⟨rfl, decodeState_eq_ok_iff.mpr ⟨rfl, rfl, rfl, rfl, rfl, rfl⟩⟩

/-! ## What the file holds -/

/-- The file holds the state of a typed store, and the open store agrees with it. -/
structure SessionWorld.Holds (json : SessionJson) (serde : Serde) (world : SessionWorld)
    (handle : SessionHandle) (store : DurableClientSessionStore) : Prop where
  file : world.file = some (json.toVec handle.state)
  opened : world.handle = none ∨ world.handle = some handle
  reads : Reads serde handle store
  anchored : store.Anchored

/-- Nothing was created yet, or the file holds the state of a typed store. -/
def SessionWorld.Sound (json : SessionJson) (serde : Serde) (world : SessionWorld) : Prop :=
  (world.file = none ∧ world.handle = none) ∨ ∃ handle store, world.Holds json serde handle store

/-- The state that an event puts into an existing file. -/
def SessionWorld.committed (serde : Serde) (world : SessionWorld) :
    StoreEvent → Option StoredSessionState
  | .call call outcome =>
    if outcome.replaces then world.handle.bind fun handle => (call.next serde handle).toOption
    else none
  | _ => none

variable {world : SessionWorld} {event : StoreEvent}

theorem SessionWorld.persisted_of_file (h : world.file = some (json.toVec state)) :
    world.persisted json = some state := by
  rw [persisted, h, bind_some, json.fromSlice_toVec]
  rfl

theorem loadState_toVec (h : validateState serde state sessionId = .ok ()) :
    loadState json serde (json.toVec state) sessionId = .ok state := by
  rw [loadState, json.fromSlice_toVec, Except.mapError, ok_bind, h]
  rfl

/-- What is loaded is the state in the file, under the session it was written for. -/
theorem Reads.of_loadState (hreads : Reads serde handle store)
    (h : loadState json serde (json.toVec handle.state) sessionId = .ok state) :
    (⟨sessionId, state⟩ : SessionHandle) = handle := by
  rw [loadState, json.fromSlice_toVec, Except.mapError, ok_bind] at h
  obtain ⟨_, hvalid, h⟩ := bind_eq_ok_iff.mp h
  cases h
  obtain ⟨decoded, hdecoded, -⟩ := validateState_eq_ok_iff.mp hvalid
  -- Both sessions are spelled as the record has it.
  have hsame : sessionId.asStr = handle.sessionId.asStr :=
    (decodeState_eq_ok_iff.mp hdecoded).2.1.symm.trans (decodeState_eq_ok_iff.mp hreads.state).2.1
  rw [SessionText.asStr_injective hsame]

/-- Writing the state of a typed store. -/
theorem SessionWorld.holds_write (hreads : Reads serde handle store) (hstore : store.Anchored)
    (houtcome : outcome.replaces = true) :
    (world.write json handle.sessionId handle.state outcome).1.Holds json serde handle store := by
  cases outcome with
  | written => exact ⟨rfl, Or.inr rfl, hreads, hstore⟩
  | crashedAfter => exact ⟨rfl, Or.inl rfl, hreads, hstore⟩
  | failed | crashedBefore => cases houtcome

/-- A write that does not replace the file leaves it, and the open store is left or lost. -/
theorem SessionWorld.write_of_not_replaces (houtcome : outcome.replaces = false) :
    (world.write json sessionId next outcome).1.file = world.file ∧
      ((world.write json sessionId next outcome).1.handle = none ∨
        (world.write json sessionId next outcome).1.handle = world.handle) := by
  cases outcome with
  | written | crashedAfter => cases houtcome
  | failed => exact ⟨rfl, Or.inr rfl⟩
  | crashedBefore => exact ⟨rfl, Or.inl rfl⟩

namespace SessionWorld.Holds

theorem eq_of_opened (h : world.Holds json serde handle store) {opened : SessionHandle}
    (hopen : world.handle = some opened) : opened = handle := by
  rcases h.opened with hnone | hsome
  · cases hnone.symm.trans hopen
  · exact Option.some.inj (hopen.symm.trans hsome)

/-- The same file, with an open store that is unchanged or closed. -/
theorem of_file_eq (h : world.Holds json serde handle store) {next : SessionWorld}
    (hfile : next.file = world.file) (hhandle : next.handle = none ∨ next.handle = world.handle) :
    next.Holds json serde handle store := by
  refine ⟨hfile.trans h.file, ?_, h.reads, h.anchored⟩
  rcases hhandle with hnone | hsame
  · exact Or.inl hnone
  · rw [hsame]
    exact h.opened

/-- Opening the file opens the state in it, or is refused. -/
theorem openOrCreate (h : world.Holds json serde handle store) (sessionId : CommandSessionId)
    (outcome : WriteOutcome) :
    (world.openOrCreate json serde sessionId outcome).1.Holds json serde handle store := by
  unfold SessionWorld.openOrCreate
  rw [h.file]
  cases hopen : world.handle with
  | some => exact h
  | none =>
    dsimp only
    cases hload : loadState json serde (json.toVec handle.state) sessionId with
    | error => exact h
    | ok =>
      exact ⟨rfl, Or.inr (congrArg some (h.reads.of_loadState hload)), h.reads, h.anchored⟩

/-- An event that commits nothing keeps what the file holds. -/
theorem step_of_not_committed (h : world.Holds json serde handle store)
    (hnone : world.committed serde event = none) :
    (world.step json serde event).1.Holds json serde handle store := by
  cases event with
  | openOrCreate sessionId outcome => exact h.openOrCreate sessionId outcome
  | stop => exact h.of_file_eq rfl (Or.inl rfl)
  | call call outcome =>
    rw [SessionWorld.committed] at hnone
    unfold SessionWorld.step
    cases hopen : world.handle with
    | none => exact h
    | some opened =>
      dsimp only
      cases hnext : call.next serde opened with
      | error => exact h
      | ok =>
        rw [hopen, bind_some, hnext] at hnone
        have houtcome : outcome.replaces = false := by
          cases outcome <;> first | rfl | cases hnone
        obtain ⟨hfile, hhandle⟩ := write_of_not_replaces houtcome
        exact h.of_file_eq hfile hhandle

/-- An event that commits a state is a call of the open store that the typed store answers
too. -/
theorem step_of_committed (h : world.Holds json serde handle store) {next : StoredSessionState}
    (hsome : world.committed serde event = some next) :
    ∃ call outcome store', event = .call call outcome ∧ world.handle = some handle ∧
      store.apply call = .ok store' ∧
      (world.step json serde event).1.Holds json serde ⟨handle.sessionId, next⟩ store' := by
  cases event with
  | openOrCreate | stop => cases hsome
  | call call outcome =>
    rw [SessionWorld.committed] at hsome
    split_ifs at hsome with houtcome
    obtain ⟨opened, hopen, hnext⟩ := bind_eq_some_iff.mp hsome
    cases h.eq_of_opened hopen
    cases hcall : call.next serde handle with
    | error =>
      rw [hcall] at hnext
      cases hnext
    | ok =>
      rw [hcall] at hnext
      cases hnext
      obtain ⟨store', hstore', hreads'⟩ := h.reads.next_refines hcall
      refine ⟨call, outcome, store', rfl, hopen, hstore', ?_⟩
      unfold SessionWorld.step
      rw [hopen]
      dsimp only
      rw [hcall]
      exact holds_write hreads' (h.anchored.apply hstore') houtcome

end SessionWorld.Holds

/-- Without a file nothing happens but that one is created. -/
theorem SessionWorld.step_of_absent (json : SessionJson) (serde : Serde)
    (hfile : world.file = none) (hhandle : world.handle = none) (event : StoreEvent) :
    ((world.step json serde event).1.file = none ∧
      (world.step json serde event).1.handle = none) ∨
    ∃ sessionId, (world.step json serde event).1.Holds json serde
      ⟨sessionId, .new sessionId⟩ (.create sessionId) := by
  obtain ⟨file, opened⟩ := world
  cases hfile
  cases hhandle
  cases event with
  | stop | call => exact Or.inl ⟨rfl, rfl⟩
  | openOrCreate sessionId outcome =>
    cases houtcome : outcome.replaces with
    | false =>
      obtain ⟨hfile, hhandle⟩ := write_of_not_replaces houtcome
      exact Or.inl ⟨hfile, hhandle.elim id id⟩
    | true =>
      exact Or.inr ⟨sessionId, holds_write (reads_new serde sessionId)
        (anchored_create sessionId) houtcome⟩

theorem SessionWorld.Sound.step (h : world.Sound json serde) (event : StoreEvent) :
    (world.step json serde event).1.Sound json serde := by
  rcases h with ⟨hfile, hhandle⟩ | ⟨handle, store, hholds⟩
  · rcases step_of_absent json serde hfile hhandle event with habsent | ⟨_, hcreated⟩
    · exact Or.inl habsent
    · exact Or.inr ⟨_, _, hcreated⟩
  · right
    cases hcommitted : world.committed serde event with
    | none => exact ⟨_, _, hholds.step_of_not_committed hcommitted⟩
    | some =>
      obtain ⟨_, _, store', -, -, -, hholds'⟩ := hholds.step_of_committed hcommitted
      exact ⟨_, store', hholds'⟩

/-- **Along every run the file holds a valid state, and the open store agrees with it.** -/
theorem SessionWorld.sound_run (json : SessionJson) (serde : Serde) (events : List StoreEvent) :
    (run json serde events).Sound json serde := by
  have hstep : ∀ (world : SessionWorld) (event : StoreEvent), world.Sound json serde →
      (world.step json serde event).1.Sound json serde := fun _ event h => h.step event
  exact Run.final_invariant hstep (Or.inl ⟨rfl, rfl⟩) events

/-! ## How the persisted state changes -/

/-- The relations inside of a state: an acquisition and a command are not both open, and a
command in flight carries the confirmed owner and the next sequence. -/
structure StoredSessionState.Consistent (state : StoredSessionState) : Prop where
  exclusive : state.pendingOwnerAcquisition = none ∨ state.inFlight = none
  inFlight : ∀ inFlight, state.inFlight = some inFlight → ∃ owner, state.owner = some owner ∧
    inFlight.ownerEpoch = owner.ownerEpoch ∧ inFlight.ownerInstanceId = owner.ownerInstanceId ∧
    inFlight.sequence = state.nextSequence

/-- The state `after` follows `before`: the owner stays, or one with a greater epoch starts
at the first sequence; under an owner the sequence moves by one where a command is
acknowledged, and not at all otherwise. -/
structure StoredSessionState.Advances (before : StoredSessionState) (acknowledged : Prop)
    (after : StoredSessionState) : Prop where
  owner : after.owner = before.owner ∨ ∃ owner, after.owner = some owner ∧
    after.nextSequence.get = 1 ∧
    ∀ old, before.owner = some old → old.ownerEpoch.get < owner.ownerEpoch.get
  moved : acknowledged → after.owner = before.owner ∧
    after.nextSequence.get = before.nextSequence.get + 1
  kept : ¬acknowledged → after.owner = before.owner → after.nextSequence = before.nextSequence

/-- The event writes the acknowledgment of the command in flight. -/
def SessionWorld.Acknowledges (serde : Serde) (world : SessionWorld) (event : StoreEvent) :
    Prop :=
  ∃ handle reserved outcome, world.handle = some handle ∧
    handle.inFlight serde = .ok (some reserved) ∧
    event = .call (.acknowledgeInFlightOutcome reserved.identity) outcome ∧
    outcome.replaces = true

/-- The event acknowledges or releases a command. -/
def StoreEvent.Resolves (identity : CommandIdentity) (event : StoreEvent) : Prop :=
  ∃ outcome, event = .call (.acknowledgeInFlightOutcome identity) outcome ∨
    event = .call (.releaseRejectedInFlight identity) outcome

theorem Reads.consistent (hreads : Reads serde handle store) : handle.state.Consistent := by
  obtain ⟨-, -, hsequence, howner, hpending, hflight⟩ := decodeState_eq_ok_iff.mp hreads.state
  obtain ⟨hexclusive, -, hvalid⟩ := validateStateRelationships_iff.mp store.valid
  refine ⟨?_, fun stored hstored => ?_⟩
  · rw [hreads.pending_none_iff, hreads.inFlight_none_iff]
    exact hexclusive
  · rcases optionMapM_eq_ok_iff.mp hflight with ⟨hnone, -⟩ | ⟨a, inFlight, ha, hb, hdecode⟩
    · cases hnone.symm.trans hstored
    · cases ha.symm.trans hstored
      obtain ⟨owner, hfound, hepoch, hinstance, hnext⟩ := hvalid inFlight hb
      obtain ⟨hepoch', hinstance', hsequence', -, -⟩ := decodeInFlight_eq_ok_iff.mp hdecode
      refine ⟨.ofOwner owner, ?_, ?_, ?_, ?_⟩
      · rw [howner, hfound]
        rfl
      · rw [hepoch', hepoch]
        rfl
      · rw [hinstance', hinstance]
        rfl
      · rw [hsequence', hsequence, hnext]

namespace DurableClientSessionStore

theorem inFlight_of_requireInFlight {identity : CommandIdentity} {absent mismatch : String}
    (h : store.requireInFlight identity absent mismatch = .ok ()) :
    ∃ reserved, store.inFlight = some reserved ∧ reserved.identity = identity := by
  unfold requireInFlight at h
  cases hfound : store.inFlight with
  | none =>
    rw [hfound] at h
    cases h
  | some reserved =>
    rw [hfound] at h
    exact ⟨reserved, rfl, require_eq_ok_iff.mp h⟩

/-- A call that succeeds while a command is in flight resolves it. -/
theorem resolves_of_apply {store' : DurableClientSessionStore} {call : SessionCall}
    {reserved : ReservedCommand} (hreserved : store.inFlight = some reserved)
    (h : store.apply call = .ok store') (outcome : WriteOutcome) :
    (StoreEvent.call call outcome).Resolves reserved.identity := by
  obtain ⟨inFlight, hinFlight, -⟩ := map_eq_some_iff.mp hreserved
  have hblocked : ∀ {P : Prop}, store.state.inFlight = none → P := fun hnone =>
    absurd (hinFlight.symm.trans hnone) (some_ne_none _)
  cases call with
  | beginOwnerAcquisition =>
    exact hblocked (beginOwnerAcquisition_ok h).1
  | confirmOwnerAcquisition =>
    -- Something else would have to be pending, which a valid store excludes.
    obtain ⟨pending, hpending, -⟩ := confirmOwnerAcquisition_ok h
    rcases (validateStateRelationships_iff.mp store.valid).1 with hnone | hnone
    · cases hpending.symm.trans hnone
    · exact hblocked hnone
  | reserveCommand =>
    obtain ⟨_, -, -, hnone, -⟩ := reserveCommand_ok h
    exact hblocked hnone
  | acknowledgeInFlightOutcome =>
    obtain ⟨_, hrequire, -⟩ := bind_eq_ok_iff.mp h
    obtain ⟨other, hother, rfl⟩ := inFlight_of_requireInFlight hrequire
    cases hreserved.symm.trans hother
    exact ⟨outcome, Or.inl rfl⟩
  | releaseRejectedInFlight =>
    obtain ⟨_, hrequire, -⟩ := bind_eq_ok_iff.mp h
    obtain ⟨other, hother, rfl⟩ := inFlight_of_requireInFlight hrequire
    cases hreserved.symm.trans hother
    exact ⟨outcome, Or.inr rfl⟩

end DurableClientSessionStore

/-- The file's own fields follow those of the typed store. -/
theorem Reads.advances {handle' : SessionHandle} {store' : DurableClientSessionStore}
    (hreads : Reads serde handle store) (hreads' : Reads serde handle' store')
    (hstore : store.Anchored) (h : store.apply call = .ok store') :
    handle.state.Advances (∃ identity, call = .acknowledgeInFlightOutcome identity)
      handle'.state := by
  obtain ⟨-, -, hsequence, howner, -, -⟩ := decodeState_eq_ok_iff.mp hreads.state
  obtain ⟨-, -, hsequence', howner', -, -⟩ := decodeState_eq_ok_iff.mp hreads'.state
  -- A call that leaves the owner and the sequence.
  have hsame : store'.state.owner = store.state.owner →
      store'.state.nextSequence = store.state.nextSequence →
      (∀ identity, call ≠ .acknowledgeInFlightOutcome identity) →
      handle.state.Advances (∃ identity, call = .acknowledgeInFlightOutcome identity)
        handle'.state := by
    intro hown hseq hcall
    refine ⟨Or.inl ?_, fun ⟨identity, heq⟩ => absurd heq (hcall identity), fun _ _ => ?_⟩
    · rw [howner', howner, hown]
    · rw [hsequence', hsequence, hseq]
  cases call with
  | beginOwnerAcquisition =>
    obtain ⟨-, -, -, hstate⟩ := beginOwnerAcquisition_ok h
    exact hsame (by rw [hstate]) (by rw [hstate]) (fun _ heq => nomatch heq)
  | reserveCommand =>
    obtain ⟨_, -, -, -, -, hstate⟩ := reserveCommand_ok h
    exact hsame (by rw [hstate]) (by rw [hstate]) (fun _ heq => nomatch heq)
  | releaseRejectedInFlight =>
    obtain ⟨-, hstate⟩ := releaseRejectedInFlight_ok h
    exact hsame (by rw [hstate]) (by rw [hstate]) (fun _ heq => nomatch heq)
  | acknowledgeInFlightOutcome =>
    obtain ⟨next, hnext, -, hstate⟩ := acknowledgeInFlightOutcome_ok h
    obtain ⟨_, hrequire, -⟩ := bind_eq_ok_iff.mp h
    obtain ⟨reserved, hreserved, rfl⟩ :=
      inFlight_of_requireInFlight hrequire
    obtain ⟨_, -, hidentity⟩ := inFlight_owner hreserved
    rw [hidentity] at hnext
    have hown : handle'.state.owner = handle.state.owner := by
      rw [howner', howner, hstate]
    refine ⟨Or.inl hown, fun _ => ⟨hown, ?_⟩, fun hnot => absurd ⟨_, rfl⟩ hnot⟩
    rw [hsequence', hsequence, hstate]
    exact SessionCounter.next_get hnext
  | confirmOwnerAcquisition ownerEpoch =>
    obtain ⟨pending, hpending, hepoch, -, hstate⟩ :=
      confirmOwnerAcquisition_ok h
    have hnew : handle'.state.owner = some (.ofOwner ⟨ownerEpoch, pending.ownerInstanceId⟩) := by
      rw [howner', hstate]
      rfl
    have hgreater : ∀ old, handle.state.owner = some old →
        old.ownerEpoch.get < ownerEpoch.get := by
      intro old hold
      rw [howner] at hold
      obtain ⟨confirmed, hconfirmed, rfl⟩ := map_eq_some_iff.mp hold
      -- The acquisition expected the confirmed epoch, and replacing it takes the next.
      have hexpected := hstore.expected pending hpending
      rw [hconfirmed, map_some, getD_some] at hexpected
      rw [hconfirmed, hexpected] at hepoch
      have hnext := validateAcquiredEpoch_replacing hepoch
      have hget := SessionCounter.next_get hnext
      change confirmed.ownerEpoch.get < _
      omega
    refine ⟨Or.inr ⟨_, hnew, ?_, hgreater⟩, fun ⟨_, heq⟩ => ?_, fun _ hown => ?_⟩
    · rw [hsequence', hstate]
      rfl
    · cases heq
    · exact absurd (hgreater _ (hown.symm.trans hnew)) (Nat.lt_irrefl _)

/-- Nothing stands in the way of an acknowledgment of the command in flight. -/
theorem Reads.exists_acknowledge (hreads : Reads serde handle store) (hstore : store.Anchored)
    {reserved : ReservedCommand} (hreserved : store.inFlight = some reserved) :
    ∃ next, handle.acknowledgeInFlightOutcome serde reserved.identity = .ok next := by
  obtain ⟨inFlight, hinFlight, -⟩ := map_eq_some_iff.mp hreserved
  obtain ⟨owner, hfound, hidentity⟩ := inFlight_owner hreserved
  obtain ⟨sequence, hsequence⟩ := hstore.notLast inFlight hinFlight
  have hnext : reserved.identity.sequence.next = some sequence := by
    rw [hidentity]
    exact hsequence
  obtain ⟨hversion, hid, -, howner, hpending, -⟩ := decodeState_eq_ok_iff.mp hreads.state
  have hvalid : validateState serde
      { handle.state with nextSequence := sequence.toU64, inFlight := none }
      handle.sessionId = .ok () :=
    validateState_eq_ok_iff.mpr
      ⟨{ store.state with nextSequence := sequence, inFlight := none },
        decodeState_eq_ok_iff.mpr ⟨hversion, hid, rfl, howner, hpending, rfl⟩,
        valid_of_owner hfound rfl⟩
  have hrequire : handle.requireInFlight serde reserved.identity
      "cannot acknowledge an outcome without an in-flight command"
      "outcome identity does not match durable in-flight command" = .ok () := by
    rw [SessionHandle.requireInFlight, hreads.inFlight_eq, hreserved]
    exact require_eq_ok_iff.mpr rfl
  rw [SessionHandle.acknowledgeInFlightOutcome, hrequire, ok_bind, hnext]
  exact ⟨_, bind_eq_ok_iff.mpr ⟨⟨⟩, hvalid, rfl⟩⟩

namespace SessionWorld.Holds

/-- An acknowledgment of the command in flight is written exactly where an acknowledgment is
committed. -/
theorem acknowledges_iff (h : world.Holds json serde handle store) :
    world.Acknowledges serde event ↔ ∃ next identity outcome,
      world.committed serde event = some next ∧
      event = .call (.acknowledgeInFlightOutcome identity) outcome := by
  constructor
  · rintro ⟨opened, reserved, outcome, hopen, hreserved, rfl, houtcome⟩
    cases h.eq_of_opened hopen
    rw [h.reads.inFlight_eq] at hreserved
    obtain ⟨next, hnext⟩ := h.reads.exists_acknowledge h.anchored (Except.ok.inj hreserved)
    refine ⟨next, _, outcome, ?_, rfl⟩
    rw [SessionWorld.committed, if_pos houtcome, hopen, bind_some, SessionCall.next, hnext]
    rfl
  · rintro ⟨next, identity, outcome, hcommitted, rfl⟩
    have houtcome : outcome.replaces = true := by
      rw [SessionWorld.committed] at hcommitted
      split_ifs at hcommitted with houtcome
      exact houtcome
    obtain ⟨call, _, store', hevent, hopen, happly, -⟩ := h.step_of_committed hcommitted
    cases hevent
    obtain ⟨_, hrequire, -⟩ := bind_eq_ok_iff.mp happly
    obtain ⟨reserved, hreserved, rfl⟩ :=
      inFlight_of_requireInFlight hrequire
    refine ⟨handle, reserved, outcome, hopen, ?_, rfl, houtcome⟩
    rw [h.reads.inFlight_eq, hreserved]

/-- What one event does to the persisted state. -/
theorem advances (h : world.Holds json serde handle store) (event : StoreEvent) :
    ∃ after, (world.step json serde event).1.persisted json = some after ∧
      handle.state.Advances (world.Acknowledges serde event) after := by
  cases hcommitted : world.committed serde event with
  | none =>
    have hnot : ¬world.Acknowledges serde event := by
      rw [h.acknowledges_iff, hcommitted]
      rintro ⟨_, _, _, hnone, -⟩
      cases hnone
    exact ⟨handle.state, persisted_of_file (h.step_of_not_committed hcommitted).file, Or.inl rfl,
      fun hacknowledges => absurd hacknowledges hnot, fun _ _ => rfl⟩
  | some next =>
    obtain ⟨call, outcome, store', rfl, -, happly, hholds⟩ := h.step_of_committed hcommitted
    refine ⟨next, persisted_of_file hholds.file, ?_⟩
    have hiff : world.Acknowledges serde (.call call outcome) ↔
        ∃ identity, call = .acknowledgeInFlightOutcome identity := by
      rw [h.acknowledges_iff, hcommitted]
      constructor
      · rintro ⟨_, identity, _, -, heq⟩
        cases heq
        exact ⟨identity, rfl⟩
      · rintro ⟨identity, rfl⟩
        exact ⟨next, identity, outcome, rfl, rfl⟩
    rw [propext hiff]
    exact h.reads.advances hholds.reads h.anchored happly

/-- The file keeps a command in flight until the command is resolved. -/
theorem final_of_unresolved (h : world.Holds json serde handle store) {reserved : ReservedCommand}
    (hreserved : store.inFlight = some reserved) {events : List StoreEvent}
    (hevents : ∀ event ∈ events, ¬event.Resolves reserved.identity) :
    (Run.final (SessionWorld.step json serde) world events).Holds json serde handle store := by
  refine Run.final_invariant_of_meets
    (fun (world : SessionWorld) event (h : world.Holds json serde handle store) hevent => ?_) h
    (Run.meets_of_forall_mem hevents world)
  cases hcommitted : world.committed serde event with
  | none => exact h.step_of_not_committed hcommitted
  | some =>
    obtain ⟨call, outcome, store', rfl, -, happly, -⟩ := h.step_of_committed hcommitted
    exact absurd (resolves_of_apply hreserved happly outcome) hevent

/-- Whatever the process did last, opening the file again gives the state in it. -/
theorem reopen (h : world.Holds json serde handle store) (outcome : WriteOutcome) :
    (Run.final (SessionWorld.step json serde) world
      [.stop, .openOrCreate handle.sessionId outcome]).handle = some handle := by
  change ((SessionWorld.mk world.file none).openOrCreate json serde handle.sessionId
    outcome).1.handle = some handle
  rw [SessionWorld.openOrCreate, h.file]
  dsimp only
  rw [loadState_toVec h.reads.validate]

end SessionWorld.Holds

/-- A command that was reserved and written is found when the file is opened again, as long as
it was not resolved. -/
theorem SessionWorld.Sound.reserved_recovered (h : world.Sound json serde)
    (hopen : world.handle = some handle) {request : BrokerRequest} {reserved : ReservedCommand}
    (hreserve : handle.reserveCommand serde request = .ok (next, reserved))
    (houtcome : outcome.replaces = true) {later : List StoreEvent}
    (hlater : ∀ event ∈ later, ¬event.Resolves reserved.identity) (reopening : WriteOutcome) :
    ∃ reopened, (Run.final (SessionWorld.step json serde) world
        (.call (.reserveCommand request) outcome :: (later ++
          [.stop, .openOrCreate handle.sessionId reopening]))).handle = some reopened ∧
      reopened.inFlight serde = .ok (some reserved) := by
  rcases h with ⟨-, hnone⟩ | ⟨opened, store, hholds⟩
  · cases hnone.symm.trans hopen
  · cases hholds.eq_of_opened hopen
    obtain ⟨store', hstore', hreads', hreserved⟩ := hholds.reads.reserveCommand_refines hreserve
    have hstep : world.step json serde (.call (.reserveCommand request) outcome) =
        world.write json handle.sessionId next outcome := by
      rw [SessionWorld.step, hopen]
      dsimp only
      rw [SessionCall.next, hreserve]
      rfl
    have hanchored : store'.Anchored :=
      hholds.anchored.apply (show store.apply (.reserveCommand request) = .ok store' from hstore')
    have hwritten : (world.write json handle.sessionId next outcome).1.Holds json serde
        ⟨handle.sessionId, next⟩ store' := holds_write hreads' hanchored houtcome
    rw [Run.final_cons, Run.final_append, hstep]
    refine ⟨⟨handle.sessionId, next⟩, ?_, ?_⟩
    · exact (hwritten.final_of_unresolved hreserved hlater).reopen reopening
    · rw [hreads'.inFlight_eq, hreserved]

end Sound

/-- **What a session store keeps.**  After any events, with failed writes, crashes and
reopenings among them: the file holds a valid state whose acquisition, command, owner and
sequence agree; an open store has the state of the file; the next event moves owner and
sequence as it may; and a command that was reserved is found, by whoever opens the file
after any further events, until it is acknowledged or released. -/
theorem session_store_invariant (json : SessionJson) (serde : Serde)
    (events : List StoreEvent) :
    (∀ bytes, (SessionWorld.run json serde events).file = some bytes → ∃ sessionId state,
      json.fromSlice bytes = .ok state ∧ validateState serde state sessionId = .ok () ∧
        state.Consistent) ∧
    (∀ handle, (SessionWorld.run json serde events).handle = some handle →
      (SessionWorld.run json serde events).persisted json = some handle.state) ∧
    (∀ event after, (SessionWorld.run json serde events).persisted json = none →
      ((SessionWorld.run json serde events).step json serde event).1.persisted json =
        some after → after.owner = none) ∧
    (∀ event before, (SessionWorld.run json serde events).persisted json = some before →
      ∃ after,
        ((SessionWorld.run json serde events).step json serde event).1.persisted json =
          some after ∧
        before.Advances ((SessionWorld.run json serde events).Acknowledges serde event) after) ∧
    (∀ handle request next reserved outcome later reopening,
      (SessionWorld.run json serde events).handle = some handle →
      handle.reserveCommand serde request = .ok (next, reserved) → outcome.replaces = true →
      (∀ event ∈ later, ¬event.Resolves reserved.identity) →
      ∃ reopened, (SessionWorld.run json serde (events ++
          .call (.reserveCommand request) outcome :: (later ++
            [.stop, .openOrCreate handle.sessionId reopening]))).handle = some reopened ∧
        reopened.inFlight serde = .ok (some reserved)) := by
  have hsound := SessionWorld.sound_run json serde events
  refine ⟨fun bytes hfile => ?_, fun handle hopen => ?_, fun event after hnone hafter => ?_,
    fun event before hbefore => ?_,
    fun handle request next reserved outcome later reopening hopen hreserve houtcome hlater => ?_⟩
  · rcases hsound with ⟨hnone, -⟩ | ⟨handle, store, hholds⟩
    · cases hnone.symm.trans hfile
    · cases hholds.file.symm.trans hfile
      exact ⟨handle.sessionId, handle.state, json.fromSlice_toVec _, hholds.reads.validate,
        hholds.reads.consistent⟩
  · rcases hsound with ⟨-, hnone⟩ | ⟨held, store, hholds⟩
    · cases hnone.symm.trans hopen
    · cases hholds.eq_of_opened hopen
      exact SessionWorld.persisted_of_file hholds.file
  · rcases hsound with ⟨hfile, hclosed⟩ | ⟨held, store, hholds⟩
    · rcases SessionWorld.step_of_absent json serde hfile hclosed event with
        ⟨habsent, -⟩ | ⟨sessionId, hcreated⟩
      · rw [SessionWorld.persisted, habsent] at hafter
        cases hafter
      · cases hafter.symm.trans (SessionWorld.persisted_of_file hcreated.file)
        rfl
    · cases hnone.symm.trans (SessionWorld.persisted_of_file hholds.file)
  · rcases hsound with ⟨hfile, -⟩ | ⟨held, store, hholds⟩
    · rw [SessionWorld.persisted, hfile] at hbefore
      cases hbefore
    · cases hbefore.symm.trans (SessionWorld.persisted_of_file hholds.file)
      exact hholds.advances event
  · rw [SessionWorld.run, Run.final_append]
    exact hsound.reserved_recovered hopen hreserve houtcome hlater reopening

/-! ## A command that survives a crash -/

/-- A process creates a session and becomes its owner. -/
def ownedEvents : List StoreEvent :=
  [.openOrCreate ownedIdentity.sessionId .written,
    .call (.beginOwnerAcquisition processA) .written,
    .call (.confirmOwnerAcquisition .initial) .written]

/-- The session with its owner, as the file has it. -/
def ownedHandle : SessionHandle :=
  ⟨ownedIdentity.sessionId, ⟨sessionStoreVersion, "session", some ⟨1, "process-a"⟩,
    none, 1, none⟩⟩

/-- The session with its owner. -/
def ownedStore : DurableClientSessionStore :=
  ⟨ownedIdentity.sessionId,
    ⟨some ⟨.initial, processA⟩, none, .initial, none⟩, by decide⟩

theorem reads_ownedHandle : Reads default ownedHandle ownedStore :=
  ⟨rfl, decodeState_eq_ok_iff.mpr ⟨rfl, rfl, rfl, rfl, rfl, rfl⟩⟩

/-- The process crashes right after it reserved a command, and finds it again. -/
theorem session_store_invariant_crash :
    ∃ reserved reopened, (SessionWorld.run (.serdeJson fun _ => "") default (ownedEvents ++
        .call (.reserveCommand ensureRequest) .crashedAfter ::
          ([] ++ [.stop, .openOrCreate ownedIdentity.sessionId .written]))).handle =
        some reopened ∧
      reopened.inFlight default = .ok (some reserved) ∧ reserved.request = ensureRequest := by
  have hframe : encodeRequest ensureRequest = .ok _ :=
    encodeBounded_eq_ok_iff.mpr ⟨rfl, by decide +kernel⟩
  obtain ⟨next, hreserve⟩ := reads_ownedHandle.exists_reserveCommand
    (show ownedStore.state.owner = some _ from rfl) rfl rfl
    (show ensureRequest.isHealth = false from rfl) (by decide) hframe
  obtain ⟨reopened, hreopened, hinFlight⟩ :=
    (session_store_invariant (.serdeJson fun _ => "") default ownedEvents).2.2.2.2 ownedHandle
      ensureRequest next _ .crashedAfter [] .written rfl hreserve rfl
      (fun event hevent => by cases hevent)
  exact ⟨_, reopened, hreopened, hinFlight, rfl⟩

end AgentBroker
