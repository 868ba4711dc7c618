import AgentBroker.Domain.Commands

/-!
# Command identities and Broker errors

What a client says about a mutation besides its content (`command_identity.rs`): the
session it belongs to, the owner of the session, and its sequence number.  And the
errors that protocols report (`error.rs`), with the disposition that tells a client
whether the command may have been applied.
-/

namespace AgentBroker

/-! ## Session texts -/

/-- The two validated texts of a session. -/
inductive SessionTextKind where
  | sessionId
  | ownerInstanceId
  deriving DecidableEq, Repr

/-- Why an identity was refused. -/
inductive CommandIdentityError where
  | invalidSessionId (reason : String)
  | invalidOwnerInstanceId (reason : String)
  | zeroOwnerEpoch
  | zeroSequence
  deriving DecidableEq, Repr

/-- `Display` of an identity error. -/
def CommandIdentityError.display : CommandIdentityError → String
  | .invalidSessionId reason => "invalid command_session_id: " ++ reason
  | .invalidOwnerInstanceId reason => "invalid command_session_owner_instance_id: " ++ reason
  | .zeroOwnerEpoch => "command_session_owner_epoch must be greater than zero"
  | .zeroSequence => "command_sequence must be greater than zero"

/-- The error for an invalid text. -/
def SessionTextKind.error : SessionTextKind → String → CommandIdentityError
  | .sessionId => .invalidSessionId
  | .ownerInstanceId => .invalidOwnerInstanceId

/-- A validated session text: the rules and the texts of Broker identifiers. -/
structure SessionText (kind : SessionTextKind) where
  asStr : String
  valid : identifierFault maxIdentifierBytes identifierTexts asStr = none
  deriving Repr

/-- The identity of a client session. -/
abbrev CommandSessionId := SessionText .sessionId
/-- The process that owns a session. -/
abbrev SessionOwnerInstanceId := SessionText .ownerInstanceId

namespace SessionText

variable {kind : SessionTextKind}

theorem asStr_injective : Function.Injective (fun t : SessionText kind => t.asStr) := by
  rintro ⟨a, ha⟩ ⟨b, hb⟩ h
  cases h
  rfl

instance : LinearOrder (SessionText kind) :=
  LinearOrder.lift' (fun t => t.asStr) asStr_injective

/-- Validate a session text. -/
def new (value : String) : Except CommandIdentityError (SessionText kind) :=
  match h : identifierFault maxIdentifierBytes identifierTexts value with
  | none => .ok ⟨value, h⟩
  | some reason => .error (kind.error reason)

theorem new_asStr (t : SessionText kind) : new t.asStr = .ok t := by
  unfold new
  split
  · rfl
  · rename_i reason h
    rw [t.valid] at h
    cases h

theorem asStr_of_new {value : String} {t : SessionText kind} (h : new value = .ok t) :
    t.asStr = value := by
  unfold new at h
  split at h
  · cases h
    rfl
  · cases h

end SessionText

/-! ## Session counters -/

/-- The two counters of a session, each a `NonZeroU64`. -/
inductive SessionCounterKind where
  | sequence
  | ownerEpoch
  deriving DecidableEq, Repr

/-- The error for zero. -/
def SessionCounterKind.zeroError : SessionCounterKind → CommandIdentityError
  | .sequence => .zeroSequence
  | .ownerEpoch => .zeroOwnerEpoch

/-- A positive session counter. -/
structure SessionCounter (kind : SessionCounterKind) where
  get : Nat
  pos : 0 < get
  isLt : get < u64Size
  deriving Repr

/-- Position of a command within one ownership of a session. -/
abbrev CommandSequence := SessionCounter .sequence
/-- Ownership of a session; it grows with every takeover. -/
abbrev SessionOwnerEpoch := SessionCounter .ownerEpoch

namespace SessionCounter

variable {kind : SessionCounterKind}

theorem get_injective : Function.Injective (fun c : SessionCounter kind => c.get) := by
  rintro ⟨a, ha, ha'⟩ ⟨b, hb, hb'⟩ h
  cases h
  rfl

instance : LinearOrder (SessionCounter kind) :=
  LinearOrder.lift' (fun c => c.get) get_injective

theorem lt_def {a b : SessionCounter kind} : a < b ↔ a.get < b.get := Iff.rfl

/-- `INITIAL`: one. -/
def initial : SessionCounter kind := ⟨1, Nat.one_pos, Term.initial.isLt⟩

/-- Build a counter from a raw `u64`, rejecting zero. -/
def new (value : U64) : Except CommandIdentityError (SessionCounter kind) :=
  if h : 0 < value.get then .ok ⟨value.get, h, value.isLt⟩ else .error kind.zeroError

/-- The raw value. -/
def toU64 (c : SessionCounter kind) : U64 := ⟨c.get, c.isLt⟩

theorem new_toU64 (c : SessionCounter kind) : new c.toU64 = .ok c := by
  rw [new, dif_pos (show 0 < c.toU64.get from c.pos)]
  rfl

theorem toU64_of_new {value : U64} {c : SessionCounter kind} (h : new value = .ok c) :
    c.toU64 = value := by
  unfold new at h
  split_ifs at h
  cases h
  rfl

theorem toU64_injective : Function.Injective (fun c : SessionCounter kind => c.toU64) := by
  intro a b h
  exact get_injective (congrArg U64.get h)

/-- `checked_add(1)`. -/
def next (c : SessionCounter kind) : Option (SessionCounter kind) :=
  if h : c.get + 1 < u64Size then some ⟨c.get + 1, Nat.succ_pos _, h⟩ else none

theorem next_get {c d : SessionCounter kind} (h : c.next = some d) : d.get = c.get + 1 := by
  unfold next at h
  split_ifs at h
  cases h
  rfl

/-- A counter below its maximum has a next value. -/
theorem exists_next {c : SessionCounter kind} (h : c.get + 1 < u64Size) :
    ∃ d, c.next = some d :=
  ⟨_, dif_pos h⟩

theorem lt_next {c d : SessionCounter kind} (h : c.next = some d) : c < d :=
  lt_def.mpr (by rw [next_get h]; exact Nat.lt_succ_self _)

end SessionCounter

/-! ## Identities -/

/-- The stable identity of a mutation.  Sessions without an owner instance are those
of the second protocol version. -/
structure CommandIdentity where
  sessionId : CommandSessionId
  ownerEpoch : SessionOwnerEpoch
  ownerInstanceId : Option SessionOwnerInstanceId
  sequence : CommandSequence
  deriving DecidableEq, Repr

/-! ## Errors -/

/-- The stable error codes. -/
inductive BrokerErrorCode where
  | invalidRequest
  | notFound
  | conflict
  | capacityExceeded
  | staleFence
  | persistenceError
  | transportError
  | commitOutcomeUnknown
  | internalError
  deriving DecidableEq, Repr

/-- Whether an error is the outcome of an applied command, a rejection before it was
applied, or ambiguous. -/
inductive BrokerErrorDisposition where
  | committed
  | rejected
  | unknown
  deriving DecidableEq, Repr

/-- An error as protocols report it. -/
structure BrokerError where
  code : BrokerErrorCode
  message : String
  disposition : BrokerErrorDisposition
  deriving DecidableEq, Repr

/-- `consumer_group_error_code`. -/
def consumerGroupErrorCode : ConsumerGroupError → BrokerErrorCode
  | .staleGeneration _ _ => .staleFence
  | .memberNotFound _ => .notFound
  | .capabilityConflict _ => .conflict
  | .memberCapacityReached _ => .capacityExceeded
  | .invalidMemberCapacity => .invalidRequest
  | .fencingValue _ => .internalError

/-- `task_transition_error_code`. -/
def taskTransitionErrorCode : TaskTransitionError → BrokerErrorCode
  | .notQueued _ => .conflict
  | .alreadyCompleted => .conflict
  | .notLeased _ => .staleFence
  | .staleGroup => .staleFence
  | .staleOwner => .staleFence
  | .staleGeneration => .staleFence
  | .staleLeaseEpoch => .staleFence
  | .staleLeaseId => .staleFence
  | .leaseExpired => .staleFence
  | .fencingValue _ => .internalError

/-- `state_machine_error_code`. -/
def stateMachineErrorCode : StateMachineError → BrokerErrorCode
  | .invalidCapacity _ => .invalidRequest
  | .timestampOverflow => .invalidRequest
  | .capacityExceeded _ _ => .capacityExceeded
  | .namespaceNotFound _ => .notFound
  | .taskNotFound _ => .notFound
  | .consumerGroupNotFound _ => .notFound
  | .taskConflict _ => .conflict
  | .leaseIdConflict _ => .conflict
  | .consumerGroupConflict _ => .conflict
  | .staleTerm _ _ => .staleFence
  | .newTermNotGreater _ _ => .staleFence
  | .consumerGroupTransition error => consumerGroupErrorCode error
  | .taskTransition error => taskTransitionErrorCode error
  | .taskCountUnderflow _ => .internalError
  | .fencingValue _ => .internalError

namespace BrokerError

/-- A new error is ambiguous until a disposition is attached. -/
def new (code : BrokerErrorCode) (message : String) : BrokerError := ⟨code, message, .unknown⟩

/-- Attach a disposition. -/
def withDisposition (error : BrokerError) (disposition : BrokerErrorDisposition) : BrokerError :=
  { error with disposition := disposition }

/-- `From<StateMachineError>`. -/
def ofStateMachine (error : StateMachineError) : BrokerError :=
  .new (stateMachineErrorCode error) error.display

end BrokerError

end AgentBroker
