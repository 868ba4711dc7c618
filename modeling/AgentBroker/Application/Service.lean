import AgentBroker.Application.CommandIdentity
import AgentBroker.Domain.Directory
import AgentBroker.Domain.Transitions

/-!
# The application service

The service between protocols and consensus (`service.rs`).  It proposes commands to a
consensus adapter and takes the result of the right kind out of the answer.

An adapter is any state with these operations.  `AppliesOnce` states what a proposal that is
acknowledged has done to the machine behind the adapter.
-/

namespace AgentBroker

open EStateM (wp)

/-- `ConsensusAdapter`: the operations of an adapter with state `σ`, with the defaults of the
trait. -/
structure ConsensusAdapter (σ : Type) where
  term : σ → Term
  revision : σ → Revision
  groupDirectory : EStateM BrokerError σ ConsumerGroupDirectory :=
    throw (.new .internalError
      "Consumer Group directory reads are unavailable for this consensus adapter")
  maintenanceAuthority : EStateM BrokerError σ Bool := pure true
  propose : BrokerCommand → EStateM BrokerError σ BrokerMutationResult
  proposeIdentified :
      CommandIdentity → BrokerCommand → EStateM BrokerError σ BrokerMutationResult :=
    fun _ _ => throw (.new .invalidRequest
      "identified consensus proposals are not supported by this adapter")
  acquireCommandSessionOwner : CommandSessionId → SessionOwnerEpoch → SessionOwnerInstanceId →
      EStateM BrokerError σ SessionOwnerEpoch :=
    fun _ _ _ => throw (.new .invalidRequest
      "command-session owner acquisition is not supported by this adapter")

/-- A proposal that is acknowledged was applied to the machine once, and answered with the
result. -/
def ConsensusAdapter.AppliesOnce {σ : Type} (adapter : ConsensusAdapter σ)
    (machine : σ → BrokerStateMachine) : Prop :=
  ∀ command s result s', (adapter.propose command).run s = .ok result s' →
    machine s' = ((machine s).apply command).1 ∧
      ∃ changes, ((machine s).apply command).2 = .ok ⟨result, changes⟩

/-- What the command ensures, the proposal ensures. -/
theorem ConsensusAdapter.AppliesOnce.wp_propose {σ : Type} {adapter : ConsensusAdapter σ}
    {machine : σ → BrokerStateMachine} (h : adapter.AppliesOnce machine) {s : σ}
    {command : BrokerCommand} {Q : BrokerMutationResult → BrokerStateMachine → Prop}
    {E : StateMachineError → BrokerStateMachine → Prop}
    (hcommand : wp (BrokerStateMachine.dispatch command) (machine s).clearChanges Q E) :
    wp (adapter.propose command) s
      (fun result t => machine t = ((machine s).apply command).1 ∧ Q result (machine t))
      (fun _ _ => True) := by
  unfold wp
  cases hrun : (adapter.propose command).run s with
  | ok result t =>
    obtain ⟨hmachine, changes, hok⟩ := h command s result t hrun
    have hresult := BrokerStateMachine.apply_ok_of_wp hcommand hok
    rw [← hmachine] at hresult
    exact ⟨hmachine, hresult⟩
  | error => trivial

/-! ## Results -/

/-- `unexpected_result`. -/
def unexpectedResult (expected : String) : BrokerError :=
  .new .internalError
    ("consensus returned an unexpected result variant; expected " ++ expected)

/-- `expect_result!`: a result of the right kind. -/
def expectResult {α : Type} (select : BrokerMutationResult → Option α) (expected : String)
    (result : BrokerMutationResult) : Except BrokerError α :=
  Except.ofOption (unexpectedResult expected) (select result)

def expectStaleMembersReaped :
    BrokerMutationResult → Except BrokerError StaleMembersReapedResult :=
  expectResult (fun | .staleMembersReaped result => some result | _ => none) "StaleMembersReaped"

def expectCompletedTasksPruned :
    BrokerMutationResult → Except BrokerError CompletedTasksPrunedResult :=
  expectResult (fun | .completedTasksPruned result => some result | _ => none)
    "CompletedTasksPruned"

/-! ## Maintenance -/

/-- A number within bounds. -/
structure Ranged (lo hi : Nat) where
  get : U64
  lo_le : lo ≤ get.get
  le_hi : get.get ≤ hi

/-- Check the bounds of a number. -/
def Ranged.new {ε : Type} {lo hi : Nat} (error : ε) (value : U64) : Except ε (Ranged lo hi) :=
  if h : lo ≤ value.get ∧ value.get ≤ hi then .ok ⟨value, h.1, h.2⟩ else .error error

theorem Ranged.new_get {ε : Type} {lo hi : Nat} (error : ε) (n : Ranged lo hi) :
    new error n.get = .ok n := dif_pos ⟨n.lo_le, n.le_hi⟩

/-- `MAX_MAINTENANCE_BATCH`. -/
def maxMaintenanceBatch : Nat := 4096

/-- `PolicyError::MaintenanceBatchOutOfRange`, as it is displayed. -/
def maintenanceBatchOutOfRange (field : String) : String :=
  field ++ " must be between 1 and " ++ toString maxMaintenanceBatch

/-- `ReapMemberLimit`. -/
abbrev ReapMemberLimit := Ranged 1 maxMaintenanceBatch

/-- `PruneTaskLimit`. -/
abbrev PruneTaskLimit := Ranged 1 maxMaintenanceBatch

def ReapMemberLimit.new (value : Usize) : Except String ReapMemberLimit :=
  Ranged.new (maintenanceBatchOutOfRange "max_members") value

def PruneTaskLimit.new (value : Usize) : Except String PruneTaskLimit :=
  Ranged.new (maintenanceBatchOutOfRange "max_tasks") value

section Service

variable {σ : Type} (adapter : ConsensusAdapter σ)

/-- `reap_stale_members`. -/
def ConsensusAdapter.reapStaleMembers (staleBeforeMs : TimestampMs)
    (maxMembers : ReapMemberLimit) : EStateM BrokerError σ StaleMembersReapedResult := do
  let result ← adapter.propose (.reapStaleMembers ⟨staleBeforeMs, maxMembers.get⟩)
  EStateM.ofExcept (expectStaleMembersReaped result)

/-- `prune_completed_tasks`. -/
def ConsensusAdapter.pruneCompletedTasks (completedBeforeMs : TimestampMs)
    (maxTasks : PruneTaskLimit) : EStateM BrokerError σ CompletedTasksPrunedResult := do
  let result ← adapter.propose (.pruneCompletedTasks ⟨completedBeforeMs, maxTasks.get⟩)
  EStateM.ofExcept (expectCompletedTasksPruned result)

end Service

end AgentBroker
