import AgentBroker.Consensus.ConsensusSnapshot
import Mathlib.Order.WithBot

/-!
# The state machine under Raft

What OpenRaft calls (`raft_state_machine.rs`): entries are applied in log order, snapshots
are captured, built, persisted and installed, and a projection of the Broker state is kept
for readers outside (`raft_observation.rs`).  The durable store holds one snapshot, as a
pair of metadata and data that one transaction replaces.

An entry that cannot be applied stops the replica: the entries after it are not applied.

## Main results

* `applyEntries_lastApplied` — entries in log order only raise the applied log id.
-/

namespace AgentBroker

/-! ## Log entries -/

/-- The position of an entry: the term of the leader that wrote it, and its index.  With one
leader in a term (`single-term-leader`) the leader's node is no part of it. -/
structure LogId where
  term : Nat
  index : Nat
  deriving Repr

namespace LogId

theorem toLex_injective : Function.Injective fun l : LogId => toLex (l.term, l.index) := by
  refine toLex_pair_injective ?_
  rintro ⟨_, _⟩ ⟨_, _⟩ rfl rfl
  rfl

/-- Ordered by term, then by index. -/
instance : LinearOrder LogId := LinearOrder.lift' (fun l => toLex (l.term, l.index)) toLex_injective

end LogId

/-- `Option<LogId>`, which is ordered with `None` first. -/
abbrev LastLogId := WithBot LogId

/-- The index of a log id that may be absent. -/
def LastLogId.index : LastLogId → Option Nat
  | none => none
  | some logId => some logId.index

/-- The voters of the cluster, and the entry that made them so. -/
structure StoredMembership where
  logId : LastLogId
  voters : List Nat
  deriving DecidableEq, Repr

inductive EntryPayload where
  | blank
  | membership (voters : List Nat)
  | normal (proposal : ReplicatedBrokerProposalV1)
  deriving DecidableEq, Repr

structure Entry where
  logId : LogId
  payload : EntryPayload
  deriving DecidableEq, Repr

/-- What an entry does to the Broker and its sessions, and its answer. -/
def applyPayload (replica : SessionedBroker) :
    EntryPayload → SessionedBroker × Except InvalidData ReplicatedBrokerResponseV1
  | .blank => (replica, .ok .raftControl)
  | .membership _ => (replica, .ok .raftControl)
  | .normal proposal => replica.applyProposal proposal

/-! ## Observation -/

/-- The projection of the committed Broker state that readers see.  The directory of
groups, which no reader modelled here uses, is left out. -/
structure RaftBrokerObservation where
  term : U64
  revision : U64
  appliedIndex : Option Nat
  deriving DecidableEq, Repr

namespace RaftBrokerObservation

/-- `update`. -/
def update (state : BrokerState) (appliedIndex : Option Nat) : RaftBrokerObservation :=
  ⟨state.term.toU64, state.revision.toU64, appliedIndex⟩

/-- `validated_term`. -/
def validatedTerm (observation : RaftBrokerObservation) : Except FencingValueError Term :=
  Term.new observation.term

/-- The term that is observed is the term of the state. -/
@[simp] theorem validatedTerm_update (state : BrokerState) (appliedIndex : Option Nat) :
    (update state appliedIndex).validatedTerm = .ok state.term :=
  Term.new_toU64 state.term

end RaftBrokerObservation

/-! ## The state machine -/

/-- The metadata of a snapshot, without its textual id. -/
structure SnapshotMeta where
  lastLogId : LastLogId
  lastMembership : StoredMembership
  deriving DecidableEq, Repr

/-- The state machine.  The handle of its store is left out: the store is passed on its
own. -/
structure AgentBrokerRaftStateMachine where
  replica : SessionedBroker
  observation : RaftBrokerObservation
  lastApplied : LastLogId
  lastMembership : StoredMembership
  deriving DecidableEq

/-- What a builder captured. -/
structure AgentBrokerRaftSnapshotBuilder where
  checkpoint : BrokerCheckpoint
  commandSessions : OrdMap CommandSessionId CommandSessionRecord
  lastApplied : LastLogId
  lastMembership : StoredMembership
  deriving DecidableEq

/-- The persisted pair, `snapshot_meta_v1` and `snapshot_data_v1`. -/
abbrev SnapshotPair := SnapshotMeta × Bytes

namespace AgentBrokerRaftStateMachine

/-- `load` from a store without snapshot. -/
def empty : AgentBrokerRaftStateMachine where
  replica := .initial
  observation := .update BrokerStateMachine.initial.state none
  lastApplied := ⊥
  lastMembership := ⟨⊥, []⟩

/-- One round of the loop of `apply`. -/
def applyEntry (sm : AgentBrokerRaftStateMachine) (entry : Entry) :
    AgentBrokerRaftStateMachine × Except InvalidData ReplicatedBrokerResponseV1 :=
  match applyPayload sm.replica entry.payload with
  -- The entry is not counted as applied.
  | (replica, .error error) => ({ sm with replica := replica }, .error error)
  | (replica, .ok response) =>
    ({ replica := replica
       observation := .update replica.broker.state (some entry.logId.index)
       lastApplied := ↑entry.logId
       lastMembership :=
        match entry.payload with
        | .membership voters => ⟨entry.logId, voters⟩
        | _ => sm.lastMembership },
      .ok response)

/-- `apply`: the loop ends at the first entry that cannot be applied. -/
def applyEntries (sm : AgentBrokerRaftStateMachine) :
    List Entry → AgentBrokerRaftStateMachine × Except InvalidData (List ReplicatedBrokerResponseV1)
  | [] => (sm, .ok [])
  | entry :: rest =>
    match sm.applyEntry entry with
    | (sm', .error error) => (sm', .error error)
    | (sm', .ok response) =>
      match sm'.applyEntries rest with
      | (sm'', .error error) => (sm'', .error error)
      | (sm'', .ok responses) => (sm'', .ok (response :: responses))

/-- `get_snapshot_builder`. -/
def getSnapshotBuilder (sm : AgentBrokerRaftStateMachine) : AgentBrokerRaftSnapshotBuilder where
  checkpoint := sm.replica.broker.state.checkpoint
  commandSessions := sm.replica.commandSessions
  lastApplied := sm.lastApplied
  lastMembership := sm.lastMembership

end AgentBrokerRaftStateMachine

/-! ## Snapshots -/

section Codecs

variable (json : Codec SnapshotWire) (sidecarJson : Codec CommandSessionsSnapshotV1)

/-- `build_snapshot`: the pair that it persists. -/
def AgentBrokerRaftSnapshotBuilder.buildSnapshot (builder : AgentBrokerRaftSnapshotBuilder) :
    Except SnapshotFault SnapshotPair := do
  let data ← encodeConsensusSnapshot json sidecarJson builder.checkpoint builder.commandSessions
  return (⟨builder.lastApplied, builder.lastMembership⟩, data)

/-- `install_snapshot`: the pair that it persists and the state machine afterwards. -/
def AgentBrokerRaftStateMachine.installSnapshot (snapshotMeta : SnapshotMeta) (data : Bytes) :
    Except SnapshotFault (SnapshotPair × AgentBrokerRaftStateMachine) := do
  let decoded ← decodeConsensusSnapshot json sidecarJson data
  let replacement ← invalidSnapshotData CheckpointError.display
    (BrokerStateMachine.fromCheckpoint decoded.checkpoint)
  return ((snapshotMeta, data),
    { replica := ⟨replacement, decoded.commandSessions⟩
      observation := .update replacement.state snapshotMeta.lastLogId.index
      lastApplied := snapshotMeta.lastLogId
      lastMembership := snapshotMeta.lastMembership })

end Codecs

/-! ## Applying entries -/

namespace AgentBrokerRaftStateMachine

/-- The entries follow the last one applied, in log order. -/
def InOrder (lastApplied : LastLogId) (entries : List Entry) : Prop :=
  (∀ entry ∈ entries, lastApplied < (entry.logId : LastLogId)) ∧
    entries.Pairwise fun a b => a.logId < b.logId

theorem applyEntry_lastApplied (sm : AgentBrokerRaftStateMachine) (entry : Entry) :
    (sm.applyEntry entry).1.lastApplied = sm.lastApplied ∨
      (sm.applyEntry entry).1.lastApplied = (entry.logId : LastLogId) := by
  unfold applyEntry
  cases happlied : applyPayload sm.replica entry.payload with
  | mk _ answer =>
    cases answer with
    | error => exact Or.inl rfl
    | ok => exact Or.inr rfl

/-- The loop stops after the first entry, or goes on from there. -/
theorem applyEntries_cons (sm : AgentBrokerRaftStateMachine) (entry : Entry) (rest : List Entry) :
    (sm.applyEntries (entry :: rest)).1 = (sm.applyEntry entry).1 ∨
      (sm.applyEntries (entry :: rest)).1 = ((sm.applyEntry entry).1.applyEntries rest).1 := by
  rw [applyEntries]
  obtain ⟨sm', answer⟩ := sm.applyEntry entry
  cases answer with
  | error => exact Or.inl rfl
  | ok =>
    refine Or.inr ?_
    dsimp only
    obtain ⟨sm'', answers⟩ := sm'.applyEntries rest
    cases answers <;> rfl

/-- **Entries in log order only raise the applied log id.** -/
theorem applyEntries_lastApplied {sm : AgentBrokerRaftStateMachine} {entries : List Entry}
    (h : InOrder sm.lastApplied entries) :
    sm.lastApplied ≤ (sm.applyEntries entries).1.lastApplied := by
  induction entries generalizing sm with
  | nil => exact le_rfl
  | cons entry rest ih =>
    obtain ⟨hlater, hsorted⟩ := h
    obtain ⟨hfirst, hrest⟩ := List.pairwise_cons.mp hsorted
    have hstep : sm.lastApplied ≤ (sm.applyEntry entry).1.lastApplied := by
      rcases applyEntry_lastApplied sm entry with hsame | hnew
      · rw [hsame]
      · rw [hnew]
        exact le_of_lt (hlater entry List.mem_cons_self)
    have horder : InOrder (sm.applyEntry entry).1.lastApplied rest := by
      refine ⟨fun next hnext => ?_, hrest⟩
      rcases applyEntry_lastApplied sm entry with hsame | hnew
      · rw [hsame]
        exact hlater next (List.mem_cons_of_mem _ hnext)
      · rw [hnew]
        exact WithBot.coe_lt_coe.mpr (hfirst next hnext)
    rcases applyEntries_cons sm entry rest with hstopped | hloop
    · rw [hstopped]
      exact hstep
    · rw [hloop]
      exact hstep.trans (ih horder)

end AgentBrokerRaftStateMachine

end AgentBroker
