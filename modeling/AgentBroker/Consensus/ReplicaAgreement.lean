import AgentBroker.Consensus.DurableSnapshots
import AgentBroker.Domain.RestoredRuns

/-!
# Replicas that start from a snapshot

A follower that is far behind installs the snapshot of another replica and applies the rest of
the log.  Its heaps are rebuilt from a checkpoint, so they may differ from those of a replica
that applied the whole log.  As long as no claim is disturbed the difference is not seen.

## Main results

* `Follows.step` — one proposal on a replica and on one that follows it.
* `installed_replica_agrees` — a snapshot and the rest of the log do as well as the whole log.
* `replica_refines_broker` — the Broker of a replica has run commands of its log.
-/

namespace AgentBroker

namespace SessionedBroker

open BrokerStateMachine

variable {s r : SessionedBroker}

/-- The command that the proposal carries, if any, is not disturbed on this replica. -/
def Undisturbed (s : SessionedBroker) (p : ReplicatedBrokerProposalV1) : Prop :=
  ∀ identity command c, p.intoParts = .ok (identity, command) →
    command.toBrokerCommand = .ok c → s.broker.Undisturbed c

/-- `r` has the sessions of `s`, and its Broker the state of that of `s`. -/
structure Follows (s r : SessionedBroker) : Prop where
  broker : Restored s.broker r.broker
  commandSessions : r.commandSessions = s.commandSessions

theorem Follows.applyReplicatedCommand (h : Follows s r) {command : ReplicatedBrokerCommandV1}
    (hok : ∀ c, command.toBrokerCommand = .ok c → s.broker.Undisturbed c) :
    (s.applyReplicatedCommand command).2 = (r.applyReplicatedCommand command).2 ∧
      Follows (s.applyReplicatedCommand command).1 (r.applyReplicatedCommand command).1 := by
  unfold SessionedBroker.applyReplicatedCommand
  cases hvalid : command.toBrokerCommand with
  | error => exact ⟨rfl, h⟩
  | ok c =>
    obtain ⟨hanswer, hbroker⟩ := h.broker.step (hok c hvalid)
    exact ⟨by simp only [hanswer], hbroker, h.commandSessions⟩

/-- **One proposal** is answered alike, and the one replica still follows the other. -/
theorem Follows.step {p : ReplicatedBrokerProposalV1} (h : Follows s r) (hok : s.Undisturbed p) :
    (s.applyProposal p).2 = (r.applyProposal p).2 ∧
      Follows (s.applyProposal p).1 (r.applyProposal p).1 := by
  unfold applyProposal
  split
  · exact ⟨rfl, h⟩
  · rename_i identity _ _ _ _
    cases identity with
    | some => exact ⟨rfl, h⟩
    | none =>
      simp only [acquireCommandSessionOwner, h.commandSessions]
      split
      · exact ⟨rfl, h⟩
      · exact ⟨rfl, h.broker, rfl⟩
  · -- The checks read the sessions only.
    rename_i identity command _ hparts
    simp only [applyIdentified, checkSession, checkNewSession, h.commandSessions]
    split
    · exact ⟨rfl, h⟩
    · obtain ⟨hanswer, happlied⟩ := h.applyReplicatedCommand fun c => hok _ _ c hparts
      revert hanswer happlied
      rcases s.applyReplicatedCommand command with ⟨s', answer⟩
      rcases r.applyReplicatedCommand command with ⟨r', answer'⟩
      rintro ⟨⟩ happlied
      cases answer with
      | error => exact ⟨rfl, happlied⟩
      | ok =>
        exact ⟨rfl, happlied.broker, congrArg (OrdMap.insert · _ _) happlied.commandSessions⟩
  · rename_i hparts
    exact h.applyReplicatedCommand fun c => hok _ _ c hparts

/-- Whole logs.  A replica that has followed one follows it to the end. -/
theorem Follows.run (h : Follows s r) {log : List ReplicatedBrokerProposalV1}
    (hok : Run.Meets applyProposal Undisturbed s log) :
    Run.answers applyProposal s log = Run.answers applyProposal r log ∧
      Follows (s.run log) (r.run log) :=
  Run.simulation (fun _ _ _ h => h.step) h hok

/-- The machine that is restored from the checkpoint of a replica's Broker follows it. -/
theorem Follows.restored (h : Follows s s) :
    ∃ machine, fromCheckpoint s.broker.state.checkpoint = .ok machine ∧
      Follows s ⟨machine, s.commandSessions⟩ := by
  obtain ⟨machine, hok, hstate, hindexed, hcomplete, hcurrent⟩ :=
    fromCheckpoint_checkpoint h.broker.indexed
  refine ⟨machine, hok, ⟨hstate, h.broker.indexed, hindexed, h.broker.complete, hcomplete,
    fun ns e he => ?_⟩, rfl⟩
  obtain ⟨task, lease, hget, rfl, hleased, rfl⟩ := hcurrent ns e he
  rw [hstate] at hget
  have hentered := h.broker.complete hget
  simp only [Entered, hleased] at hentered
  exact hentered

theorem initial_follows : Follows initial initial :=
  ⟨⟨rfl, initial_indexed, initial_indexed, initial_complete, initial_complete, fun _ _ he => he⟩,
    rfl⟩

/-- A snapshot and the rest of the log do as well as the whole log.  The snapshot of a replica
that applied `past`, if it can be allocated, is built and can be installed; and if no claim of
the log is disturbed, the replica that installed it answers every further proposal like the
one it came from, and keeps the same Broker state and the same sessions. -/
theorem installed_replica_agrees (json : Codec SnapshotWire)
    (sidecarJson : Codec CommandSessionsSnapshotV1)
    (past future : List ReplicatedBrokerProposalV1) (snapshotMeta : SnapshotMeta)
    (hfits : consensusSnapshotHeaderBytes +
      (encodeSnapshot json (run initial past).broker.state.checkpoint).length +
      (sidecarJson.toVec (commandSessionsSnapshot (run initial past).commandSessions)).length ≤
        isizeMax)
    (hok : Run.Meets applyProposal Undisturbed initial (past ++ future)) :
    ∃ data sm, encodeConsensusSnapshot json sidecarJson
        (run initial past).broker.state.checkpoint (run initial past).commandSessions =
          .ok data ∧
      AgentBrokerRaftStateMachine.installSnapshot json sidecarJson snapshotMeta data =
        .ok ((snapshotMeta, data), sm) ∧
      Run.answers applyProposal sm.replica future =
        Run.answers applyProposal (run initial past) future ∧
      (run sm.replica future).broker.state = (run (run initial past) future).broker.state ∧
      (run sm.replica future).commandSessions =
        (run (run initial past) future).commandSessions := by
  obtain ⟨hpast, hfuture⟩ := Run.meets_append.mp hok
  obtain ⟨machine, hmachine, hfollows⟩ := (initial_follows.run hpast).2.restored
  obtain ⟨hanswers, hend⟩ := hfollows.run hfuture
  have hdecoded := decodeConsensusSnapshot_frame json sidecarJson (run_storable past)
    (lt_of_le_of_lt hfits (by decide))
  refine ⟨_, ⟨⟨machine, _⟩, .update machine.state snapshotMeta.lastLogId.index,
    snapshotMeta.lastLogId, snapshotMeta.lastMembership⟩, encodeFrame_eq_ok hfits, ?_,
    hanswers.symm, hend.broker.state, hend.commandSessions⟩
  rw [AgentBrokerRaftStateMachine.installSnapshot, hdecoded, Except.ok_bind, hmachine]
  rfl

/-- Commands that are not disturbed are not disturbed in a log. -/
theorem meets_legacyLog {commands : List BrokerCommand}
    (h : Run.Meets apply BrokerStateMachine.Undisturbed s.broker commands) :
    Run.Meets applyProposal Undisturbed s (legacyLog commands) := by
  induction commands generalizing s with
  | nil => trivial
  | cons command rest ih =>
    have hvalid := ReplicatedBrokerCommandV1.toBrokerCommand_ofBrokerCommand command
    refine ⟨?_, ?_⟩
    · intro _ _ c hparts hcommand
      rw [ReplicatedBrokerProposalV1.intoParts_legacy] at hparts
      cases hparts
      cases hvalid.symm.trans hcommand
      exact h.1
    · rw [applyProposal_legacy, applyReplicatedCommand_ok hvalid]
      exact ih h.2

/-- A session is acquired. -/
def acquisition : ReplicatedBrokerProposalV1 :=
  .legacy (.acquireCommandSessionOwner "s" 1 "o")

/-- A task is published and claimed, and a session acquired. -/
def leasedLog : List ReplicatedBrokerProposalV1 :=
  legacyLog (oneTask ++ [firstClaim]) ++ [acquisition]

theorem leasedLog_undisturbed :
    Run.Meets applyProposal Undisturbed initial (leasedLog ++ legacyLog [secondClaim]) := by
  obtain ⟨hpast, hfuture⟩ := Run.meets_append.mp expiring_undisturbed
  have hclaimed : (run initial (legacyLog (oneTask ++ [firstClaim]))).broker =
      BrokerStateMachine.run .initial (oneTask ++ [firstClaim]) := by
    rw [run_legacyLog]
    rfl
  refine Run.meets_append.mpr ⟨Run.meets_append.mpr ⟨meets_legacyLog hpast, ?_, trivial⟩, ?_⟩
  · intro _ _ c hparts hcommand
    cases hparts
    cases hcommand
  · -- The acquisition leaves the Broker as it is.
    refine meets_legacyLog ?_
    have hsame : (run initial leasedLog).broker =
        (run initial (legacyLog (oneTask ++ [firstClaim]))).broker := by
      rw [leasedLog, run, Run.final_append]
      rfl
    change Run.Meets apply BrokerStateMachine.Undisturbed (run initial leasedLog).broker _
    rw [hsame, hclaimed]
    exact hfuture

open SnapshotReplica in
/-- A follower starts from a snapshot that holds a leased task and a session.  The lease has
expired when the next claim comes: both replicas take it back and hand the task out again. -/
theorem leased_snapshot_agrees :
    (run initial leasedLog).broker.state.tasks.values.map Task.status = [.leased] ∧
    (run initial leasedLog).commandSessions.entries.length = 1 ∧
    ∃ data sm, AgentBrokerRaftStateMachine.installSnapshot snapshotText sidecarText (metaAt 1)
        data = .ok ((metaAt 1, data), sm) ∧
      Run.answers applyProposal sm.replica (legacyLog [secondClaim]) =
        Run.answers applyProposal (run initial leasedLog) (legacyLog [secondClaim]) ∧
      (run sm.replica (legacyLog [secondClaim])).broker.state.tasks.values.map
        (fun task => (task.status, task.state.leaseEpoch.get)) = [(.leased, 2)] := by
  have hfits : consensusSnapshotHeaderBytes +
      (encodeSnapshot snapshotText (run initial leasedLog).broker.state.checkpoint).length +
      (sidecarText.toVec (commandSessionsSnapshot (run initial leasedLog).commandSessions)).length ≤
        isizeMax := by decide +kernel
  obtain ⟨data, sm, -, hinstall, hanswers, hstate, -⟩ := installed_replica_agrees snapshotText
    sidecarText leasedLog (legacyLog [secondClaim]) (metaAt 1) hfits leasedLog_undisturbed
  refine ⟨by decide +kernel, by decide +kernel, data, sm, hinstall, hanswers, ?_⟩
  rw [hstate]
  decide +kernel

/-! ## Replicas and the Broker -/

/-- The command that a proposal carries to the Broker. -/
def carried (p : ReplicatedBrokerProposalV1) : Option BrokerCommand :=
  p.intoParts.toOption.bind fun parts => parts.2.toBrokerCommand.toOption

theorem ProposalStep.broker_cases {p : ReplicatedBrokerProposalV1} {s' : SessionedBroker}
    {answer : Except InvalidData ReplicatedBrokerResponseV1} (h : ProposalStep s p s' answer) :
    s'.broker = s.broker ∨ ∃ c, carried p = some c ∧ s'.broker = (s.broker.apply c).1 := by
  cases h with
  | invalid | answered | acquisition => exact Or.inl rfl
  | legacy parts valid | applied parts _ valid =>
    refine Or.inr ⟨_, ?_, rfl⟩
    simp [carried, parts, valid, Except.toOption]

/-- A replica refines the Broker.  Whatever its log is, its Broker has run some of the commands
that the log carries, in their order and none more often than the log has it. -/
theorem replica_refines_broker (s : SessionedBroker) (log : List ReplicatedBrokerProposalV1) :
    ∃ commands, commands.Sublist (log.filterMap carried) ∧
      (s.run log).broker = s.broker.run commands := by
  induction log generalizing s with
  | nil => exact ⟨[], .slnil, rfl⟩
  | cons p rest ih =>
    obtain ⟨commands, hsublist, hbroker⟩ := ih (s.applyProposal p).1
    have hrun : (s.run (p :: rest)).broker = (s.applyProposal p).1.broker.run commands := hbroker
    rcases (applyProposal_step s p).broker_cases with hsame | ⟨c, hcarried, hbroker⟩
    · rw [hsame] at hrun
      refine ⟨commands, hsublist.trans ?_, hrun⟩
      exact (List.sublist_cons_self p rest).filterMap _
    · rw [hbroker] at hrun
      refine ⟨c :: commands, ?_, hrun⟩
      rw [List.filterMap_cons_some hcarried]
      exact hsublist.cons_cons c

end SessionedBroker

end AgentBroker
