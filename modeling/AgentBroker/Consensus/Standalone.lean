import AgentBroker.Application.Service
import AgentBroker.Storage.Recovery

/-!
# The standalone Broker

The adapter of a Broker without replication (`standalone.rs`): it loads the repository,
applies commands, and commits those that change the revision.  A commit that fails
poisons it, and only a restart loads the files again.

A node is the adapter, if its process runs, with the files below it.  Beside them stands
what its clients know: the Broker they get by applying, for themselves, every command that
was acknowledged, and the one they would have if the commit that was cut short had arrived.

## The design decisions

* **What is acknowledged is not read off the adapter.**  `answered` sees the command and the
  answer only, and applies the command to the clients' own Broker.  An adapter that answers
  with a success and neither applies nor commits would part from it at once; that the two
  stay together is what `propose_safe` proves.
* **One commit at a time.**  A command that would have been applied and is answered with an
  error was being committed; so was one that a crash left unanswered.  From then on every
  command is refused, so there is never more than one such commit.
* **A start settles it.**  `settled` compares what was loaded with the two checkpoints and
  goes on from the one it finds, built again as the source builds it.  This is the only
  thing clients learn from the files.
* **A command that is refused is applied too.**  It leaves the state as it is, but it may
  move entries of the heaps, and the next claim reads them.

## What is load-bearing

`Stores` (in `Recovery`) says what two files mean.  `Safe` adds whose state they mean: the
acknowledged one, or the one in progress.  A running adapter is *in step* with its clients
or it is poisoned, and the second is the case exactly while a commit is in progress.

## Main results

* `step_safe` — every event keeps the files of the one Broker or the other.
* `crash_recovery` — after every sequence of events, with crashes anywhere, loading
  succeeds and gives one of the two.
-/

namespace AgentBroker

open BrokerStateMachine
open EStateM (wp)

/-- `StandaloneConsensusAdapter`. -/
structure StandaloneConsensusAdapter where
  repository : JournaledBrokerStateRepository
  machine : BrokerStateMachine
  poisoned : Bool

/-- `persistence_error`. -/
def persistenceError (error : RepositoryError) : BrokerError :=
  .new .persistenceError error.display

/-- `FAIL_STOPPED_MESSAGE`. -/
def failStopped : BrokerError :=
  .new .persistenceError "Standalone Broker is fail-stopped after a durability failure."

namespace StandaloneConsensusAdapter

section Codecs

variable (snapshotJson : Codec SnapshotWire) (json : LineCodec JournalMutationWire)

/-- Load durable state; `none` is a crash. -/
def new (io : LoadIo) (repository : JournaledBrokerStateRepository) (files : Files) :
    Files × Option (Except BrokerError StandaloneConsensusAdapter) :=
  match (repository.load snapshotJson json io).run files with
  | .error .crashed files => (files, none)
  | .error (.failed error) files => (files, some (.error (persistenceError error)))
  | .ok (repository, checkpoint) files =>
    match BrokerStateMachine.fromCheckpoint checkpoint with
    | .error error => (files, some (.error (.new .persistenceError
        ("durable Broker checkpoint is invalid: " ++ error.display))))
    | .ok machine => (files, some (.ok ⟨repository, machine, false⟩))

/-- `propose`; `none` is a crash. -/
def propose (io : CommitIo) (adapter : StandaloneConsensusAdapter) (command : BrokerCommand)
    (files : Files) :
    Files × Option (StandaloneConsensusAdapter × Except BrokerError BrokerMutationResult) :=
  if adapter.poisoned then (files, some (adapter, .error failStopped))
  else
    match adapter.machine.apply command with
    | (machine, .error error) =>
      (files, some ({ adapter with machine := machine }, .error (.ofStateMachine error)))
    | (machine, .ok applied) =>
      if machine.state.revision = adapter.machine.state.revision then
        (files, some ({ adapter with machine := machine }, .ok applied.result))
      else
        match (adapter.repository.commit snapshotJson json io machine.state
            applied.changes).run files with
        | .ok repository files => (files, some (⟨repository, machine, false⟩, .ok applied.result))
        -- The repository of a poisoned adapter is not used again.
        | .error (.failed error) files =>
          (files, some (⟨adapter.repository, machine, true⟩, .error (persistenceError error)))
        | .error .crashed files => (files, none)

/-- The adapter with its files behind the interface of the service.  How a commit goes may
depend on everything before it.  A crash reaches the caller as a failure. -/
def consensus (io : StandaloneConsensusAdapter × Files → CommitIo) :
    ConsensusAdapter (StandaloneConsensusAdapter × Files) where
  term s := s.1.machine.state.term
  revision s := s.1.machine.state.revision
  groupDirectory := do
    let (adapter, _) ← get
    if adapter.poisoned then throw failStopped
    return adapter.machine.state.groupDirectory
  propose command := fun (adapter, files) =>
    match adapter.propose snapshotJson json (io (adapter, files)) command files with
    | (files, some (adapter, .ok result)) => .ok result (adapter, files)
    | (files, some (adapter, .error error)) => .error error (adapter, files)
    | (files, none) => .error failStopped (adapter, files)

end Codecs

end StandaloneConsensusAdapter

/-! ## Nodes -/

/-- A standalone node: the files, the adapter if the process runs, and what clients know. -/
structure StandaloneNode where
  files : Files
  adapter : Option StandaloneConsensusAdapter
  /-- The Broker after every command that was acknowledged or refused, since the last start on
  top of what was loaded then. -/
  acknowledged : BrokerStateMachine
  /-- The Broker after the commit that failed or was cut short by a crash, until the next start
  tells whether it arrived. -/
  inProgress : Option BrokerStateMachine

/-- What can happen to a node. -/
inductive NodeEvent where
  | start (policy : JournalCompactionPolicy) (io : LoadIo)
  | propose (command : BrokerCommand) (io : CommitIo)
  | crash

/-- A Broker built again from its own checkpoint: the state is the same, the heaps are new. -/
def BrokerStateMachine.restarted (m : BrokerStateMachine) : BrokerStateMachine :=
  match fromCheckpoint m.state.checkpoint with
  | .ok restored => restored
  | .error _ => m

namespace StandaloneNode

/-- A node without files that was never started. -/
def initial : StandaloneNode := ⟨⟨none, none⟩, none, .initial, none⟩

/-- What clients know after the answer to a command; `none` is a crash before the answer. -/
def answered (node : StandaloneNode) (command : BrokerCommand) :
    Option (Except BrokerError BrokerMutationResult) → StandaloneNode
  | some (.ok _) =>
    { node with acknowledged := (node.acknowledged.apply command).1, inProgress := none }
  | some (.error _) =>
    -- While a commit is in progress nothing else is tried.
    if node.inProgress.isSome then node
    else
      match node.acknowledged.apply command with
      | (machine, .error _) => { node with acknowledged := machine }
      | (machine, .ok _) => { node with inProgress := some machine }
  | none => { node with inProgress := some (node.acknowledged.apply command).1 }

/-- What clients go on from when a checkpoint was loaded: the commit in progress, if it is the
one that was loaded, and else what was acknowledged. -/
def settled (node : StandaloneNode) (loaded : BrokerCheckpoint) : BrokerStateMachine :=
  match node.inProgress with
  | some machine =>
    if machine.state.checkpoint = loaded then machine.restarted else node.acknowledged.restarted
  | none => node.acknowledged.restarted

section Codecs

variable (snapshotJson : Codec SnapshotWire) (json : LineCodec JournalMutationWire)

/-- Starting a node that is down. -/
def start (node : StandaloneNode) (policy : JournalCompactionPolicy) (io : LoadIo) :
    StandaloneNode :=
  match StandaloneConsensusAdapter.new snapshotJson json io (.new policy) node.files with
  | (files, some (.ok adapter)) =>
    ⟨files, some adapter, node.settled adapter.machine.state.checkpoint, none⟩
  | (files, _) => { node with files := files }

/-- A proposal to a node that runs. -/
def propose (node : StandaloneNode) (adapter : StandaloneConsensusAdapter)
    (command : BrokerCommand) (io : CommitIo) : StandaloneNode :=
  match adapter.propose snapshotJson json io command node.files with
  | (files, outcome) =>
    { node.answered command (outcome.map Prod.snd) with
      files := files
      adapter := outcome.map Prod.fst }

/-- One event. -/
def step (node : StandaloneNode) : NodeEvent → StandaloneNode × Unit
  | .start policy io =>
    match node.adapter with
    | none => (node.start snapshotJson json policy io, ())
    | some _ => (node, ())
  | .propose command io =>
    match node.adapter with
    | none => (node, ())
    | some adapter => (node.propose snapshotJson json adapter command io, ())
  | .crash => ({ node with adapter := none }, ())

/-- A sequence of events. -/
def run (node : StandaloneNode) (events : List NodeEvent) : StandaloneNode :=
  Run.final (step snapshotJson json) node events

/-- A command that can be journaled: if it fails it leaves the state alone, and if it
succeeds its record is not longer than a reader accepts. -/
def Journalable (m : BrokerStateMachine) (command : BrokerCommand) : Prop :=
  match m.apply command with
  | (machine, .error _) => machine.state = m.state
  | (machine, .ok applied) =>
    match encodeJournalMutation json machine.state applied.changes with
    | .ok payload => payload.length ≤ maxJournalRecordBytes
    | .error _ => True

/-- The events that are considered: what is proposed to an adapter that runs can be journaled. -/
def Admits (node : StandaloneNode) : NodeEvent → Prop
  | .propose command _ => ∀ adapter ∈ node.adapter, adapter.poisoned = false →
      Journalable json node.acknowledged command
  | _ => True

instance (m : BrokerStateMachine) (command : BrokerCommand) :
    Decidable (Journalable json m command) := by
  unfold Journalable
  split
  · infer_instance
  · split <;> infer_instance

instance (node : StandaloneNode) (event : NodeEvent) : Decidable (node.Admits json event) := by
  cases event with
  | propose command _ =>
    exact inferInstanceAs (Decidable (∀ adapter ∈ node.adapter, adapter.poisoned = false →
      Journalable json node.acknowledged command))
  | start | crash => exact isTrue trivial

/-- **The files can be loaded**, by any repository.  Loading succeeds unless the file system
fails again, and whenever it succeeds it gives the checkpoint of the last acknowledged commit or
of the one in progress. -/
def Recoverable (node : StandaloneNode) : Prop :=
  ∀ repository : JournaledBrokerStateRepository,
    (∃ loaded files,
      (repository.load snapshotJson json ⟨none, .done⟩).run node.files = .ok loaded files) ∧
    ∀ io loaded files, (repository.load snapshotJson json io).run node.files = .ok loaded files →
      loaded.2 = node.acknowledged.state.checkpoint ∨
        ∃ machine, node.inProgress = some machine ∧ loaded.2 = machine.state.checkpoint

end Codecs

/-! ## What clients know -/

variable {snapshotJson : Codec SnapshotWire} {json : LineCodec JournalMutationWire}
variable {node : StandaloneNode} {command : BrokerCommand}

theorem restarted_eq {m restored : BrokerStateMachine}
    (h : fromCheckpoint m.state.checkpoint = .ok restored) : m.restarted = restored := by
  rw [BrokerStateMachine.restarted, h]

/-- A start goes on from what was loaded, if that is one of the two. -/
theorem settled_eq {m restored : BrokerStateMachine}
    (hstate : m = node.acknowledged ∨ node.inProgress = some m)
    (hrestored : fromCheckpoint m.state.checkpoint = .ok restored) :
    node.settled m.state.checkpoint = restored := by
  unfold settled
  cases hprogress : node.inProgress with
  | none =>
    rw [hprogress] at hstate
    obtain rfl : m = node.acknowledged := hstate.resolve_right fun heq => nomatch heq
    exact restarted_eq hrestored
  | some machine =>
    rw [hprogress] at hstate
    dsimp only
    split_ifs with hloaded
    · exact restarted_eq (hloaded ▸ hrestored)
    · -- What was loaded is not the commit in progress, so that did not arrive.
      obtain rfl : m = node.acknowledged := hstate.resolve_right fun heq =>
        hloaded (congrArg (fun m : BrokerStateMachine => m.state.checkpoint) (Option.some.inj heq))
      exact restarted_eq hrestored

/-! ## Invariant -/

/-- What a running adapter relies on: it is where its clients believe it to be, and the files
store that. -/
structure InStep (snapshotJson : Codec SnapshotWire) (json : LineCodec JournalMutationWire)
    (node : StandaloneNode) (adapter : StandaloneConsensusAdapter) : Prop where
  machine : adapter.machine = node.acknowledged
  stores : Stores snapshotJson json node.files node.acknowledged.state []
  settled : node.inProgress = none

/-- **The files store one of the two states**, and a running adapter is in step or poisoned. -/
structure Safe (snapshotJson : Codec SnapshotWire) (json : LineCodec JournalMutationWire)
    (node : StandaloneNode) : Prop where
  stored : ∃ (m : BrokerStateMachine) (torn : Bytes), m.Indexed ∧
    Stores snapshotJson json node.files m.state torn ∧
    (m = node.acknowledged ∨ node.inProgress = some m)
  indexed : ∀ adapter, node.adapter = some adapter → adapter.machine.Indexed
  running : ∀ adapter, node.adapter = some adapter → adapter.poisoned = false →
    InStep snapshotJson json node adapter
  poisoned : ∀ adapter, node.adapter = some adapter → adapter.poisoned = true →
    node.inProgress.isSome

theorem initial_safe : Safe snapshotJson json initial where
  stored := ⟨.initial, [], initial_indexed, stores_empty, Or.inl rfl⟩
  indexed _ h := nomatch h
  running _ h := nomatch h
  poisoned _ h := nomatch h

variable {adapter : StandaloneConsensusAdapter}

/-- A node whose adapter is in step. -/
theorem InStep.safe (h : InStep snapshotJson json node adapter)
    (hadapter : node.adapter = some adapter) (hindexed : adapter.machine.Indexed)
    (hpoisoned : adapter.poisoned = false) : Safe snapshotJson json node where
  stored := ⟨node.acknowledged, [], h.machine ▸ hindexed, h.stores, Or.inl rfl⟩
  indexed other hother := by
    cases hadapter.symm.trans hother
    exact hindexed
  running other hother _ := by
    cases hadapter.symm.trans hother
    exact h
  poisoned other hother hpoisoned' := by
    cases hadapter.symm.trans hother
    cases hpoisoned.symm.trans hpoisoned'

/-- A node that is down, with files that store one of the two states. -/
theorem safe_of_down {m : BrokerStateMachine} {torn : Bytes} (hindexed : m.Indexed)
    (hstores : Stores snapshotJson json node.files m.state torn)
    (hstate : m = node.acknowledged ∨ node.inProgress = some m) (hdown : node.adapter = none) :
    Safe snapshotJson json node where
  stored := ⟨m, torn, hindexed, hstores, hstate⟩
  indexed _ hadapter := nomatch hdown.symm.trans hadapter
  running _ hadapter := nomatch hdown.symm.trans hadapter
  poisoned _ hadapter := nomatch hdown.symm.trans hadapter

theorem start_safe (h : Safe snapshotJson json node) (hdown : node.adapter = none)
    (policy : JournalCompactionPolicy) (io : LoadIo) :
    Safe snapshotJson json (node.start snapshotJson json policy io) := by
  obtain ⟨m, torn, hindexed, hstores, hstate⟩ := h.stored
  have hload : wp ((JournaledBrokerStateRepository.new policy).load snapshotJson json io)
      node.files _ _ := JournaledBrokerStateRepository.load_stores hstores io
  unfold wp at hload
  unfold start StandaloneConsensusAdapter.new
  cases hrun : ((JournaledBrokerStateRepository.new policy).load snapshotJson json io).run
      node.files with
  | ok loaded files =>
    rw [hrun] at hload
    obtain ⟨repository, checkpoint⟩ := loaded
    obtain ⟨hcheckpoint, hstored⟩ := hload
    dsimp only at hcheckpoint
    subst hcheckpoint
    obtain ⟨restored, hrestored, hsame, hindexed', -⟩ := fromCheckpoint_checkpoint hindexed
    have hsettled : node.settled restored.state.checkpoint = restored := by
      rw [hsame]
      exact settled_eq hstate hrestored
    simp only [hrestored, hsettled]
    have hstored' : Stores snapshotJson json files restored.state [] := by
      rw [hsame]
      exact hstored
    exact InStep.safe ⟨rfl, hstored', rfl⟩ rfl hindexed' rfl
  | error stop =>
    rw [hrun] at hload
    obtain ⟨-, torn', hstored⟩ := hload
    cases stop with
    | failed | crashed => exact safe_of_down hindexed hstored hstate hdown

/-! ## Proposals -/

/-- What a proposal to an adapter that is in step does: it is refused or answered without a
change of the state, or it is committed, and the commit completes, fails or is cut short. -/
inductive Proposed (snapshotJson : Codec SnapshotWire) (json : LineCodec JournalMutationWire)
    (adapter : StandaloneConsensusAdapter) (files : Files) (machine : BrokerStateMachine) :
    Except StateMachineError AppliedMutation →
    Files × Option (StandaloneConsensusAdapter × Except BrokerError BrokerMutationResult) → Prop
  | refused (error : StateMachineError) (same : machine.state = adapter.machine.state) :
      Proposed snapshotJson json adapter files machine (.error error)
        (files, some ({ adapter with machine := machine }, .error (.ofStateMachine error)))
  | unchanged (applied : AppliedMutation) (same : machine.state = adapter.machine.state) :
      Proposed snapshotJson json adapter files machine (.ok applied)
        (files, some ({ adapter with machine := machine }, .ok applied.result))
  | committed {files' : Files} (repository : JournaledBrokerStateRepository)
      (applied : AppliedMutation) (stores : Stores snapshotJson json files' machine.state []) :
      Proposed snapshotJson json adapter files machine (.ok applied)
        (files', some (⟨repository, machine, false⟩, .ok applied.result))
  | failed {files' : Files} {torn : Bytes} (repository : JournaledBrokerStateRepository)
      (applied : AppliedMutation) (error : BrokerError)
      (stores : Stores snapshotJson json files' adapter.machine.state torn ∨
        Stores snapshotJson json files' machine.state torn) :
      Proposed snapshotJson json adapter files machine (.ok applied)
        (files', some (⟨repository, machine, true⟩, .error error))
  | crashed {files' : Files} {torn : Bytes} (applied : AppliedMutation)
      (stores : Stores snapshotJson json files' adapter.machine.state torn ∨
        Stores snapshotJson json files' machine.state torn) :
      Proposed snapshotJson json adapter files machine (.ok applied) (files', none)

theorem propose_cases {files : Files} (hpoisoned : adapter.poisoned = false)
    (hindexed : adapter.machine.Indexed)
    (hstores : Stores snapshotJson json files adapter.machine.state [])
    (hjournalable : Journalable json adapter.machine command) (io : CommitIo) :
    Proposed snapshotJson json adapter files (adapter.machine.apply command).1
      (adapter.machine.apply command).2
      (adapter.propose snapshotJson json io command files) := by
  unfold Journalable at hjournalable
  unfold StandaloneConsensusAdapter.propose
  rw [if_neg (by simp [hpoisoned])]
  rcases happly : adapter.machine.apply command with ⟨machine, error | applied⟩
  · rw [happly] at hjournalable
    exact .refused error hjournalable
  · have hok : (adapter.machine.apply command).2 = .ok applied := by rw [happly]
    have hmachine : (adapter.machine.apply command).1 = machine := by rw [happly]
    rw [happly] at hjournalable
    dsimp only at hjournalable ⊢
    -- An unchanged revision skips the commit; the state is unchanged then as well.
    split_ifs with hrevision
    · refine .unchanged applied ?_
      rw [← hmachine] at hrevision ⊢
      exact state_eq_of_revision_eq hindexed hok hrevision
    · have hbounded : ∀ payload,
          encodeJournalMutation json machine.state applied.changes = .ok payload →
            payload.length ≤ maxJournalRecordBytes := by
        intro payload hpayload
        rwa [hpayload] at hjournalable
      have hcommit : wp (adapter.repository.commit snapshotJson json io machine.state
          applied.changes) files
          (fun _ files => Stores snapshotJson json files machine.state [])
          (fun _ files => ∃ torn, Stores snapshotJson json files adapter.machine.state torn ∨
            Stores snapshotJson json files machine.state torn) := by
        rw [← hmachine] at hrevision hbounded ⊢
        exact JournaledBrokerStateRepository.commit_stores hindexed hstores hok hrevision
          hbounded io
      unfold wp at hcommit
      cases hrun : (adapter.repository.commit snapshotJson json io machine.state
          applied.changes).run files with
      | ok repository =>
        rw [hrun] at hcommit
        exact .committed repository applied hcommit
      | error stop =>
        rw [hrun] at hcommit
        obtain ⟨torn, hstored⟩ := hcommit
        cases stop with
        | failed => exact .failed adapter.repository applied _ hstored
        | crashed => exact .crashed applied hstored

/-- While a commit is in progress the adapter refuses, and everything stays as it is. -/
theorem propose_poisoned (h : Safe snapshotJson json node) (hadapter : node.adapter = some adapter)
    (hpoisoned : adapter.poisoned = true) (io : CommitIo) :
    node.propose snapshotJson json adapter command io = node := by
  have hrefused : adapter.propose snapshotJson json io command node.files =
      (node.files, some (adapter, .error failStopped)) := by
    rw [StandaloneConsensusAdapter.propose, if_pos hpoisoned]
  have hsame : node.answered command (some (.error failStopped)) = node :=
    if_pos (h.poisoned adapter hadapter hpoisoned)
  unfold propose
  rw [hrefused]
  dsimp only [Option.map_some]
  rw [hsame, ← hadapter]

/-- Files that store the state before a commit or the one after it, while the commit is in
progress. -/
theorem safe_of_inProgress {files : Files} {running : Option StandaloneConsensusAdapter}
    {before after : BrokerStateMachine} {torn : Bytes}
    (hbefore : before.Indexed) (hafter : after.Indexed)
    (hstores : Stores snapshotJson json files before.state torn ∨
      Stores snapshotJson json files after.state torn)
    (hrunning : ∀ adapter, running = some adapter →
      adapter.machine = after ∧ adapter.poisoned = true) :
    Safe snapshotJson json ⟨files, running, before, some after⟩ where
  stored := by
    rcases hstores with hold | hnew
    · exact ⟨before, torn, hbefore, hold, Or.inl rfl⟩
    · exact ⟨after, torn, hafter, hnew, Or.inr rfl⟩
  indexed adapter hadapter := (hrunning adapter hadapter).1 ▸ hafter
  running adapter hadapter hpoisoned := by
    cases (hrunning adapter hadapter).2.symm.trans hpoisoned
  poisoned _ _ _ := rfl

/-- **A proposal keeps the files safe.** -/
theorem propose_safe (h : Safe snapshotJson json node) (hadapter : node.adapter = some adapter)
    (hjournalable : adapter.poisoned = false → Journalable json node.acknowledged command)
    (io : CommitIo) :
    Safe snapshotJson json (node.propose snapshotJson json adapter command io) := by
  cases hpoisoned : adapter.poisoned with
  | true =>
    rw [propose_poisoned h hadapter hpoisoned]
    exact h
  | false =>
    have hindexed := h.indexed adapter hadapter
    obtain ⟨hmachine, hstores, hsettled⟩ := h.running adapter hadapter hpoisoned
    replace hjournalable := hjournalable hpoisoned
    obtain ⟨files, running, acknowledged, inProgress⟩ := node
    dsimp only at hmachine hsettled hstores hjournalable
    subst hmachine hsettled
    have hindexed' := apply_indexed hindexed command
    have hproposed := propose_cases hpoisoned hindexed hstores hjournalable io
    unfold propose
    dsimp only
    generalize adapter.propose snapshotJson json io command files = outcome at hproposed
    rcases happly : adapter.machine.apply command with ⟨machine, answer⟩
    rw [happly] at hproposed hindexed'
    -- The clients apply the command for themselves and come to the same Broker.
    cases hproposed with
    | refused error same =>
      simp only [answered, happly, Option.map_some, Option.isSome_none, Bool.false_eq_true, if_false]
      exact InStep.safe ⟨rfl, same ▸ hstores, rfl⟩ rfl hindexed' hpoisoned
    | unchanged applied same =>
      simp only [answered, happly, Option.map_some]
      exact InStep.safe ⟨rfl, same ▸ hstores, rfl⟩ rfl hindexed' hpoisoned
    | committed repository applied stores =>
      simp only [answered, happly, Option.map_some]
      exact InStep.safe ⟨rfl, stores, rfl⟩ rfl hindexed' rfl
    | failed repository applied error stores =>
      simp only [answered, happly, Option.map_some, Option.isSome_none, Bool.false_eq_true, if_false]
      refine safe_of_inProgress hindexed hindexed' stores fun other hother => ?_
      cases hother
      exact ⟨rfl, rfl⟩
    | crashed applied stores =>
      simp only [answered, happly, Option.map_none]
      exact safe_of_inProgress hindexed hindexed' stores fun other hother => nomatch hother

/-- **Every event keeps the files safe.** -/
theorem step_safe (h : Safe snapshotJson json node) (event : NodeEvent)
    (hadmits : node.Admits json event) :
    Safe snapshotJson json (step snapshotJson json node event).1 := by
  cases event with
  | start policy io =>
    unfold step
    cases hadapter : node.adapter with
    | none => exact start_safe h hadapter policy io
    | some => exact h
  | propose _ io =>
    unfold step
    cases hadapter : node.adapter with
    | none => exact h
    | some adapter => exact propose_safe h hadapter (hadmits adapter hadapter) io
  | crash =>
    obtain ⟨m, torn, hindexed, hstores, hstate⟩ := h.stored
    exact safe_of_down hindexed hstores hstate rfl

/-- Every run of admitted events is safe. -/
theorem run_safe {events : List NodeEvent}
    (h : Run.Meets (step snapshotJson json) (Admits json) initial events) :
    Safe snapshotJson json (run snapshotJson json initial events) :=
  Run.final_invariant_of_meets (P := Safe snapshotJson json)
    (fun _ event hsafe hadmits => step_safe hsafe event hadmits) initial_safe h

theorem Safe.recoverable (h : Safe snapshotJson json node) :
    Recoverable snapshotJson json node := by
  intro repository
  obtain ⟨m, torn, hindexed, hstores, hstate⟩ := h.stored
  have hload : ∀ io, wp (repository.load snapshotJson json io) node.files _ _ :=
    JournaledBrokerStateRepository.load_stores hstores
  unfold wp at hload
  constructor
  · cases hrun : (repository.load snapshotJson json ⟨none, .done⟩).run node.files with
    | ok loaded files => exact ⟨loaded, files, rfl⟩
    | error =>
      have hstopped := hload ⟨none, .done⟩
      rw [hrun] at hstopped
      exact absurd rfl hstopped.1
  · intro io loaded files hrun
    have hloaded := hload io
    rw [hrun] at hloaded
    rw [hloaded.1]
    rcases hstate with rfl | hprogress
    · exact Or.inl rfl
    · exact Or.inr ⟨m, hprogress, rfl⟩

/-- **Crash recovery.**  For every sequence of starts, proposals and crashes, under any
compaction policies and with any operation on the files completing, failing or being cut
short: loading the files succeeds and gives exactly the checkpoint of the last acknowledged
commit or of the single commit in progress.  Which of the two it was is settled at the next
start, and the same holds for all that follows. -/
theorem crash_recovery (snapshotJson : Codec SnapshotWire) (json : LineCodec JournalMutationWire)
    {events : List NodeEvent}
    (h : Run.Meets (step snapshotJson json) (Admits json) initial events) :
    Recoverable snapshotJson json (run snapshotJson json initial events) :=
  (run_safe h).recoverable

/-! ## A commit that is cut short -/

/-- The first namespace. -/
def firstNamespace : BrokerCommand := .ensureNamespace ⟨⟨"p", by decide⟩, 64⟩

/-- Another one. -/
def secondNamespace : BrokerCommand := .ensureNamespace ⟨⟨"q", by decide⟩, 64⟩

/-- The first commit is acknowledged.  The process dies when 40 bytes of the next record are in
the journal, and starts again. -/
def tornCommit : List NodeEvent :=
  [.start .default ⟨none, .done⟩,
    .propose firstNamespace ⟨.done, ⟨.done, .done⟩⟩,
    .propose secondNamespace ⟨.stopped (some 40) .crashed, ⟨.done, .done⟩⟩,
    .start .default ⟨none, .done⟩]

/-- A node that writes JSON. -/
noncomputable def jsonRun (events : List NodeEvent) : StandaloneNode :=
  run SnapshotWire.serdeJson JournalMutationWire.serdeJson initial events

/-- When the process is gone, the first record and 40 bytes of the second are in the journal, one
revision is acknowledged and the next is in progress; and the files can be loaded after the
restart. -/
theorem torn_commit_recovers :
    (jsonRun (tornCommit.take 3)).files.journalData.length = 134 + 40 ∧
    (jsonRun (tornCommit.take 3)).acknowledged.state.revision.get = 1 ∧
    (jsonRun (tornCommit.take 3)).inProgress.map (fun machine => machine.state.revision.get) =
      some 2 ∧
    Recoverable SnapshotWire.serdeJson JournalMutationWire.serdeJson (jsonRun tornCommit) :=
  ⟨by decide +kernel, by decide +kernel, by decide +kernel,
    crash_recovery _ _ (by decide +kernel)⟩

end StandaloneNode

end AgentBroker
