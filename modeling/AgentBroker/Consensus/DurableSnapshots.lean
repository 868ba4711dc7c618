import AgentBroker.Consensus.ReplicatedJson

/-!
# The durable snapshot

One pair of keys holds the snapshot of a replica, and two writers replace it
(`raft_state_machine.rs`): the task of a snapshot builder, which runs beside the state
machine on what the builder captured, and the installation of a snapshot that a leader
sent.  Neither compares what it writes with what is there.

A replica is modelled with its store and its builders in flight, and takes events in any
order: the transaction of a builder commits, or fails, long after the capture.

## Main results

* `step_cases` — everything an event can do.
* `snapshot_never_goes_back` — while builders end in the order they were taken and
  snapshots are installed only between them, the durable snapshot never goes back, and it
  covers every snapshot installed before.
* `late_builder_replaces_installed_snapshot` — without that it goes back.
-/

namespace AgentBroker

open Except List

/-- A replica, what its store holds, and the builders whose tasks have not ended, in the
order in which they were taken. -/
structure SnapshotReplica where
  machine : AgentBrokerRaftStateMachine
  persisted : Option SnapshotPair
  builders : List AgentBrokerRaftSnapshotBuilder

/-- What can happen to a replica.  The transaction of `persist_snapshot` commits if
`written`, and leaves the store as it was if not. -/
inductive SnapshotEvent where
  | apply (entries : List Entry)
  | getSnapshotBuilder
  | buildSnapshot (task : Nat) (written : Bool)
  | installSnapshot (snapshotMeta : SnapshotMeta) (data : Bytes) (written : Bool)

namespace SnapshotReplica

section Codecs

variable (json : Codec SnapshotWire) (sidecarJson : Codec CommandSessionsSnapshotV1)

/-- A replica with an empty store. -/
def empty : SnapshotReplica := ⟨.empty, none, []⟩

/-- `load`: a persisted snapshot is checked as an installed one is. -/
def load : Option SnapshotPair → Except SnapshotFault SnapshotReplica
  | none => .ok empty
  | some (snapshotMeta, data) => do
      let (_, machine) ← AgentBrokerRaftStateMachine.installSnapshot json sidecarJson
        snapshotMeta data
      return ⟨machine, some (snapshotMeta, data), []⟩

/-- One event, and the pair that it persisted. -/
def step (s : SnapshotReplica) : SnapshotEvent → SnapshotReplica × Option SnapshotPair
  | .apply entries => ({ s with machine := (s.machine.applyEntries entries).1 }, none)
  | .getSnapshotBuilder =>
    ({ s with builders := s.builders ++ [s.machine.getSnapshotBuilder] }, none)
  | .buildSnapshot task written =>
    match s.builders[task]? with
    | none => (s, none)
    | some builder =>
      match builder.buildSnapshot json sidecarJson, written with
      | .ok pair, true => ({ s with
          persisted := some pair
          builders := s.builders.eraseIdx task }, some pair)
      | _, _ => ({ s with builders := s.builders.eraseIdx task }, none)
  | .installSnapshot snapshotMeta data written =>
    match AgentBrokerRaftStateMachine.installSnapshot json sidecarJson snapshotMeta data,
      written with
    | .ok (pair, machine), true =>
      ({ s with machine := machine, persisted := some pair }, some pair)
    | _, _ => (s, none)

/-- A sequence of events. -/
def run (s : SnapshotReplica) (events : List SnapshotEvent) : SnapshotReplica :=
  Run.final (step json sidecarJson) s events

end Codecs

/-- The last log id of the durable snapshot. -/
def persistedLogId (s : SnapshotReplica) : LastLogId :=
  match s.persisted with
  | none => ⊥
  | some (snapshotMeta, _) => snapshotMeta.lastLogId

/-- What OpenRaft guarantees: entries are applied in log order, and an installed snapshot
is newer than what is applied. -/
def Admissible (s : SnapshotReplica) : SnapshotEvent → Prop
  | .apply entries => AgentBrokerRaftStateMachine.InOrder s.machine.lastApplied entries
  | .installSnapshot snapshotMeta _ _ => s.machine.lastApplied < snapshotMeta.lastLogId
  | _ => True

/-- The two writers take turns: a snapshot is installed while no builder is in flight, and
only the oldest builder writes. -/
def Serialised (s : SnapshotReplica) : SnapshotEvent → Prop
  | .installSnapshot _ _ _ => s.builders = []
  | .buildSnapshot task written => written = true → task = 0
  | _ => True

section Statements

variable (json : Codec SnapshotWire) (sidecarJson : Codec CommandSessionsSnapshotV1)

/-- No event of the sequence lowers the log id of the durable snapshot. -/
def NeverGoesBack (s : SnapshotReplica) (events : List SnapshotEvent) : Prop :=
  ∀ before event after, events = before ++ event :: after →
    (run json sidecarJson s before).persistedLogId ≤
      (run json sidecarJson s (before ++ [event])).persistedLogId

/-- At the end, the durable snapshot is at or after every snapshot that was installed: a log
purged through one of them is covered. -/
def CoversInstalled (s : SnapshotReplica) (events : List SnapshotEvent) : Prop :=
  ∀ before snapshotMeta data after,
    events = before ++ .installSnapshot snapshotMeta data true :: after →
    (step json sidecarJson (run json sidecarJson s before)
      (.installSnapshot snapshotMeta data true)).2 = some (snapshotMeta, data) →
    snapshotMeta.lastLogId ≤ (run json sidecarJson s events).persistedLogId

end Statements

/-! ## One event -/

section Steps

variable {json : Codec SnapshotWire} {sidecarJson : Codec CommandSessionsSnapshotV1}
variable {s s' : SnapshotReplica} {event : SnapshotEvent} {wrote : Option SnapshotPair}

theorem installSnapshot_ok {snapshotMeta : SnapshotMeta} {data : Bytes} {pair : SnapshotPair}
    {machine : AgentBrokerRaftStateMachine}
    (h : AgentBrokerRaftStateMachine.installSnapshot json sidecarJson snapshotMeta data =
      .ok (pair, machine)) :
    pair = (snapshotMeta, data) ∧ machine.lastApplied = snapshotMeta.lastLogId := by
  obtain ⟨decoded, -, h⟩ := bind_eq_ok_iff.mp h
  obtain ⟨replacement, -, h⟩ := bind_eq_ok_iff.mp h
  cases h
  exact ⟨rfl, rfl⟩

theorem buildSnapshot_ok {builder : AgentBrokerRaftSnapshotBuilder} {pair : SnapshotPair}
    (h : builder.buildSnapshot json sidecarJson = .ok pair) :
    pair.1.lastLogId = builder.lastApplied := by
  obtain ⟨data, -, h⟩ := bind_eq_ok_iff.mp h
  cases h
  rfl

/-- Everything an event can do. -/
inductive Steps (s : SnapshotReplica) :
    SnapshotEvent → SnapshotReplica → Option SnapshotPair → Prop where
  | applied (entries : List Entry) :
      Steps s (.apply entries) { s with machine := (s.machine.applyEntries entries).1 } none
  | captured :
      Steps s .getSnapshotBuilder
        { s with builders := s.builders ++ [s.machine.getSnapshotBuilder] } none
  | refused (event : SnapshotEvent) : Steps s event s none
  | discarded (task : Nat) (written : Bool) :
      Steps s (.buildSnapshot task written) { s with builders := s.builders.eraseIdx task } none
  | built {task : Nat} {builder : AgentBrokerRaftSnapshotBuilder} {pair : SnapshotPair}
      (taken : s.builders[task]? = some builder)
      (logId : pair.1.lastLogId = builder.lastApplied) :
      Steps s (.buildSnapshot task true)
        { s with persisted := some pair, builders := s.builders.eraseIdx task } (some pair)
  | installed {snapshotMeta : SnapshotMeta} {data : Bytes}
      {machine : AgentBrokerRaftStateMachine}
      (logId : machine.lastApplied = snapshotMeta.lastLogId) :
      Steps s (.installSnapshot snapshotMeta data true)
        { s with machine := machine, persisted := some (snapshotMeta, data) }
        (some (snapshotMeta, data))

/-- **Inversion of an event.** -/
theorem step_cases (json : Codec SnapshotWire) (sidecarJson : Codec CommandSessionsSnapshotV1)
    (s : SnapshotReplica) (event : SnapshotEvent) :
    Steps s event (step json sidecarJson s event).1 (step json sidecarJson s event).2 := by
  cases event with
  | apply entries => exact .applied entries
  | getSnapshotBuilder => exact .captured
  | buildSnapshot task written =>
    unfold step
    cases htask : s.builders[task]? with
    | none =>
      simp only [htask]
      exact .refused _
    | some builder =>
      cases hbuilt : builder.buildSnapshot json sidecarJson with
      | error =>
        simp only [htask, hbuilt]
        exact .discarded task written
      | ok =>
        simp only [htask, hbuilt]
        cases written with
        | false => exact .discarded task false
        | true => exact .built htask (buildSnapshot_ok hbuilt)
  | installSnapshot snapshotMeta data written =>
    unfold step
    cases hinstalled : AgentBrokerRaftStateMachine.installSnapshot json sidecarJson
        snapshotMeta data with
    | error =>
      simp only [hinstalled]
      exact .refused _
    | ok result =>
      obtain ⟨pair, machine⟩ := result
      obtain ⟨rfl, hlogId⟩ := installSnapshot_ok hinstalled
      simp only [hinstalled]
      cases written with
      | false => exact .refused _
      | true => exact .installed hlogId

/-! ## Taking turns -/

/-- **The order behind the turns**: the durable snapshot is not after any capture in flight,
captures are in the order in which they were taken, and none is after what is applied. -/
structure InTurn (s : SnapshotReplica) : Prop where
  durable : s.persistedLogId ≤ s.machine.lastApplied
  pending : ∀ builder ∈ s.builders, s.persistedLogId ≤ builder.lastApplied
  captured : ∀ builder ∈ s.builders, builder.lastApplied ≤ s.machine.lastApplied
  sorted : s.builders.Pairwise fun a b => a.lastApplied ≤ b.lastApplied

/-- A builder that ends without writing only leaves. -/
theorem InTurn.eraseIdx (h : s.InTurn) (task : Nat) :
    InTurn { s with builders := s.builders.eraseIdx task } where
  durable := h.durable
  pending := fun builder hmem => h.pending builder (mem_of_mem_eraseIdx hmem)
  captured := fun builder hmem => h.captured builder (mem_of_mem_eraseIdx hmem)
  sorted := h.sorted.sublist (eraseIdx_sublist _ _)

/-- **An event in turn keeps the order.** -/
theorem Steps.inTurn (hstep : Steps s event s' wrote) (h : s.InTurn)
    (hadmissible : s.Admissible event) (hserial : s.Serialised event) : s'.InTurn := by
  cases hstep with
  | applied =>
    have hle := AgentBrokerRaftStateMachine.applyEntries_lastApplied hadmissible
    exact ⟨h.durable.trans hle, h.pending,
      fun builder hmem => (h.captured builder hmem).trans hle, h.sorted⟩
  | captured =>
    refine ⟨h.durable, fun builder hmem => ?_, fun builder hmem => ?_, ?_⟩
    · rcases mem_append.mp hmem with hold | hnew
      · exact h.pending builder hold
      · cases mem_singleton.mp hnew
        exact h.durable
    · rcases mem_append.mp hmem with hold | hnew
      · exact h.captured builder hold
      · cases mem_singleton.mp hnew
        exact le_rfl
    · refine pairwise_append.mpr ⟨h.sorted, pairwise_singleton _ _, ?_⟩
      intro builder hold next hnew
      cases mem_singleton.mp hnew
      exact h.captured builder hold
  | refused => exact h
  | discarded task => exact h.eraseIdx task
  | @built task builder pair taken logId =>
    cases hserial rfl
    -- The oldest capture is written, and the others are not before it.
    obtain ⟨rest, hbuilders⟩ : ∃ rest, s.builders = builder :: rest := by
      cases hlist : s.builders with
      | nil => simp [hlist] at taken
      | cons _ rest =>
        rw [hlist, List.getElem?_cons_zero, Option.some.injEq] at taken
        exact ⟨rest, by rw [taken]⟩
    have hsorted := h.sorted
    have hcaptured := h.captured
    rw [hbuilders] at hsorted hcaptured
    obtain ⟨hfirst, hrest⟩ := pairwise_cons.mp hsorted
    have herase : s.builders.eraseIdx 0 = rest := by rw [hbuilders, eraseIdx_cons_zero]
    rw [herase]
    refine ⟨?_, fun next hnext => ?_, fun next hnext => ?_, hrest⟩
    · show pair.1.lastLogId ≤ s.machine.lastApplied
      rw [logId]
      exact hcaptured builder mem_cons_self
    · show pair.1.lastLogId ≤ next.lastApplied
      rw [logId]
      exact hfirst next hnext
    · exact hcaptured next (mem_cons_of_mem _ hnext)
  | installed logId =>
    have hnone : s.builders = [] := hserial
    refine ⟨le_of_eq logId.symm, ?_, ?_, ?_⟩
    · intro builder hmem
      exact absurd (hnone ▸ hmem) not_mem_nil
    · intro builder hmem
      exact absurd (hnone ▸ hmem) not_mem_nil
    · show s.builders.Pairwise _
      rw [hnone]
      exact List.Pairwise.nil

/-- **An event in turn does not lower the durable snapshot.** -/
theorem Steps.persistedLogId_le (hstep : Steps s event s' wrote) (h : s.InTurn)
    (hadmissible : s.Admissible event) : s.persistedLogId ≤ s'.persistedLogId := by
  cases hstep with
  | applied | captured | refused | discarded => exact le_rfl
  | @built task builder pair taken logId =>
    show s.persistedLogId ≤ pair.1.lastLogId
    rw [logId]
    exact h.pending builder (mem_of_getElem? taken)
  | installed => exact h.durable.trans (le_of_lt hadmissible)

/-- A snapshot that was installed is the durable one. -/
theorem Steps.persistedLogId_installed {snapshotMeta : SnapshotMeta} {data : Bytes} {written : Bool}
    (hstep : Steps s (.installSnapshot snapshotMeta data written) s'
      (some (snapshotMeta, data))) :
    s'.persistedLogId = snapshotMeta.lastLogId := by
  cases hstep
  rfl

/-- What `load` leaves is in order: what is applied is what is durable. -/
theorem load_inTurn {persisted : Option SnapshotPair}
    (h : load json sidecarJson persisted = .ok s) : s.InTurn := by
  have hload : s.persistedLogId = s.machine.lastApplied ∧ s.builders = [] := by
    cases persisted with
    | none =>
      cases h
      exact ⟨rfl, rfl⟩
    | some =>
      obtain ⟨⟨_, machine⟩, hinstall, hs⟩ := bind_eq_ok_iff.mp h
      cases hs
      exact ⟨(installSnapshot_ok hinstall).2.symm, rfl⟩
  obtain ⟨hdurable, hnone⟩ := hload
  refine ⟨le_of_eq hdurable, ?_, ?_, ?_⟩
  · rw [hnone]
    exact fun _ hmem => absurd hmem not_mem_nil
  · rw [hnone]
    exact fun _ hmem => absurd hmem not_mem_nil
  · rw [hnone]
    exact List.Pairwise.nil

end Steps

/-! ## Whole sequences -/

/-- **The durable snapshot never goes back**, from any store that loads and in every
sequence of events in which the writers take turns; and at its end it covers every
snapshot that was installed. -/
theorem snapshot_never_goes_back (json : Codec SnapshotWire)
    (sidecarJson : Codec CommandSessionsSnapshotV1) {persisted : Option SnapshotPair}
    {s : SnapshotReplica} (hload : load json sidecarJson persisted = .ok s)
    {events : List SnapshotEvent}
    (h : Run.Meets (step json sidecarJson)
      (fun s event => s.Admissible event ∧ s.Serialised event) s events) :
    NeverGoesBack json sidecarJson s events ∧ CoversInstalled json sidecarJson s events := by
  have hinv : ∀ (s : SnapshotReplica) event, s.InTurn →
      s.Admissible event ∧ s.Serialised event → (step json sidecarJson s event).1.InTurn :=
    fun s event hs hok => (step_cases json sidecarJson s event).inTurn hs hok.1 hok.2
  have hle : ∀ (s : SnapshotReplica) event, s.InTurn →
      s.Admissible event ∧ s.Serialised event →
      s.persistedLogId ≤ (step json sidecarJson s event).1.persistedLogId :=
    fun s event hs hok => (step_cases json sidecarJson s event).persistedLogId_le hs hok.1
  have hstart := load_inTurn hload
  constructor
  · intro before event after hevents
    subst hevents
    obtain ⟨hbefore, hevent, -⟩ := Run.meets_append.mp h
    rw [run, run, Run.final_append]
    exact hle _ event (Run.final_invariant_of_meets hinv hstart hbefore) hevent
  · intro before snapshotMeta data after hevents hwrote
    subst hevents
    obtain ⟨hbefore, hevent, hafter⟩ := Run.meets_append.mp h
    have hmiddle := hinv _ _ (Run.final_invariant_of_meets hinv hstart hbefore) hevent
    have hinstalled := step_cases json sidecarJson (run json sidecarJson s before)
      (.installSnapshot snapshotMeta data true)
    rw [hwrote] at hinstalled
    rw [← hinstalled.persistedLogId_installed]
    show _ ≤ persistedLogId (Run.final _ s (before ++ _ :: after))
    rw [Run.final_append, Run.final_cons]
    exact Run.le_final_of_meets (f := persistedLogId) hinv hle hmiddle hafter

end SnapshotReplica

/-! ## A builder that comes late -/

namespace SnapshotReplica

/-- Snapshots are written as JSON texts. -/
noncomputable abbrev snapshotText : Codec SnapshotWire := SnapshotWire.serdeJson

/-- So are session tables. -/
noncomputable abbrev sidecarText : Codec CommandSessionsSnapshotV1 :=
  CommandSessionsSnapshotV1.serdeJson

/-- The text of the snapshot of an empty Broker. -/
def emptySnapshot : Bytes :=
  (checkpointToWire SessionedBroker.initial.broker.state.checkpoint).json

/-- The text of an empty session table. -/
def emptySidecar : Bytes :=
  (commandSessionsSnapshot SessionedBroker.initial.commandSessions).write.compact

/-- The consensus snapshot of a replica that has applied nothing. -/
def emptyFrame : Bytes := frame emptySnapshot emptySidecar

theorem length_emptyFrame_le :
    consensusSnapshotHeaderBytes + emptySnapshot.length + emptySidecar.length ≤ isizeMax := by
  decide +kernel

/-- The metadata of a snapshot at an index of the first term. -/
def metaAt (index : Nat) : SnapshotMeta := ⟨((⟨1, index⟩ : LogId) : LastLogId), ⟨⊥, []⟩⟩

/-- The snapshot of an empty Broker can be installed at any index. -/
theorem installSnapshot_empty (index : Nat) : ∃ machine,
    AgentBrokerRaftStateMachine.installSnapshot snapshotText sidecarText (metaAt index)
      emptyFrame = .ok ((metaAt index, emptyFrame), machine) := by
  have hdecoded := SessionedBroker.decodeConsensusSnapshot_frame snapshotText sidecarText
    SessionedBroker.initial_storable (length_emptyFrame_le.trans_lt (by decide))
  change decodeConsensusSnapshot _ _ emptyFrame = _ at hdecoded
  obtain ⟨restored, hrestored, -⟩ :=
    BrokerStateMachine.fromCheckpoint_checkpoint SessionedBroker.initial_storable.indexed
  unfold AgentBrokerRaftStateMachine.installSnapshot
  rw [hdecoded, ok_bind, hrestored]
  exact ⟨_, rfl⟩

/-- The builder that is taken at index 1, of an empty Broker. -/
def builderAtOne : AgentBrokerRaftSnapshotBuilder :=
  (empty.machine.applyEntries [⟨⟨1, 1⟩, .blank⟩]).1.getSnapshotBuilder

theorem buildSnapshot_builderAtOne :
    builderAtOne.buildSnapshot snapshotText sidecarText = .ok (metaAt 1, emptyFrame) := by
  have hencoded : encodeConsensusSnapshot snapshotText sidecarText builderAtOne.checkpoint
      builderAtOne.commandSessions = .ok emptyFrame :=
    encodeFrame_eq_ok length_emptyFrame_le
  rw [AgentBrokerRaftSnapshotBuilder.buildSnapshot, hencoded]
  rfl

theorem step_builderAtOne (machine : AgentBrokerRaftStateMachine) (pair : Option SnapshotPair) :
    step snapshotText sidecarText ⟨machine, pair, [builderAtOne]⟩ (.buildSnapshot 0 true) =
      (⟨machine, some (metaAt 1, emptyFrame), []⟩, some (metaAt 1, emptyFrame)) := by
  simp only [step, List.getElem?_cons_zero, buildSnapshot_builderAtOne, eraseIdx_cons_zero]

/-- A builder that ends before a snapshot is installed. -/
def timelyBuilder : List SnapshotEvent :=
  [.apply [⟨⟨1, 1⟩, .blank⟩], .getSnapshotBuilder, .buildSnapshot 0 true,
    .installSnapshot (metaAt 10) emptyFrame true]

theorem timely_builder_is_covered :
    NeverGoesBack snapshotText sidecarText empty timelyBuilder ∧
      CoversInstalled snapshotText sidecarText empty timelyBuilder := by
  refine snapshot_never_goes_back snapshotText sidecarText (rfl : load _ _ none = .ok empty)
    ⟨⟨?_, trivial⟩, ⟨trivial, trivial⟩, ⟨trivial, fun _ => rfl⟩, ⟨?_, ?_⟩, trivial⟩
  · exact ⟨fun entry _ => WithBot.bot_lt_coe _, pairwise_singleton _ _⟩
  · show AgentBrokerRaftStateMachine.lastApplied (step snapshotText sidecarText
      ⟨_, none, [builderAtOne]⟩ (.buildSnapshot 0 true)).1.machine < (metaAt 10).lastLogId
    rw [step_builderAtOne]
    show ((⟨1, 1⟩ : LogId) : LastLogId) < (metaAt 10).lastLogId
    decide
  · show (step snapshotText sidecarText ⟨_, none, [builderAtOne]⟩
      (.buildSnapshot 0 true)).1.builders = []
    rw [step_builderAtOne]

/-- A builder is taken at index 1; a snapshot at index 10 is installed; the builder ends. -/
def lateBuilder : List SnapshotEvent :=
  [.apply [⟨⟨1, 1⟩, .blank⟩], .getSnapshotBuilder,
    .installSnapshot (metaAt 10) emptyFrame true, .buildSnapshot 0 true]

/-- **A late builder replaces an installed snapshot.**  Every event is admissible, yet the
durable snapshot goes back from index 10 to index 1. -/
theorem late_builder_replaces_installed_snapshot :
    load snapshotText sidecarText none = .ok empty ∧
      Run.Meets (step snapshotText sidecarText) Admissible empty lateBuilder ∧
      (run snapshotText sidecarText empty (lateBuilder.take 3)).persistedLogId =
        (metaAt 10).lastLogId ∧
      (run snapshotText sidecarText empty lateBuilder).persistedLogId = (metaAt 1).lastLogId ∧
      ¬NeverGoesBack snapshotText sidecarText empty lateBuilder ∧
      ¬CoversInstalled snapshotText sidecarText empty lateBuilder := by
  obtain ⟨machine, hmachine⟩ := installSnapshot_empty 10
  have hinstall : ∀ s : SnapshotReplica, step snapshotText sidecarText s
      (.installSnapshot (metaAt 10) emptyFrame true) =
        ({ s with machine := machine, persisted := some (metaAt 10, emptyFrame) },
          some (metaAt 10, emptyFrame)) := by
    intro s
    simp only [step, hmachine]
  have hthree : run snapshotText sidecarText empty (lateBuilder.take 3) =
      ⟨machine, some (metaAt 10, emptyFrame), [builderAtOne]⟩ := by
    show (step snapshotText sidecarText _
      (.installSnapshot (metaAt 10) emptyFrame true)).1 = _
    rw [hinstall]
    rfl
  have hfour : run snapshotText sidecarText empty lateBuilder =
      ⟨machine, some (metaAt 1, emptyFrame), []⟩ := by
    show (step snapshotText sidecarText
      (run snapshotText sidecarText empty (lateBuilder.take 3)) (.buildSnapshot 0 true)).1 = _
    rw [hthree, step_builderAtOne]
  have hback : ¬(metaAt 10).lastLogId ≤ (metaAt 1).lastLogId := by decide
  refine ⟨rfl, ?_, by rw [hthree]; rfl, by rw [hfour]; rfl, fun hnever => ?_, fun hcovers => ?_⟩
  · refine ⟨?_, trivial, ?_, trivial, trivial⟩
    · refine ⟨fun entry _ => WithBot.bot_lt_coe _, pairwise_singleton _ _⟩
    · show ((⟨1, 1⟩ : LogId) : LastLogId) < (metaAt 10).lastLogId
      decide
  · have hle := hnever (lateBuilder.take 3) (.buildSnapshot 0 true) [] rfl
    have hall : lateBuilder.take 3 ++ [.buildSnapshot 0 true] = lateBuilder := rfl
    rw [hall, hthree, hfour] at hle
    exact hback hle
  · have hle := hcovers (lateBuilder.take 2) (metaAt 10) emptyFrame [.buildSnapshot 0 true] rfl
      (by rw [hinstall])
    rw [hfour] at hle
    exact hback hle

end SnapshotReplica

end AgentBroker
