import AgentBroker.Consensus.RaftStateMachine
import AgentBroker.Domain.Directory

/-!
# The observation under concurrent readers

`RaftBrokerObservation` (`raft_observation.rs`) is written by the state machine while other
threads read it.  Here each atomic access and each section under the lock of the directory is
one step, and the steps of the writer and of any number of readers are interleaved in any
order.  Every cell also keeps the update that wrote it, which no step reads.

## Main results

* `Ordered.of_step` — the cells are written in one order: a cell never comes from an earlier
  update than the index does.
* `observation_publishes_state_first` — a reader that was given an index reads terms,
  revisions and directories of updates for that index or a later one.
-/

namespace AgentBroker

open List

/-- The arguments of one call of `update`, or of `new`. -/
structure ObservedUpdate where
  state : BrokerState
  appliedIndex : Option Nat

/-- The place of an update in the order of applied indexes, in which none comes first. -/
def ObservedUpdate.rank (update : ObservedUpdate) : Nat := update.appliedIndex.elim 0 (· + 1)

/-- A cell, with the update that wrote it. -/
structure ObservedCell (α : Type) where
  value : α
  origin : ObservedUpdate

/-- The access that `update` makes next. -/
inductive ObservationStore where
  | groupDirectory
  | term
  | revision
  | reset
  | appliedIndex (index : Nat)
  | publish
  deriving DecidableEq

/-- The cells of the observation, the writer and the readers: the access it makes next, the
update it is in or made last and those it makes after it, and what each reader's `applied_index`
loaded from `has_applied_index`. -/
structure ObservationRace where
  term : ObservedCell U64
  revision : ObservedCell U64
  groupDirectory : ObservedCell ConsumerGroupDirectory
  hasAppliedIndex : Bool
  appliedIndex : ObservedCell Nat
  next : ObservationStore
  current : ObservedUpdate
  updates : List ObservedUpdate
  loaded : Nat → Bool

/-- The next access of the writer, or the first load of a reader's `applied_index`.  The other
loads change nothing. -/
inductive ObservationAccess where
  | write
  | loadHasAppliedIndex (reader : Nat)

namespace ObservationRace

/-- `new`, with the updates that follow. -/
def new (initial : ObservedUpdate) (updates : List ObservedUpdate) : ObservationRace where
  term := ⟨initial.state.term.toU64, initial⟩
  revision := ⟨initial.state.revision.toU64, initial⟩
  groupDirectory := ⟨initial.state.groupDirectory, initial⟩
  hasAppliedIndex := initial.appliedIndex.isSome
  appliedIndex := ⟨initial.appliedIndex.getD 0, initial⟩
  next := .groupDirectory
  current := initial
  updates := updates
  loaded := fun _ => false

/-- One access of `update`. -/
def write (race : ObservationRace) : ObservationRace :=
  match race.next with
  | .groupDirectory =>
    match race.updates with
    | [] => race
    | update :: updates =>
      { race with
        groupDirectory := ⟨update.state.groupDirectory, update⟩
        next := .term
        current := update
        updates := updates }
  | .term =>
    { race with
      term := ⟨race.current.state.term.toU64, race.current⟩
      next := .revision }
  | .revision =>
    { race with
      revision := ⟨race.current.state.revision.toU64, race.current⟩
      next := .reset }
  | .reset =>
    { race with
      hasAppliedIndex := false
      next := race.current.appliedIndex.elim .groupDirectory .appliedIndex }
  | .appliedIndex index =>
    { race with
      appliedIndex := ⟨index, race.current⟩
      next := .publish }
  | .publish =>
    { race with
      hasAppliedIndex := true
      next := .groupDirectory }

/-- One step of the writer or of a reader. -/
def step (race : ObservationRace) : ObservationAccess → ObservationRace × Unit
  | .write => (race.write, ())
  | .loadHasAppliedIndex reader =>
    ({ race with loaded := fun r => if r = reader then race.hasAppliedIndex else race.loaded r },
      ())

/-- What a reader's `applied_index` returns if its second load is made now. -/
def appliedIndexOf (race : ObservationRace) (reader : Nat) : Option Nat :=
  if race.loaded reader then some race.appliedIndex.value else none

/-! ## The order of the cells -/

/-- What holds along every run: each cell holds what its update wrote, the cells come from
updates in the order in which they are written, and an index that can be read was written. -/
structure Ordered (history : List ObservedUpdate) (race : ObservationRace) : Prop where
  term : race.term.value = race.term.origin.state.term.toU64 ∧ race.term.origin ∈ history
  revision : race.revision.value = race.revision.origin.state.revision.toU64 ∧
    race.revision.origin ∈ history
  groupDirectory : race.groupDirectory
    = ⟨race.current.state.groupDirectory, race.current⟩ ∧ race.current ∈ history
  appliedIndex : ∀ index, race.appliedIndex.origin.appliedIndex = some index →
    race.appliedIndex.value = index
  termWritten : race.next ≠ .term → race.term.origin = race.current
  revisionWritten : race.next ≠ .term → race.next ≠ .revision →
    race.revision.origin = race.current
  indexWritten : ∀ index, race.next = .appliedIndex index →
    race.current.appliedIndex = some index
  published : race.hasAppliedIndex = true ∨ race.next = .publish →
    0 < race.appliedIndex.origin.rank
  loaded : ∀ reader, race.loaded reader = true → 0 < race.appliedIndex.origin.rank
  termOrder : race.term.origin.rank ≤ race.current.rank
  revisionOrder : race.revision.origin.rank ≤ race.term.origin.rank
  indexOrder : race.appliedIndex.origin.rank ≤ race.revision.origin.rank
  upcoming : (race.current :: race.updates).Pairwise (·.rank < ·.rank)
  history : ∀ update ∈ race.updates, update ∈ history

/-- The observation begins in order. -/
theorem ordered_new {initial : ObservedUpdate} {updates : List ObservedUpdate}
    (h : (initial :: updates).Pairwise (·.rank < ·.rank)) :
    Ordered (initial :: updates) (new initial updates) where
  term := ⟨rfl, mem_cons_self⟩
  revision := ⟨rfl, mem_cons_self⟩
  groupDirectory := ⟨rfl, mem_cons_self⟩
  appliedIndex := fun index hindex => by
    change initial.appliedIndex = some index at hindex
    change initial.appliedIndex.getD 0 = index
    rw [hindex]
    rfl
  termWritten := fun _ => rfl
  revisionWritten := fun _ _ => rfl
  indexWritten := fun _ hnext => by cases hnext
  published := fun hpublished => by
    change initial.appliedIndex.isSome = true ∨ ObservationStore.groupDirectory = .publish
      at hpublished
    change 0 < initial.appliedIndex.elim 0 (· + 1)
    cases hindex : initial.appliedIndex with
    | none => simp [hindex] at hpublished
    | some index => exact Nat.succ_pos index
  loaded := fun _ hloaded => by cases hloaded
  termOrder := Nat.le_refl _
  revisionOrder := Nat.le_refl _
  indexOrder := Nat.le_refl _
  upcoming := h
  history := fun _ hmem => mem_cons_of_mem _ hmem

variable {history : List ObservedUpdate} {race : ObservationRace}

/-- The update in progress is newer than what is read of the index. -/
theorem Ordered.rank_le_current (h : Ordered history race) :
    race.appliedIndex.origin.rank ≤ race.current.rank :=
  (h.indexOrder.trans h.revisionOrder).trans h.termOrder

/-- An access other than the last one publishes nothing. -/
theorem Ordered.published_of_ne (h : Ordered history race) {next : ObservationStore}
    (hne : next ≠ .publish) (hpublished : race.hasAppliedIndex = true ∨ next = .publish) :
    0 < race.appliedIndex.origin.rank :=
  h.published (hpublished.imp_right fun heq => absurd heq hne)

/-- An access of the writer keeps the order, and its index never goes back. -/
theorem Ordered.of_write (h : Ordered history race) :
    Ordered history race.write ∧
      race.appliedIndex.origin.rank ≤ race.write.appliedIndex.origin.rank := by
  unfold ObservationRace.write
  split
  case h_1 hnext =>
    split
    · exact ⟨h, Nat.le_refl _⟩
    case h_2 update updates hupdates =>
      have hupcoming := h.upcoming
      have hhistory := h.history
      rw [hupdates] at hupcoming hhistory
      obtain ⟨hnewer, hrest⟩ := pairwise_cons.mp hupcoming
      have hrank := hnewer update mem_cons_self
      exact ⟨{ h with
        groupDirectory := ⟨rfl, hhistory update mem_cons_self⟩
        termWritten := fun hne => absurd rfl hne
        revisionWritten := fun hne => absurd rfl hne
        indexWritten := nofun
        published := h.published_of_ne nofun
        termOrder := h.termOrder.trans hrank.le
        upcoming := hrest
        history := fun other hmem => hhistory other (mem_cons_of_mem _ hmem) },
        Nat.le_refl _⟩
  case h_2 hnext =>
    exact ⟨{ h with
      term := ⟨rfl, h.groupDirectory.2⟩
      termWritten := fun _ => rfl
      revisionWritten := fun _ hne => absurd rfl hne
      indexWritten := nofun
      published := h.published_of_ne nofun
      termOrder := Nat.le_refl _
      revisionOrder := h.revisionOrder.trans h.termOrder }, Nat.le_refl _⟩
  case h_3 hnext =>
    have hcurrent := h.termWritten (by rw [hnext]; decide)
    exact ⟨{ h with
      revision := ⟨rfl, h.groupDirectory.2⟩
      termWritten := fun _ => hcurrent
      revisionWritten := fun _ _ => rfl
      indexWritten := nofun
      published := h.published_of_ne nofun
      revisionOrder := by rw [hcurrent]
      indexOrder := h.rank_le_current }, Nat.le_refl _⟩
  case h_4 hnext =>
    have hcurrent := h.termWritten (by rw [hnext]; decide)
    have hrevised := h.revisionWritten (by rw [hnext]; decide) (by rw [hnext]; decide)
    refine ⟨{ h with
      termWritten := fun _ => hcurrent
      revisionWritten := fun _ _ => hrevised
      indexWritten := fun index heq => ?_
      published := fun hp => ?_ }, Nat.le_refl _⟩
    · cases hsome : race.current.appliedIndex with
      | none => simp [hsome] at heq
      | some _ =>
        rw [hsome] at heq
        exact congrArg some (ObservationStore.appliedIndex.inj heq)
    · cases hsome : race.current.appliedIndex with
      | none | some _ => simp [hsome] at hp
  case h_5 index hnext =>
    have hne : ∀ store : ObservationStore, store = .term ∨ store = .revision →
        race.next ≠ store := by
      rintro _ (rfl | rfl) <;> simp [hnext]
    have hcurrent := h.termWritten (hne _ (Or.inl rfl))
    have hrevised := h.revisionWritten (hne _ (Or.inl rfl)) (hne _ (Or.inr rfl))
    have hsome := h.indexWritten index hnext
    have hpos : 0 < race.current.rank := by
      rw [ObservedUpdate.rank, hsome]
      exact Nat.succ_pos index
    exact ⟨{ h with
      appliedIndex := fun other hother => Option.some.inj (hsome.symm.trans hother)
      termWritten := fun _ => hcurrent
      revisionWritten := fun _ _ => hrevised
      indexWritten := nofun
      published := fun _ => hpos
      loaded := fun _ _ => hpos
      indexOrder := by rw [hrevised] }, h.rank_le_current⟩
  case h_6 hnext =>
    have hcurrent := h.termWritten (by rw [hnext]; decide)
    have hrevised := h.revisionWritten (by rw [hnext]; decide) (by rw [hnext]; decide)
    exact ⟨{ h with
      termWritten := fun _ => hcurrent
      revisionWritten := fun _ _ => hrevised
      indexWritten := nofun
      published := fun _ => h.published (Or.inr hnext) }, Nat.le_refl _⟩

/-- So does every step: a reader only notes what it loaded. -/
theorem Ordered.of_step (h : Ordered history race) (access : ObservationAccess) :
    Ordered history (race.step access).1 ∧
      race.appliedIndex.origin.rank ≤ (race.step access).1.appliedIndex.origin.rank := by
  cases access with
  | write => exact h.of_write
  | loadHasAppliedIndex =>
    refine ⟨{ h with loaded := fun other hloaded => ?_ }, Nat.le_refl _⟩
    dsimp only [ObservationRace.step] at hloaded
    split at hloaded
    · exact h.published (Or.inl hloaded)
    · exact h.loaded other hloaded

/-- Along a run the order is kept and the index never goes back. -/
theorem Ordered.of_run (h : Ordered history race) (accesses : List ObservationAccess) :
    Ordered history (Run.final step race accesses) ∧
      race.appliedIndex.origin.rank
        ≤ (Run.final step race accesses).appliedIndex.origin.rank := by
  induction accesses generalizing race with
  | nil => exact ⟨h, Nat.le_refl _⟩
  | cons access _ ih =>
    obtain ⟨hstep, hgrows⟩ := h.of_step access
    obtain ⟨hrun, hruns⟩ := ih hstep
    exact ⟨hrun, Nat.le_trans hgrows hruns⟩

/-- An index that a reader is given is the one of the update that wrote it. -/
theorem Ordered.rank_of_appliedIndexOf (h : Ordered history race) {reader index : Nat}
    (hread : race.appliedIndexOf reader = some index) :
    race.appliedIndex.origin.rank = index + 1 := by
  unfold appliedIndexOf at hread
  split at hread
  case isFalse => cases hread
  case isTrue hloaded =>
    have hpos := h.loaded reader hloaded
    have hvalue := h.appliedIndex
    unfold ObservedUpdate.rank at hpos ⊢
    cases horigin : race.appliedIndex.origin.appliedIndex with
    | none => simp [horigin] at hpos
    | some written =>
      rw [← Option.some.inj hread, hvalue written horigin]
      rfl

/-! ## What readers get -/

/-- A cell holds what an update for the index `i` or a later one wrote. -/
def WrittenSince {α : Type} (history : List ObservedUpdate) (project : BrokerState → α) (i : Nat)
    (cell : ObservedCell α) : Prop :=
  cell.value = project cell.origin.state ∧ cell.origin ∈ history ∧
    ∃ index, cell.origin.appliedIndex = some index ∧ i ≤ index

/-- A cell that comes from no earlier update than the index. -/
theorem writtenSince_of_rank {α : Type} {project : BrokerState → α} {i : Nat}
    {cell : ObservedCell α} (hvalue : cell.value = project cell.origin.state)
    (hmem : cell.origin ∈ history) (hrank : i + 1 ≤ cell.origin.rank) :
    WrittenSince history project i cell := by
  refine ⟨hvalue, hmem, ?_⟩
  unfold ObservedUpdate.rank at hrank
  cases hindex : cell.origin.appliedIndex with
  | none => simp [hindex] at hrank
  | some index => exact ⟨index, rfl, by simpa [hindex] using hrank⟩

/-- State is published before its index.  In every interleaving of a writer that makes updates
of increasing index with any readers, a reader whose `applied_index` returned an index finds
afterwards, whenever it loads them, terms, revisions and directories of updates for that index
or a later one. -/
theorem observation_publishes_state_first (initial : ObservedUpdate)
    (updates : List ObservedUpdate)
    (hincreasing : (initial :: updates).Pairwise (·.rank < ·.rank))
    (before after : List ObservationAccess) (reader i : Nat)
    (hread : (Run.final step (new initial updates) before).appliedIndexOf reader = some i) :
    let later := Run.final step (new initial updates) (before ++ after)
    WrittenSince (initial :: updates) (·.term.toU64) i later.term ∧
      WrittenSince (initial :: updates) (·.revision.toU64) i later.revision ∧
      WrittenSince (initial :: updates) (·.groupDirectory) i later.groupDirectory := by
  intro later
  obtain ⟨hbefore, -⟩ := (ordered_new hincreasing).of_run before
  obtain ⟨hlater, hgrows⟩ := hbefore.of_run after
  rw [← Run.final_append] at hlater hgrows
  rw [hbefore.rank_of_appliedIndexOf hread] at hgrows
  -- The index of the reader is behind the revision, that behind the term, all in one order.
  have hrevision : i + 1 ≤ later.revision.origin.rank := Nat.le_trans hgrows hlater.indexOrder
  have hterm : i + 1 ≤ later.term.origin.rank := Nat.le_trans hrevision hlater.revisionOrder
  have hcurrent : i + 1 ≤ later.current.rank := Nat.le_trans hterm hlater.termOrder
  refine ⟨writtenSince_of_rank hlater.term.1 hlater.term.2 hterm,
    writtenSince_of_rank hlater.revision.1 hlater.revision.2 hrevision, ?_⟩
  obtain ⟨hdirectory, hmem⟩ := hlater.groupDirectory
  rw [show later.groupDirectory = _ from hdirectory]
  exact writtenSince_of_rank rfl hmem hcurrent

/-- A reader that loads the flag behind one update and the index in the midst of the next is
given the index of the next, whose state is there. -/
theorem observation_publishes_state_first_mixed :
    let initial : ObservedUpdate := ⟨BrokerState.initial, some 3⟩
    let updates : List ObservedUpdate := [⟨BrokerState.initial, some 4⟩]
    let before : List ObservationAccess :=
      [.loadHasAppliedIndex 0, .write, .write, .write, .write, .write]
    (Run.final step (new initial updates) before).appliedIndexOf 0 = some 4 ∧
      WrittenSince (initial :: updates) (·.term.toU64) 4
        (Run.final step (new initial updates) (before ++ [.write])).term :=
  ⟨rfl, (observation_publishes_state_first ⟨BrokerState.initial, some 3⟩
    [⟨BrokerState.initial, some 4⟩] (by decide)
    [.loadHasAppliedIndex 0, .write, .write, .write, .write, .write] [.write] 0 4 rfl).1⟩

end ObservationRace

end AgentBroker
