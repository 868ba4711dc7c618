import AgentBroker.Storage.Repository

/-!
# Recovery

What the two files hold, whatever stopped the repository: a snapshot of some earlier
state, the records from there on, after records that the snapshot has overtaken, and
possibly the beginning of one more record.  `Stores` says so of a state; every operation
leaves files that store the state before it or the state after it, and loading gives back
the one they store.

## Main results

* `commit_stores` — what a commit leaves, whether it completes or stops.
* `load_stores` — loading gives back the stored state, and leaves it stored.
* `journal_stays_bounded` — the journal does not outgrow the policy.
-/

namespace AgentBroker

open Except hiding error
open EStateM List BrokerStateMachine
open EStateM (wp)

/-! ## Operations on files -/

section Operations

variable {α : Type} {files : Files} {Q : α → Files → Prop} {E : Stop → Files → Prop}

theorem wp_replaceFiles {Q : Unit → Files → Prop} {io : ReplaceIo} {replace : Files → Files}
    (hdone : Q () (replace files))
    (hstop : ∀ stop, io ≠ .done → E stop (replace files) ∧ E stop files) :
    wp (replaceFiles io replace) files Q E := by
  cases io with
  | done => exact hdone
  | stopped replaced stop =>
    obtain ⟨hreplaced, hkept⟩ := hstop stop (fun heq => nomatch heq)
    cases replaced with
    | true => exact hreplaced
    | false => exact hkept

/-- An append completes and fits, or leaves a prefix. -/
theorem wp_appendSynced {Q : Unit → Files → Prop} {io : AppendIo} {payload : Bytes}
    (hdone : files.journalData.length + payload.length ≤ maxFileBytes →
      Q () (files.grown payload))
    (htorn : ∀ stop reached, E stop (files.grown (payload.take reached)))
    (hkept : ∀ stop, E stop files) : wp (appendSynced io payload) files Q E := by
  cases io with
  | done =>
    show wp (do
      set (files.grown payload)
      if files.journalData.length + payload.length ≤ maxFileBytes then return ()
      else throw (.failed (.io "journal append failed" "File too large")) : DiskM Unit) files Q E
    rw [wp_bind, wp_set]
    split_ifs with hfits
    · exact hdone hfits
    · have hall := htorn (.failed (.io "journal append failed" "File too large")) payload.length
      rwa [take_length] at hall
  | stopped reached stop =>
    cases reached with
    | none => exact hkept stop
    | some reached => exact htorn stop reached

theorem wp_attempt {x : DiskM α} {Q : Except RepositoryError α → Files → Prop}
    (h : wp x files (fun a files => Q (.ok a) files) fun stop files =>
      (∀ error, stop = .failed error → Q (.error error) files) ∧ E stop files) :
    wp (attempt x) files Q E := by
  unfold wp attempt at *
  unfold EStateM.run at *
  cases hx : x files with
  | ok =>
    simp only [hx] at h ⊢
    exact h
  | error stop =>
    simp only [hx] at h ⊢
    cases stop with
    | failed error => exact h.1 error rfl
    | crashed => exact h.2

theorem wp_ofStorage {x : Except StorageError α} (hok : ∀ a, x = .ok a → Q a files)
    (herror : ∀ error, x = .error error → E (.failed (.storage error)) files) :
    wp (ofStorage x) files Q E := by
  cases hx : x with
  | ok a => exact hok a hx
  | error error => exact herror error hx

end Operations

/-! ## What files store -/

section Stores

variable (snapshotJson : Codec SnapshotWire) (json : LineCodec JournalMutationWire)

/-- Records that take a checkpoint to a state, if need be by being skipped. -/
structure Recorded (base : BrokerCheckpoint) (records : List Bytes) (state : BrokerState) :
    Prop where
  complete : ∀ line ∈ records, Bytes.IsLine line ∧ line.length ≤ maxJournalRecordBytes ∧
    json.isValue line = true
  replay : records.foldlM (replayRecord json) base = .ok state.checkpoint
  known : ∀ line ∈ records, ∃ mutation, decodeJournalMutation json line = .ok mutation ∧
    mutation.revision ≤ state.revision

/-- A record that takes one state to the next. -/
structure NextRecord (state : BrokerState) (line : Bytes) (state' : BrokerState) : Prop where
  isLine : Bytes.IsLine line
  bounded : line.length ≤ maxJournalRecordBytes
  value : json.isValue line = true
  replayed : ∃ mutation, decodeJournalMutation json line = .ok mutation ∧
    applyJournalMutation state.checkpoint mutation = .ok (state'.checkpoint, true) ∧
    mutation.revision = state'.revision
  advances : state.revision ≤ state'.revision

/-- How the files store a state: a base in the snapshot, records, and a torn tail. -/
structure StoredAs (files : Files) (state : BrokerState) (torn : Bytes)
    (base : BrokerCheckpoint) (records : List Bytes) : Prop where
  snapshot : loadSnapshot snapshotJson files.snapshot = .ok base
  journal : files.journalData = records.flatten ++ torn
  recorded : Recorded json base records state
  torn_line : newline ∉ torn
  torn_le : torn.length ≤ maxJournalRecordBytes
  size_le : files.journalData.length ≤ maxFileBytes

/-- **The files store a state**, with a torn tail after it. -/
def Stores (files : Files) (state : BrokerState) (torn : Bytes) : Prop :=
  ∃ base records, StoredAs snapshotJson json files state torn base records

end Stores

variable {snapshotJson : Codec SnapshotWire} {json : LineCodec JournalMutationWire}
variable {files : Files} {state : BrokerState} {torn : Bytes}
variable {base : BrokerCheckpoint} {records : List Bytes}

/-! ## Records -/

namespace Recorded

theorem nil : Recorded json state.checkpoint [] state where
  complete _ h := absurd h not_mem_nil
  replay := rfl
  known _ h := absurd h not_mem_nil

/-- A record that is new is replayed at the end. -/
theorem snoc (h : Recorded json base records state) {state' : BrokerState} {line : Bytes}
    (hnext : NextRecord json state line state') :
    Recorded json base (records ++ [line]) state' where
  complete other hother := by
    rcases mem_append.mp hother with hold | hnew
    · exact h.complete other hold
    · cases mem_singleton.mp hnew
      exact ⟨hnext.isLine, hnext.bounded, hnext.value⟩
  replay := by
    obtain ⟨mutation, hdecode, happly, -⟩ := hnext.replayed
    rw [foldlM_append, h.replay, ok_bind, foldlM_cons, replayRecord, hdecode, ok_bind, happly]
    rfl
  known other hother := by
    rcases mem_append.mp hother with hold | hnew
    · obtain ⟨older, hdecoded, holder⟩ := h.known other hold
      exact ⟨older, hdecoded, holder.trans hnext.advances⟩
    · cases mem_singleton.mp hnew
      obtain ⟨mutation, hdecode, -, hrevision⟩ := hnext.replayed
      exact ⟨mutation, hdecode, le_of_eq hrevision⟩

/-- **Records that a snapshot has overtaken are skipped.** -/
theorem overtaken (h : Recorded json base records state) {state' : BrokerState}
    (hle : state.revision ≤ state'.revision) :
    Recorded json state'.checkpoint records state' where
  complete := h.complete
  known line hline := by
    obtain ⟨mutation, hdecoded, holder⟩ := h.known line hline
    exact ⟨mutation, hdecoded, holder.trans hle⟩
  replay := by
    have hknown := h.known
    clear h
    induction records with
    | nil => rfl
    | cons line rest ih =>
      obtain ⟨mutation, hdecoded, holder⟩ := hknown line mem_cons_self
      have hstale : mutation.revision ≤ state'.checkpoint.revision := holder.trans hle
      rw [foldlM_cons, replayRecord, hdecoded, ok_bind, applyJournalMutation, if_pos hstale]
      exact ih fun other hother => hknown other (mem_cons_of_mem _ hother)

/-- The loop of `replay_journal` over whole records. -/
theorem replayLines_append (hcomplete : ∀ line ∈ records, Bytes.IsLine line ∧
      line.length ≤ maxJournalRecordBytes ∧ json.isValue line = true)
    {checkpoint : BrokerCheckpoint}
    (hreplay : records.foldlM (replayRecord json) base = .ok checkpoint) {offset : Nat}
    (hsize : offset + records.flatten.length < u64Size) (rest : List Bytes) :
    replayLines json offset base (records ++ rest) =
      replayLines json (offset + records.flatten.length) checkpoint rest := by
  induction records generalizing base offset with
  | nil =>
    cases hreplay
    rfl
  | cons line _ ih =>
    obtain ⟨hline, hbounded, hvalue⟩ := hcomplete line mem_cons_self
    rw [foldlM_cons] at hreplay
    obtain ⟨next, hnext, hothers⟩ := bind_eq_ok_iff.mp hreplay
    rw [flatten_cons, length_append, ← Nat.add_assoc] at hsize
    have hoffset : offset + line.length < u64Size :=
      lt_of_le_of_lt (Nat.le_add_right _ _) hsize
    have hwhole : ¬line.getLast? ≠ some newline := not_not.mpr hline.getLast?
    have hparses : ¬json.isValue line = false := by simp [hvalue]
    rw [cons_append, replayLines, requireBounded, require_pos hbounded,
      ok_bind, require_pos hoffset, ok_bind, if_neg hwhole, if_neg hparses, hnext, ok_bind,
      ih (fun other hother => hcomplete other (mem_cons_of_mem _ hother)) hothers hsize,
      flatten_cons, length_append, Nat.add_assoc]

end Recorded

/-! ## What the operations leave -/

theorem StoredAs.replayLines (h : StoredAs snapshotJson json files state torn base records) :
    AgentBroker.replayLines json 0 base files.journalData.lines =
      .ok ⟨state.checkpoint, records.flatten.length, torn ≠ []⟩ := by
  have hsize : 0 + records.flatten.length + torn.length < u64Size := by
    have hle := h.size_le
    have hpos : 0 < u64Size := by decide
    rw [h.journal, length_append, maxFileBytes] at hle
    omega
  rw [h.journal, Bytes.lines_flatten_append fun line hline => (h.recorded.complete line hline).1,
    Recorded.replayLines_append h.recorded.complete h.recorded.replay
      (lt_of_le_of_lt (Nat.le_add_right _ _) hsize)]
  by_cases htorn : torn = []
  · subst htorn
    rw [Nat.zero_add]
    rfl
  · -- What is torn has no line break, so it is the last piece.
    have hlast : torn.getLast? ≠ some newline := fun heq =>
      h.torn_line (List.mem_of_getLast? heq)
    have hend : ([] : List Bytes) = [] := rfl
    rw [Bytes.lines_of_not_mem h.torn_line htorn, AgentBroker.replayLines, requireBounded,
      require_pos h.torn_le, ok_bind, require_pos hsize, ok_bind,
      if_pos hlast, require_pos hend, Nat.zero_add]
    simp [htorn]

/-- The empty files store the empty Broker. -/
theorem stores_empty :
    Stores snapshotJson json ⟨none, none⟩ BrokerStateMachine.initial.state [] :=
  ⟨BrokerStateMachine.initial.state.checkpoint, [], rfl, rfl, Recorded.nil, not_mem_nil,
    Nat.zero_le _, Nat.zero_le _⟩

theorem loadSnapshot_encodeSnapshot {m : BrokerStateMachine} (h : m.Indexed) :
    loadSnapshot snapshotJson (some (encodeSnapshot snapshotJson m.state.checkpoint)) =
      .ok m.state.checkpoint :=
  decodeSnapshot_encodeSnapshot snapshotJson h

/-- Replacing the snapshot by a later state stores that state: the records are skipped. -/
theorem Stores.snapshotted (h : Stores snapshotJson json files state torn)
    {m : BrokerStateMachine} (hindexed : m.Indexed) (hle : state.revision ≤ m.state.revision) :
    Stores snapshotJson json
      { files with snapshot := some (encodeSnapshot snapshotJson m.state.checkpoint) }
      m.state torn := by
  obtain ⟨base, records, hstored⟩ := h
  exact ⟨m.state.checkpoint, records, loadSnapshot_encodeSnapshot hindexed, hstored.journal,
    hstored.recorded.overtaken hle, hstored.torn_line, hstored.torn_le, hstored.size_le⟩

/-- The files after a compaction of a state: the snapshot of the state and an empty journal. -/
def compacted (snapshotJson : Codec SnapshotWire) (state : BrokerState) : Files :=
  ⟨some (encodeSnapshot snapshotJson state.checkpoint), some []⟩

/-- What a compaction leaves stores the state. -/
theorem stores_compacted {m : BrokerStateMachine} (h : m.Indexed) :
    Stores snapshotJson json (compacted snapshotJson m.state) m.state [] :=
  ⟨m.state.checkpoint, [], loadSnapshot_encodeSnapshot h, rfl, Recorded.nil, not_mem_nil,
    Nat.zero_le _, Nat.zero_le _⟩

section Append

variable {state' : BrokerState} {line : Bytes}

theorem journalData_grown {bytes : Bytes}
    (h : files.journalData.length + bytes.length ≤ maxFileBytes) :
    (files.grown bytes).journalData = files.journalData ++ bytes :=
  take_of_length_le (by rwa [length_append])

/-- A whole record stores the next state. -/
theorem Stores.grown (h : Stores snapshotJson json files state [])
    (hnext : NextRecord json state line state')
    (hfits : files.journalData.length + line.length ≤ maxFileBytes) :
    Stores snapshotJson json (files.grown line) state' [] := by
  obtain ⟨base, records, hstored⟩ := h
  have hdata := journalData_grown hfits
  refine ⟨base, records ++ [line], hstored.snapshot, ?_, hstored.recorded.snoc hnext,
    not_mem_nil, Nat.zero_le _, ?_⟩
  · rw [hdata, hstored.journal, append_nil, flatten_append, flatten_singleton,
      append_nil]
  · rw [hdata, length_append]
    exact hfits

/-- **A record that was cut short** leaves the old state stored, or all of it arrived and
the next state is. -/
theorem Stores.grown_take (h : Stores snapshotJson json files state [])
    (hnext : NextRecord json state line state') (reached : Nat) :
    ∃ torn, Stores snapshotJson json (files.grown (line.take reached)) state torn ∨
      Stores snapshotJson json (files.grown (line.take reached)) state' torn := by
  -- The file takes no more than there is room for.
  obtain ⟨n, hn, hgrown⟩ : ∃ n, files.journalData.length + (line.take n).length ≤ maxFileBytes ∧
      files.grown (line.take reached) = files.grown (line.take n) := by
    obtain ⟨base, records, hstored⟩ := h
    have hroom := hstored.size_le
    refine ⟨min (maxFileBytes - files.journalData.length) reached, ?_, ?_⟩
    · rw [length_take]
      omega
    · unfold Files.grown
      rw [take_append, take_append, take_take, take_take, ← min_assoc, min_self]
  rw [hgrown]
  by_cases hwhole : line.length ≤ n
  · rw [take_of_length_le hwhole] at hn ⊢
    exact ⟨[], Or.inr (h.grown hnext hn)⟩
  · obtain ⟨base, records, hstored⟩ := h
    have hdata := journalData_grown hn
    refine ⟨line.take n, Or.inl ⟨base, records, hstored.snapshot, ?_, hstored.recorded, ?_, ?_,
      ?_⟩⟩
    · rw [hdata, hstored.journal, append_nil]
    · exact Bytes.newline_not_mem_take hnext.isLine (Nat.lt_of_not_le hwhole)
    · exact le_trans (length_take_le' _ _) hnext.bounded
    · rw [hdata, length_append]
      exact hn

end Append

/-! ## Commits -/

/-- The record of a command is the next one. -/
theorem nextRecord_of_apply {m : BrokerStateMachine} {c : BrokerCommand}
    {applied : AppliedMutation} {payload : Bytes} (h : m.Indexed)
    (hok : (m.apply c).2 = .ok applied)
    (hrevision : (m.apply c).1.state.revision ≠ m.state.revision)
    (hpayload : encodeJournalMutation json (m.apply c).1.state applied.changes = .ok payload)
    (hbounded : payload.length ≤ maxJournalRecordBytes) :
    NextRecord json m.state payload (m.apply c).1.state := by
  obtain ⟨hwrite, hread, hreplay⟩ := journal_follows h hok hrevision
  obtain ⟨hnext, -⟩ := exactChanges_of_revision_ne h hok hrevision
  rw [encodeJournalMutation_eq_ok json hwrite] at hpayload
  cases hpayload
  refine ⟨⟨_, json.newline_not_mem _, rfl⟩, hbounded, json.isValue_line _, ⟨_, ?_, hreplay, rfl⟩,
    le_of_lt (Counter.lt_next hnext)⟩
  rw [decodeJournalMutation_line, hread]

namespace JournaledBrokerStateRepository

variable {repository : JournaledBrokerStateRepository}

/-- A compaction replaces the snapshot and then empties the journal, and does nothing else. -/
theorem compact_files (io : CompactIo) :
    wp (repository.compact snapshotJson io state) files
      (fun repository' files' => files' = compacted snapshotJson state ∧
        repository' = { repository with commitsSinceCompaction := 0, journalBytes := 0 })
      (fun _ files' => files' = files ∨
        files' = { files with snapshot := (compacted snapshotJson state).snapshot } ∨
        files' = compacted snapshotJson state) := by
  unfold compact
  rw [wp_bind]
  refine wp_replaceFiles ?_ fun _ _ => ⟨Or.inr (Or.inl rfl), Or.inl rfl⟩
  rw [wp_bind]
  exact wp_replaceFiles ⟨rfl, rfl⟩ fun _ _ => ⟨Or.inr (Or.inr rfl), Or.inr (Or.inl rfl)⟩

/-- **A compaction** of a later state stores that state when it completes, and the one or
the other when it stops. -/
theorem compact_stores (h : Stores snapshotJson json files state []) {m : BrokerStateMachine}
    (hindexed : m.Indexed) (hle : state.revision ≤ m.state.revision) (io : CompactIo) :
    wp (repository.compact snapshotJson io m.state) files
      (fun _ files => Stores snapshotJson json files m.state [])
      (fun _ files => Stores snapshotJson json files state [] ∨
        Stores snapshotJson json files m.state []) := by
  refine wp_mono (compact_files io) ?_ ?_
  · rintro repository' files' ⟨rfl, -⟩
    exact stores_compacted hindexed
  · -- The journal is emptied only after the snapshot is in place.
    rintro stop files' (rfl | rfl | rfl)
    · exact Or.inl h
    · exact Or.inr (h.snapshotted hindexed hle)
    · exact Or.inr (stores_compacted hindexed)

/-- **A commit** stores the next state when it completes.  When it stops, the files store
the state before it or the one after it. -/
theorem commit_stores {m : BrokerStateMachine} {c : BrokerCommand} {applied : AppliedMutation}
    (hindexed : m.Indexed) (h : Stores snapshotJson json files m.state [])
    (hok : (m.apply c).2 = .ok applied)
    (hrevision : (m.apply c).1.state.revision ≠ m.state.revision)
    (hbounded : ∀ payload, encodeJournalMutation json (m.apply c).1.state applied.changes =
      .ok payload → payload.length ≤ maxJournalRecordBytes) (io : CommitIo) :
    wp (repository.commit snapshotJson json io (m.apply c).1.state applied.changes) files
      (fun _ files => Stores snapshotJson json files (m.apply c).1.state [])
      (fun _ files => ∃ torn, Stores snapshotJson json files m.state torn ∨
        Stores snapshotJson json files (m.apply c).1.state torn) := by
  have hindexed' := apply_indexed hindexed c
  have hadvances : m.state.revision ≤ (m.apply c).1.state.revision :=
    le_of_lt (Counter.lt_next
      (exactChanges_of_revision_ne hindexed hok hrevision).1)
  unfold commit
  split_ifs with hdeferred
  · rw [wp_bind]
    exact wp_mono (compact_stores h hindexed' hadvances io.compaction)
      (fun _ _ hstored => hstored) fun _ _ hstored => ⟨[], hstored⟩
  · rw [wp_bind]
    refine wp_ofStorage (fun payload hpayload => ?_) fun _ _ => ⟨[], Or.inl h⟩
    have hnext := nextRecord_of_apply hindexed hok hrevision hpayload (hbounded payload hpayload)
    rw [wp_bind]
    refine wp_appendSynced (fun hfits => ?_) (fun _ reached => h.grown_take hnext reached)
      fun _ => ⟨[], Or.inl h⟩
    have hstored := h.grown hnext hfits
    rw [wp_bind]
    refine wp_ofStorage (fun repository' _ => ?_) fun _ _ => ⟨[], Or.inr hstored⟩
    split_ifs with hcompact
    · rw [wp_bind]
      refine wp_attempt (wp_mono (compact_stores hstored hindexed' le_rfl io.compaction)
        (fun _ _ hcompacted => hcompacted) fun _ _ hcompacted => ?_)
      have hsame := hcompacted.elim id id
      exact ⟨fun _ _ => hsame, [], Or.inr hsame⟩
    · exact hstored

/-! ## Loading -/

/-- Cutting the torn tail off leaves the records. -/
theorem Stores.truncated {journal : Bytes}
    (h : StoredAs snapshotJson json files state torn base records)
    (hjournal : files.journal = some journal) :
    Stores snapshotJson json { files with
      journal := files.journal.map (List.take records.flatten.length) } state [] := by
  have hdata : journal = records.flatten ++ torn := by
    rw [← h.journal, Files.journalData, hjournal]
    rfl
  have hcut : Files.journalData { files with
      journal := files.journal.map (List.take records.flatten.length) } = records.flatten := by
    show (files.journal.map (List.take records.flatten.length)).getD [] = records.flatten
    rw [hjournal, hdata]
    exact take_left
  refine ⟨base, records, h.snapshot, ?_, h.recorded, not_mem_nil, Nat.zero_le _, ?_⟩
  · rw [hcut, append_nil]
  · have hle := h.size_le
    rw [h.journal, length_append] at hle
    rw [hcut]
    exact le_trans (Nat.le_add_right _ _) hle

/-- **Loading** gives back the state that the files store, and leaves it stored without a
torn tail.  It stops only if something cannot be read or the tail cannot be cut off, and
then the state is still stored. -/
theorem load_stores (h : Stores snapshotJson json files state torn) (io : LoadIo) :
    wp (repository.load snapshotJson json io) files
      (fun loaded files => loaded.2 = state.checkpoint ∧ Stores snapshotJson json files state [])
      (fun _ files => io ≠ ⟨none, .done⟩ ∧ ∃ torn, Stores snapshotJson json files state torn) := by
  obtain ⟨unreadable, truncation⟩ := io
  cases unreadable with
  | some => exact ⟨fun heq => (nomatch heq), torn, h⟩
  | none =>
    obtain ⟨base, records, hstored⟩ := h
    unfold load
    rw [wp_bind, wp_get, wp_bind]
    refine wp_ofStorage (fun snapshot hsnapshot => ?_) fun error herror => ?_
    swap
    · cases hstored.snapshot.symm.trans herror
    cases hstored.snapshot.symm.trans hsnapshot
    have hreplayed := hstored.replayLines
    cases hjournal : files.journal with
    | none =>
      -- Without a journal nothing is recorded and nothing is torn.
      have hnone : files.journalData = [] := by rw [Files.journalData, hjournal, Option.getD_none]
      have htorn : torn = [] := (append_eq_nil_iff.mp (hstored.journal.symm.trans hnone)).2
      subst htorn
      rw [hnone] at hreplayed
      refine ⟨?_, base, records, hstored⟩
      exact congrArg Replayed.checkpoint (Except.ok.inj hreplayed)
    | some journal =>
      have hdata : files.journalData = journal := by
        rw [Files.journalData, hjournal, Option.getD_some]
      rw [hdata] at hreplayed
      unfold replayJournal
      rw [wp_bind, wp_bind]
      refine wp_ofStorage (fun replayed hok => ?_) fun error herror => ?_
      swap
      · cases hreplayed.symm.trans herror
      cases hreplayed.symm.trans hok
      -- A torn tail is cut off before the state is returned.
      by_cases htorn : torn = []
      · subst htorn
        exact ⟨rfl, base, records, hstored⟩
      · have hcut := Stores.truncated hstored hjournal
        simp only [htorn, ne_eq, not_false_eq_true, decide_true, if_true]
        rw [wp_bind]
        refine wp_replaceFiles ⟨rfl, hcut⟩ fun stop hstop => ?_
        have hio : (⟨none, truncation⟩ : LoadIo) ≠ ⟨none, .done⟩ := fun heq =>
          hstop (congrArg LoadIo.truncation heq)
        exact ⟨⟨hio, [], hcut⟩, hio, torn, base, records, hstored⟩

/-! ## The size of the journal -/

/-- The bytes of the journal are counted, and there are not too many of them, or a compaction was
put off. -/
def Bounded (repository : JournaledBrokerStateRepository) (files : Files) : Prop :=
  files.journalData.length ≤ repository.journalBytes ∧
    (repository.compactionDeferred = true ∨ repository.shouldCompact = false)

/-- A compaction empties the journal, or leaves it no longer than it was. -/
theorem compact_empties {n : Nat} (h : files.journalData.length ≤ n) (io : CompactIo) :
    wp (repository.compact snapshotJson io state) files
      (fun repository' files' => files'.journalData.length ≤ repository'.journalBytes ∧
        repository'.shouldCompact = false)
      (fun _ files' => files'.journalData.length ≤ n) := by
  have hpos := repository.policy.compactEvery_pos
  have hmin := repository.policy.maxJournalBytes_min
  refine wp_mono (compact_files io) ?_ ?_
  · rintro repository' files' ⟨rfl, rfl⟩
    refine ⟨le_rfl, ?_⟩
    simp only [shouldCompact, decide_eq_false_iff_not]
    omega
  · rintro stop files' (rfl | rfl | rfl)
    · exact h
    · exact h
    · exact Nat.zero_le n

theorem commit_bounded (h : files.journalData.length ≤ repository.journalBytes) (io : CommitIo)
    (state : BrokerState) (changes : StateChangeSet) :
    wp (repository.commit snapshotJson json io state changes) files
      (fun repository' files' => repository'.Bounded files') (fun _ _ => True) := by
  unfold commit
  split_ifs
  · rw [wp_bind]
    exact wp_mono (compact_empties h _) (fun _ _ hempty => ⟨hempty.1, Or.inr hempty.2⟩)
      fun _ _ _ => trivial
  · rw [wp_bind]
    refine wp_ofStorage (fun payload _ => ?_) fun _ _ => trivial
    rw [wp_bind]
    refine wp_appendSynced (fun _ => ?_) (fun _ _ => trivial) fun _ => trivial
    rw [wp_bind]
    refine wp_ofStorage (fun counted hcounted => ?_) fun _ _ => trivial
    have hgrown : (files.grown payload).journalData.length ≤ counted.journalBytes := by
      obtain ⟨_, -, hcounted⟩ := bind_eq_ok_iff.mp hcounted
      obtain ⟨_, -, hcounted⟩ := bind_eq_ok_iff.mp hcounted
      obtain ⟨_, -, hcounted⟩ := bind_eq_ok_iff.mp hcounted
      cases hcounted
      refine (length_take_le' _ _).trans ?_
      rw [length_append]
      exact Nat.add_le_add_right h _
    split_ifs with hcompact
    · rw [wp_bind]
      exact wp_attempt (wp_mono (compact_empties hgrown _)
        (fun _ _ hempty => ⟨hempty.1, Or.inr hempty.2⟩)
        fun _ _ hbytes => ⟨fun _ _ => ⟨hbytes, Or.inl rfl⟩, trivial⟩)
    · exact ⟨hgrown, Or.inr (eq_false_of_ne_true hcompact)⟩

theorem load_counts (io : LoadIo) :
    wp (repository.load snapshotJson json io) files
      (fun loaded files' => files'.journalData.length ≤ loaded.1.journalBytes)
      (fun _ _ => True) := by
  unfold load
  cases io.unreadable with
  | some stop => trivial
  | none =>
    rw [wp_bind, wp_get, wp_bind]
    refine wp_ofStorage (fun snapshot _ => ?_) fun _ _ => trivial
    cases hjournal : files.journal with
    | none =>
      show files.journalData.length ≤ _
      rw [Files.journalData, hjournal]
      exact Nat.zero_le _
    | some journal =>
      rw [wp_bind]
      exact wp_mono (wp_trivial _) (fun _ _ _ => le_rfl) fun _ _ _ => trivial

/-- **The next commit compacts before it writes anything else.**  Whatever it commits and
however it goes: if it succeeds, all of its state is in the snapshot, the journal is empty, and
nothing is put off any more; if it stops, it has replaced the snapshot or not and emptied the
journal after that or not, and no byte was appended. -/
def CompactsFirst (snapshotJson : Codec SnapshotWire) (json : LineCodec JournalMutationWire)
    (repository : JournaledBrokerStateRepository) (files : Files) : Prop :=
  ∀ (io : CommitIo) (state : BrokerState) (changes : StateChangeSet),
    wp (repository.commit snapshotJson json io state changes) files
      (fun repository' files' => files' = compacted snapshotJson state ∧
        repository' = .new repository.policy)
      (fun _ files' => files' = files ∨
        files' = { files with snapshot := (compacted snapshotJson state).snapshot } ∨
        files' = compacted snapshotJson state)

theorem compactsFirst_of_deferred (h : repository.compactionDeferred = true) (files : Files) :
    CompactsFirst snapshotJson json repository files := by
  intro io state changes
  unfold commit
  rw [if_pos h, wp_bind]
  refine wp_mono (compact_files io.compaction) ?_ fun _ _ hstopped => hstopped
  rintro repository' files' ⟨hfiles, rfl⟩
  exact ⟨hfiles, rfl⟩

/-- **The journal stays bounded.**  After a load and any commits that succeed the file is no
longer than what is counted.  After a commit this is below both limits of the policy, or the
compaction was put off; and whenever one was put off, the next commit compacts before it writes
anything else. -/
theorem journal_stays_bounded (io : LoadIo) (first : CommitIo × BrokerState × StateChangeSet)
    (rest : List (CommitIo × BrokerState × StateChangeSet)) :
    wp (do
      let loaded ← repository.load snapshotJson json io
      (first :: rest).foldlM
        (fun r commit => r.commit snapshotJson json commit.1 commit.2.1 commit.2.2) loaded.1)
      files
      (fun repository' files' => repository'.Bounded files' ∧
        (repository'.compactionDeferred = true →
          CompactsFirst snapshotJson json repository' files'))
      (fun _ _ => True) := by
  rw [wp_bind]
  refine wp_mono (load_counts io) (fun loaded files' hcounts => ?_) fun _ _ h => h
  rw [foldlM_cons, wp_bind]
  refine wp_mono (commit_bounded hcounts _ _ _) (fun r files' hbounded => ?_) fun _ _ h => h
  exact wp_foldlM (I := fun _ r files => r.Bounded files) hbounded
    (fun _ _ _ _ h => commit_bounded h.1 _ _ _)
    fun _ files' h => ⟨h, fun hdeferred => compactsFirst_of_deferred hdeferred files'⟩

end JournaledBrokerStateRepository

end AgentBroker
