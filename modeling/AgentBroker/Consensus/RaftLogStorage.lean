import AgentBroker.Consensus.DurableSnapshots

/-!
# The Raft log

The log of a node (`raft_log_storage.rs` over `raft_persistence.rs`): a table of encoded
entries by index, and the id up to which it was purged.  A `redb` table is an ordered map, and
a call that fails leaves both tables as they were.

## The two layers

* `RaftLog` is what the store is for: the purged id and the list of entries behind it, with
  nothing said about bytes or tables.  Appending concatenates; truncating and purging cut the
  list by *position*, counted from the index behind the purged id.
* `AgentBrokerRaftLogStorage` is the code: appending inserts encoded entries under their own
  indexes, truncating and purging `retain` the keys on one side of an index, and every read
  decodes what it finds.

Nothing in the store says that its indexes are contiguous.  They are because of how `OpenRaft`
calls it, which `RaftLog.Allows` states of the abstract log alone; so a store that drops an
entry, or keeps one that was cut, leaves the relation `Represents` and does not go unnoticed.

## What is load-bearing

Cutting by position and retaining by key agree only on a log whose indexes are consecutive
(`filter_lt_eq_take`, `filter_gt_eq_drop`), and inserting a batch appends it to the table only
if its indexes are behind all the others (`insertAll_eq_append`).  Both follow from the indexes
being `range'` of the first one, which is the invariant `RaftLog.Contiguous`.

## Main results

* `Represents.step` — a call that is allowed succeeds, and does to the table what it does to
  the log.
* `log_store_contiguous` — after any such calls the table is the log, contiguous from behind
  the purged id; both ends are reported, and any range of it is read.
-/

namespace AgentBroker

open List

/-- `Bound<u64>`. -/
inductive RangeBound where
  | unbounded
  | included (value : U64)
  | excluded (value : U64)

namespace RangeBound

/-- `u64::checked_add(1)`. -/
def successor (value : U64) : Option Nat :=
  if value.get + 1 < u64Size then some (value.get + 1) else none

/-- The index is not before the start of a range. -/
def starts (index : Nat) : RangeBound → Bool
  | .unbounded => true
  | .included value => value.get ≤ index
  | .excluded value => value.get < index

/-- The index is not behind the end of a range. -/
def ends (index : Nat) : RangeBound → Bool
  | .unbounded => true
  | .included value => index ≤ value.get
  | .excluded value => index < value.get

end RangeBound

/-- The first index of a range that starts at the bound. -/
def RangeBound.startInclusive : RangeBound → Except String Nat
  | .unbounded => .ok 0
  | .included value => .ok value.get
  | .excluded value => .ofOption "excluded Raft range start overflows u64" (successor value)

/-- The index behind the last of a range that ends at the bound, if it is one. -/
def RangeBound.endExclusive : RangeBound → Option Nat
  | .unbounded => none
  | .excluded value => some value.get
  | .included value => successor value

/-- `normalize_range`: the first index and the one behind the last; none of an empty range. -/
def normalizeRange (start stop : RangeBound) : Except String (Option (Nat × Option Nat)) := do
  let first ← start.startInclusive
  return if stop.endExclusive.any (· ≤ first) then none else some (first, stop.endExclusive)

/-- The two tables, `raft_log_v1` and the entry `last_purged_v1` of `raft_meta_v1`. -/
structure AgentBrokerRaftLogStorage where
  log : OrdMap Nat Bytes
  lastPurged : Option Bytes

/-- `LogState`. -/
structure LogState where
  lastPurgedLogId : Option LogId
  lastLogId : Option LogId
  deriving DecidableEq

/-- The index behind an id, 0 without one. -/
def indexAfter (logId : Option LogId) : Nat := logId.elim 0 (·.index + 1)

/-- A call that writes the log. -/
inductive RaftLogCall where
  | append (entries : List Entry)
  | truncate (logId : LogId)
  | purge (logId : LogId)

namespace AgentBrokerRaftLogStorage

variable (json : Codec Entry) (ids : Codec LogId)

/-- A store that was just opened. -/
def empty : AgentBrokerRaftLogStorage := ⟨∅, none⟩

/-- `Table::retain`. -/
def retain (keep : Nat → Bool) (table : OrdMap Nat Bytes) : OrdMap Nat Bytes :=
  ⟨table.entries.filter (keep ·.1), table.sorted.filter _⟩

/-- The check of `append_log_batch`, over the windows of two entries. -/
def withoutHole : List (Nat × Bytes) → Bool
  | first :: second :: rest =>
    second.1 = saturatingAdd first.1 1 && withoutHole (second :: rest)
  | _ => true

/-- `append_log_batch`. -/
def appendLogBatch (store : AgentBrokerRaftLogStorage) (entries : List (Nat × Bytes)) :
    Except String AgentBrokerRaftLogStorage := do
  Except.require (withoutHole entries = true) "Raft append batch contains a log index hole"
  return { store with log := store.log.insertAll entries }

/-- `append`, `truncate` (`truncate_from`) and `purge` (`purge_through_and_write_meta`). -/
def call (store : AgentBrokerRaftLogStorage) :
    RaftLogCall → Except String AgentBrokerRaftLogStorage
  | .append entries =>
    store.appendLogBatch (entries.map fun entry => (entry.logId.index, json.toVec entry))
  | .truncate logId => .ok { store with log := retain (· < logId.index) store.log }
  | .purge logId => .ok ⟨retain (logId.index < ·) store.log, some (ids.toVec logId)⟩

/-- A call, of which a failure leaves the store as it was. -/
def step (store : AgentBrokerRaftLogStorage) (request : RaftLogCall) :
    AgentBrokerRaftLogStorage × Except String Unit :=
  match store.call json ids request with
  | .ok store' => (store', .ok ())
  | .error error => (store, .error error)

/-- `decode_stored_log_entry`. -/
def decodeStoredLogEntry (storedIndex : Nat) (encoded : Bytes) : Except String Entry := do
  let entry ← json.fromSlice encoded
  Except.require (entry.logId.index = storedIndex)
    ("Raft log key/index mismatch: key=" ++ toString storedIndex ++ ", entry="
      ++ toString entry.logId.index)
  return entry

/-- `read_log_range`. -/
def readLogRange (store : AgentBrokerRaftLogStorage) (start : Nat) (endExclusive : Option Nat) :
    List (Nat × Bytes) :=
  store.log.entries.filter fun item => start ≤ item.1 && endExclusive.all (item.1 < ·)

/-- `try_get_log_entries`. -/
def tryGetLogEntries (store : AgentBrokerRaftLogStorage) (start stop : RangeBound) :
    Except String (List Entry) := do
  match ← normalizeRange start stop with
  | none => return []
  | some (start, endExclusive) =>
    (store.readLogRange start endExclusive).mapM fun item =>
      decodeStoredLogEntry json item.1 item.2

/-- `get_log_state`. -/
def getLogState (store : AgentBrokerRaftLogStorage) : Except String LogState := do
  let lastPurged ← store.lastPurged.mapM ids.fromSlice
  let lastPresent ← store.log.entries.getLast?.mapM fun item =>
    return (← decodeStoredLogEntry json item.1 item.2).logId
  return ⟨lastPurged, lastPresent.or lastPurged⟩

end AgentBrokerRaftLogStorage

/-! ## Consecutive indexes -/

/-- The indexes of the entries are consecutive, from `first` on. -/
def Consecutive (first : Nat) (entries : List Entry) : Prop :=
  entries.map (·.logId.index) = List.range' first entries.length

instance (first : Nat) (entries : List Entry) : Decidable (Consecutive first entries) :=
  inferInstanceAs (Decidable (_ = _))

namespace Consecutive

variable {first : Nat} {entry : Entry} {entries others : List Entry}

theorem nil (first : Nat) : Consecutive first [] := rfl

theorem cons_iff : Consecutive first (entry :: entries) ↔
    entry.logId.index = first ∧ Consecutive (first + 1) entries := by
  rw [Consecutive, map_cons, length_cons, List.range'_succ, List.cons.injEq]
  rfl

theorem append (h : Consecutive first entries)
    (hothers : Consecutive (first + entries.length) others) :
    Consecutive first (entries ++ others) := by
  rw [Consecutive, map_append, h, hothers, length_append, List.range'_append_1]

theorem take (h : Consecutive first entries) (n : Nat) : Consecutive first (entries.take n) := by
  rw [Consecutive, map_take, h, length_take]
  rcases le_total n entries.length with hle | hle
  · rw [take_range'_of_length_ge hle, Nat.min_eq_left hle]
  · rw [take_range'_of_length_le hle, Nat.min_eq_right hle]

theorem drop (h : Consecutive first entries) (n : Nat) :
    Consecutive (first + n) (entries.drop n) := by
  rw [Consecutive, map_drop, h, length_drop, drop_range', Nat.mul_one]

/-- The index of the last entry is the one before the next. -/
theorem index_getLast? (h : Consecutive first entries) (hlast : entries.getLast? = some entry) :
    entry.logId.index + 1 = first + entries.length := by
  obtain ⟨front, rfl⟩ := getLast?_eq_some_iff.mp hlast
  have htail := h.drop front.length
  rw [drop_left, cons_iff] at htail
  rw [length_append, length_singleton, htail.1]
  omega

/-- The indexes are those of an interval. -/
theorem mem_indexes_iff (h : Consecutive first entries) {index : Nat} :
    (∃ entry ∈ entries, entry.logId.index = index) ↔
      first ≤ index ∧ index < first + entries.length := by
  rw [← List.mem_range'_1, ← h, List.mem_map]

/-- **Keeping the indexes below one cuts behind a position.** -/
theorem filter_lt_eq_take (h : Consecutive first entries) (k : Nat) :
    entries.filter (·.logId.index < k) = entries.take (k - first) := by
  induction entries generalizing first with
  | nil => rw [filter_nil, take_nil]
  | cons entry entries ih =>
    obtain ⟨hindex, hrest⟩ := cons_iff.mp h
    rw [filter_cons, hindex, ih hrest]
    split
    case isTrue hlt =>
      rw [show k - first = k - (first + 1) + 1 by simp at hlt; omega, take_succ_cons]
    case isFalse hle =>
      rw [show k - first = 0 by simp at hle; omega,
        show k - (first + 1) = 0 by simp at hle; omega, take_zero, take_zero]

/-- **Keeping the indexes above one cuts before a position.** -/
theorem filter_gt_eq_drop (h : Consecutive first entries) (k : Nat) :
    entries.filter (k < ·.logId.index) = entries.drop (k + 1 - first) := by
  induction entries generalizing first with
  | nil => rw [filter_nil, drop_nil]
  | cons entry entries ih =>
    obtain ⟨hindex, hrest⟩ := cons_iff.mp h
    rw [filter_cons, hindex, ih hrest]
    split
    case isTrue hlt =>
      rw [show k + 1 - first = 0 by simp at hlt; omega,
        show k + 1 - (first + 1) = 0 by simp at hlt; omega, drop_zero, drop_zero]
    case isFalse hle =>
      rw [show k + 1 - first = k + 1 - (first + 1) + 1 by simp at hle; omega, drop_succ_cons]

end Consecutive

/-! ## The log that the store is for -/

/-- A log: the id up to which it was purged, and the entries behind it. -/
structure RaftLog where
  purged : Option LogId
  entries : List Entry

namespace RaftLog

/-- The log of a new node. -/
def empty : RaftLog := ⟨none, []⟩

/-- The index of the first entry. -/
def first (log : RaftLog) : Nat := indexAfter log.purged

/-- The id of the last entry, or of the last one that was purged. -/
def last (log : RaftLog) : Option LogId := (log.entries.getLast?.map Entry.logId).or log.purged

/-- What a call means. -/
def call (log : RaftLog) : RaftLogCall → RaftLog
  | .append entries => { log with entries := log.entries ++ entries }
  | .truncate logId => { log with entries := log.entries.take (logId.index - log.first) }
  | .purge logId => ⟨some logId, log.entries.drop (logId.index + 1 - log.first)⟩

/-- A call of the log, which always succeeds. -/
def step (log : RaftLog) (request : RaftLogCall) : RaftLog × Except String Unit :=
  (log.call request, .ok ())

/-- How `OpenRaft` calls a log: entries continue the last log index, what is truncated is
above the purged index, and purges do not go back. -/
def Allows (log : RaftLog) : RaftLogCall → Prop
  | .append entries =>
    Consecutive (indexAfter log.last) entries ∧ ∀ entry ∈ entries, entry.logId.index < u64Size
  | .truncate logId => log.first ≤ logId.index
  | .purge logId => log.first ≤ logId.index + 1 ∧ logId.index < u64Size

instance (log : RaftLog) : (request : RaftLogCall) → Decidable (log.Allows request)
  | .append _ => inferInstanceAs (Decidable (_ ∧ _))
  | .truncate _ => inferInstanceAs (Decidable (_ ≤ _))
  | .purge _ => inferInstanceAs (Decidable (_ ∧ _))

/-- The indexes are consecutive from the first one on, and all of them are `u64`s. -/
structure Contiguous (log : RaftLog) : Prop where
  consecutive : Consecutive log.first log.entries
  bound : log.first + log.entries.length ≤ u64Size

theorem contiguous_empty : empty.Contiguous := ⟨.nil _, Nat.zero_le _⟩

variable {log : RaftLog}

/-- The last log id is the one before the next index. -/
theorem Contiguous.indexAfter_last (h : log.Contiguous) :
    indexAfter log.last = log.first + log.entries.length := by
  unfold last
  cases hlast : log.entries.getLast? with
  | none =>
    rw [getLast?_eq_none_iff.mp hlast]
    rfl
  | some entry => exact h.consecutive.index_getLast? hlast

/-- **A call that is allowed leaves a contiguous log.** -/
theorem Contiguous.call (h : log.Contiguous) {request : RaftLogCall}
    (hallowed : log.Allows request) : (log.call request).Contiguous := by
  have hlimit := h.bound
  cases request with
  | append entries =>
    obtain ⟨hnext, hbound⟩ := hallowed
    rw [h.indexAfter_last] at hnext
    refine ⟨h.consecutive.append hnext, ?_⟩
    change log.first + (log.entries ++ entries).length ≤ u64Size
    rw [length_append]
    cases hlast : entries.getLast? with
    | none =>
      rw [getLast?_eq_none_iff.mp hlast]
      exact hlimit
    | some entry =>
      -- The index of the last entry is a `u64`.
      have hindex := hnext.index_getLast? hlast
      have hentry := hbound entry (mem_of_getLast? hlast)
      omega
  | truncate logId =>
    refine ⟨h.consecutive.take _, ?_⟩
    change log.first + (log.entries.take _).length ≤ u64Size
    rw [length_take]
    omega
  | purge logId =>
    obtain ⟨hforward, hbound⟩ := hallowed
    have hdropped := h.consecutive.drop (logId.index + 1 - log.first)
    rw [show log.first + (logId.index + 1 - log.first) = logId.index + 1 by omega] at hdropped
    refine ⟨hdropped, ?_⟩
    change logId.index + 1 + (log.entries.drop _).length ≤ u64Size
    rw [length_drop]
    omega

/-- Every call is answered with success. -/
theorem answers_step (log : RaftLog) (calls : List RaftLogCall) :
    ∀ answer ∈ Run.answers step log calls, answer = .ok () := by
  induction calls generalizing log with
  | nil => exact fun _ hmem => absurd hmem not_mem_nil
  | cons request _ ih =>
    intro answer hmem
    rcases mem_cons.mp hmem with rfl | hmem
    · rfl
    · exact ih (log.call request) answer hmem

/-- The entries whose indexes are in a range. -/
def read (log : RaftLog) (start stop : RangeBound) : List Entry :=
  log.entries.filter fun entry => start.starts entry.logId.index && stop.ends entry.logId.index

end RaftLog

/-! ## Ranges -/

/-- Only a start behind `u64::MAX` has no first index. -/
theorem startInclusive_spec {start : RangeBound}
    (h : start ≠ .excluded ⟨u64Size - 1, by decide⟩) :
    ∃ first, start.startInclusive = .ok first ∧
      ∀ index, start.starts index = decide (first ≤ index) := by
  cases start with
  | unbounded => exact ⟨0, rfl, fun index => (decide_eq_true (Nat.zero_le index)).symm⟩
  | included value => exact ⟨value.get, rfl, fun index => rfl⟩
  | excluded value =>
    obtain ⟨value, hvalue⟩ := value
    have hne : value ≠ u64Size - 1 := fun heq => h (by subst heq; rfl)
    refine ⟨value + 1, ?_, fun index => rfl⟩
    have hsuccessor : RangeBound.successor ⟨value, hvalue⟩ = some (value + 1) :=
      if_pos (by change value + 1 < u64Size; omega)
    rw [RangeBound.startInclusive, hsuccessor]
    rfl

/-- An inclusive end at `u64::MAX` is no end. -/
theorem endExclusive_spec (stop : RangeBound) {index : Nat} (hindex : index < u64Size) :
    stop.ends index = stop.endExclusive.all (index < ·) := by
  cases stop with
  | unbounded | excluded => rfl
  | included value =>
    have hvalue := value.isLt
    change decide (index ≤ value.get) = (RangeBound.successor value).all (index < ·)
    unfold RangeBound.successor
    split
    · rw [Option.all_some, decide_eq_decide]
      omega
    · rw [Option.all_none, decide_eq_true_iff]
      omega

/-- A range holds the indexes between its bounds. -/
theorem normalizeRange_spec {start : RangeBound}
    (hstart : start ≠ .excluded ⟨u64Size - 1, by decide⟩) (stop : RangeBound) :
    ∃ range, normalizeRange start stop = .ok range ∧ ∀ index < u64Size,
      (start.starts index && stop.ends index) =
        range.any fun bounds => bounds.1 ≤ index && bounds.2.all (index < ·) := by
  obtain ⟨first, hfirst, hstarts⟩ := startInclusive_spec hstart
  refine ⟨_, Except.bind_eq_ok_iff.mpr ⟨first, hfirst, rfl⟩, fun index hindex => ?_⟩
  rw [hstarts index, endExclusive_spec stop hindex]
  split
  case isTrue hempty =>
    -- No index is at or behind the start and before an end that is not behind it.
    cases hlast : stop.endExclusive with
    | none => simp [hlast] at hempty
    | some last =>
      simp only [hlast, Option.any_some, decide_eq_true_eq] at hempty
      rw [Option.all_some, Option.any_none, Bool.and_eq_false_iff, decide_eq_false_iff_not,
        decide_eq_false_iff_not]
      omega
  case isFalse => rw [Option.any_some]

/-! ## The table is the log -/

namespace AgentBrokerRaftLogStorage

variable (json : Codec Entry) (ids : Codec LogId)

/-- An entry in the table. -/
def stored (entry : Entry) : Nat × Bytes := (entry.logId.index, json.toVec entry)

/-- The table holds the entries of the log, encoded under their indexes, and nothing else. -/
structure Represents (store : AgentBrokerRaftLogStorage) (log : RaftLog) : Prop where
  table : store.log.entries = log.entries.map (stored json)
  lastPurged : store.lastPurged = log.purged.map ids.toVec

variable {json ids} {store : AgentBrokerRaftLogStorage} {log : RaftLog}

theorem represents_empty : Represents json ids empty RaftLog.empty := ⟨rfl, rfl⟩

theorem decodeStoredLogEntry_stored (entry : Entry) :
    decodeStoredLogEntry json (stored json entry).1 (stored json entry).2 = .ok entry := by
  rw [decodeStoredLogEntry, stored, json.fromSlice_toVec]
  exact Except.bind_eq_ok_iff.mpr ⟨entry, rfl,
    Except.bind_eq_ok_iff.mpr ⟨(), Except.require_pos rfl, rfl⟩⟩

/-- Entries behind all that is stored are appended to the table. -/
theorem insertAll_eq_append {entries : List Entry}
    (htable : store.log.entries = log.entries.map (stored json)) (h : log.Contiguous)
    (hnext : Consecutive (log.first + log.entries.length) entries) :
    (store.log.insertAll (entries.map (stored json))).entries =
      (log.entries ++ entries).map (stored json) := by
  have hrange : (List.range' log.first (log.entries ++ entries).length).Pairwise (· < ·) :=
    List.pairwise_lt_range'
  rw [← h.consecutive.append hnext, pairwise_map] at hrange
  have hsorted : (store.log.entries ++ entries.map (stored json)).Pairwise (·.1 < ·.1) := by
    rw [htable, ← map_append]
    exact pairwise_map.mpr hrange
  rw [OrdMap.entries_insertAll hsorted, htable, map_append]

/-- A batch of consecutive indexes has no hole. -/
theorem withoutHole_of_consecutive {entries : List Entry} {first : Nat}
    (h : Consecutive first entries) (hbound : ∀ entry ∈ entries, entry.logId.index < u64Size) :
    withoutHole (entries.map (stored json)) = true := by
  induction entries generalizing first with
  | nil => rfl
  | cons entry entries ih =>
    obtain ⟨hfirst, hrest⟩ := Consecutive.cons_iff.mp h
    have hholes := ih hrest fun other hmem => hbound other (mem_cons_of_mem _ hmem)
    cases entries with
    | nil => rfl
    | cons second entries =>
      have hsecond := (Consecutive.cons_iff.mp hrest).1
      have hlt := hbound second (mem_cons_of_mem _ mem_cons_self)
      refine Bool.and_eq_true_iff.mpr ⟨decide_eq_true ?_, hholes⟩
      change second.logId.index = saturatingAdd entry.logId.index 1
      unfold saturatingAdd
      omega

/-- Retaining keys of the table is keeping entries of the log by their indexes. -/
theorem entries_retain (htable : store.log.entries = log.entries.map (stored json))
    (keep : Nat → Bool) :
    (retain keep store.log).entries =
      (log.entries.filter fun entry => keep entry.logId.index).map (stored json) := by
  change store.log.entries.filter (keep ·.1) = _
  rw [htable, filter_map]
  rfl

/-- **A call that is allowed does to the table what it does to the log.** -/
theorem Represents.step (h : Represents json ids store log) (hlog : log.Contiguous)
    {request : RaftLogCall} (hallowed : log.Allows request) :
    ∃ store', store.call json ids request = .ok store' ∧
      Represents json ids store' (log.call request) := by
  cases request with
  | append entries =>
    obtain ⟨hnext, hbound⟩ := hallowed
    rw [hlog.indexAfter_last] at hnext
    refine ⟨_, Except.bind_eq_ok_iff.mpr ⟨(),
      Except.require_pos (withoutHole_of_consecutive hnext hbound), rfl⟩, ?_, h.lastPurged⟩
    exact insertAll_eq_append h.table hlog hnext
  | truncate logId =>
    refine ⟨_, rfl, ?_, h.lastPurged⟩
    change (retain _ store.log).entries = (log.entries.take _).map _
    rw [entries_retain h.table, hlog.consecutive.filter_lt_eq_take]
  | purge logId =>
    refine ⟨_, rfl, ?_, rfl⟩
    change (retain _ store.log).entries = (log.entries.drop _).map _
    rw [entries_retain h.table, hlog.consecutive.filter_gt_eq_drop]

/-- Both ends are reported. -/
theorem Represents.getLogState (h : Represents json ids store log) :
    store.getLogState json ids = .ok ⟨log.purged, log.last⟩ := by
  have hpurged : store.lastPurged.mapM ids.fromSlice = .ok log.purged := by
    rw [h.lastPurged]
    cases log.purged with
    | none => rfl
    | some logId =>
      change (some <$> ids.fromSlice (ids.toVec logId)) = _
      rw [ids.fromSlice_toVec]
      rfl
  unfold AgentBrokerRaftLogStorage.getLogState RaftLog.last
  rw [hpurged, Except.ok_bind, h.table, getLast?_map]
  cases log.entries.getLast? with
  | none => rfl
  | some entry =>
    change ((some <$> (decodeStoredLogEntry json _ _ >>= _)) >>= _) = _
    rw [decodeStoredLogEntry_stored]
    rfl

/-- Stored entries are read back. -/
theorem mapM_decodeStoredLogEntry (entries : List Entry) :
    (entries.map (stored json)).mapM (fun item => decodeStoredLogEntry json item.1 item.2) =
      .ok entries := by
  induction entries with
  | nil => rfl
  | cons entry entries ih =>
    rw [map_cons, mapM_cons, decodeStoredLogEntry_stored, Except.ok_bind, ih]
    rfl

/-- A range of the table is read as that range of the log. -/
theorem Represents.tryGetLogEntries (h : Represents json ids store log) (hlog : log.Contiguous)
    {start : RangeBound} (hstart : start ≠ .excluded ⟨u64Size - 1, by decide⟩)
    (stop : RangeBound) :
    store.tryGetLogEntries json start stop = .ok (log.read start stop) := by
  obtain ⟨range, hrange, hinside⟩ := normalizeRange_spec hstart stop
  have hread : log.read start stop = log.entries.filter fun entry =>
      range.any fun bounds =>
        bounds.1 ≤ entry.logId.index && bounds.2.all (entry.logId.index < ·) := by
    refine filter_congr fun entry hentry => hinside _ ?_
    have hindex := (hlog.consecutive.mem_indexes_iff.mp ⟨entry, hentry, rfl⟩).2
    exact hindex.trans_le hlog.bound
  unfold AgentBrokerRaftLogStorage.tryGetLogEntries
  rw [hrange, Except.ok_bind, hread]
  cases range with
  | none => rw [filter_eq_nil_iff.mpr fun _ _ hfalse => by cases hfalse]; rfl
  | some bounds =>
    change (store.log.entries.filter _).mapM _ = _
    rw [h.table, filter_map, mapM_decodeStoredLogEntry]
    rfl

/-- An index is stored exactly if an entry of the log has it. -/
theorem Represents.get_ne_none_iff (h : Represents json ids store log) {index : Nat} :
    store.log.get index ≠ none ↔ ∃ entry ∈ log.entries, entry.logId.index = index := by
  constructor
  · intro hne
    obtain ⟨bytes, hbytes⟩ := Option.ne_none_iff_exists'.mp hne
    have hmem := OrdMap.get_eq_some_iff.mp hbytes
    rw [h.table] at hmem
    obtain ⟨entry, hentry, heq⟩ := List.mem_map.mp hmem
    exact ⟨entry, hentry, congrArg Prod.fst heq⟩
  · rintro ⟨entry, hentry, rfl⟩
    have hmem : stored json entry ∈ store.log.entries := h.table ▸ mem_map_of_mem hentry
    rw [OrdMap.get_eq_some_iff.mpr hmem]
    exact Option.some_ne_none _

/-- **The store refines the log.**  Whatever calls are made, as `OpenRaft` makes them, all of
them succeed, and the table holds the entries of the log that the calls describe, each under
its index and nothing else.  So the stored indexes are those behind the purged id up to the
last log id, both ids are reported (the purged one as the last of an empty log), and every
range but one that starts behind `u64::MAX` reads the entries in it, in the order of their
indexes. -/
theorem log_store_contiguous (json : Codec Entry) (ids : Codec LogId) (calls : List RaftLogCall)
    (hcalls : Run.Meets RaftLog.step RaftLog.Allows RaftLog.empty calls) :
    let store := Run.final (step json ids) empty calls
    let log := Run.final RaftLog.step RaftLog.empty calls
    (∀ answer ∈ Run.answers (step json ids) empty calls, answer = .ok ()) ∧
      store.log.entries = log.entries.map (fun entry => (entry.logId.index, json.toVec entry)) ∧
      Consecutive (indexAfter log.purged) log.entries ∧
      (∀ index, store.log.get index ≠ none ↔
        indexAfter log.purged ≤ index ∧ index < indexAfter log.last) ∧
      store.getLogState json ids = .ok ⟨log.purged, log.last⟩ ∧
      (log.entries = [] → log.last = log.purged) ∧
      ∀ start stop, start ≠ .excluded ⟨u64Size - 1, by decide⟩ →
        store.tryGetLogEntries json start stop = .ok (log.read start stop) := by
  intro store log
  have hstep : ∀ log store request, log.Contiguous ∧ Represents json ids store log →
      log.Allows request → (log.step request).2 = (store.step json ids request).2 ∧
        (log.step request).1.Contiguous ∧
          Represents json ids (store.step json ids request).1 (log.step request).1 := by
    rintro log store request ⟨hlog, hstore⟩ hallowed
    obtain ⟨store', hok, hstore'⟩ := hstore.step hlog hallowed
    rw [AgentBrokerRaftLogStorage.step, hok]
    exact ⟨rfl, hlog.call hallowed, hstore'⟩
  obtain ⟨hanswers, hlog, hstore⟩ :=
    Run.simulation hstep ⟨RaftLog.contiguous_empty, represents_empty⟩ hcalls
  refine ⟨?_, hstore.table, hlog.consecutive, fun index => ?_, hstore.getLogState, ?_,
    fun start stop hstart => hstore.tryGetLogEntries hlog hstart stop⟩
  · rw [← hanswers]
    exact RaftLog.answers_step RaftLog.empty calls
  · rw [hstore.get_ne_none_iff, hlog.consecutive.mem_indexes_iff, ← hlog.indexAfter_last]
    rfl
  · intro hempty
    change (_ : Option LogId).or log.purged = log.purged
    rw [hempty]
    rfl

/-- An entry that proposes a command. -/
def namespaceEntry (index : Nat) : Entry :=
  ⟨⟨1, index⟩, .normal (.legacy (.ensureNamespace "n" 64))⟩

/-- A purge beyond the end of an empty log, a batch that continues it, a truncation of the last
of its entries and a purge of the first. -/
def purgedBeyond : List RaftLogCall :=
  [.purge ⟨1, 5⟩, .append [⟨⟨1, 6⟩, .blank⟩, namespaceEntry 7, ⟨⟨2, 8⟩, .membership [1, 2, 3]⟩],
    .truncate ⟨2, 8⟩, .purge ⟨1, 6⟩]

/-- One entry is left, which is stored as its JSON text, reported, and read by a range that ends
at `u64::MAX`. -/
theorem log_store_contiguous_purged :
    let store := Run.final (step Entry.serdeJson LogId.serdeJson) empty purgedBeyond
    Run.Meets RaftLog.step RaftLog.Allows RaftLog.empty purgedBeyond ∧
      store.log.entries = [(7, (namespaceEntry 7).write.compact)] ∧
      store.getLogState Entry.serdeJson LogId.serdeJson = .ok ⟨some ⟨1, 6⟩, some ⟨1, 7⟩⟩ ∧
      store.tryGetLogEntries Entry.serdeJson (.excluded 0)
        (.included ⟨u64Size - 1, by decide⟩) = .ok [namespaceEntry 7] := by
  have hcalls : Run.Meets RaftLog.step RaftLog.Allows RaftLog.empty purgedBeyond := by decide
  obtain ⟨-, htable, -, -, hstate, -, hread⟩ :=
    log_store_contiguous Entry.serdeJson LogId.serdeJson purgedBeyond hcalls
  exact ⟨hcalls, htable, hstate, hread _ _ (by rintro ⟨⟩)⟩

end AgentBrokerRaftLogStorage

end AgentBroker
