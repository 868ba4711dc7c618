import AgentBroker.Storage.JournalV1

/-!
# The journaled repository

A snapshot file and a journal file (`repository.rs`, `filesystem_durability.rs`).  A commit
appends a record and syncs it; now and then the state is written to the snapshot, which
replaces the old one in one step, and the journal is emptied.  A compaction that fails
after a commit is deferred: the next commit compacts instead of appending.

Operations run in `DiskM`, which keeps the files when it stops.  What the file system does
is a parameter of each operation: it completes, or it stops with an error or a crash and
has then written a prefix of the record, replaced the snapshot or not, emptied the journal
or not.  Files are as they are after a crash: what was written to them and synced.
-/

namespace AgentBroker

inductive RepositoryError where
  | invalidConfiguration (message : String)
  | storage (error : StorageError)
  | io (operation source : String)
  deriving DecidableEq, Repr

/-- `Display` of a repository error. -/
def RepositoryError.display : RepositoryError → String
  | .invalidConfiguration message => message
  | .storage error => error.display
  | .io operation source => operation ++ ": " ++ source

/-! ## Files -/

/-- The two files; `none` is a file that does not exist. -/
structure Files where
  snapshot : Option Bytes
  journal : Option Bytes
  deriving DecidableEq

/-- The largest length a file can have. -/
def maxFileBytes : Nat := u64Size - 1

/-- The bytes of the journal. -/
def Files.journalData (files : Files) : Bytes := files.journal.getD []

/-- The journal with bytes at its end, as far as the file can grow. -/
def Files.grown (files : Files) (bytes : Bytes) : Files :=
  { files with journal := some ((files.journalData ++ bytes).take maxFileBytes) }

/-- Why an operation stopped: it returns an error, or the process is gone. -/
inductive Stop where
  | failed (error : RepositoryError)
  | crashed
  deriving DecidableEq, Repr

abbrev DiskM := EStateM Stop Files

/-- How an append ends.  When it stops, `reached` bytes of the record are in the file; with
`none` the file is as it was, and is not created. -/
inductive AppendIo where
  | done
  | stopped (reached : Option Nat) (stop : Stop)

/-- How an operation ends that replaces the contents of a file in one step. -/
inductive ReplaceIo where
  | done
  | stopped (replaced : Bool) (stop : Stop)

/-- `append_synced`. -/
def appendSynced (io : AppendIo) (payload : Bytes) : DiskM Unit := do
  let files ← get
  match io with
  | .done =>
    set (files.grown payload)
    if files.journalData.length + payload.length ≤ maxFileBytes then return ()
    else throw (.failed (.io "journal append failed" "File too large"))
  | .stopped none stop => throw stop
  | .stopped (some reached) stop =>
    set (files.grown (payload.take reached))
    throw stop

/-- An operation that replaces files in one step. -/
def replaceFiles (io : ReplaceIo) (replace : Files → Files) : DiskM Unit := do
  let files ← get
  match io with
  | .done => set (replace files)
  | .stopped true stop =>
    set (replace files)
    throw stop
  | .stopped false stop => throw stop

/-- `write_snapshot_atomic`. -/
def writeSnapshotAtomic (io : ReplaceIo) (payload : Bytes) : DiskM Unit :=
  replaceFiles io fun files => { files with snapshot := some payload }

/-- `truncate_synced`. -/
def truncateSynced (io : ReplaceIo) : DiskM Unit :=
  replaceFiles io fun files => { files with journal := some [] }

/-- `truncate_torn_tail`. -/
def truncateTornTail (io : ReplaceIo) (offset : Nat) : DiskM Unit :=
  replaceFiles io fun files => { files with journal := files.journal.map (List.take offset) }

/-- Whether an operation that returned an error did so: a crash is not returned. -/
def attempt {α : Type} (x : DiskM α) : DiskM (Except RepositoryError α) := fun files =>
  match x files with
  | .ok a files => .ok (.ok a) files
  | .error (.failed error) files => .ok (.error error) files
  | .error .crashed files => .error .crashed files

/-- A storage error stops the operation. -/
def ofStorage {α : Type} (x : Except StorageError α) : DiskM α :=
  .ofExcept (x.mapError fun error => .failed (.storage error))

/-! ## Policy -/

/-- `JournalCompactionPolicy`: compact after so many commits or so many bytes. -/
structure JournalCompactionPolicy where
  compactEvery : U64
  maxJournalBytes : U64
  compactEvery_pos : 0 < compactEvery.get
  maxJournalBytes_min : 4096 ≤ maxJournalBytes.get

namespace JournalCompactionPolicy

/-- Construct a validated policy. -/
def new (compactEvery maxJournalBytes : U64) : Except RepositoryError JournalCompactionPolicy :=
  if hpos : 0 < compactEvery.get then
    if hmin : 4096 ≤ maxJournalBytes.get then
      .ok ⟨compactEvery, maxJournalBytes, hpos, hmin⟩
    else .error (.invalidConfiguration "max_journal_bytes must be at least 4096")
  else .error (.invalidConfiguration "compact_every must be positive")

/-- The default policy. -/
def default : JournalCompactionPolicy :=
  ⟨4096, ⟨8 * 1024 * 1024, by decide⟩, by decide, by decide⟩

end JournalCompactionPolicy

/-! ## Replay -/

/-- `MAX_JOURNAL_RECORD_BYTES`. -/
def maxJournalRecordBytes : Nat := 128 * 1024 * 1024

/-- What replaying a journal gives: the checkpoint, where the last whole record ends, and
whether something torn follows it. -/
structure Replayed where
  checkpoint : BrokerCheckpoint
  offset : Nat
  torn : Bool
  deriving DecidableEq

section Replay

variable (json : LineCodec JournalMutationWire)

/-- The length check of `read_bounded_record`. -/
def requireBounded (line : Bytes) : Except StorageError Unit :=
  .require (line.length ≤ maxJournalRecordBytes)
    (.invalidFormat ("journal record exceeds " ++ toString maxJournalRecordBytes ++ " bytes"))

/-- One record, replayed. -/
def replayRecord (checkpoint : BrokerCheckpoint) (line : Bytes) :
    Except StorageError BrokerCheckpoint := do
  let mutation ← decodeJournalMutation json line
  let (checkpoint, _) ← applyJournalMutation checkpoint mutation
  return checkpoint

/-- The loop of `replay_journal`, over the lines of the journal from `offset` on.  A last
line that is torn or not JSON ends it; before the tail such a line is an error. -/
def replayLines (offset : Nat) (checkpoint : BrokerCheckpoint) :
    List Bytes → Except StorageError Replayed
  | [] => .ok ⟨checkpoint, offset, false⟩
  | line :: rest => do
      requireBounded line
      Except.require (offset + line.length < u64Size)
        (.invalidFormat "journal replay offset overflowed")
      if line.getLast? ≠ some newline then
        Except.require (rest = [])
          (.invalidFormat "journal contains a torn record before its tail")
        return ⟨checkpoint, offset, true⟩
      else if json.isValue line = false then
        Except.require (rest = [])
          (.invalidFormat "journal contains invalid JSON before its tail")
        return ⟨checkpoint, offset, true⟩
      else do
        let checkpoint ← replayRecord json checkpoint line
        replayLines (offset + line.length) checkpoint rest

end Replay

/-! ## The repository -/

/-- `JournaledBrokerStateRepository`, without the paths of its two files. -/
structure JournaledBrokerStateRepository where
  policy : JournalCompactionPolicy
  commitsSinceCompaction : Nat
  journalBytes : Nat
  compactionDeferred : Bool

/-- How loading goes: whether something cannot be read, and how a torn tail is cut off. -/
structure LoadIo where
  unreadable : Option Stop
  truncation : ReplaceIo

/-- How a compaction goes. -/
structure CompactIo where
  snapshot : ReplaceIo
  truncation : ReplaceIo

/-- How a commit goes. -/
structure CommitIo where
  append : AppendIo
  compaction : CompactIo

/-- `empty_checkpoint`. -/
def emptyCheckpoint : BrokerCheckpoint := ⟨.initial, .zero, [], [], []⟩

/-- `load_snapshot`. -/
def loadSnapshot (snapshotJson : Codec SnapshotWire) (snapshot : Option Bytes) :
    Except StorageError BrokerCheckpoint :=
  match snapshot with
  | none => .ok emptyCheckpoint
  | some payload => decodeSnapshot snapshotJson payload

namespace JournaledBrokerStateRepository

/-- Construct a repository. -/
def new (policy : JournalCompactionPolicy) : JournaledBrokerStateRepository :=
  ⟨policy, 0, 0, false⟩

/-- `should_compact`. -/
def shouldCompact (repository : JournaledBrokerStateRepository) : Bool :=
  repository.policy.compactEvery.get ≤ repository.commitsSinceCompaction ∨
    repository.policy.maxJournalBytes.get ≤ repository.journalBytes

section Codecs

variable (snapshotJson : Codec SnapshotWire) (json : LineCodec JournalMutationWire)

/-- `compact`. -/
def compact (io : CompactIo) (repository : JournaledBrokerStateRepository)
    (state : BrokerState) : DiskM JournaledBrokerStateRepository := do
  writeSnapshotAtomic io.snapshot (encodeSnapshot snapshotJson state.checkpoint)
  truncateSynced io.truncation
  return { repository with commitsSinceCompaction := 0, journalBytes := 0 }

/-- `replay_journal`: the checkpoint, with a torn tail cut off the file. -/
def replayJournal (io : LoadIo) (checkpoint : BrokerCheckpoint) (journal : Bytes) :
    DiskM BrokerCheckpoint := do
  let replayed ← ofStorage (replayLines json 0 checkpoint journal.lines)
  if replayed.torn then truncateTornTail io.truncation replayed.offset
  return replayed.checkpoint

/-- `load`. -/
def load (io : LoadIo) (repository : JournaledBrokerStateRepository) :
    DiskM (JournaledBrokerStateRepository × BrokerCheckpoint) := do
  match io.unreadable with
  | some stop => throw stop
  | none =>
    let files ← get
    let snapshot ← ofStorage (loadSnapshot snapshotJson files.snapshot)
    match files.journal with
    | none => return ({ repository with
        commitsSinceCompaction := 0, compactionDeferred := false }, snapshot)
    | some journal =>
      let checkpoint ← replayJournal json io snapshot journal
      let files ← get
      return ({ repository with
        commitsSinceCompaction := checkpoint.revision.get - snapshot.revision.get
        journalBytes := files.journalData.length
        compactionDeferred := false }, checkpoint)

/-- The accounting of `commit` after an append. -/
def account (repository : JournaledBrokerStateRepository) (payload : Bytes) :
    Except StorageError JournaledBrokerStateRepository := do
  Except.require (payload.length < u64Size)
    (.invalidFormat "journal payload length does not fit u64")
  Except.require (repository.journalBytes + payload.length < u64Size)
    (.invalidFormat "journal byte accounting overflowed")
  Except.require (repository.commitsSinceCompaction + 1 < u64Size)
    (.invalidFormat "journal commit accounting overflowed")
  return { repository with
    journalBytes := repository.journalBytes + payload.length
    commitsSinceCompaction := repository.commitsSinceCompaction + 1 }

/-- `commit`. -/
def commit (io : CommitIo) (repository : JournaledBrokerStateRepository) (state : BrokerState)
    (changes : StateChangeSet) : DiskM JournaledBrokerStateRepository := do
  if repository.compactionDeferred then
    let repository ← repository.compact snapshotJson io.compaction state
    return { repository with compactionDeferred := false }
  else
    let payload ← ofStorage (encodeJournalMutation json state changes)
    appendSynced io.append payload
    let repository ← ofStorage (repository.account payload)
    if repository.shouldCompact then
      -- The record is durable, so a compaction that fails is only put off.
      match ← attempt (repository.compact snapshotJson io.compaction state) with
      | .ok repository => return repository
      | .error _ => return { repository with compactionDeferred := true }
    else return repository

end Codecs

end JournaledBrokerStateRepository

end AgentBroker
