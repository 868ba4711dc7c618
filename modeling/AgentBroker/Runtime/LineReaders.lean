import AgentBroker.Storage.Repository

/-!
# Line readers

The servers and the replay of the journal read lines in one way (`read_request_frame` in
`tcp_server.rs`, `read_bounded_record` in `repository.rs`): buffer by buffer, up to a limit.
Here the loop is compared with the first line of the whole stream, of which it sees one
buffer at a time.

## The design decisions

* **A reader is the list of the buffers that its reads fill**, in their order.  An empty
  buffer, or none, is the end of the stream: `fill_buf` returns nothing exactly there.  Reads
  and writes that fail are left out.
* **Both readers are one loop** with different answers.  `readRequestFrame` keeps the body that
  the source has, and `readRequestFrame_eq` says that it is the loop; `readBoundedRecord` is
  the loop with the answers of the journal.
* **What is left is part of the answer.**  A connection is read frame after frame, so that a
  reader which returned the right line but consumed too much would lose the next one.

## What is load-bearing

The length check is a saturating addition of `usize`.  Under a limit of `usize::MAX` it could
let a line pass that is longer, which is why the specification asks for a limit below or for a
line whose bytes a `usize` counts (`saturatingAdd_gt_iff`).

## Main results

* `readLine_spec` — the loop gives the first line of the stream, however it is cut into
  buffers.
* `line_readers_ignore_buffering` — what either reader returns is decided by the bytes and
  the limit, and a line that is returned leaves the reader right behind it.
-/

namespace AgentBroker

open List

/-! ## The loop -/

/-- `FrameRead`. -/
inductive FrameRead where
  | eof
  | tooLarge
  | frame (bytes : Bytes)
  deriving DecidableEq, Repr

/-- `BufRead::consume`. -/
def consume (count : Nat) : List Bytes → List Bytes
  | [] => []
  | available :: fills => if available.length ≤ count then fills else available.drop count :: fills

/-- `read_request_frame`, after `frame` was read; with it the reader that is left. -/
def readRequestFrame (maxFrameBytes : Nat) : Bytes → List Bytes → FrameRead × List Bytes
  | _, [] => (.eof, [])
  | _, [] :: fills => (.eof, [] :: fills)
  | frame, available@(_ :: _) :: fills =>
    let newline := available.findIdx? (· = 10)
    let consumed := newline.elim available.length (· + 1)
    if saturatingAdd frame.length consumed > maxFrameBytes then (.tooLarge, available :: fills)
    else if newline.isSome then
      (.frame (frame ++ available.take consumed), consume consumed (available :: fills))
    else readRequestFrame maxFrameBytes (frame ++ available.take consumed) fills

/-- The loop that both readers are, after `line` was read: what it returns for a line that is
too long, at the end of the stream and for a line, and the reader that is left. -/
def readLine {β : Type} (limit : Nat) (tooLarge : β) (ended terminated : Bytes → β) :
    Bytes → List Bytes → β × List Bytes
  | line, [] => (ended line, [])
  | line, [] :: fills => (ended line, [] :: fills)
  | line, available@(_ :: _) :: fills =>
    let newline := available.findIdx? (· = 10)
    let consumed := newline.elim available.length (· + 1)
    if saturatingAdd line.length consumed > limit then (tooLarge, available :: fills)
    else if newline.isSome then
      (terminated (line ++ available.take consumed), consume consumed (available :: fills))
    else readLine limit tooLarge ended terminated (line ++ available.take consumed) fills

/-- `read_bounded_record` of a record of up to `maxRecordBytes` bytes, which are
`MAX_JOURNAL_RECORD_BYTES`, after `line` was read: the length that it returns and the line that
it leaves in its buffer, and the reader that is left. -/
def readBoundedRecord (maxRecordBytes : Nat) :
    Bytes → List Bytes → Except StorageError (Nat × Bytes) × List Bytes :=
  readLine maxRecordBytes
    (.error (.invalidFormat ("journal record exceeds " ++ toString maxRecordBytes ++ " bytes")))
    (fun line => .ok (line.length, line)) (fun line => .ok (line.length, line))

/-- The servers' reader is the loop. -/
theorem readRequestFrame_eq (limit : Nat) (frame : Bytes) (fills : List Bytes) :
    readRequestFrame limit frame fills
      = readLine limit FrameRead.tooLarge (fun _ => .eof) .frame frame fills := by
  induction fills generalizing frame with
  | nil => rfl
  | cons available _ ih =>
    cases available with
    | nil => rfl
    | cons =>
      rw [readRequestFrame, readLine]
      simp only [ih]

/-! ## The first line of a stream -/

/-- The first line of a stream with its newline, or all of a stream without one. -/
def firstLine (stream : Bytes) : Bytes :=
  (stream.findIdx? (· = 10)).elim stream fun position => stream.take (position + 1)

/-- Bytes without newline are searched in vain. -/
theorem findIdx?_newline {bytes : Bytes} (h : 10 ∉ bytes) :
    bytes.findIdx? (· = 10) = none := by
  rw [List.findIdx?_eq_none_iff]
  intro byte hbyte
  exact decide_eq_false fun heq => h (heq ▸ hbyte)

theorem notMem_of_findIdx? {bytes : Bytes} (h : bytes.findIdx? (· = 10) = none) :
    10 ∉ bytes := by
  intro hmem
  have := List.findIdx?_eq_none_iff.mp h 10 hmem
  simp at this

/-- A newline in the bytes that follow a part without one ends the first line. -/
theorem firstLine_of_newline {line available : Bytes} {position : Nat} (hline : 10 ∉ line)
    (hfound : available.findIdx? (· = 10) = some position) (rest : Bytes) :
    firstLine (line ++ (available ++ rest)) = line ++ available.take (position + 1) := by
  have hposition : position + 1 ≤ available.length :=
    (List.findIdx?_eq_some_iff_getElem.mp hfound).1
  have hindex : (line ++ (available ++ rest)).findIdx? (· = 10)
      = some (position + line.length) := by
    rw [List.findIdx?_append, findIdx?_newline hline, List.findIdx?_append, hfound]
    rfl
  rw [firstLine, hindex]
  change (line ++ (available ++ rest)).take (position + line.length + 1) = _
  rw [show position + line.length + 1 = line.length + (position + 1) by omega,
    take_length_add_append, take_append_of_le_length hposition]

/-- A stream without newline is its own first line. -/
theorem firstLine_of_notMem {stream : Bytes} (h : 10 ∉ stream) : firstLine stream = stream := by
  rw [firstLine, findIdx?_newline h]
  rfl

/-- The first line is at least what was read of it without finding a newline. -/
theorem length_le_firstLine {line : Bytes} (h : 10 ∉ line) (rest : Bytes) :
    line.length ≤ (firstLine (line ++ rest)).length := by
  cases hfound : rest.findIdx? (· = 10) with
  | none =>
    have hrest : 10 ∉ rest := notMem_of_findIdx? hfound
    rw [firstLine_of_notMem (by simp [h, hrest]), length_append]
    omega
  | some =>
    have hline := firstLine_of_newline h hfound []
    rw [append_nil] at hline
    rw [hline, length_append]
    omega

/-- What is left after `consume` is what followed, without empty buffers. -/
theorem consume_spec {fills : List Bytes} {available : Bytes} (count : Nat)
    (hfills : [] ∉ available :: fills) :
    (consume count (available :: fills)).flatten = available.drop count ++ fills.flatten ∧
      [] ∉ consume count (available :: fills) := by
  rw [consume]
  split
  case isTrue h =>
    refine ⟨?_, fun hmem => hfills (mem_cons_of_mem _ hmem)⟩
    rw [drop_eq_nil_of_le h, nil_append]
  case isFalse h =>
    refine ⟨rfl, fun hmem => ?_⟩
    cases mem_cons.mp hmem with
    | inl hnil =>
      have := congrArg List.length hnil
      rw [length_drop, length_nil] at this
      omega
    | inr hmem => exact hfills (mem_cons_of_mem _ hmem)

/-! ## The loop reads the first line -/

/-- The length check of the loop is exact for a limit below the largest `usize`, and for any
limit on lines of which a `usize` counts the bytes. -/
theorem saturatingAdd_gt_iff {a b length : Nat} {limit : Usize} (hle : a + b ≤ length)
    (hheld : limit.get + 1 < u64Size ∨ length < u64Size) :
    saturatingAdd a b > limit.get ↔ limit.get < a + b := by
  have := limit.isLt
  unfold saturatingAdd
  omega

variable {β : Type} {limit : Usize} (tooLarge : β) (ended terminated : Bytes → β)

/-- The step on a buffer in which the line ends. -/
theorem readLine_of_newline {line available : Bytes} {fills : List Bytes} {position : Nat}
    (hfound : available.findIdx? (· = 10) = some position) :
    readLine limit.get tooLarge ended terminated line (available :: fills)
      = if saturatingAdd line.length (position + 1) > limit.get then (tooLarge, available :: fills)
        else (terminated (line ++ available.take (position + 1)),
          consume (position + 1) (available :: fills)) := by
  cases available with
  | nil => cases hfound
  | cons =>
    rw [readLine, hfound]
    rfl

/-- The step on a buffer that goes to the line as a whole. -/
theorem readLine_of_notMem {line available : Bytes} {fills : List Bytes}
    (hnonempty : available ≠ []) (h : 10 ∉ available) :
    readLine limit.get tooLarge ended terminated line (available :: fills)
      = if saturatingAdd line.length available.length > limit.get then
          (tooLarge, available :: fills)
        else readLine limit.get tooLarge ended terminated (line ++ available) fills := by
  cases available with
  | nil => exact absurd rfl hnonempty
  | cons =>
    rw [readLine, findIdx?_newline h]
    simp

/-- What the loop gives for a stream: its first line decides what is returned, and unless it
is too long the reader is left with the bytes that follow it. -/
structure ReadsFirstLine (limit : Usize) (tooLarge : β) (ended terminated : Bytes → β)
    (stream : Bytes) (read : β × List Bytes) : Prop where
  returned : read.1 = if limit.get < (firstLine stream).length then tooLarge
    else if 10 ∈ stream then terminated (firstLine stream) else ended stream
  left : (firstLine stream).length ≤ limit.get →
    read.2.flatten = stream.drop (firstLine stream).length ∧ [] ∉ read.2

/-- Where the first line is too long nothing is said about the reader. -/
theorem ReadsFirstLine.of_large {stream : Bytes} {fills : List Bytes}
    (h : limit.get < (firstLine stream).length) :
    ReadsFirstLine limit tooLarge ended terminated stream (tooLarge, fills) :=
  ⟨(if_pos h).symm, fun hle => absurd h (Nat.not_lt.mpr hle)⟩

/-- From the part of a line that was read, the loop goes on to the first line of the whole
stream. -/
theorem readLine_spec {line : Bytes} {fills : List Bytes} (hline : 10 ∉ line)
    (hread : line.length ≤ limit.get) (hfills : [] ∉ fills)
    (hheld : limit.get + 1 < u64Size ∨ (firstLine (line ++ fills.flatten)).length < u64Size) :
    ReadsFirstLine limit tooLarge ended terminated (line ++ fills.flatten)
      (readLine limit.get tooLarge ended terminated line fills) := by
  induction fills generalizing line with
  | nil =>
    rw [flatten_nil, append_nil]
    refine ⟨?_, fun _ => ⟨?_, not_mem_nil⟩⟩
    · rw [firstLine_of_notMem hline, if_neg (by omega), if_neg hline, readLine]
    · rw [firstLine_of_notMem hline, drop_length]
      rfl
  | cons available fills ih =>
    have hrest : [] ∉ fills := fun hmem => hfills (mem_cons_of_mem _ hmem)
    rw [flatten_cons] at hheld ⊢
    cases hfound : available.findIdx? (· = 10) with
    | some position =>
      -- The line ends inside this buffer.
      obtain ⟨hlt, hbyte, _⟩ := List.findIdx?_eq_some_iff_getElem.mp hfound
      have hposition : position + 1 ≤ available.length := hlt
      have hfirst := firstLine_of_newline hline hfound fills.flatten
      have hlength : (firstLine (line ++ (available ++ fills.flatten))).length
          = line.length + (position + 1) := by
        rw [hfirst, length_append, length_take_of_le hposition]
      have hmem : 10 ∈ line ++ (available ++ fills.flatten) :=
        mem_append_right _ (mem_append_left _
          (of_decide_eq_true hbyte ▸ getElem_mem hlt))
      rw [readLine_of_newline tooLarge ended terminated hfound,
        if_congr (saturatingAdd_gt_iff hlength.ge hheld) rfl rfl]
      split
      case isTrue hlarge => exact .of_large _ _ _ (by omega)
      case isFalse hlarge =>
        obtain ⟨hleft, hnonempty⟩ := consume_spec (position + 1) hfills
        refine ⟨?_, fun _ => ⟨?_, hnonempty⟩⟩
        · rw [if_neg (by omega), if_pos hmem, hfirst]
        · rw [hleft, hlength, drop_length_add_append, drop_append_of_le_length hposition]
    | none =>
      -- The buffer goes to the line as a whole.
      have hpart : 10 ∉ available := notMem_of_findIdx? hfound
      have hboth : 10 ∉ line ++ available := by simp [hline, hpart]
      have hnonempty : available ≠ [] := fun hnil => hfills (hnil ▸ mem_cons_self)
      rw [← append_assoc] at hheld ⊢
      have hlength : line.length + available.length
          ≤ (firstLine (line ++ available ++ fills.flatten)).length := by
        rw [← length_append]
        exact length_le_firstLine hboth _
      rw [readLine_of_notMem tooLarge ended terminated hnonempty hpart,
        if_congr (saturatingAdd_gt_iff hlength hheld) rfl rfl]
      split
      case isTrue hlarge => exact .of_large _ _ _ (by omega)
      case isFalse hlarge => exact ih hboth (by rw [length_append]; omega) hrest hheld

/-- Neither reader depends on buffering.  However a stream is cut into buffers, what they
return is decided by its first line and the limit, and unless the line is too long the next
call starts right behind it.  A line of more bytes than a `usize` counts, which no buffer can
hold, is left out where the limit is the largest `usize`: there the saturating sum of the
length check would stop below it. -/
theorem line_readers_ignore_buffering (limit : Usize) (stream : Bytes) (fills : List Bytes)
    (hfills : [] ∉ fills) (hstream : fills.flatten = stream)
    (hheld : limit.get + 1 < u64Size ∨ (firstLine stream).length < u64Size) :
    (readRequestFrame limit.get [] fills).1
      = (if limit.get < (firstLine stream).length then .tooLarge
        else if 10 ∈ stream then .frame (firstLine stream) else .eof) ∧
    (readBoundedRecord limit.get [] fills).1
      = (if limit.get < (firstLine stream).length then
          .error (.invalidFormat
            ("journal record exceeds " ++ toString limit.get ++ " bytes"))
        else if 10 ∈ stream then .ok ((firstLine stream).length, firstLine stream)
        else .ok (stream.length, stream)) ∧
    ((firstLine stream).length ≤ limit.get →
      ∀ rest ∈ [(readRequestFrame limit.get [] fills).2, (readBoundedRecord limit.get [] fills).2],
        rest.flatten = stream.drop (firstLine stream).length ∧ [] ∉ rest) := by
  subst hstream
  obtain ⟨hframe, hframeRest⟩ := readLine_spec FrameRead.tooLarge (fun _ => .eof) .frame
    not_mem_nil (Nat.zero_le limit.get) hfills hheld
  rw [← readRequestFrame_eq] at hframe hframeRest
  obtain ⟨hrecord, hrecordRest⟩ := readLine_spec
    (Except.error (StorageError.invalidFormat
      ("journal record exceeds " ++ toString limit.get ++ " bytes")))
    (fun line => .ok (line.length, line)) (fun line => .ok (line.length, line))
    not_mem_nil (Nat.zero_le limit.get) hfills hheld
  refine ⟨hframe, hrecord, fun hle rest hrest => ?_⟩
  cases mem_cons.mp hrest with
  | inl h => exact h ▸ hframeRest hle
  | inr h => exact mem_singleton.mp h ▸ hrecordRest hle

/-- A line that ends at the edge of a buffer and at the limit, with a rest behind it. -/
theorem line_readers_ignore_buffering_edge :
    readRequestFrame 3 [] [[97], [98, 10], [99]] = (.frame [97, 98, 10], [[99]]) ∧
      (readRequestFrame 3 [] [[97], [98, 10], [99]]).1
        = (if 3 < (firstLine [97, 98, 10, 99]).length then .tooLarge
          else if 10 ∈ ([97, 98, 10, 99] : Bytes) then .frame (firstLine [97, 98, 10, 99])
          else .eof) :=
  ⟨by decide, (line_readers_ignore_buffering 3 [97, 98, 10, 99]
    [[97], [98, 10], [99]] (by decide) rfl (Or.inl (by decide))).1⟩

end AgentBroker
