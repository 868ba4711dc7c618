import AgentBroker.Domain.Progress
import AgentBroker.Storage.RecordSize

/-!
# A record that cannot be read back

Under the default capacities a namespace holds 4096 tasks.  An objective of 16 KiB of
control characters takes 96 KiB in JSON, so 1366 of them are more than the 128 MiB that
the reader of the journal admits.  A member that holds so many leases and leaves makes the
broker write such a record.

The run has thousands of commands, so it is not evaluated: `Crowded` says what matters of
the state after `n` rounds, and one round leads from `Crowded n` to `Crowded (n + 1)`.

## Main results

* `crowded_run` — a member can hold thousands of leases.
* `BrokerStateMachine.departure_writes_oversized_record` — the record of its departure.
-/

namespace AgentBroker

open Registry List Option Counter

/-! ## Identifiers and the objective -/

theorem identifierFault_repr {n : Nat} (h : n < 10 ^ 128) :
    identifierFault maxIdentifierBytes identifierTexts (Nat.repr n) = none := by
  have hlist : (Nat.repr n).toList = Nat.toDigits 10 n := by
    rw [Nat.repr_eq_ofList_toDigits, String.toList_ofList]
  have hdigit : ∀ c ∈ Nat.toDigits 10 n, c.isAlphanum = true := fun c hc => by
    rw [Char.isAlphanum, Nat.isDigit_of_mem_toDigits (by decide) (by decide) hc, Bool.or_true]
  have hsize : (Nat.repr n).utf8ByteSize ≤ maxIdentifierBytes := by
    rw [← Bytes.length_ofString]
    exact Json.length_number_le (by decide) h
  unfold identifierFault
  rw [hlist]
  cases hdigits : Nat.toDigits 10 n with
  | nil => exact absurd hdigits Nat.toDigits_ne_nil
  | cons first rest =>
    rw [hdigits] at hdigit
    have hrest : rest.all identifierBodyChar = true := List.all_eq_true.mpr fun c hc => by
      rw [identifierBodyChar, hdigit c (mem_cons_of_mem _ hc)]
      rfl
    dsimp only
    rw [if_neg (not_lt.mpr hsize), hdigit first mem_cons_self, hrest]
    rfl

/-- The first 4096 numbers as identifiers. -/
def Identifier.numbered {kind : IdentifierKind} (n : Nat) : Identifier kind :=
  ⟨Nat.repr (n % 4096), identifierFault_repr ((Nat.mod_lt n (by decide)).trans (by decide))⟩

theorem Identifier.numbered_inj {kind : IdentifierKind} {n k : Nat} (hn : n < 4096)
    (hk : k < 4096) (h : (numbered n : Identifier kind) = numbered k) : n = k := by
  have hrepr : Nat.repr (n % 4096) = Nat.repr (k % 4096) := congrArg Identifier.asStr h
  rw [Nat.mod_eq_of_lt hn, Nat.mod_eq_of_lt hk, Nat.repr_eq_ofList_toDigits,
    Nat.repr_eq_ofList_toDigits] at hrepr
  have hdigits : Nat.toDigits 10 n = Nat.toDigits 10 k := by
    simpa using congrArg String.toList hrepr
  rw [← Nat.ofDigitChars_ten_toDigits (n := n), hdigits, Nat.ofDigitChars_ten_toDigits]

theorem nodup_numbered {n : Nat} (hn : n ≤ 4096) :
    ((List.range n).map (Identifier.numbered : Nat → TaskId)).Nodup := by
  refine List.Nodup.map_on (fun i hi j hj heq => ?_) nodup_range
  exact Identifier.numbered_inj ((mem_range.mp hi).trans_le hn)
    ((mem_range.mp hj).trans_le hn) heq

/-- The longest objective, all of control characters. -/
def controlText : TaskObjective := ⟨controls 16384, taskTextFault_controls (by decide) le_rfl⟩

theorem escapedBytes_controlText : controlText.escapedBytes = 98306 :=
  length_string_controls 16384

/-! ## The commands -/

def crowdNamespace : NamespaceId := BrokerStateMachine.namespaceA
def crowdGroup : ConsumerGroupId := BrokerStateMachine.groupG
def crowdMember : ConsumerId := BrokerStateMachine.workerW

/-- The namespace, the group and its member, under the default capacities. -/
def crowdSetUp : List BrokerCommand :=
  [.ensureNamespace ⟨crowdNamespace, 64⟩,
    .ensureConsumerGroup ⟨crowdNamespace, crowdGroup, 64⟩,
    .joinConsumerGroup ⟨crowdGroup, crowdMember, ⟨∅, Capabilities.bounded_empty⟩, 0,
      256⟩]

/-- The publication of one round. -/
def crowdTask (n : Nat) : PublishTaskCommand :=
  ⟨crowdNamespace, .numbered n, controlText, 0, 4096⟩

/-- The claim of one round, for a minute. -/
def crowdClaim (n : Nat) : ClaimTaskCommand :=
  BrokerStateMachine.claimBy crowdGroup crowdMember (.numbered n) 0
    60000

/-- The member publishes and claims `n` tasks. -/
def crowd : Nat → List BrokerCommand
  | 0 => crowdSetUp
  | n + 1 => crowd n ++ [.publishTask (crowdTask n), .claimTask (crowdClaim n)]

/-- The member leaves. -/
def departure : LeaveConsumerGroupCommand :=
  ⟨crowdGroup, crowdMember, 1⟩

/-! ## One round -/

/-- The task of round `n` as the member holds it. -/
structure Held (n : Nat) (task : Task) : Prop where
  objective : task.objective = controlText
  revision : task.revision.get ≤ 2
  lease : ∃ lease, task.state = .leased lease ∧ lease.leaseId = .numbered n ∧
    lease.groupId = crowdGroup ∧ lease.ownerMemberId = crowdMember ∧
    lease.leaseEpoch.get ≤ 1 ∧ 0 < lease.expiresAtMs.get

open BrokerStateMachine (run initial)

/-- The part of the state that the rounds count up or leave as it was set up. -/
structure CrowdFrame (revision count : Nat) (m : BrokerStateMachine) : Prop where
  indexed : m.Indexed
  term : m.state.term = (run initial crowdSetUp).state.term
  revision : m.state.revision.get = revision
  namespaces : m.state.namespaces = (run initial crowdSetUp).state.namespaces
  groups : m.state.groups = (run initial crowdSetUp).state.groups
  count : m.taskCount crowdNamespace = count

/-- The state after `n` rounds: the member holds their tasks and there are no others. -/
structure Crowded (n : Nat) (m : BrokerStateMachine) : Prop
    extends CrowdFrame (2 * n + 3) n m where
  present : ∀ i < n, m.state.tasks.get (.numbered i) ≠ none
  held : ∀ t task, m.state.tasks.get t = some task → ∃ i < n, t = .numbered i ∧ Held i task

/-- The state in the middle of round `n`: its task is queued. -/
structure Queueing (n : Nat) (m : BrokerStateMachine) : Prop
    extends CrowdFrame (2 * n + 4) (n + 1) m where
  present : ∀ i < n, m.state.tasks.get (.numbered i) ≠ none
  queued : m.state.tasks.get (.numbered n) =
    some (.new (.numbered n) crowdNamespace controlText 0)
  ready : (⟨0, .numbered n⟩ : TimedTask) ∈ m.readyHeap crowdNamespace
  held : ∀ t task, m.state.tasks.get t = some task → t ≠ .numbered n →
    ∃ i < n, t = .numbered i ∧ Held i task

open BrokerStateMachine

variable {n : Nat} {m : BrokerStateMachine}

theorem crowded_start : Crowded 0 (run initial crowdSetUp) where
  indexed := run_indexed crowdSetUp
  term := rfl
  revision := by decide +kernel
  namespaces := rfl
  groups := rfl
  count := by decide +kernel
  present := nofun
  held t task hget := by
    have htasks : (run initial crowdSetUp).state.tasks = ∅ := by decide +kernel
    rw [htasks, Registry.get_empty] at hget
    cases hget

theorem Crowded.canPublish (h : Crowded n m) (hn : n < 4096) : m.CanPublish (crowdTask n) where
  known := by
    show m.state.namespaces.get crowdNamespace ≠ none
    rw [h.namespaces]
    decide +kernel
  fresh := by
    show m.state.tasks.get (.numbered n) = none
    cases hget : m.state.tasks.get (.numbered n) with
    | none => rfl
    | some task =>
      obtain ⟨i, hi, hid, -⟩ := h.held _ task hget
      exact absurd (Identifier.numbered_inj hn (hi.trans hn) hid) (Nat.ne_of_gt hi)
  room := by
    show m.taskCount crowdNamespace < 4096
    rw [h.count]
    exact hn
  next := next_isOk_iff.mpr (by
    rw [h.revision]
    unfold u64Size
    omega)

/-- The first half of a round. -/
theorem Crowded.publish (h : Crowded n m) (hn : n < 4096) :
    Queueing n (apply m (.publishTask (crowdTask n))).1 := by
  have hcan := h.canPublish hn
  obtain ⟨applied, revision, -, hnext, heq⟩ := publish_succeeds h.indexed hcan
  have hindexed := apply_indexed h.indexed (.publishTask (crowdTask n))
  rw [heq] at hindexed ⊢
  have hget : ∀ t, (m.clearChanges.published (.new (.numbered n) crowdNamespace
      controlText 0) revision).state.tasks.get t = if t = .numbered n then
        some (.new (.numbered n) crowdNamespace controlText 0)
      else m.state.tasks.get t := fun t => get_put _ _ t
  refine ⟨⟨hindexed, h.term, ?_, h.namespaces, h.groups, ?_⟩, fun i hi => ?_, ?_, ?_,
    fun t task htask hne => ?_⟩
  · show revision.get = 2 * n + 4
    rw [next_get hnext, h.revision]
  · exact (taskCount_published _ _).trans (congrArg (· + 1) h.count)
  · refine (hget _).trans_ne ?_
    split_ifs
    · exact some_ne_none _
    · exact h.present i hi
  · exact (hget _).trans (if_pos rfl)
  · exact mem_readyHeap_published _ _
  · exact h.held t task ((if_neg hne).symm.trans ((hget t).symm.trans htask))

/-- No task is leased under the id of the next lease. -/
theorem Queueing.lease_ne (h : Queueing n m) (hn : n < 4096) {t : TaskId} {task : Task}
    {lease : LeasedTask} (hget : m.state.tasks.get t = some task)
    (hstate : task.state = .leased lease) : lease.leaseId ≠ .numbered n := by
  by_cases ht : t = .numbered n
  · rw [ht, h.queued] at hget
    cases hget
    cases hstate
  · obtain ⟨i, hi, -, hheld⟩ := h.held t task hget ht
    obtain ⟨held, hleased, hid, -⟩ := hheld.lease
    rw [hleased] at hstate
    cases hstate
    rw [hid]
    exact fun heq => Nat.ne_of_lt hi (Identifier.numbered_inj (hi.trans hn) hn heq)

/-- The claim gets to the queue. -/
theorem Queueing.reaches (h : Queueing n m) (hn : n < 4096) :
    m.Reaches (crowdClaim n) crowdNamespace where
  term := by
    rw [h.term]
    show (run initial crowdSetUp).state.term = 1
    decide +kernel
  member := by
    have hmember : GroupCoordinator.requireMember (run initial crowdSetUp).state.groups
        crowdGroup crowdMember 1 = .ok (crowdNamespace, 1) := by
      decide +kernel
    obtain ⟨group, member, hgroup, hgeneration, hconsumer, hns, -⟩ :=
      GroupCoordinator.requireMember_eq_ok_iff.mp hmember
    exact ⟨group, member, by rw [h.groups]; exact hgroup, hgeneration, hconsumer, hns⟩
  fresh := by
    cases hactive : m.activeLeaseTasks.get (.numbered n) with
    | none => exact hactive
    | some t =>
      obtain ⟨task, hget, hlease⟩ :=
        attr_eq_some_iff.mp ((h.indexed.active _ t).mp hactive)
      obtain ⟨lease, hlease, hid⟩ := map_eq_some_iff.mp hlease
      exact absurd hid (h.lease_ne hn hget (Task.lease_eq_some_iff.mp hlease))

/-- No lease has expired yet. -/
theorem Queueing.not_due (h : Queueing n m) (t : TaskId) :
    ¬m.Due crowdNamespace (crowdClaim n).nowMs t := by
  intro hdue
  obtain ⟨task, lease, hget, hstate, hexpires⟩ := hdue.exists_lease
  by_cases ht : t = .numbered n
  · rw [ht, h.queued] at hget
    cases hget
    cases hstate
  · obtain ⟨i, -, -, hheld⟩ := h.held t task hget ht
    obtain ⟨held, hleased, -, -, -, -, hpos⟩ := hheld.lease
    rw [hleased] at hstate
    cases hstate
    exact absurd hpos (not_lt.mpr hexpires)

/-- No counter is anywhere near its end. -/
theorem Queueing.canFinish (h : Queueing n m) (hn : n < 4096) :
    m.CanFinish (crowdClaim n) crowdNamespace := by
  refine ⟨fun t task hdue => absurd hdue (h.not_due t), fun e task _ hget => ?_⟩
  have hsmall : task.revision.get ≤ 2 ∧ task.state.leaseEpoch.get ≤ 1 := by
    by_cases ht : e.taskId = .numbered n
    · rw [ht, h.queued] at hget
      cases hget
      exact ⟨Nat.le_succ 1, Nat.zero_le 1⟩
    · obtain ⟨i, -, -, hheld⟩ := h.held _ task hget ht
      obtain ⟨held, hleased, -, -, -, hepoch, -⟩ := hheld.lease
      refine ⟨hheld.revision, ?_⟩
      rw [hleased]
      exact hepoch
  obtain ⟨hrevision, hepoch⟩ := hsmall
  refine ⟨?_, ?_, ?_, ?_⟩
  · show 0 + 60000 < u64Size
    decide
  · rw [h.revision]
    unfold u64Size
    omega
  · unfold u64Size
    omega
  · unfold u64Size
    split_ifs <;> omega

/-- The second half of a round. -/
theorem Queueing.claim (h : Queueing n m) (hn : n < 4096) :
    Crowded (n + 1) (apply m (.claimTask (crowdClaim n))).1 := by
  obtain ⟨applied, result, -, hclaimed⟩ :=
    claim_succeeds h.indexed (h.reaches hn) (h.canFinish hn)
  have hindexed := apply_indexed h.indexed (.claimTask (crowdClaim n))
  generalize (apply m (.claimTask (crowdClaim n))).1 = after at hclaimed hindexed ⊢
  cases hclaimed with
  | retried _ get state leaseId => exact absurd leaseId (h.lease_ne hn get state)
  | idle reaches due ready =>
    cases reaches.member.unique (h.reaches hn).member
    have hready : _ ∈ (m.readyHeap crowdNamespace).entries := h.ready
    have hnil : (m.readyHeap crowdNamespace).entries = [] := ready
    rw [hnil] at hready
    cases hready
  | @leased ns e rest task queued expiresAtMs epoch taskRevision revision reaches due ready get
      id state expires epochNext taskNext next =>
      cases reaches.member.unique (h.reaches hn).member
      -- Nothing is due, so the claim only pops the ready task.
      have hdue : m.clearChanges.dueTasks crowdNamespace (crowdClaim n).nowMs = [] :=
        eq_nil_iff_forall_not_mem.mpr fun t ht => h.not_due t (mem_dueTasks.mp ht)
      obtain ⟨expirations, hpopped⟩ :=
        expirationsPopped_cases m.clearChanges crowdNamespace (crowdClaim n).nowMs
      rw [caughtUp, hdue, recovered, takeBack_nil, hpopped] at get hindexed ⊢
      have hget : m.state.tasks.get task.id = some task := get
      -- The other tasks are leased, so the one that is ready is the last one published.
      have hid : task.id = .numbered n := by
        by_contra hne
        obtain ⟨i, -, -, hheld⟩ := h.held _ task hget hne
        obtain ⟨lease, hleased, -⟩ := hheld.lease
        rw [hleased] at state
        cases state
      rw [hid, h.queued] at hget
      cases hget
      cases state
      have hput : ∀ t, (m.state.tasks.put ((Task.new (.numbered n) crowdNamespace controlText
          0).toLeased (leaseFor (crowdClaim n) epoch expiresAtMs)
            taskRevision)).get t = if t = .numbered n then _ else m.state.tasks.get t :=
        fun t => get_put _ _ t
      have hdeadline : 0 < expiresAtMs.get := by
        have hminute : (crowdClaim n).leaseDurationMs.get = 60000 := rfl
        rw [TimestampMs.checkedAdd_eq_some_iff.mp expires, hminute]
        exact Nat.add_pos_right _ (by decide)
      refine ⟨⟨hindexed, h.term, ?_, h.namespaces, h.groups, h.count⟩, fun i hi => ?_,
        fun t task htask => ?_⟩
      · show revision.get = 2 * (n + 1) + 3
        have hrevision : revision.get = m.state.revision.get + 1 := next_get next
        rw [hrevision, h.revision]
        omega
      · refine (hput _).trans_ne ?_
        split_ifs with hlast
        · exact some_ne_none _
        · exact h.present i (lt_of_le_of_ne (Nat.le_of_lt_succ hi) fun heq => hlast (heq ▸ rfl))
      · have hafter := (hput t).symm.trans htask
        split_ifs at hafter with ht
        · cases hafter
          refine ⟨n, Nat.lt_succ_self n, ht, rfl, ?_, _, rfl, rfl, rfl, rfl, ?_, ?_⟩
          · exact (next_get taskNext).le
          · exact (next_get epochNext).le
          · exact hdeadline
        · obtain ⟨i, hi, hid, hheld⟩ := h.held t task hafter ht
          exact ⟨i, hi.trans (Nat.lt_succ_self n), hid, hheld⟩

/-- **A member can hold thousands of leases.** -/
theorem crowded_run (hn : n ≤ 4096) : Crowded n (run initial (crowd n)) := by
  induction n with
  | zero => exact crowded_start
  | succ n ih =>
    have hrun : run initial (crowd (n + 1)) =
        (apply (apply (run initial (crowd n)) (.publishTask (crowdTask n))).1
          (.claimTask (crowdClaim n))).1 := Run.final_append _ _ _ _
    rw [hrun]
    exact ((ih (Nat.le_of_succ_le hn)).publish hn).claim hn

/-! ## The departure -/

theorem Crowded.canLeave (h : Crowded n m) (hn : n ≤ 4096) : m.CanLeave departure where
  leaves := by
    rw [h.groups]
    have hleave : (GroupCoordinator.leave (run initial crowdSetUp).state.groups crowdGroup
        crowdMember 1).isOk = true := by decide +kernel
    cases hleft : GroupCoordinator.leave (run initial crowdSetUp).state.groups crowdGroup
        crowdMember 1 with
    | error =>
      rw [hleft] at hleave
      cases hleave
    | ok left =>
      obtain ⟨member, groups⟩ := left
      obtain ⟨group, group', hgroup, hgone, -⟩ :=
        GroupCoordinator.withGroup_eq_ok_iff.mp hleft
      exact ⟨group, member, group', hgroup, hgone⟩
  requeueable := by
    intro t lease task hlease
    obtain ⟨i, -, -, hheld⟩ := h.held t task (memberLease_eq_some_iff.mp hlease).1
    have hrevision := hheld.revision
    refine next_isOk_iff.mpr ?_
    unfold u64Size
    omega
  next := next_isOk_iff.mpr (by
    rw [h.revision]
    unfold u64Size
    omega)

/-- When the member leaves, every task it held is written. -/
theorem Crowded.departs (h : Crowded n m) (hn : n ≤ 4096) :
    ∃ applied, (apply m (.leaveConsumerGroup departure)).2 = .ok applied ∧
      ∀ i < n, .numbered i ∈ applied.changes.tasks ∧
        ∃ task, (apply m (.leaveConsumerGroup departure)).1.state.tasks.get (.numbered i) =
          some task ∧ task.objective = controlText := by
  obtain ⟨applied, group', revision, hok, heq⟩ := leave_succeeds h.indexed (h.canLeave hn)
  have hexact := exactChanges_of_ok h.indexed hok
  refine ⟨applied, hok, fun i hi => ?_⟩
  obtain ⟨task, hget⟩ := ne_none_iff_exists'.mp (h.present i hi)
  obtain ⟨_, -, -, hheld⟩ := h.held _ task hget
  obtain ⟨lease, hstate, -, hgroup, hmember, -⟩ := hheld.lease
  obtain ⟨next, hnext⟩ : ∃ next, task.revision.next = .ok next :=
    (h.canLeave hn).requeueable _ lease task
      (memberLease_eq_some_iff.mpr ⟨hget, hstate, hgroup, hmember⟩)
  have hdropped : .numbered i ∈ OrdSet.toList (m.memberLeases ⟨crowdGroup, crowdMember⟩) :=
    (mem_dropped h.indexed).mpr
      ⟨lease, task, memberLease_eq_some_iff.mpr ⟨hget, hstate, hgroup, hmember⟩⟩
  have hafter : (apply m (.leaveConsumerGroup departure)).1.state.tasks.get (.numbered i) =
      some task.takenBack := by
    rw [heq]
    refine (get_takeBack _ _).trans ((if_pos hdropped).trans ?_)
    exact congrArg (Option.map Task.takenBack) hget
  refine ⟨(hexact.tasks _).mpr ⟨?_, ?_⟩, task.takenBack, hafter, ?_⟩
  · rw [hafter]
    exact some_ne_none _
  · rw [hafter, hget]
    exact fun hsame => Task.takenBack_ne_of_leased hstate hnext (Option.some.inj hsame)
  · rw [Task.takenBack_of_leased hstate hnext]
    exact hheld.objective

/-- The record of a departure is longer than the objectives together. -/
theorem length_record_departure (hn : n ≤ 4096) {state : BrokerState} {changes : StateChangeSet}
    (hnodup : changes.tasks.Nodup)
    (h : ∀ i < n, .numbered i ∈ changes.tasks ∧ ∃ task,
      state.tasks.get (.numbered i) = some task ∧ task.objective = controlText) :
    n * 98306 ≤ (recordedWire state changes).json.length := by
  have hsum : ((List.range n).map (Identifier.numbered : Nat → TaskId)).length * 98306 ≤
      ((changes.tasks.filterMap state.tasks.get).map
        fun task => (taskToWire task.checkpoint).json.length).sum := by
    refine le_sum_patch hnodup (nodup_numbered hn) (fun t ht => ?_) fun t ht => ?_
    · obtain ⟨i, hi, rfl⟩ := List.mem_map.mp ht
      exact (h i (mem_range.mp hi)).1
    · obtain ⟨i, hi, rfl⟩ := List.mem_map.mp ht
      obtain ⟨-, task, hget, hobjective⟩ := h i (mem_range.mp hi)
      refine ⟨task, hget, ?_⟩
      have hlength := task.escapedBytes_le_length_json
      rwa [hobjective, escapedBytes_controlText] at hlength
  rw [length_map, length_range] at hsum
  exact hsum.trans (sum_tasks_le_length_recordedWire_json state changes)

/-- A line that is too long fails the replay, whatever it says. -/
theorem replayLines_of_oversized {line : Bytes} (h : maxJournalRecordBytes < line.length)
    (json : LineCodec JournalMutationWire) (offset : Nat) (checkpoint : BrokerCheckpoint)
    (rest : List Bytes) :
    replayLines json offset checkpoint (line :: rest) = .error (.invalidFormat
      ("journal record exceeds " ++ toString maxJournalRecordBytes ++ " bytes")) := by
  rw [replayLines, requireBounded, Except.require, if_neg (not_le.mpr h)]
  rfl

namespace BrokerStateMachine

/-- **The departure of a member writes a record that no reader accepts.** -/
theorem departure_writes_oversized_record :
    ∃ applied record,
      (apply (run initial (crowd 1366)) (.leaveConsumerGroup departure)).2 = .ok applied ∧
      journalRecord (apply (run initial (crowd 1366)) (.leaveConsumerGroup departure)).1.state
        applied.changes = .ok record ∧
      maxJournalRecordBytes < record.length ∧
      ∀ json offset checkpoint rest, replayLines json offset checkpoint (record :: rest) =
        .error (.invalidFormat "journal record exceeds 134217728 bytes") := by
  have hcrowded := crowded_run (n := 1366) (by decide)
  -- From here on only what `Crowded` says of the machine is used.
  generalize run initial (crowd 1366) = m at hcrowded ⊢
  obtain ⟨applied, hok, hwritten⟩ := hcrowded.departs (by decide)
  have hrecord := journalRecord_eq_ok hcrowded.indexed hok
  have hexact := exactChanges_of_ok hcrowded.indexed hok
  have hlength := length_record_departure (by decide) hexact.nodup.2.1 hwritten
  have hlong : maxJournalRecordBytes < ((recordedWire
      (apply m (.leaveConsumerGroup departure)).1.state applied.changes).json ++
        [newline]).length := by
    rw [length_append]
    exact Nat.lt_of_lt_of_le (by decide) (hlength.trans (Nat.le_add_right _ _))
  refine ⟨applied, _, hok, hrecord, hlong, fun json offset checkpoint rest => ?_⟩
  rw [replayLines_of_oversized hlong]
  decide +kernel

end BrokerStateMachine

end AgentBroker
