import Mathlib.Algebra.BigOperators.Group.List.Lemmas
import Mathlib.Data.List.Dedup
import AgentBroker.Domain.ChangeSets

/-!
# What a reap and a prune remove

Both bulk commands take the first of a list: a reap the stalest members of all groups,
a prune the oldest completions.  The lists are read off the state here, without the
heaps, the counters and the loops that compute them, and the commands are shown to
remove exactly their first entries and to answer with the true numbers.

## Main results

* `prunable`, `completed_entries_eq` — the completed tasks in the order in which they
  are pruned; the completed heap holds them in this order.
* `reap_removes_stalest` — the members a reap removes, the groups and the leases it
  changes, and its answer.
* `prune_removes_oldest` — the tasks a prune deletes, and its answer.
-/

namespace AgentBroker

open EStateM OrdMap List Option Counter

namespace ConsumerGroup

/-- The group lost the listed members in one step of its generation and its revision. -/
structure LosesOnce (group group' : ConsumerGroup) (gone : ConsumerId → Prop) : Prop where
  id : group'.id = group.id
  namespaceId : group'.namespaceId = group.namespaceId
  generation : group'.generation.get = group.generation.get + 1
  revision : group'.revision.get = group.revision.get + 1
  removed : ∀ {id}, gone id → group'.consumers.get id = none
  others : ∀ {id}, ¬gone id → group'.consumers.get id = group.consumers.get id

theorem losesOnce_of_reap {group group' : ConsumerGroup} {staleBeforeMs : TimestampMs}
    {maxMembers : Nat} {removed : List Consumer}
    (h : group.reapStaleMembers staleBeforeMs maxMembers = .ok (removed, group'))
    (hne : removed ≠ []) : group.LosesOnce group' (· ∈ removed.map Consumer.id) := by
  obtain ⟨-, ⟨-, hnone, -⟩ | ⟨-, generation, revision, hgeneration, hrevision, rfl, rfl⟩⟩ :=
    reapStaleMembers_eq_ok_iff.mp h
  · exact absurd hnone hne
  · rw [group.removed_staleIds staleBeforeMs maxMembers]
    refine ⟨rfl, rfl, next_get hgeneration, next_get hrevision,
      fun hgone => ?_, fun hkept => ?_⟩
    · rw [get_removeMembers, if_pos hgone]
    · rw [get_removeMembers, if_neg hkept]

end ConsumerGroup

namespace BrokerStateMachine

open EStateM (wp)

variable {m m' : BrokerStateMachine}

/-! ## Pruning -/

/-- The completed tasks with their completion times. -/
def completions (state : BrokerState) : List TimedTask :=
  state.tasks.values.filterMap fun task => task.completedAt.map fun atMs => ⟨atMs, task.id⟩

/-- The completed tasks up to a cutoff, oldest first. -/
def prunable (state : BrokerState) (completedBeforeMs : TimestampMs) : List TimedTask :=
  ((completions state).filter (·.atMs ≤ completedBeforeMs)).insertionSort (· ≤ ·)

theorem mem_completions {state : BrokerState} {e : TimedTask} :
    e ∈ completions state ↔ state.tasks.attr Task.completedAt e.taskId = some e.atMs := by
  rw [completions, mem_filterMap, Registry.attr_eq_some_iff]
  constructor
  · rintro ⟨task, htask, he⟩
    obtain ⟨atMs, hat, rfl⟩ := map_eq_some_iff.mp he
    exact ⟨task, Registry.mem_values.mp htask, hat⟩
  · rintro ⟨task, hget, hat⟩
    have hid : task.id = e.taskId := Registry.key_of_get hget
    refine ⟨task, Registry.mem_values.mpr (by rw [hid, hget]), ?_⟩
    rw [hat, map_some, hid]

theorem completions_ids_nodup (state : BrokerState) :
    ((completions state).map TimedTask.taskId).Nodup := by
  have hids : (state.tasks.values.map Task.id).Nodup := state.tasks.keys_values_nodup
  refine pairwise_map.mpr (pairwise_filterMap.mpr ?_)
  refine (pairwise_map.mp hids).imp fun hne e he e' he' => ?_
  obtain ⟨_, -, rfl⟩ := map_eq_some_iff.mp he
  obtain ⟨_, -, rfl⟩ := map_eq_some_iff.mp he'
  exact hne

/-- In a list that is sorted by time the entries up to the cutoff come first. -/
theorem takeWhile_eq_filter {l : List TimedTask} (hsorted : l.Pairwise (· ≤ ·))
    (cutoff : TimestampMs) : l.takeWhile (·.atMs ≤ cutoff) = l.filter (·.atMs ≤ cutoff) := by
  induction l with
  | nil => rfl
  | cons e l ih =>
    by_cases he : e.atMs ≤ cutoff
    · rw [takeWhile_cons, filter_cons, if_pos (decide_eq_true he), if_pos (decide_eq_true he),
        ih hsorted.of_cons]
    · have hnone : (e :: l).filter (·.atMs ≤ cutoff) = [] := by
        refine filter_eq_nil_iff.mpr fun e' he' hle => he ?_
        rcases mem_cons.mp he' with rfl | hmem
        · exact of_decide_eq_true hle
        · exact (TimedTask.atMs_le (rel_of_pairwise_cons hsorted hmem)).trans
            (of_decide_eq_true hle)
      rw [hnone, takeWhile_cons, if_neg (mt of_decide_eq_true he)]

/-- The completed heap holds the completed tasks, oldest first. -/
theorem completed_entries_eq (h : Indexed m) (cutoff : TimestampMs) :
    m.completedTasks.entries.takeWhile (·.atMs ≤ cutoff) = prunable m.state cutoff := by
  have hnodup : (completions m.state).Nodup := (completions_ids_nodup m.state).of_map
  have hperm : m.completedTasks.entries.Perm (completions m.state) := by
    refine (perm_ext_iff_of_nodup h.completed.nodup hnodup).mpr fun e => ?_
    rw [mem_completions]
    exact h.completed.mem_iff e
  have hfiltered := (hperm.filter (·.atMs ≤ cutoff)).trans
    (perm_insertionSort (· ≤ ·) _).symm
  rw [takeWhile_eq_filter m.completedTasks.sorted]
  exact hfiltered.eq_of_pairwise' (m.completedTasks.sorted.filter _)
    (pairwise_insertionSort _ _)

theorem prunable_ids_nodup (state : BrokerState) (cutoff : TimestampMs) :
    ((prunable state cutoff).map TimedTask.taskId).Nodup := by
  have hperm := (perm_insertionSort (· ≤ ·)
    ((completions state).filter (·.atMs ≤ cutoff))).map TimedTask.taskId
  refine hperm.nodup_iff.mpr ((completions_ids_nodup state).sublist ?_)
  exact filter_sublist.map _

/-- Exactly the tasks of the entries are gone, and the revision tells whether there
were any. -/
structure TasksDeleted (before after : BrokerState) (gone : List TimedTask) : Prop where
  term : after.term = before.term
  revision : after.revision.get = before.revision.get + if gone = [] then 0 else 1
  namespaces : after.namespaces = before.namespaces
  groups : after.groups = before.groups
  deleted : ∀ e ∈ gone, before.tasks.attr Task.completedAt e.taskId = some e.atMs ∧
    after.tasks.get e.taskId = none
  others : ∀ t, t ∉ gone.map TimedTask.taskId → after.tasks.get t = before.tasks.get t

/-- The first `max_tasks` completions up to the cutoff of a prune. -/
def oldestCompletions (state : BrokerState) (c : PruneCompletedTasksCommand) :
    List TimedTask :=
  (prunable state c.completedBeforeMs).take c.maxTasks.get

theorem oldest_eq (h : Indexed m) (c : PruneCompletedTasksCommand) :
    m.oldest c = oldestCompletions m.state c := by
  rw [oldest, completed_entries_eq h, oldestCompletions]

theorem pruneCompletedTasks_deletes (h : Indexed m) (c : PruneCompletedTasksCommand) :
    wp (dispatch (.pruneCompletedTasks c)) m
      (fun r m' => TasksDeleted m.state m'.state (oldestCompletions m.state c) ∧
        r = .completedTasksPruned ⟨m'.metadata, (oldestCompletions m.state c).length⟩)
      (fun _ _ => True) := by
  refine wp_mono (dispatch_wp h _) (fun r m' hstep => ?_) fun _ _ _ => trivial
  have hcompleted : ∀ e ∈ m.oldest c,
      m.state.tasks.attr Task.completedAt e.taskId = some e.atMs := by
    intro e he
    rw [oldest_eq h] at he
    have hmem := (perm_insertionSort (· ≤ ·) _).mem_iff.mp (mem_of_mem_take he)
    exact mem_completions.mp (mem_of_mem_filter hmem)
  have hselected := selected_eq_oldest (c := c) h
  rw [← oldest_eq h]
  cases hstep with
  | unchanged _ settled =>
    cases settled with
    | pruneCompletedTasks _ _ none =>
      rw [none, map_nil] at hselected
      rw [← hselected]
      exact ⟨⟨rfl, rfl, rfl, rfl, nofun, fun _ _ => rfl⟩, rfl⟩
  | @pruneCompletedTasks _ heap revision _ nonempty next =>
    have hget : ∀ t, (m.pruned (m.oldest c) heap revision).state.tasks.get t =
        if t ∈ (m.oldest c).map TimedTask.taskId then none else m.state.tasks.get t :=
      get_pruneAll _
    refine ⟨⟨?_, ?_, ?_, pruneAll_groups _, fun e he => ⟨hcompleted e he, ?_⟩,
      fun t ht => ?_⟩, rfl⟩
    · exact pruneAll_untouched (·.state.term) (fun _ _ => rfl) _
    · rw [if_neg nonempty]
      exact next_get next
    · exact pruneAll_untouched (·.state.namespaces) (fun _ _ => rfl) _
    · rw [hget, if_pos (List.mem_map_of_mem he)]
    · rw [hget, if_neg ht]

/-- **A prune removes exactly the oldest completions.**  The deleted tasks are the first
`max_tasks` of all completed tasks up to the cutoff, by completion time and id; nothing
else changes but the revision, by one exactly if a task was deleted; and the answer is
the number of deleted tasks. -/
theorem prune_removes_oldest (commands : List BrokerCommand) (c : PruneCompletedTasksCommand)
    (applied : AppliedMutation)
    (hok : (apply (run initial commands) (.pruneCompletedTasks c)).2 = .ok applied) :
    TasksDeleted (run initial commands).state
        (apply (run initial commands) (.pruneCompletedTasks c)).1.state
        (oldestCompletions (run initial commands).state c) ∧
      ((oldestCompletions (run initial commands).state c).map TimedTask.taskId).Nodup ∧
      applied.result = .completedTasksPruned
        ⟨(apply (run initial commands) (.pruneCompletedTasks c)).1.metadata,
          (oldestCompletions (run initial commands).state c).length⟩ := by
  have h := run_indexed commands
  obtain ⟨hdeleted, hresult⟩ := apply_ok_of_wp (pruneCompletedTasks_deletes h.clearChanges c) hok
  have hnodup := prunable_ids_nodup (run initial commands).state c.completedBeforeMs
  exact ⟨hdeleted, hnodup.sublist ((take_sublist _ _).map _), hresult⟩

/-- A task is leased and completed. -/
def finishedTask : List BrokerCommand :=
  briefLease ++ [.completeTask ⟨taskT, groupG,
    workerW, .initial, 1, 1, leaseL,
    someResult, 0⟩]

/-- The completed task is pruned. -/
theorem finished_task_is_pruned :
    ∃ applied, (apply (run initial finishedTask)
          (.pruneCompletedTasks ⟨0, 1⟩)).2 = .ok applied ∧
      oldestCompletions (run initial finishedTask).state ⟨0, 1⟩ =
        [⟨0, taskT⟩] ∧
      TasksDeleted (run initial finishedTask).state
        (apply (run initial finishedTask)
          (.pruneCompletedTasks ⟨0, 1⟩)).1.state
        (oldestCompletions (run initial finishedTask).state
          ⟨0, 1⟩) := by
  have hisOk : (apply (run initial finishedTask)
      (.pruneCompletedTasks ⟨0, 1⟩)).2.isOk = true := by
    decide +kernel
  cases hok : (apply (run initial finishedTask)
      (.pruneCompletedTasks ⟨0, 1⟩)).2 with
  | error error =>
    rw [hok] at hisOk
    cases hisOk
  | ok applied =>
    exact ⟨applied, rfl, by decide +kernel, (prune_removes_oldest finishedTask _ applied hok).1⟩

/-! ## Reaping -/

/-- The first `max_members` stale members of a reap. -/
def stalestMembers (state : BrokerState) (c : ReapStaleMembersCommand) : List ReapCandidate :=
  (reapCandidates state c.staleBeforeMs).take c.maxMembers.get

/-- Exactly the listed members are removed, and with them exactly their leases. -/
structure MembersReaped (before after : BrokerStateMachine) (gone : List ReapCandidate) : Prop where
  term : after.state.term = before.state.term
  revision : after.state.revision.get = before.state.revision.get + if gone = [] then 0 else 1
  namespaces : after.state.namespaces = before.state.namespaces
  members : ∀ e ∈ gone, ∃ group member, before.state.groups.get e.groupId = some group ∧
    group.consumers.get e.memberId = some member ∧
    member.lastHeartbeatAtMs = e.lastHeartbeatAtMs
  /-- An affected group loses its members on the list, in one step. -/
  affected : ∀ g, (∃ e ∈ gone, e.groupId = g) → ∃ group group',
    before.state.groups.get g = some group ∧ after.state.groups.get g = some group' ∧
    group.LosesOnce group' fun id => ∃ e ∈ gone, e.groupId = g ∧ e.memberId = id
  otherGroups : ∀ g, (¬∃ e ∈ gone, e.groupId = g) →
    after.state.groups.get g = before.state.groups.get g
  /-- A lease of a removed member is queued again in the namespace of its task. -/
  leases : ∀ t task lease, before.state.tasks.get t = some task → task.state = .leased lease →
    (∃ e ∈ gone, e.groupId = lease.groupId ∧ e.memberId = lease.ownerMemberId) →
    ∃ revision, revision.get = task.revision.get + 1 ∧
      after.state.tasks.get t = some (task.toQueued lease revision) ∧
      ⟨task.createdAtMs, t⟩ ∈ after.readyHeap task.namespaceId
  otherTasks : ∀ t, (¬∃ task lease, before.state.tasks.get t = some task ∧
      task.state = .leased lease ∧
      ∃ e ∈ gone, e.groupId = lease.groupId ∧ e.memberId = lease.ownerMemberId) →
    after.state.tasks.get t = before.state.tasks.get t

theorem stalestMembers_are_members (state : BrokerState) (c : ReapStaleMembersCommand) :
    ∀ e ∈ stalestMembers state c, ∃ group member, state.groups.get e.groupId = some group ∧
      group.consumers.get e.memberId = some member ∧
      member.lastHeartbeatAtMs = e.lastHeartbeatAtMs := by
  intro e he
  obtain ⟨group, member, hget, hmember, hheartbeat, -⟩ :=
    mem_reapCandidates.mp (mem_of_mem_take he)
  exact ⟨group, member, hget, hmember, hheartbeat⟩

/-- No member is listed twice: a member has one heartbeat. -/
theorem stalestMembers_ids_nodup (state : BrokerState) (c : ReapStaleMembersCommand) :
    ((stalestMembers state c).map fun e => (e.groupId, e.memberId)).Nodup := by
  have hnodup : (stalestMembers state c).Nodup :=
    (reapCandidates_nodup state c.staleBeforeMs).sublist (take_sublist _ _)
  refine pairwise_map.mpr (hnodup.imp_of_mem fun {e e'} he he' hne hsame => hne ?_)
  obtain ⟨group, member, hget, hmember, hheartbeat⟩ := stalestMembers_are_members state c e he
  obtain ⟨group', member', hget', hmember', hheartbeat'⟩ :=
    stalestMembers_are_members state c e' he'
  obtain ⟨hgroups, hids⟩ := Prod.mk.inj hsame
  rw [← hgroups, hget] at hget'
  cases hget'
  rw [← hids, hmember] at hmember'
  cases hmember'
  obtain ⟨_, _, _⟩ := e
  obtain ⟨_, _, _⟩ := e'
  simp_all

/-- A group is selected with its candidates. -/
theorem mem_selectedMembers {candidates : List ReapCandidate}
    {entry : ConsumerGroupId × List ConsumerId}
    (hentry : entry ∈ (selectedMembers candidates).entries) {id : ConsumerId} :
    id ∈ entry.2 ↔ ∃ e ∈ candidates, e.groupId = entry.1 ∧ e.memberId = id := by
  have hget := get_eq_some_iff.mpr hentry
  rw [get_selectedMembers] at hget
  split_ifs at hget
  rw [← Option.some.inj hget, List.mem_map]
  constructor
  · rintro ⟨e, he, rfl⟩
    obtain ⟨he, hg⟩ := mem_filter.mp he
    exact ⟨e, he, of_decide_eq_true hg, rfl⟩
  · rintro ⟨e, he, hg, rfl⟩
    exact ⟨e, mem_filter.mpr ⟨he, decide_eq_true hg⟩, rfl⟩

theorem mem_selectedGroups {candidates : List ReapCandidate} {g : ConsumerGroupId} :
    g ∈ (selectedMembers candidates).entries.map Prod.fst ↔ ∃ e ∈ candidates, e.groupId = g := by
  constructor
  · intro hg
    obtain ⟨⟨g, ids⟩, hentry, rfl⟩ := List.mem_map.mp hg
    have hget := get_eq_some_iff.mpr hentry
    rw [get_selectedMembers] at hget
    split_ifs at hget with hnil
    obtain ⟨e, rest, hcons⟩ := exists_cons_of_ne_nil hnil
    have he : e ∈ ofGroup g candidates := hcons ▸ mem_cons_self
    exact ⟨e, mem_of_mem_filter he, of_decide_eq_true (mem_filter.mp he).2⟩
  · rintro ⟨e, he, rfl⟩
    have hmem : e ∈ ofGroup e.groupId candidates := mem_filter.mpr ⟨he, decide_eq_true rfl⟩
    have hget := get_selectedMembers candidates e.groupId
    rw [if_neg (ne_nil_of_mem hmem)] at hget
    exact List.mem_map_of_mem (get_eq_some_iff.mp hget)

/-- The groups are selected once each. -/
theorem selectedGroups_perm (candidates : List ReapCandidate) :
    ((selectedMembers candidates).entries.map Prod.fst).Perm
      (candidates.map ReapCandidate.groupId).dedup := by
  have hkeys : ((selectedMembers candidates).entries.map Prod.fst).Nodup :=
    keys_nodup _
  refine (perm_ext_iff_of_nodup hkeys (nodup_dedup _)).mpr fun g => ?_
  rw [mem_selectedGroups, mem_dedup, List.mem_map]

/-- As many groups are selected as the candidates have. -/
theorem length_selectedGroups (candidates : List ReapCandidate) :
    (selectedMembers candidates).entries.length =
      (candidates.map ReapCandidate.groupId).dedup.length := by
  rw [← (selectedGroups_perm candidates).length_eq, length_map]

/-- The groups list all candidates together. -/
theorem sum_selectedMembers (candidates : List ReapCandidate) :
    ((selectedMembers candidates).entries.map (·.2.length)).sum = candidates.length := by
  have hlength : ∀ entry ∈ (selectedMembers candidates).entries,
      entry.2.length = (candidates.map ReapCandidate.groupId).count entry.1 := by
    rintro ⟨g, ids⟩ hentry
    have hget := get_eq_some_iff.mpr hentry
    rw [get_selectedMembers] at hget
    split_ifs at hget
    cases hget
    rw [length_map, ofGroup, ← countP_eq_length_filter, List.count, countP_map]
    rfl
  calc ((selectedMembers candidates).entries.map (·.2.length)).sum
      = (((selectedMembers candidates).entries.map Prod.fst).map
          (candidates.map ReapCandidate.groupId).count).sum := by
        rw [List.map_map, map_congr_left hlength]
        rfl
    _ = ((candidates.map ReapCandidate.groupId).dedup.map
          (candidates.map ReapCandidate.groupId).count).sum :=
        ((selectedGroups_perm candidates).map _).sum_eq
    _ = candidates.length := by
        rw [sum_map_count_dedup_eq_length, length_map]

/-- The leases the selected members hold, group by group. -/
theorem selected_holds_iff {candidates : List ReapCandidate} {t : TaskId} :
    (∃ entry ∈ (selectedMembers candidates).entries, ∃ id ∈ entry.2, m.Holds entry.1 id t) ↔
      ∃ task lease, m.state.tasks.get t = some task ∧ task.state = .leased lease ∧
        ∃ e ∈ candidates, e.groupId = lease.groupId ∧ e.memberId = lease.ownerMemberId := by
  constructor
  · rintro ⟨entry, hentry, id, hid, lease, task, hlease⟩
    obtain ⟨hget, hstate, hgroup, howner⟩ := memberLease_eq_some_iff.mp hlease
    obtain ⟨e, he, hg, hmember⟩ := (mem_selectedMembers hentry).mp hid
    exact ⟨task, lease, hget, hstate, e, he, hg.trans hgroup.symm, hmember.trans howner.symm⟩
  · rintro ⟨task, lease, hget, hstate, e, he, hg, hmember⟩
    obtain ⟨entry, hentry, hentryGroup⟩ :=
      List.mem_map.mp (mem_selectedGroups.mpr ⟨e, he, rfl⟩)
    refine ⟨entry, hentry, e.memberId,
      (mem_selectedMembers hentry).mpr ⟨e, he, hentryGroup.symm, rfl⟩, lease, task, ?_⟩
    exact memberLease_eq_some_iff.mpr
      ⟨hget, hstate, hg.symm.trans hentryGroup.symm, hmember.symm⟩

theorem reapStaleMembers_reaps (h : Indexed m) (c : ReapStaleMembersCommand) :
    wp (dispatch (.reapStaleMembers c)) m
      (fun r m' => MembersReaped m m' (stalestMembers m.state c) ∧
        r = .staleMembersReaped ⟨m'.metadata, (stalestMembers m.state c).length,
          ((stalestMembers m.state c).map ReapCandidate.groupId).dedup.length⟩)
      (fun _ _ => True) := by
  refine wp_mono (dispatch_wp h _) (fun r m' hstep => ?_) fun _ _ _ => trivial
  have hmembers := stalestMembers_are_members m.state c
  cases hstep with
  | unchanged _ settled =>
    cases settled with
    | reapStaleMembers _ _ none =>
      rw [show stalestMembers m.state c = [] from none]
      exact ⟨⟨rfl, rfl, rfl, nofun, fun g hg => absurd hg (by simp), fun _ _ => rfl,
        fun t task lease _ _ hgone => absurd hgone (by simp), fun _ _ => rfl⟩, rfl⟩
  | @reapStaleMembers _ entries revision s selected nonempty next reaped reapable =>
    replace selected : entries = (selectedMembers (stalestMembers m.state c)).entries := selected
    generalize stalestMembers m.state c = gone at hmembers selected ⊢
    refine ⟨?_, ?_⟩
    · obtain ⟨groups, taskIds, rfl, hgroups, hmem⟩ := reaped.effect
      have hframe : SameFrame (m.withGroups groups)
          ((m.withGroups groups).takeBack Task.namespaceId taskIds) := takeBack_sameFrame taskIds
      have hafter : (((m.withGroups groups).takeBack Task.namespaceId taskIds).groupsRecorded
          (entries.map Prod.fst) revision).state.groups = groups := hframe.groups
      subst selected
      -- The tasks that are taken back are those the removed members hold.
      have hheld := fun t => (hmem t).trans selected_holds_iff
      refine ⟨hframe.term, ?_, hframe.namespaces, hmembers, fun g hg => ?_, fun g hg => ?_,
        fun t task lease hget hstate hgone => ?_, fun t ht => ?_⟩
      · have hgone : gone ≠ [] := by
          rintro rfl
          exact nonempty rfl
        rw [if_neg hgone]
        exact next_get next
      · obtain ⟨entry, hentry, rfl⟩ := List.mem_map.mp (mem_selectedGroups.mpr hg)
        obtain ⟨group, group', removed, hget, hget', hreap, hremoved⟩ := hgroups.reaped hentry
        have hnonempty : removed ≠ [] := by
          obtain ⟨-, -, removed', -, -, hremoved', hne'⟩ := (reapable entry hentry).reaps
          intro hnil
          rw [← hremoved, hnil] at hremoved'
          exact hne' (map_eq_nil_iff.mp hremoved')
        have hloses := ConsumerGroup.losesOnce_of_reap hreap hnonempty
        have hids : (· ∈ removed.map Consumer.id) =
            fun id => ∃ e ∈ gone, e.groupId = entry.1 ∧ e.memberId = id := by
          funext id
          rw [hremoved]
          exact propext (mem_selectedMembers hentry)
        rw [hids] at hloses
        exact ⟨group, group', hget, by rw [hafter, hget'], hloses⟩
      · rw [hafter]
        exact hgroups.kept fun hmem => hg (mem_selectedGroups.mp hmem)
      · have hlisted : t ∈ taskIds := (hheld t).mpr ⟨task, lease, hget, hstate, hgone⟩
        obtain ⟨entry, hentry, id, hid, lease', task', hlease⟩ := (hmem t).mp hlisted
        obtain ⟨taskRevision, htaskNext⟩ :=
          (reapable entry hentry).requeues id hid t lease' task' hlease
        cases hget.symm.trans (memberLease_eq_some_iff.mp hlease).1
        refine ⟨taskRevision, next_get htaskNext, ?_, ?_⟩
        · refine (get_takeBack taskIds t).trans ?_
          rw [if_pos hlisted]
          show (m.state.tasks.get t).map Task.takenBack = _
          rw [hget, map_some, Task.takenBack_of_leased hstate htaskNext]
        · refine mem_readyHeap_takeBack.mpr (Or.inr ⟨t, hlisted, task, hget, ?_, rfl, rfl⟩)
          exact Task.takenBack_ne_of_leased hstate htaskNext
      · have hunlisted : t ∉ taskIds := fun hlisted => ht ((hheld t).mp hlisted)
        exact (get_takeBack taskIds t).trans (if_neg hunlisted)
    · rw [selected, sum_selectedMembers, length_selectedGroups]
      rfl

/-- **A reap removes exactly the stalest members.**  The removed members are the first
`max_members` of all stale members, by heartbeat, group and id; each affected group takes
one step of its generation and its revision; exactly the leases of the removed members
are queued again, in the namespace of their task, with their epoch and one step of the
task's revision; and the answer has the true numbers. -/
theorem reap_removes_stalest (commands : List BrokerCommand) (c : ReapStaleMembersCommand)
    (applied : AppliedMutation)
    (hok : (apply (run initial commands) (.reapStaleMembers c)).2 = .ok applied) :
    MembersReaped (run initial commands)
        (apply (run initial commands) (.reapStaleMembers c)).1
        (stalestMembers (run initial commands).state c) ∧
      ((stalestMembers (run initial commands).state c).map fun e =>
        (e.groupId, e.memberId)).Nodup ∧
      applied.result = .staleMembersReaped
        ⟨(apply (run initial commands) (.reapStaleMembers c)).1.metadata,
          (stalestMembers (run initial commands).state c).length,
          ((stalestMembers (run initial commands).state c).map
            ReapCandidate.groupId).dedup.length⟩ := by
  have h := run_indexed commands
  obtain ⟨hreaped, hresult⟩ := apply_ok_of_wp (reapStaleMembers_reaps h.clearChanges c) hok
  exact ⟨⟨hreaped.term, hreaped.revision, hreaped.namespaces, hreaped.members,
    hreaped.affected, hreaped.otherGroups, hreaped.leases, hreaped.otherTasks⟩,
    stalestMembers_ids_nodup _ c, hresult⟩

/-- The member that holds the lease is reaped, and the task is queued again. -/
theorem holder_is_reaped :
    ∃ applied, (apply (run initial briefLease)
          (.reapStaleMembers ⟨0, 1⟩)).2 = .ok applied ∧
      stalestMembers (run initial briefLease).state ⟨0, 1⟩ =
        [⟨0, groupG, workerW⟩] ∧
      MembersReaped (run initial briefLease)
        (apply (run initial briefLease)
          (.reapStaleMembers ⟨0, 1⟩)).1
        (stalestMembers (run initial briefLease).state ⟨0, 1⟩) := by
  have hisOk : (apply (run initial briefLease)
      (.reapStaleMembers ⟨0, 1⟩)).2.isOk = true := by decide +kernel
  cases hok : (apply (run initial briefLease)
      (.reapStaleMembers ⟨0, 1⟩)).2 with
  | error error =>
    rw [hok] at hisOk
    cases hisOk
  | ok applied =>
    exact ⟨applied, rfl, by decide +kernel, (reap_removes_stalest briefLease _ applied hok).1⟩

end BrokerStateMachine

end AgentBroker
