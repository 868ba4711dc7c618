import AgentBroker.Domain.Removal
import Mathlib.Tactic.Tauto

/-!
# Sweeps

What several reaps and prunes do together.  A sweep removes a list of members and a list of
completed tasks, and takes back the leases of the members it removes.  Sweeps compose, and
what is left to remove after a sweep of the first is the rest of the list.

## Main results

* `Swept.trans` — two sweeps are one.
* `reapCandidates_of_swept`, `prunable_of_swept` — what a sweep leaves to be removed.
* `MembersReaped.swept`, `TasksDeleted.swept` — a reap and a prune are sweeps.
-/

open Registry List Option

namespace List

/-- What is left of a sorted list once its first entries are gone. -/
theorem eq_drop_of_mem_iff {α : Type*} [PartialOrder α] {l rest : List α} {n : Nat}
    (h : l.Pairwise (· < ·)) (hrest : rest.Pairwise (· < ·))
    (hmem : ∀ a, a ∈ rest ↔ a ∈ l ∧ a ∉ l.take n) : rest = l.drop n := by
  refine Pairwise.eq_of_mem_iff hrest (h.sublist (drop_sublist n l)) fun a => ?_
  have hnodup : (l.take n ++ l.drop n).Nodup := by
    rw [take_append_drop]
    exact h.imp fun hlt => ne_of_lt hlt
  have hsplit : a ∈ l ↔ a ∈ l.take n ∨ a ∈ l.drop n := by
    rw [← mem_append, take_append_drop]
  have hdisjoint : a ∈ l.take n → a ∉ l.drop n := fun ht hd =>
    disjoint_of_nodup_append hnodup ht hd
  rw [hmem, hsplit]
  tauto

end List

namespace AgentBroker

/-- A member of a group. -/
def BrokerState.member (state : BrokerState) (groupId : ConsumerGroupId) (memberId : ConsumerId) :
    Option Consumer :=
  (state.groups.get groupId).bind fun group => group.consumers.get memberId

/-- The lease is held by one of the members. -/
def LeasedTask.HeldBy (lease : LeasedTask) (members : List ReapCandidate) : Prop :=
  ∃ e ∈ members, e.groupId = lease.groupId ∧ e.memberId = lease.ownerMemberId

namespace BrokerStateMachine

/-- Exactly the listed members and completed tasks are gone, and the leases of these members
are taken back. -/
structure Swept (before after : BrokerState) (members : List ReapCandidate)
    (tasks : List TimedTask) : Prop where
  term : after.term = before.term
  namespaces : after.namespaces = before.namespaces
  groups : ∀ g, (after.groups.get g).map ConsumerGroup.namespaceId =
    (before.groups.get g).map ConsumerGroup.namespaceId
  listed : ∀ e ∈ members, ∃ member, before.member e.groupId e.memberId = some member ∧
    member.lastHeartbeatAtMs = e.lastHeartbeatAtMs
  removed : ∀ e ∈ members, after.member e.groupId e.memberId = none
  otherMembers : ∀ g id, (¬∃ e ∈ members, e.groupId = g ∧ e.memberId = id) →
    after.member g id = before.member g id
  completed : ∀ e ∈ tasks, before.tasks.attr Task.completedAt e.taskId = some e.atMs
  pruned : ∀ e ∈ tasks, after.tasks.get e.taskId = none
  requeued : ∀ t task lease, before.tasks.get t = some task → task.state = .leased lease →
    lease.HeldBy members → ∃ revision, revision.get = task.revision.get + 1 ∧
      after.tasks.get t = some (task.toQueued lease revision)
  otherTasks : ∀ t, t ∉ tasks.map TimedTask.taskId →
    (∀ task lease, before.tasks.get t = some task → task.state = .leased lease →
      ¬lease.HeldBy members) →
    after.tasks.get t = before.tasks.get t

theorem Swept.refl (state : BrokerState) : Swept state state [] [] where
  term := rfl
  namespaces := rfl
  groups _ := rfl
  listed _ he := nomatch he
  removed _ he := nomatch he
  otherMembers _ _ _ := rfl
  completed _ he := nomatch he
  pruned _ he := nomatch he
  requeued _ _ _ _ _ h := by
    obtain ⟨_, he, -⟩ := h
    cases he
  otherTasks _ _ _ := rfl

namespace Swept

variable {a b c : BrokerState} {members members' : List ReapCandidate}
  {tasks tasks' : List TimedTask} {cutoff : TimestampMs}

/-- A member that is still there was there before, and is not listed. -/
theorem member_of_some (h : Swept a b members tasks) {g : ConsumerGroupId} {id : ConsumerId}
    {member : Consumer} (hmember : b.member g id = some member) :
    a.member g id = some member ∧ ¬∃ e ∈ members, e.groupId = g ∧ e.memberId = id := by
  have hunlisted : ¬∃ e ∈ members, e.groupId = g ∧ e.memberId = id := by
    rintro ⟨e, he, rfl, rfl⟩
    cases (h.removed e he).symm.trans hmember
  exact ⟨(h.otherMembers g id hunlisted).symm.trans hmember, hunlisted⟩

variable {t : TaskId}

/-- A task that is leased is not among the completed ones. -/
theorem not_pruned_of_leased (h : Swept a b members tasks) {task : Task} {lease : LeasedTask}
    (hget : a.tasks.get t = some task) (hstate : task.state = .leased lease) :
    t ∉ tasks.map TimedTask.taskId := by
  intro ht
  obtain ⟨e, he, rfl⟩ := List.mem_map.mp ht
  have hcompleted := h.completed e he
  rw [attr_of_get hget, Task.completedAt_of_leased hstate] at hcompleted
  cases hcompleted

/-- A task that is completed afterwards was completed before, and is not listed. -/
theorem completed_of_some (h : Swept a b members tasks) {atMs : TimestampMs}
    (hcompleted : b.tasks.attr Task.completedAt t = some atMs) :
    a.tasks.attr Task.completedAt t = some atMs ∧ t ∉ tasks.map TimedTask.taskId := by
  obtain ⟨task, hget, hat⟩ := attr_eq_some_iff.mp hcompleted
  have hunlisted : t ∉ tasks.map TimedTask.taskId := by
    intro ht
    obtain ⟨e, he, rfl⟩ := List.mem_map.mp ht
    cases (h.pruned e he).symm.trans hget
  have hsame : b.tasks.get t = a.tasks.get t := by
    refine h.otherTasks t hunlisted fun old lease hold hstate hheld => ?_
    -- Otherwise it would have been queued again.
    obtain ⟨revision, -, hqueued⟩ := h.requeued t old lease hold hstate hheld
    cases hqueued.symm.trans hget
    cases hat
  rw [hsame] at hget
  exact ⟨attr_eq_some_iff.mpr ⟨task, hget, hat⟩, hunlisted⟩

/-- A completed task that is not listed stays as it is. -/
theorem completed_kept (h : Swept a b members tasks) {atMs : TimestampMs}
    (hcompleted : a.tasks.attr Task.completedAt t = some atMs)
    (hunlisted : t ∉ tasks.map TimedTask.taskId) :
    b.tasks.attr Task.completedAt t = some atMs := by
  obtain ⟨task, hget, hat⟩ := attr_eq_some_iff.mp hcompleted
  have hsame : b.tasks.get t = a.tasks.get t := by
    refine h.otherTasks t hunlisted fun old lease hold hstate _ => ?_
    cases hget.symm.trans hold
    rw [Task.completedAt_of_leased hstate] at hat
    cases hat
  exact attr_eq_some_iff.mpr ⟨task, hsame.trans hget, hat⟩

/-- **Two sweeps are one.** -/
theorem trans (h : Swept a b members tasks) (h' : Swept b c members' tasks') :
    Swept a c (members ++ members') (tasks ++ tasks') where
  term := h'.term.trans h.term
  namespaces := h'.namespaces.trans h.namespaces
  groups g := (h'.groups g).trans (h.groups g)
  listed e he := by
    rcases mem_append.mp he with he | he
    · exact h.listed e he
    · obtain ⟨member, hmember, hheartbeat⟩ := h'.listed e he
      exact ⟨member, (h.member_of_some hmember).1, hheartbeat⟩
  removed e he := by
    by_cases hlater : ∃ e' ∈ members', e'.groupId = e.groupId ∧ e'.memberId = e.memberId
    · obtain ⟨e', he', hgroup, hmember⟩ := hlater
      rw [← hgroup, ← hmember]
      exact h'.removed e' he'
    · rcases mem_append.mp he with he | he
      · rw [h'.otherMembers _ _ hlater]
        exact h.removed e he
      · exact absurd ⟨e, he, rfl, rfl⟩ hlater
  otherMembers g id hunlisted := by
    rw [h'.otherMembers g id fun ⟨e, he, hids⟩ => hunlisted ⟨e, mem_append_right _ he, hids⟩]
    exact h.otherMembers g id fun ⟨e, he, hids⟩ => hunlisted ⟨e, mem_append_left _ he, hids⟩
  completed e he := by
    rcases mem_append.mp he with he | he
    · exact h.completed e he
    · exact (h.completed_of_some (h'.completed e he)).1
  pruned e he := by
    by_cases hlater : e.taskId ∈ tasks'.map TimedTask.taskId
    · obtain ⟨e', he', hid⟩ := List.mem_map.mp hlater
      rw [← hid]
      exact h'.pruned e' he'
    · rcases mem_append.mp he with he | he
      · have hgone := h.pruned e he
        rw [h'.otherTasks _ hlater fun task lease hget _ _ => ?_]
        · exact hgone
        · cases hgone.symm.trans hget
      · exact absurd (List.mem_map_of_mem he) hlater
  requeued t task lease hget hstate hheld := by
    by_cases hfirst : lease.HeldBy members
    · obtain ⟨revision, hrevision, hqueued⟩ := h.requeued t task lease hget hstate hfirst
      refine ⟨revision, hrevision, ?_⟩
      -- A queued task is neither completed nor leased.
      rw [h'.otherTasks t (fun ht => ?_) fun old lease' hold hleased _ => ?_]
      · exact hqueued
      · obtain ⟨e, he, rfl⟩ := List.mem_map.mp ht
        have hcompleted := h'.completed e he
        rw [attr_of_get hqueued] at hcompleted
        cases hcompleted
      · cases hqueued.symm.trans hold
        cases hleased
    · have hsame : b.tasks.get t = a.tasks.get t := by
        refine h.otherTasks t (h.not_pruned_of_leased hget hstate) fun old lease' hold hleased => ?_
        cases hget.symm.trans hold
        cases hstate.symm.trans hleased
        exact hfirst
      refine h'.requeued t task lease (hsame.trans hget) hstate ?_
      obtain ⟨e, he, hids⟩ := hheld
      rcases mem_append.mp he with he | he
      · exact absurd ⟨e, he, hids⟩ hfirst
      · exact ⟨e, he, hids⟩
  otherTasks t ht hheld := by
    rw [map_append, mem_append, not_or] at ht
    have hsame : b.tasks.get t = a.tasks.get t := by
      refine h.otherTasks t ht.1 fun task lease hget hstate ⟨e, he, hids⟩ => ?_
      exact hheld task lease hget hstate ⟨e, mem_append_left _ he, hids⟩
    rw [← hsame]
    refine h'.otherTasks t ht.2 fun task lease hget hstate ⟨e, he, hids⟩ => ?_
    exact hheld task lease (hsame.symm.trans hget) hstate ⟨e, mem_append_right _ he, hids⟩

end Swept

/-! ## What is left -/

variable {cutoff : TimestampMs} {a b : BrokerState}

theorem mem_reapCandidates_iff_member {state : BrokerState} {e : ReapCandidate} :
    e ∈ reapCandidates state cutoff ↔
      ∃ member, state.member e.groupId e.memberId = some member ∧
        member.lastHeartbeatAtMs = e.lastHeartbeatAtMs ∧ e.lastHeartbeatAtMs ≤ cutoff := by
  rw [mem_reapCandidates]
  constructor
  · rintro ⟨group, member, hgroup, hmember, hheartbeat⟩
    exact ⟨member, bind_eq_some_iff.mpr ⟨group, hgroup, hmember⟩, hheartbeat⟩
  · rintro ⟨member, hmember, hheartbeat⟩
    obtain ⟨group, hgroup, hmember⟩ := bind_eq_some_iff.mp hmember
    exact ⟨group, member, hgroup, hmember, hheartbeat⟩

/-- **What a sweep of the stalest members leaves.** -/
theorem reapCandidates_of_swept {n : Nat} {tasks : List TimedTask}
    (h : Swept a b ((reapCandidates a cutoff).take n) tasks) :
    reapCandidates b cutoff = (reapCandidates a cutoff).drop n := by
  refine eq_drop_of_mem_iff (reapCandidates_sorted a cutoff) (reapCandidates_sorted b cutoff)
    fun e => ?_
  rw [mem_reapCandidates_iff_member, mem_reapCandidates_iff_member]
  constructor
  · rintro ⟨member, hmember, hheartbeat, hstale⟩
    obtain ⟨hbefore, hunlisted⟩ := h.member_of_some hmember
    exact ⟨⟨member, hbefore, hheartbeat, hstale⟩, fun he => hunlisted ⟨e, he, rfl, rfl⟩⟩
  · rintro ⟨⟨member, hmember, hheartbeat, hstale⟩, hnot⟩
    refine ⟨member, ?_, hheartbeat, hstale⟩
    rw [h.otherMembers, hmember]
    -- A listed entry for the same member has the same heartbeat.
    rintro ⟨e', he', hgroup, hid⟩
    obtain ⟨member', hmember', hheartbeat'⟩ := h.listed e' he'
    rw [hgroup, hid, hmember] at hmember'
    cases hmember'
    obtain ⟨_, _, _⟩ := e
    obtain ⟨_, _, _⟩ := e'
    dsimp only at hgroup hid hheartbeat hheartbeat'
    subst hgroup hid hheartbeat hheartbeat'
    exact hnot he'

theorem mem_prunable {state : BrokerState} {e : TimedTask} :
    e ∈ prunable state cutoff ↔
      state.tasks.attr Task.completedAt e.taskId = some e.atMs ∧ e.atMs ≤ cutoff := by
  rw [prunable, mem_insertionSort, mem_filter, mem_completions, decide_eq_true_eq]

theorem prunable_sorted (state : BrokerState) (cutoff : TimestampMs) :
    (prunable state cutoff).Pairwise (· < ·) := by
  have hle : (prunable state cutoff).Pairwise (· ≤ ·) := pairwise_insertionSort _ _
  have hnodup : (prunable state cutoff).Nodup := (prunable_ids_nodup state cutoff).of_map
  exact (hle.and hnodup).imp fun h => lt_of_le_of_ne h.1 h.2

/-- **What a sweep of the oldest completions leaves.** -/
theorem prunable_of_swept {n : Nat} {members : List ReapCandidate}
    (h : Swept a b members ((prunable a cutoff).take n)) :
    prunable b cutoff = (prunable a cutoff).drop n := by
  refine eq_drop_of_mem_iff (prunable_sorted a cutoff) (prunable_sorted b cutoff) fun e => ?_
  rw [mem_prunable, mem_prunable]
  constructor
  · rintro ⟨hcompleted, hcutoff⟩
    obtain ⟨hbefore, hunlisted⟩ := h.completed_of_some hcompleted
    exact ⟨⟨hbefore, hcutoff⟩, fun he => hunlisted (List.mem_map_of_mem he)⟩
  · rintro ⟨⟨hcompleted, hcutoff⟩, hnot⟩
    refine ⟨h.completed_kept hcompleted fun ht => ?_, hcutoff⟩
    obtain ⟨e', he', hid⟩ := List.mem_map.mp ht
    have hcompleted' := h.completed e' he'
    rw [hid, hcompleted] at hcompleted'
    obtain ⟨_, _⟩ := e
    obtain ⟨_, _⟩ := e'
    dsimp only at hid hcompleted'
    cases hcompleted'
    subst hid
    exact hnot he'

/-- A reap leaves the completed tasks alone. -/
theorem prunable_of_reaped {members : List ReapCandidate} (h : Swept a b members [])
    (cutoff : TimestampMs) : prunable b cutoff = prunable a cutoff := by
  have htake : Swept a b members ((prunable a cutoff).take 0) := h
  rw [prunable_of_swept htake, drop_zero]

/-! ## A reap and a prune are sweeps -/

theorem MembersReaped.swept {m m' : BrokerStateMachine} {gone : List ReapCandidate}
    (h : MembersReaped m m' gone) : Swept m.state m'.state gone [] where
  term := h.term
  namespaces := h.namespaces
  groups g := by
    by_cases hg : ∃ e ∈ gone, e.groupId = g
    · obtain ⟨group, group', hget, hget', hloses⟩ := h.affected g hg
      rw [hget, hget', map_some, map_some, hloses.namespaceId]
    · rw [h.otherGroups g hg]
  listed e he := by
    obtain ⟨group, member, hgroup, hmember, hheartbeat⟩ := h.members e he
    exact ⟨member, bind_eq_some_iff.mpr ⟨group, hgroup, hmember⟩, hheartbeat⟩
  removed e he := by
    obtain ⟨group, group', -, hget', hloses⟩ := h.affected e.groupId ⟨e, he, rfl⟩
    rw [BrokerState.member, hget', bind_some]
    exact hloses.removed ⟨e, he, rfl, rfl⟩
  otherMembers g id hunlisted := by
    by_cases hg : ∃ e ∈ gone, e.groupId = g
    · obtain ⟨group, group', hget, hget', hloses⟩ := h.affected g hg
      rw [BrokerState.member, BrokerState.member, hget, hget', bind_some, bind_some]
      exact hloses.others hunlisted
    · rw [BrokerState.member, BrokerState.member, h.otherGroups g hg]
  completed _ he := nomatch he
  pruned _ he := nomatch he
  requeued t task lease hget hstate hheld := by
    obtain ⟨revision, hrevision, hqueued, -⟩ := h.leases t task lease hget hstate hheld
    exact ⟨revision, hrevision, hqueued⟩
  otherTasks t _ hheld :=
    h.otherTasks t fun ⟨task, lease, hget, hstate, hgone⟩ => hheld task lease hget hstate hgone

theorem TasksDeleted.swept {before after : BrokerState} {gone : List TimedTask}
    (h : TasksDeleted before after gone) : Swept before after [] gone where
  term := h.term
  namespaces := h.namespaces
  groups g := by rw [h.groups]
  listed _ he := nomatch he
  removed _ he := nomatch he
  otherMembers g id _ := by rw [BrokerState.member, BrokerState.member, h.groups]
  completed e he := (h.deleted e he).1
  pruned e he := (h.deleted e he).2
  requeued _ _ _ _ _ hheld := by
    obtain ⟨_, he, -⟩ := hheld
    cases he
  otherTasks t ht _ := h.others t ht

end BrokerStateMachine

end AgentBroker
