import AgentBroker.Domain.Transitions

/-!
# Leaving and reaping

A member that leaves or is reaped loses its leases.  Both commands first check
that every revision they are going to advance can advance, so the loops that
follow cannot fail half way.

## Main results

* `requeueMemberLeases_wp` — after a successful preflight the loop takes back
  exactly the leases of the member.
-/

namespace AgentBroker

open EStateM Registry List

namespace BrokerStateMachine

open EStateM (wp)

variable {m : BrokerStateMachine} {groupId : ConsumerGroupId} {memberId : ConsumerId}

/-! ## The leases of a member -/

theorem memberLease_eq_some_iff {taskId : TaskId} {lease : LeasedTask} {task : Task} :
    m.memberLease groupId memberId taskId = some (lease, task) ↔
      m.state.tasks.get taskId = some task ∧ task.state = .leased lease ∧
        lease.groupId = groupId ∧ lease.ownerMemberId = memberId := by
  unfold memberLease
  constructor
  · intro h
    split at h
    case h_1 => cases h
    case h_2 found hget =>
      split at h
      case h_1 payload hstate =>
        split_ifs at h with hother
        cases h
        obtain ⟨hgroup, hmember⟩ := not_or.mp hother
        exact ⟨hget, hstate, not_not.mp hgroup, not_not.mp hmember⟩
      case h_2 => cases h
  · rintro ⟨hget, hstate, rfl, rfl⟩
    rw [hget]
    dsimp only
    rw [hstate]
    simp

/-- The member index lists the leases of a member. -/
theorem Indexed.mem_memberLeases (h : Indexed m) {taskId : TaskId} :
    taskId ∈ m.memberLeases ⟨groupId, memberId⟩ ↔
      ∃ lease task, m.memberLease groupId memberId taskId = some (lease, task) := by
  have hmem : taskId ∈ m.memberLeases ⟨groupId, memberId⟩ ↔ _ :=
    h.member.mem_iff ⟨groupId, memberId⟩ taskId
  rw [hmem, attr_eq_some_iff]
  constructor
  · rintro ⟨task, hget, hkey⟩
    obtain ⟨lease, hlease, hkey⟩ := Option.map_eq_some_iff.mp hkey
    obtain ⟨hgroup, hmember⟩ := MemberKey.mk.inj hkey
    exact ⟨lease, task, memberLease_eq_some_iff.mpr
      ⟨hget, Task.lease_eq_some_iff.mp hlease, hgroup, hmember⟩⟩
  · rintro ⟨lease, task, hlease⟩
    obtain ⟨hget, hstate, rfl, rfl⟩ := memberLease_eq_some_iff.mp hlease
    exact ⟨task, hget, Task.memberKey_of_leased hstate⟩

/-- The revision of every task the member holds can advance. -/
def Requeueable (m : BrokerStateMachine) (groupId : ConsumerGroupId) (memberId : ConsumerId) :
    Prop :=
  ∀ taskId lease task, m.memberLease groupId memberId taskId = some (lease, task) →
    ∃ revision, task.revision.next = .ok revision

theorem preflightMemberLeaseRequeue_eq_ok_iff (h : Indexed m) {u : Unit} :
    m.preflightMemberLeaseRequeue groupId memberId = .ok u ↔ m.Requeueable groupId memberId := by
  unfold preflightMemberLeaseRequeue
  rw [Except.forM_eq_ok_iff]
  constructor
  · intro hall taskId lease task hlease
    have hmem : taskId ∈ m.memberLeases ⟨groupId, memberId⟩ :=
      h.mem_memberLeases.mpr ⟨lease, task, hlease⟩
    have hcheck := hall taskId (OrdSet.mem_toList.mpr hmem)
    rw [hlease] at hcheck
    obtain ⟨revision, hrevision, -⟩ := Except.bind_eq_ok_iff.mp hcheck
    exact ⟨revision, Except.mapError_eq_ok_iff.mp hrevision⟩
  · intro hall taskId _
    cases hlease : m.memberLease groupId memberId taskId with
    | none => rfl
    | some entry =>
      obtain ⟨lease, task⟩ := entry
      obtain ⟨revision, hrevision⟩ := hall taskId lease task hlease
      simp only [hrevision]
      rfl

/-! ## Requeueing the leases of a member -/

theorem requeueMemberLease_wp {taskId : TaskId} {lease : LeasedTask} {task : Task}
    {revision : Revision} (hlease : m.memberLease groupId memberId taskId = some (lease, task))
    (hrevision : task.revision.next = .ok revision) :
    wp (requeueMemberLease groupId memberId taskId) m
      (fun _ m' => m' = m.requeued task.namespaceId task lease revision)
      (fun _ _ => False) := by
  obtain ⟨hget, hstate, hgroup, hmember⟩ := memberLease_eq_some_iff.mp hlease
  refine wp_get_bind ?_
  rw [hlease]
  have hrequeue := Task.requeueForMember_of_owner hstate hgroup hmember
  rw [hrevision] at hrequeue
  refine wp_transition_bind (fun r hr => ?_) fun e he => ?_
  · rw [hrequeue] at hr
    cases hr
    have hid : task.id = taskId := key_of_get hget
    show _ = m.requeued _ _ _ _
    rw [requeued, hid]
    rfl
  · rw [hrequeue] at he
    cases he

/-- The leases of a member are taken back. -/
def dropLeases (groupId : ConsumerGroupId) (m : BrokerStateMachine) (memberId : ConsumerId) :
    BrokerStateMachine :=
  m.takeBack Task.namespaceId (OrdSet.toList (m.memberLeases ⟨groupId, memberId⟩))

theorem mem_dropped (h : Indexed m) {taskId : TaskId} :
    taskId ∈ OrdSet.toList (m.memberLeases ⟨groupId, memberId⟩) ↔
      ∃ lease task, m.memberLease groupId memberId taskId = some (lease, task) := by
  rw [OrdSet.mem_toList, h.mem_memberLeases]

/-- Taking back all leases of a member empties its entry in the member index. -/
theorem memberLeaseTasks_dropLeases (h : Indexed m) (hok : m.Requeueable groupId memberId) :
    (m.dropLeases groupId memberId).memberLeaseTasks =
      m.memberLeaseTasks.erase ⟨groupId, memberId⟩ := by
  have hdrop : Indexed (m.dropLeases groupId memberId) := takeBack_indexed h _
  refine hdrop.member.unique (h.member.eraseGroup fun taskId => ?_)
  have hget : (m.dropLeases groupId memberId).state.tasks.get taskId = _ := get_takeBack _ taskId
  have hkey : m.state.tasks.attr Task.memberKey taskId = some ⟨groupId, memberId⟩ ↔ _ :=
    (h.member.mem_iff ⟨groupId, memberId⟩ taskId).symm.trans h.mem_memberLeases
  split_ifs with howner
  · obtain ⟨lease, task, hlease⟩ := hkey.mp howner
    obtain ⟨revision, hrevision⟩ := hok taskId lease task hlease
    obtain ⟨htask, hstate, -, -⟩ := memberLease_eq_some_iff.mp hlease
    rw [if_pos ((mem_dropped h).mpr ⟨lease, task, hlease⟩), htask, Option.map_some,
      Task.takenBack_of_leased hstate hrevision] at hget
    exact attr_of_get hget
  · rw [if_neg fun hmem => howner (hkey.mpr ((mem_dropped h).mp hmem))] at hget
    rw [Registry.attr, hget, Registry.attr]

/-- The loop cannot fail, and takes back exactly the leases of the member. -/
theorem requeueMemberLeases_wp (h : Indexed m) (hok : m.Requeueable groupId memberId) :
    wp (requeueMemberLeases groupId memberId) m
      (fun _ m' => m' = m.dropLeases groupId memberId) (fun _ _ => False) := by
  refine wp_get_bind (wp_set_bind ?_)
  refine wp_foldlM (I := fun rest _ s =>
    ∃ done, done ++ rest = OrdSet.toList (m.memberLeases ⟨groupId, memberId⟩) ∧
      s = { m.takeBack Task.namespaceId done with
        memberLeaseTasks := m.memberLeaseTasks.erase ⟨groupId, memberId⟩ })
    ⟨[], rfl, rfl⟩ ?_ ?_
  · rintro taskId rest n s ⟨done, hdone, rfl⟩
    -- A task that is still to come has not been touched.
    have hnodup : (done ++ taskId :: rest).Nodup := hdone ▸ OrdSet.toList_nodup _
    have hfresh : taskId ∉ done := fun hmem =>
      (nodup_append.mp hnodup).2.2 taskId hmem taskId mem_cons_self rfl
    obtain ⟨lease, task, hlease⟩ := (mem_dropped h).mp
      (hdone ▸ mem_append_right done mem_cons_self)
    obtain ⟨revision, hrevision⟩ := hok taskId lease task hlease
    obtain ⟨hget, hstate, hgroup, hmember⟩ := memberLease_eq_some_iff.mp hlease
    have hsame : (m.takeBack Task.namespaceId done).state.tasks.get taskId = some task := by
      rw [get_takeBack, if_neg hfresh, hget]
    rw [wp_bind]
    refine wp_mono (requeueMemberLease_wp
      (memberLease_eq_some_iff.mpr ⟨hsame, hstate, hgroup, hmember⟩) hrevision) ?_
      fun _ _ hfalse => hfalse
    rintro did s rfl
    refine ⟨done ++ [taskId], by rw [append_assoc, singleton_append, hdone], ?_⟩
    have hstep : (m.takeBack Task.namespaceId done).takeBackOne Task.namespaceId taskId = _ :=
      takeBackOne_of_leased hsame hstate hrevision
    rw [takeBack_append, takeBack_cons, takeBack_nil, hstep]
    rfl
  · rintro n s ⟨done, hdone, rfl⟩
    rw [append_nil] at hdone
    subst hdone
    rw [← memberLeaseTasks_dropLeases h hok]
    rfl

/-! ## Leaving -/

/-- A member can leave: the group lets it go and its tasks can be queued again. -/
structure CanLeave (m : BrokerStateMachine) (c : LeaveConsumerGroupCommand) : Prop where
  leaves : ∃ group member group', m.state.groups.get c.groupId = some group ∧
    group.leave c.memberId c.expectedGeneration = .ok (member, group')
  requeueable : m.Requeueable c.groupId c.memberId
  next : ∃ revision, m.state.revision.next = .ok revision

end BrokerStateMachine

end AgentBroker
