import AgentBroker.Domain.ChangeSets
import AgentBroker.Domain.LeaseFencing

/-!
# Leases and members

A lease names a member of a group and the generation at which it was granted.  This
module relates the two: members come and go, and with every such change the
generation of their group grows.

`MembersRemoved` is the one place that looks at the loops over the leases of a member.
It says who is gone and that exactly their leases are; everything else goes through it.

## Main results

* `no_orphan_leases` — every lease is held by a current member of its group.
* `lease_not_taken_early` — how a task can stop holding its lease.
* `generation_fencing` — a change of membership fences every lease granted before.
-/

namespace AgentBroker

open Registry Option ConsumerGroup

/-! ## Members and generations of one group -/

namespace ConsumerGroup

variable {group group' : ConsumerGroup}

variable {member : Consumer} {nowMs : TimestampMs} {memberId id : ConsumerId}

theorem member_of_refresh (h : group.refresh member nowMs = .ok group')
    (hid : group.consumers.get id ≠ none) :
    group'.consumers.get id ≠ none := by
  obtain ⟨memberRevision, groupRevision, -, -, rfl⟩ := refresh_eq_ok_iff.mp h
  exact get_put_ne_none hid _

/-- A transition that adds or keeps members keeps each of them. -/
theorem member_of_join {capabilities : Capabilities} {maxMembers : Usize} {outcome : JoinOutcome}
    (h : group.join memberId capabilities nowMs maxMembers = .ok (outcome, group'))
    (hid : group.consumers.get id ≠ none) : group'.consumers.get id ≠ none := by
  rcases join_eq_ok_iff.mp h with ⟨member, hget, -, ⟨-, -, rfl⟩ | ⟨-, -, hrefresh⟩⟩ |
    ⟨-, -, -, -, generation, revision, -, -, rfl⟩
  · exact hid
  · exact member_of_refresh hrefresh hid
  · exact get_put_ne_none hid _

theorem member_of_heartbeat {expected : Generation} {outcome : HeartbeatOutcome}
    (h : group.heartbeat memberId expected nowMs = .ok (outcome, group'))
    (hid : group.consumers.get id ≠ none) : group'.consumers.get id ≠ none := by
  obtain ⟨-, member, hget, ⟨-, -, rfl⟩ | ⟨-, -, hrefresh⟩⟩ := heartbeat_eq_ok_iff.mp h
  · exact hid
  · exact member_of_refresh hrefresh hid

/-- The members after a bulk removal, and that those removed were members. -/
theorem members_of_reap {staleBeforeMs : TimestampMs} {maxMembers : Nat}
    {removed : List Consumer} (id : ConsumerId)
    (h : group.reapStaleMembers staleBeforeMs maxMembers = .ok (removed, group')) :
    (group'.consumers.get id ≠ none ↔
      group.consumers.get id ≠ none ∧ id ∉ removed.map Consumer.id) ∧
    (id ∈ removed.map Consumer.id → group.consumers.get id ≠ none) := by
  obtain ⟨-, ⟨-, rfl, rfl⟩ | ⟨-, generation, revision, -, -, rfl, rfl⟩⟩ :=
    reapStaleMembers_eq_ok_iff.mp h
  · simp
  · rw [group.removed_staleIds staleBeforeMs maxMembers]
    refine ⟨?_, group.staleIds_present staleBeforeMs maxMembers id⟩
    rw [get_removeMembers]
    split_ifs with hid
    · exact ⟨fun hnone => absurd rfl hnone, fun hkept => absurd hid hkept.2⟩
    · exact (and_iff_left hid).symm

end ConsumerGroup

/-- The commands that act under a lease. -/
def BrokerCommand.usesLease : BrokerCommand → Bool
  | .renewTaskLease _ | .completeTask _ => true
  | _ => false

namespace BrokerStateMachine

variable {m m' : BrokerStateMachine} {c : BrokerCommand} {t : TaskId} {task task' : Task}
  {g : ConsumerGroupId} {id : ConsumerId}

/-! ## Members of the machine -/

/-- The consumer is a member of the group. -/
def IsMember (m : BrokerStateMachine) (g : ConsumerGroupId) (id : ConsumerId) : Prop :=
  ∃ group, m.state.groups.get g = some group ∧ group.consumers.get id ≠ none

theorem isMember_iff : m.IsMember g id ↔
    ((m.state.groups.get g).bind fun group => group.consumers.get id).isSome = true := by
  unfold IsMember
  cases m.state.groups.get g with
  | none => simp
  | some => simp [isSome_iff_ne_none]

instance (m : BrokerStateMachine) (g : ConsumerGroupId) (id : ConsumerId) :
    Decidable (m.IsMember g id) := decidable_of_iff _ isMember_iff.symm

theorem IsMember.of_groups (h : m.IsMember g id) (hsame : m'.state.groups = m.state.groups) :
    m'.IsMember g id := by
  obtain ⟨group, hget, hmember⟩ := h
  exact ⟨group, by rw [hsame, hget], hmember⟩

variable {groups : ConsumerGroups} {group' group : ConsumerGroup} {lease : LeasedTask}

/-- The members after a group was replaced. -/
theorem isMember_put (hgroups : m'.state.groups = groups.put group') :
    m'.IsMember g id ↔ if g = group'.id then group'.consumers.get id ≠ none
      else ∃ group, groups.get g = some group ∧ group.consumers.get id ≠ none := by
  unfold IsMember
  rw [hgroups, get_put]
  split_ifs with hg <;> simp

/-- A group is replaced by one that keeps its members. -/
theorem isMember_of_put {k : ConsumerGroupId} (hget : m.state.groups.get k = some group)
    (hid : group'.id = group.id) (hgroups : m'.state.groups = m.state.groups.put group')
    (hkeeps : group.consumers.get id ≠ none → group'.consumers.get id ≠ none)
    (h : m.IsMember g id) : m'.IsMember g id := by
  rw [isMember_put hgroups]
  split_ifs with hg
  · obtain ⟨found, hfound, hmember⟩ := h
    rw [hg, hid, key_of_get hget, hget] at hfound
    cases hfound
    exact hkeeps hmember
  · exact h

/-- The listed members are gone, and with them exactly their leases. -/
structure MembersRemoved (m m' : BrokerStateMachine)
    (gone : ConsumerGroupId → ConsumerId → Prop) : Prop where
  before : ∀ {g id}, gone g id → m.IsMember g id
  after : ∀ {g id}, m'.IsMember g id ↔ m.IsMember g id ∧ ¬gone g id
  noLease : ∀ {t task lease}, m'.state.tasks.get t = some task → task.state = .leased lease →
    ¬gone lease.groupId lease.ownerMemberId
  others : ∀ {t task lease}, m.state.tasks.get t = some task → task.state = .leased lease →
    ¬gone lease.groupId lease.ownerMemberId → m'.state.tasks.get t = some task

theorem MembersRemoved.nobody (m : BrokerStateMachine) :
    MembersRemoved m m fun _ _ => False where
  before h := h.elim
  after := by simp
  noLease _ _ h := h
  others hget _ _ := hget

/-- Taking back all leases of the members that are gone. -/
theorem MembersRemoved.ofTakeBack {s : BrokerStateMachine} {taskIds : List TaskId}
    {gone : ConsumerGroupId → ConsumerId → Prop} (hs : s.state.tasks = m.state.tasks)
    (htasks : m'.state.tasks = (s.takeBack Task.namespaceId taskIds).state.tasks)
    (hmem : ∀ t, t ∈ taskIds ↔ ∃ g id, gone g id ∧ m.Holds g id t)
    (hcan : ∀ g id, gone g id → m.Requeueable g id) (before : ∀ {g id}, gone g id → m.IsMember g id)
    (after : ∀ {g id}, m'.IsMember g id ↔ m.IsMember g id ∧ ¬gone g id) :
    MembersRemoved m m' gone := by
  refine ⟨before, after, fun {t task lease} hget hstate hgone => ?_,
    fun {t task lease} hget hstate hkept => ?_⟩
  · rw [htasks] at hget
    have hbefore : m.state.tasks.get t = some task := by
      rw [← hs]
      exact get_of_takeBack_leased hget hstate
    -- The lease is on the list and its revision can advance, so it was taken back.
    have hlease : m.memberLease lease.groupId lease.ownerMemberId t = some (lease, task) :=
      memberLease_eq_some_iff.mpr ⟨hbefore, hstate, rfl, rfl⟩
    have hlisted : t ∈ taskIds := (hmem t).mpr ⟨_, _, hgone, lease, task, hlease⟩
    obtain ⟨revision, hnext⟩ := hcan _ _ hgone t lease task hlease
    rw [get_takeBack, if_pos hlisted, hs, hbefore, map_some] at hget
    exact Task.takenBack_ne_of_leased hstate hnext (Option.some.inj hget)
  · have hunlisted : t ∉ taskIds := by
      intro hlisted
      obtain ⟨g, id, hgone, lease', task', hlease⟩ := (hmem t).mp hlisted
      obtain ⟨hget', hstate', rfl, rfl⟩ := memberLease_eq_some_iff.mp hlease
      rw [hget] at hget'
      cases hget'
      rw [hstate] at hstate'
      cases hstate'
      exact hkept hgone
    rw [htasks, get_takeBack, if_neg hunlisted, hs, hget]

theorem leave_membersRemoved (h : Indexed m) {member : Consumer} {generation : Generation}
    {revision : Revision} (hget : m.state.groups.get g = some group)
    (hleave : group.leave id generation = .ok (member, group')) (hcan : m.Requeueable g id) :
    MembersRemoved m (((m.groupPut group').dropLeases g id).groupsRecorded [g] revision)
      fun g' id' => g' = g ∧ id' = id := by
  have hmoves : group.Moves 0 group' := leave_moves hleave
  have hid : group'.id = g := by rw [hmoves.advances.id, key_of_get hget]
  have hgroups : (((m.groupPut group').dropLeases g id).groupsRecorded [g]
      revision).state.groups = m.state.groups.put group' := (takeBack_sameFrame _).groups
  obtain ⟨-, hmember, _, _, -, -, rfl⟩ := leave_eq_ok_iff.mp hleave
  have hbefore : m.IsMember g id :=
    ⟨group, hget, by rw [hmember]; exact some_ne_none member⟩
  refine .ofTakeBack (s := m.groupPut _) rfl rfl (fun t => ?_) ?_ ?_ fun {g' id'} => ?_
  · refine (mem_dropped h).trans ⟨fun hholds => ⟨g, id, ⟨rfl, rfl⟩, hholds⟩, ?_⟩
    rintro ⟨_, _, ⟨rfl, rfl⟩, hholds⟩
    exact hholds
  · rintro _ _ ⟨rfl, rfl⟩
    exact hcan
  · rintro _ _ ⟨rfl, rfl⟩
    exact hbefore
  · rw [isMember_put hgroups, hid]
    split_ifs with hg
    · subst hg
      have hgroup : m.IsMember g' id' ↔ group.consumers.get id' ≠ none := by
        unfold IsMember
        rw [hget]
        simp
      rw [hgroup, Registry.get_erase]
      split_ifs with heq
      · simp [heq]
      · simp [heq]
    · simp [hg, IsMember]

theorem reap_membersRemoved {staleBeforeMs : TimestampMs}
    {entries : List (ConsumerGroupId × List ConsumerId)} {revision : Revision}
    {s : BrokerStateMachine} (hreaped : m.Reaped staleBeforeMs entries s)
    (hcan : ∀ entry ∈ entries, m.Reapable staleBeforeMs entry) :
    MembersRemoved m (s.groupsRecorded (entries.map Prod.fst) revision)
      fun g id => ∃ entry ∈ entries, entry.1 = g ∧ id ∈ entry.2 := by
  obtain ⟨groups, taskIds, rfl, hgroups, hmem⟩ := hreaped.effect
  have hafter : (((m.withGroups groups).takeBack Task.namespaceId taskIds).groupsRecorded
      (entries.map Prod.fst) revision).state.groups = groups := (takeBack_sameFrame _).groups
  refine .ofTakeBack (s := m.withGroups groups) rfl rfl (fun t => ?_) ?_ ?_ fun {g id} => ?_
  · rw [hmem t]
    constructor
    · rintro ⟨entry, hentry, id, hid, hholds⟩
      exact ⟨entry.1, id, ⟨entry, hentry, rfl, hid⟩, hholds⟩
    · rintro ⟨_, id, ⟨entry, hentry, rfl, hid⟩, hholds⟩
      exact ⟨entry, hentry, id, hid, hholds⟩
  · rintro _ id ⟨entry, hentry, rfl, hid⟩
    exact (hcan entry hentry).requeues id hid
  · rintro _ id ⟨entry, hentry, rfl, hid⟩
    obtain ⟨group, group', removed, hget, -, hreap, hremoved⟩ := hgroups.reaped hentry
    rw [← hremoved] at hid
    exact ⟨group, hget, (members_of_reap id hreap).2 hid⟩
  · unfold IsMember
    rw [hafter]
    by_cases hg : g ∈ entries.map Prod.fst
    · obtain ⟨entry, hentry, rfl⟩ := List.mem_map.mp hg
      obtain ⟨group, group', removed, hget, hget', hreap, hremoved⟩ := hgroups.reaped hentry
      have hmembers := (members_of_reap id hreap).1
      rw [hremoved] at hmembers
      -- Another entry for the same group would remove the same members.
      have hlisted : (∃ other ∈ entries, other.1 = entry.1 ∧ id ∈ other.2) →
          group'.consumers.get id = none := by
        rintro ⟨other, hother, hsame, hid⟩
        obtain ⟨_, found, removed', hget₂, hget₂', hreap', hremoved'⟩ := hgroups.reaped hother
        rw [hsame, hget'] at hget₂'
        cases hget₂'
        by_contra hpresent
        have hkept := (members_of_reap id hreap').1.mp hpresent
        rw [hremoved'] at hkept
        exact hkept.2 hid
      rw [hget, hget']
      simp only [Option.some.injEq, exists_eq_left']
      constructor
      · intro hpresent
        exact ⟨(hmembers.mp hpresent).1, fun hgone => hpresent (hlisted hgone)⟩
      · rintro ⟨hpresent, hkept⟩
        exact hmembers.mpr ⟨hpresent, fun hid => hkept ⟨entry, hentry, rfl, hid⟩⟩
    · rw [hgroups.kept hg]
      refine (and_iff_left ?_).symm
      rintro ⟨entry, hentry, rfl, -⟩
      exact hg (List.mem_map_of_mem hentry)

/-! ## Members and generations after a command -/

/-- A command removes members with their leases, or it is of another kind and keeps
every member. -/
theorem Succeeds.members (h : Indexed m) {result : BrokerMutationResult}
    (hstep : Succeeds m c result m') :
    (∃ gone, MembersRemoved m m' gone) ∨
      (c.removesMembers = false ∧ ∀ g id, m.IsMember g id → m'.IsMember g id) := by
  cases hstep with
  | unchanged => exact Or.inl ⟨_, .nobody m⟩
  | ensureNamespace | publishTask | renewTaskLease | completeTask | advanceTerm =>
    exact Or.inr ⟨rfl, fun _ _ hmember => hmember.of_groups rfl⟩
  | ensureConsumerGroup c _ fresh =>
    refine Or.inr ⟨rfl, fun g id => ?_⟩
    rintro ⟨group, hget, hmember⟩
    have hne : g ≠ (ConsumerGroup.new c.groupId c.namespaceId).id := by
      rintro rfl
      cases fresh.symm.trans hget
    refine ⟨group, ?_, hmember⟩
    show (m.state.groups.put (.new c.groupId c.namespaceId)).get g = some group
    rw [get_put_of_ne _ hne, hget]
  | joinConsumerGroup _ get join moves =>
    exact Or.inr ⟨rfl, fun g id => isMember_of_put get moves.advances.id rfl
      (member_of_join join)⟩
  | heartbeat _ get heartbeat moves =>
    exact Or.inr ⟨rfl, fun g id => isMember_of_put get moves.advances.id rfl
      (member_of_heartbeat heartbeat)⟩
  | leaveConsumerGroup _ get leave requeueable =>
    exact Or.inl ⟨_, leave_membersRemoved h get leave requeueable⟩
  | reapStaleMembers _ _ _ _ reaped reapable =>
    exact Or.inl ⟨_, reap_membersRemoved reaped reapable⟩
  | claimTask c claimed => exact Or.inr ⟨rfl, fun _ _ hmember => hmember.of_groups claimed.groups⟩
  | pruneCompletedTasks =>
    exact Or.inr ⟨rfl, fun _ _ hmember => hmember.of_groups (pruneAll_groups _)⟩

theorem apply_members (h : Indexed m) (c : BrokerCommand) :
    (∃ gone, MembersRemoved m (apply m c).1 gone) ∨
      (c.removesMembers = false ∧ ∀ g id, m.IsMember g id → (apply m c).1.IsMember g id) := by
  rcases apply_cases h c with ⟨result, -, hstep⟩ | ⟨error, -, hstep⟩
  · rcases hstep.members h.clearChanges with ⟨gone, hgone⟩ | hkept
    · exact Or.inl ⟨gone, hgone.before, hgone.after, hgone.noLease, hgone.others⟩
    · exact Or.inr hkept
  · generalize (apply m c).1 = after at hstep
    cases hstep with
    | refused =>
      have hnobody := MembersRemoved.nobody m
      exact Or.inl ⟨_, hnobody.before, hnobody.after, hnobody.noLease, hnobody.others⟩
    | claimTask _ failed =>
      exact Or.inr ⟨rfl, fun g id hmember => hmember.of_groups failed.groups⟩

/-! ## No orphan leases -/

/-- The lease is held by a current member of its group, at a positive generation the
group has reached. -/
def Supported (m : BrokerStateMachine) (lease : LeasedTask) : Prop :=
  ∃ group, m.state.groups.get lease.groupId = some group ∧
    group.consumers.get lease.ownerMemberId ≠ none ∧ 0 < lease.generation.get ∧
    lease.generation ≤ group.generation

/-- No lease is orphaned; a group with members has left its first generation. -/
structure Attached (m : BrokerStateMachine) : Prop where
  positive : ∀ {g group id}, m.state.groups.get g = some group →
    group.consumers.get id ≠ none → 0 < group.generation.get
  supported : ∀ {t task lease}, m.state.tasks.get t = some task → task.state = .leased lease →
    m.Supported lease

theorem initial_attached : Attached initial where
  positive hget := by simp [initial, BrokerState.initial] at hget
  supported hget := by simp [initial, BrokerState.initial] at hget

theorem Supported.isMember (h : m.Supported lease) :
    m.IsMember lease.groupId lease.ownerMemberId := by
  obtain ⟨group, hget, hmember, -⟩ := h
  exact ⟨group, hget, hmember⟩

/-- A lease whose owner is still a member stays supported. -/
theorem Supported.step {lease' : LeasedTask} (h : m.Supported lease)
    (hsame : lease.SameHolder lease') (hadvance : GroupsAdvance m.state.groups m'.state.groups)
    (hmember : m'.IsMember lease.groupId lease.ownerMemberId) : m'.Supported lease' := by
  obtain ⟨group, hget, -, hpos, hle⟩ := h
  obtain ⟨group', hget', hadv⟩ := hadvance _ group hget
  obtain ⟨found, hfound, hpresent⟩ := hmember
  rw [hget'] at hfound
  cases hfound
  refine ⟨group', by rw [hsame.group, hget'], by rw [hsame.owner]; exact hpresent, ?_, ?_⟩
  · rw [hsame.generation]
    exact hpos
  · rw [hsame.generation]
    exact hle.trans hadv.generation_le

/-- A claim grants its lease to a current member. -/
theorem supported_of_reaches (hattached : Attached m) {claim : ClaimTaskCommand}
    {ns : NamespaceId} {epoch : LeaseEpoch} {expiresAtMs : TimestampMs}
    (hreaches : m.Reaches claim ns) : m.Supported (leaseFor claim epoch expiresAtMs) := by
  obtain ⟨group, member, hget, hgeneration, hmember, -⟩ := hreaches.member
  have hpresent : group.consumers.get claim.memberId ≠ none := by
    rw [show group.consumers.get claim.memberId = some member from hmember]
    exact some_ne_none member
  refine ⟨group, hget, hpresent, ?_, hgeneration.ge⟩
  show 0 < claim.expectedGeneration.get
  rw [← hgeneration]
  exact hattached.positive hget hpresent

theorem apply_positive (h : Indexed m) (hattached : Attached m) (c : BrokerCommand)
    (hget' : (apply m c).1.state.groups.get g = some group')
    (hmember : group'.consumers.get id ≠ none) : 0 < group'.generation.get := by
  have hstep := apply_groupStep h c g
  rw [hget'] at hstep
  generalize hget : m.state.groups.get g = before at hstep
  cases hstep with
  | kept => exact hattached.positive hget hmember
  | moved moves =>
    rcases moves.regenerates with hsame | hlt
    · have hpos := hattached.positive hget fun hnone => hmember ((hsame id).mpr hnone)
      exact lt_of_lt_of_le hpos moves.advances.generation_le
    · exact lt_of_le_of_lt (Nat.zero_le _) hlt
  | added ensure => exact absurd (by simp [ConsumerGroup.new]) hmember

/-- A lease that is held before and after a command: its owner is still a member. -/
theorem member_of_lease (h : Indexed m) (c : BrokerCommand) {lease' : LeasedTask}
    (hsame : lease.SameHolder lease') (hsupported : m.Supported lease)
    (hget' : (apply m c).1.state.tasks.get t = some task')
    (hstate' : task'.state = .leased lease') :
    (apply m c).1.IsMember lease.groupId lease.ownerMemberId := by
  rcases apply_members h c with ⟨gone, hgone⟩ | ⟨-, hkept⟩
  · have hnot := hgone.noLease hget' hstate'
    rw [hsame.group, hsame.owner] at hnot
    exact hgone.after.mpr ⟨hsupported.isMember, hnot⟩
  · exact hkept _ _ hsupported.isMember

theorem apply_attached (h : Indexed m) (hattached : Attached m) (c : BrokerCommand) :
    Attached (apply m c).1 := by
  refine ⟨fun hget hmember => apply_positive h hattached c hget hmember,
    fun {t task' lease'} hget' hstate' => ?_⟩
  have hadvance := apply_group_advances h c
  have hstep := apply_taskStep h c t
  have hkeeps : ∀ lease, lease.SameHolder lease' → m.Supported lease →
      (apply m c).1.Supported lease' := fun lease hsame hsupported =>
    hsupported.step hsame hadvance (member_of_lease h c hsame hsupported hget' hstate')
  rw [hget'] at hstep
  generalize hbefore : m.state.tasks.get t = before at hstep
  cases hstep with
  | kept => exact hkeeps lease' ⟨rfl, rfl, rfl, rfl⟩ (hattached.supported hbefore hstate')
  | published | dropped | expired | completed => cases hstate'
  | claimed _ _ reaches | reclaimed _ _ reaches =>
    cases hstate'
    exact hkeeps _ ⟨rfl, rfl, rfl, rfl⟩
      (supported_of_reaches hattached (reaches_clearChanges.mp reaches))
  | @renewed _ _ _ lease _ _ _ _ state =>
    cases hstate'
    exact hkeeps lease ⟨rfl, rfl, rfl, rfl⟩ (hattached.supported hbefore state)

theorem run_attached (commands : List BrokerCommand) : Attached (run initial commands) :=
  (Run.final_invariant (P := fun m => Indexed m ∧ Attached m)
    (fun _ c hm => ⟨apply_indexed hm.1 c, apply_attached hm.1 hm.2 c⟩)
    ⟨initial_indexed, initial_attached⟩ commands).2

/-- **No orphan leases.**  In every machine a run reaches, every leased task names a
group that exists, its owner is a current member of that group, and the generation of
the lease is positive and at most that of the group. -/
theorem no_orphan_leases (commands : List BrokerCommand) :
    ∀ t task lease, (run initial commands).state.tasks.get t = some task →
      task.state = .leased lease →
      ∃ group, (run initial commands).state.groups.get lease.groupId = some group ∧
        (∃ member, group.consumers.get lease.ownerMemberId = some member) ∧
        0 < lease.generation.get ∧ lease.generation ≤ group.generation := by
  intro t task lease hget hstate
  obtain ⟨group, hgroup, hmember, hpos, hle⟩ := (run_attached commands).supported hget hstate
  exact ⟨group, hgroup, ne_none_iff_exists'.mp hmember, hpos, hle⟩

/-- The brief lease of a run is supported. -/
theorem brief_lease_not_orphaned :
    ∃ task lease group, (run initial briefLease).state.tasks.get taskT =
        some task ∧ task.state = .leased lease ∧
      (run initial briefLease).state.groups.get lease.groupId = some group ∧
      (∃ member, group.consumers.get lease.ownerMemberId = some member) ∧
      0 < lease.generation.get ∧ lease.generation ≤ group.generation := by
  have hleased : ((run initial briefLease).state.tasks.get taskT).bind
      Task.lease ≠ none := by decide +kernel
  obtain ⟨lease, hlease⟩ := ne_none_iff_exists'.mp hleased
  obtain ⟨task, hget, htask⟩ := bind_eq_some_iff.mp hlease
  have hstate := Task.lease_eq_some_iff.mp htask
  obtain ⟨group, hgroup⟩ := no_orphan_leases briefLease _ task lease hget hstate
  exact ⟨task, lease, group, hget, hstate, hgroup⟩

/-! ## How a lease ends -/

/-- A task that is leased stops holding its lease. -/
inductive LeaseEnds (m : BrokerStateMachine) (c : BrokerCommand) (t : TaskId)
    (lease : LeasedTask) : Prop
  /-- Its holder completes it, before it expires. -/
  | completed (completion : CompleteTaskCommand) (command : c = .completeTask completion)
      (task : completion.taskId = t) (holder : completion.fence.Fits lease)
  /-- A claim finds it expired. -/
  | expired (claim : ClaimTaskCommand) (command : c = .claimTask claim)
      (due : lease.expiresAtMs ≤ claim.nowMs)
  /-- Its owner leaves the group of the lease or is reaped from it. -/
  | ownerRemoved (removes : c.removesMembers = true)
      (before : m.IsMember lease.groupId lease.ownerMemberId)
      (after : ¬(apply m c).1.IsMember lease.groupId lease.ownerMemberId)

/-- The task holds the lease, with the same or another expiry. -/
def StillHeld (record : Option Task) (lease : LeasedTask) : Prop :=
  ∃ task lease', record = some task ∧ task.state = .leased lease' ∧
    lease'.leaseEpoch = lease.leaseEpoch ∧ lease.SameHolder lease'

theorem apply_leaseEnds (h : Indexed m) (c : BrokerCommand) (hget : m.state.tasks.get t = some task)
    (hstate : task.state = .leased lease) :
    StillHeld ((apply m c).1.state.tasks.get t) lease ∨ LeaseEnds m c t lease := by
  have hstep := apply_taskStep h c t
  rw [hget] at hstep
  generalize hafter : (apply m c).1.state.tasks.get t = after at hstep
  cases hstep with
  | kept => exact Or.inl ⟨task, lease, rfl, hstate, rfl, rfl, rfl, rfl, rfl⟩
  | @dropped _ _ _ _ _ removes state =>
    rw [hstate] at state
    cases state
    rcases apply_members h c with ⟨gone, hgone⟩ | ⟨hkind, -⟩
    · by_cases howner : gone lease.groupId lease.ownerMemberId
      · refine Or.inr (.ownerRemoved removes (hgone.before howner) fun hmember => ?_)
        exact (hgone.after.mp hmember).2 howner
      · exact Or.inl ⟨task, lease, hafter.symm.trans (hgone.others hget hstate howner), hstate,
          rfl, rfl, rfl, rfl, rfl⟩
    · rw [hkind] at removes
      cases removes
  | expired claim _ _ due state =>
    rw [hstate] at state
    cases state
    exact Or.inr (.expired claim rfl (due.expired hget hstate))
  | claimed _ _ _ _ state | pruned _ _ state =>
    rw [hstate] at state
    cases state
  | reclaimed claim _ _ due =>
    exact Or.inr (.expired claim rfl (due.expired hget hstate))
  | renewed _ _ _ state =>
    rw [hstate] at state
    cases state
    exact Or.inl ⟨_, _, rfl, rfl, rfl, rfl, rfl, rfl, rfl⟩
  | completed completion _ _ state fits =>
    rw [hstate] at state
    cases state
    exact Or.inr (.completed completion rfl rfl fits)

/-- **A lease is not taken away early.**  From every machine a run reaches, a leased
task still holds its lease after a command, or its holder completed it, a claim found
it expired, or its owner was removed from the group of the lease.  In particular a
claim before the current expiry leaves it, whatever expiration entries it finds. -/
theorem lease_not_taken_early (commands : List BrokerCommand) (c : BrokerCommand) (t : TaskId)
    (task : Task) (lease : LeasedTask) (hget : (run initial commands).state.tasks.get t = some task)
    (hstate : task.state = .leased lease) :
    (StillHeld ((apply (run initial commands) c).1.state.tasks.get t) lease ∨
      LeaseEnds (run initial commands) c t lease) ∧
    (∀ claim, c = .claimTask claim → claim.nowMs < lease.expiresAtMs →
      StillHeld ((apply (run initial commands) c).1.state.tasks.get t) lease) := by
  have hends := apply_leaseEnds (run_indexed commands) c hget hstate
  refine ⟨hends, fun claim hc hearly => hends.resolve_right fun hend => ?_⟩
  cases hend with
  | completed completion command => cases hc.symm.trans command
  | expired other command due =>
    cases hc.symm.trans command
    exact absurd hearly (not_lt.mpr due)
  | ownerRemoved removes =>
    rw [hc] at removes
    cases removes

/-- The holder of the brief lease renews it at a generation. -/
def renewal (generation : Generation) : RenewTaskLeaseCommand :=
  ⟨taskT, groupG, workerW,
    1, generation, 1, leaseL,
    0, 10⟩

/-- The brief lease is renewed before it expires; its old expiration entry stays. -/
def renewedLease : List BrokerCommand :=
  briefLease ++ [.renewTaskLease (renewal 1)]

/-- A claim between the old expiry and the new one leaves the renewed lease. -/
theorem renewed_lease_survives_claim :
    ∃ task lease, (run initial renewedLease).state.tasks.get taskT =
        some task ∧ task.state = .leased lease ∧ laterClaim.nowMs < lease.expiresAtMs ∧
      StillHeld ((apply (run initial renewedLease) (.claimTask laterClaim)).1.state.tasks.get
        taskT) lease := by
  have hexpires : (((run initial renewedLease).state.tasks.get taskT).bind
      Task.lease).map LeasedTask.expiresAtMs = some 10 := by decide +kernel
  obtain ⟨lease, hlease, hten⟩ := map_eq_some_iff.mp hexpires
  obtain ⟨task, hget, htask⟩ := bind_eq_some_iff.mp hlease
  have hstate := Task.lease_eq_some_iff.mp htask
  have hearly : laterClaim.nowMs < lease.expiresAtMs := by
    rw [hten]
    decide
  exact ⟨task, lease, hget, hstate, hearly,
    (lease_not_taken_early renewedLease (.claimTask laterClaim) _ task lease hget hstate).2
      laterClaim rfl hearly⟩

/-! ## Generation fencing -/

/-- The command changes who is a member of the group. -/
def MembershipChanges (m : BrokerStateMachine) (c : BrokerCommand) (g : ConsumerGroupId) : Prop :=
  ∃ id, ¬((apply m c).1.IsMember g id ↔ m.IsMember g id)

/-- The group has reached the generation. -/
def Reached (m : BrokerStateMachine) (g : ConsumerGroupId) (generation : Nat) : Prop :=
  ∃ group, m.state.groups.get g = some group ∧ generation ≤ group.generation.get

theorem run_reached (h : Indexed m) {generation : Nat} (hreached : m.Reached g generation)
    (commands : List BrokerCommand) : (run m commands).Reached g generation := by
  refine (Run.final_invariant (P := fun m => Indexed m ∧ m.Reached g generation) ?_
    ⟨h, hreached⟩ commands).2
  rintro s c ⟨hs, group, hget, hle⟩
  obtain ⟨group', hget', hadv⟩ := apply_group_advances hs c g group hget
  exact ⟨apply_indexed hs c, group', hget', hle.trans hadv.generation_le⟩

/-- A change of membership leaves every generation the group had reached behind. -/
theorem MembershipChanges.reached (h : Indexed m) {generation : Nat}
    (hchange : m.MembershipChanges c g) (hreached : m.Reached g generation) :
    (apply m c).1.Reached g (generation + 1) := by
  obtain ⟨group, hget, hle⟩ := hreached
  obtain ⟨id, hid⟩ := hchange
  unfold IsMember at hid
  unfold Reached
  have hstep := apply_groupStep h c g
  rw [hget] at hstep hid
  generalize (apply m c).1.state.groups.get g = after at hstep hid ⊢
  cases hstep with
  | kept => exact absurd Iff.rfl hid
  | moved moves =>
    rcases moves.regenerates with hsame | hlt
    · exact absurd (by simp [hsame id]) hid
    · exact ⟨_, rfl, Nat.succ_le_of_lt (lt_of_le_of_lt hle hlt)⟩

/-- A group that has passed the generation of a lease accepts nothing under it. -/
theorem lease_unused_of_reached (h : Indexed m) (hc : c.usesLease = true)
    (hget : m.state.tasks.get t = some task) (hstate : task.state = .leased lease)
    (hreached : m.Reached lease.groupId (lease.generation.get + 1)) :
    (apply m c).1.state.tasks.get t = some task := by
  by_contra hchanged
  rw [← hget] at hchanged
  have hfenced : ∃ term fence, m.Fenced term fence task := by
    cases c with
    | renewTaskLease renewal =>
      obtain ⟨-, found, hfound, hfenced⟩ := renew_fenced h renewal hchanged
      cases hget.symm.trans hfound
      exact ⟨_, _, hfenced⟩
    | completeTask completion =>
      obtain ⟨-, found, hfound, hfenced⟩ := complete_fenced h completion hchanged
      cases hget.symm.trans hfound
      exact ⟨_, _, hfenced⟩
    | _ => cases hc
  obtain ⟨term, fence, -, ⟨held, hheld, -, -, -, hgroup, hgeneration, -⟩, group, member,
    hgroupGet, hcurrent, -⟩ := hfenced
  rw [hstate] at hheld
  cases hheld
  -- The fence needs the generation of the lease to be the current one.
  obtain ⟨found, hfound, hle⟩ := hreached
  rw [hgroup, hgroupGet] at hfound
  cases hfound
  rw [hcurrent, ← hgeneration] at hle
  omega

/-- **Generation fencing.**  A lease is held after the commands `granted`; after
further commands one changes the members of its group.  Then no renewal and no
completion, at any later time and with any fields, changes a task that holds the
lease. -/
theorem generation_fencing (granted between later : List BrokerCommand)
    (change c : BrokerCommand) (t : TaskId) (task : Task) (lease : LeasedTask)
    (hget : (run initial granted).state.tasks.get t = some task)
    (hstate : task.state = .leased lease)
    (hchange : (run initial (granted ++ between)).MembershipChanges change lease.groupId)
    (hc : c.usesLease = true) :
    ∀ task' lease',
      (run initial (granted ++ between ++ change :: later)).state.tasks.get t = some task' →
      task'.state = .leased lease' → lease.SameHolder lease' →
      (apply (run initial (granted ++ between ++ change :: later)) c).1.state.tasks.get t =
        some task' := by
  intro task' lease' hget' hstate' hsame
  obtain ⟨group, hgroup, -, -, hle⟩ := (run_attached granted).supported hget hstate
  have hgranted : (run initial granted).Reached lease.groupId lease.generation.get :=
    ⟨group, hgroup, hle⟩
  have hbefore : (run initial (granted ++ between)).Reached lease.groupId
      lease.generation.get := by
    rw [run, Run.final_append]
    exact run_reached (run_indexed granted) hgranted between
  have hafter := hchange.reached (run_indexed _) hbefore
  have hlater : (run initial (granted ++ between ++ change :: later)).Reached lease.groupId
      (lease.generation.get + 1) := by
    rw [run, Run.final_append]
    exact run_reached (apply_indexed (run_indexed _) change) hafter later
  refine lease_unused_of_reached (run_indexed _) hc hget' hstate' ?_
  rw [hsame.group, hsame.generation]
  exact hlater

/-- A second member joins the group of the lease. -/
def secondMember : BrokerCommand :=
  .joinConsumerGroup ⟨groupG, workerV, ⟨∅, Capabilities.bounded_empty⟩,
    0, 8⟩

/-- After a second member joined, the holder still has its lease and cannot renew it,
not even at the new generation. -/
theorem second_member_fences_lease :
    ∃ task lease, (run initial renewedLease).state.tasks.get taskT =
        some task ∧ task.state = .leased lease ∧
      (run initial (renewedLease ++ [])).MembershipChanges secondMember lease.groupId ∧
      (run initial (renewedLease ++ [] ++ secondMember :: [])).state.tasks.get
        taskT = some task ∧
      (apply (run initial (renewedLease ++ [] ++ secondMember :: []))
        (.renewTaskLease (renewal 2))).1.state.tasks.get
          taskT = some task := by
  have hgroup : (((run initial renewedLease).state.tasks.get taskT).bind
      Task.lease).map LeasedTask.groupId = some groupG := by decide +kernel
  obtain ⟨lease, hlease, hg⟩ := map_eq_some_iff.mp hgroup
  obtain ⟨task, hget, htask⟩ := bind_eq_some_iff.mp hlease
  have hstate := Task.lease_eq_some_iff.mp htask
  have hchange : (run initial (renewedLease ++ [])).MembershipChanges secondMember
      lease.groupId := by
    rw [hg]
    exact ⟨workerV, by decide +kernel⟩
  have hkept : (run initial (renewedLease ++ [] ++ secondMember :: [])).state.tasks.get
      taskT = some task := by
    rw [← hget]
    decide +kernel
  exact ⟨task, lease, hget, hstate, hchange, hkept,
    generation_fencing renewedLease [] [] secondMember (.renewTaskLease (renewal 2))
      _ task lease hget hstate hchange rfl task lease hkept hstate ⟨rfl, rfl, rfl, rfl⟩⟩

end BrokerStateMachine

end AgentBroker
