import Mathlib.Algebra.Ring.Nat
import Mathlib.Data.List.Induction
import AgentBroker.Domain.Membership

/-!
# Reaping stale members

A reap takes the stalest members of all groups, up to a bound, and removes them
group by group.  The source counts how many members of each group were selected
and lets the group remove that many of its own stalest members; that these are the
members which were selected, and so the members whose leases were checked, rests
on the two orders agreeing.

## Main results

* `selected_eq_stalest` — the members selected of a group are its stalest.
* `preflightReap_reapable`, `reapGroups_wp` — after the preflight the loop over the
  selected groups cannot fail, and removes exactly the selected members.
-/

namespace AgentBroker

open Except EStateM Registry List ConsumerGroup

/-- A candidate as its own group orders it. -/
def ReapCandidate.stale (c : ReapCandidate) : StaleMember :=
  ⟨c.lastHeartbeatAtMs, c.memberId⟩

namespace BrokerStateMachine

open EStateM (wp)

variable {m : BrokerStateMachine} {staleBeforeMs : TimestampMs}

/-! ## Candidates -/

theorem mem_reapCandidates {state : BrokerState} {c : ReapCandidate} :
    c ∈ reapCandidates state staleBeforeMs ↔
      ∃ group member, state.groups.get c.groupId = some group ∧
        group.consumers.get c.memberId = some member ∧
        member.lastHeartbeatAtMs = c.lastHeartbeatAtMs ∧
        c.lastHeartbeatAtMs ≤ staleBeforeMs := by
  simp only [reapCandidates, mem_insertionSort, mem_flatMap, List.mem_map,
    mem_filter, decide_eq_true_eq]
  constructor
  · rintro ⟨group, hgroup, member, ⟨hmember, hstale⟩, rfl⟩
    exact ⟨group, member, Registry.mem_values.mp hgroup, Registry.mem_values.mp hmember, rfl,
      hstale⟩
  · rintro ⟨group, member, hgroup, hmember, hheartbeat, hstale⟩
    obtain ⟨lastHeartbeatAtMs, groupId, memberId⟩ := c
    refine ⟨group, Registry.mem_values.mpr ?_, member, ⟨Registry.mem_values.mpr ?_, ?_⟩, ?_⟩
    · rw [key_of_get hgroup, hgroup]
    · rw [key_of_get hmember, hmember]
    · rw [hheartbeat]
      exact hstale
    · rw [hheartbeat, key_of_get hgroup, key_of_get hmember]

theorem reapCandidates_nodup (state : BrokerState) (staleBeforeMs : TimestampMs) :
    (reapCandidates state staleBeforeMs).Nodup := by
  refine (perm_insertionSort _ _).nodup_iff.mpr (nodup_flatMap.mpr ⟨?_, ?_⟩)
  · intro group _
    have hids : (group.consumers.values.map Consumer.id).Nodup :=
      group.consumers.keys_values_nodup
    refine pairwise_map.mpr ((pairwise_map.mp hids).filter _ |>.imp ?_)
    intro member member' hne hsame
    exact hne (ReapCandidate.mk.inj hsame).2.2
  · have hids : (state.groups.values.map ConsumerGroup.id).Nodup :=
      state.groups.keys_values_nodup
    refine (pairwise_map.mp hids).imp ?_
    intro group group' hne c hc hc'
    obtain ⟨member, -, rfl⟩ := List.mem_map.mp hc
    obtain ⟨member', -, hsame⟩ := List.mem_map.mp hc'
    exact hne (ReapCandidate.mk.inj hsame).2.1.symm

theorem reapCandidates_sorted (state : BrokerState) (staleBeforeMs : TimestampMs) :
    (reapCandidates state staleBeforeMs).Pairwise (· < ·) := by
  have hle : (reapCandidates state staleBeforeMs).Pairwise (· ≤ ·) :=
    pairwise_insertionSort _ _
  exact (hle.and (reapCandidates_nodup state staleBeforeMs)).imp fun h => lt_of_le_of_ne h.1 h.2

/-- The candidates of one group. -/
def ofGroup (groupId : ConsumerGroupId) (candidates : List ReapCandidate) :
    List ReapCandidate :=
  candidates.filter (·.groupId = groupId)

variable {groupId : ConsumerGroupId} {group : ConsumerGroup} {place : Task → NamespaceId}
  {taskIds : List TaskId} {memberId : ConsumerId} {entry : ConsumerGroupId × List ConsumerId}

/-- The global order lists the stale members of a group as the group does. -/
theorem stale_ofGroup_reapCandidates (hgroup : m.state.groups.get groupId = some group) :
    (ofGroup groupId (reapCandidates m.state staleBeforeMs)).map ReapCandidate.stale =
      group.staleMembers staleBeforeMs := by
  refine List.Pairwise.eq_of_mem_iff (r := (· < ·)) ?_ (group.staleMembers_sorted _) ?_
  · have hsorted := (reapCandidates_sorted m.state staleBeforeMs).filter
      (fun c => decide (c.groupId = groupId))
    refine pairwise_map.mpr (hsorted.imp_of_mem ?_)
    intro c d hc hd hlt
    have hgroups : c.groupId = d.groupId :=
      (of_decide_eq_true (mem_filter.mp hc).2).trans
        (of_decide_eq_true (mem_filter.mp hd).2).symm
    have hlex : toLex (c.lastHeartbeatAtMs, toLex (c.groupId, c.memberId)) <
        toLex (d.lastHeartbeatAtMs, toLex (d.groupId, d.memberId)) := hlt
    show toLex (c.lastHeartbeatAtMs, c.memberId) < toLex (d.lastHeartbeatAtMs, d.memberId)
    rw [Prod.Lex.toLex_lt_toLex] at hlex ⊢
    rcases hlex with hlt | ⟨heq, hlt⟩
    · exact Or.inl hlt
    · rcases Prod.Lex.toLex_lt_toLex.mp hlt with hlt | ⟨-, hlt⟩
      · exact absurd hgroups (ne_of_lt hlt)
      · exact Or.inr ⟨heq, hlt⟩
  · intro s
    rw [mem_staleMembers, List.mem_map]
    constructor
    · rintro ⟨c, hc, rfl⟩
      obtain ⟨hc, hcgroup⟩ := mem_filter.mp hc
      obtain ⟨found, member, hfound, hmember, hheartbeat, hstale⟩ := mem_reapCandidates.mp hc
      rw [of_decide_eq_true hcgroup, hgroup] at hfound
      cases hfound
      refine ⟨hstale, member, hmember, ?_⟩
      show StaleMember.mk _ _ = StaleMember.mk _ _
      rw [hheartbeat, key_of_get hmember]
    · rintro ⟨hstale, member, hmember, hs⟩
      refine ⟨⟨s.lastHeartbeatAtMs, groupId, s.memberId⟩, mem_filter.mpr ⟨?_, ?_⟩, rfl⟩
      · refine mem_reapCandidates.mpr ⟨group, member, hgroup, hmember, ?_, hstale⟩
        rw [← hs]
        rfl
      · exact decide_eq_true rfl

/-! ## Selection -/

/-- The selection lists the candidates of each group in order. -/
theorem get_selectedMembers (candidates : List ReapCandidate) (groupId : ConsumerGroupId) :
    (selectedMembers candidates).get groupId =
      if ofGroup groupId candidates = [] then none
      else some ((ofGroup groupId candidates).map ReapCandidate.memberId) := by
  induction candidates using List.reverseRecOn with
  | nil => rfl
  | append_singleton rest c ih =>
    have hstep : selectedMembers (rest ++ [c]) =
        (selectedMembers rest).updateD c.groupId [] (· ++ [c.memberId]) := by
      simp [selectedMembers]
    have hfilter : ofGroup groupId (rest ++ [c]) =
        ofGroup groupId rest ++ if c.groupId = groupId then [c] else [] := by
      simp [ofGroup, filter_append, filter_cons]
    rw [hstep, OrdMap.updateD, OrdMap.get_insert, hfilter]
    by_cases hc : groupId = c.groupId
    · subst hc
      have hold : (selectedMembers rest).getD c.groupId [] =
          (ofGroup c.groupId rest).map ReapCandidate.memberId := by
        rw [OrdMap.getD, ih]
        split_ifs with hnil
        · rw [hnil]
          rfl
        · rfl
      simp [hold]
    · have hne : ¬c.groupId = groupId := fun h => hc h.symm
      simp [hc, hne, ih]

theorem selectedMembers_ne_nil {candidates : List ReapCandidate} (h : candidates ≠ []) :
    (selectedMembers candidates).entries ≠ [] := by
  obtain ⟨c, rest, rfl⟩ := exists_cons_of_ne_nil h
  have hget := get_selectedMembers (c :: rest) c.groupId
  rw [if_neg (by simp [ofGroup])] at hget
  exact ne_nil_of_mem (OrdMap.get_eq_some_iff.mp hget)

/-- **The members selected of a group are its stalest**: as many as were selected. -/
theorem selected_eq_stalest {n : Nat} {memberIds : List ConsumerId}
    (hgroup : m.state.groups.get groupId = some group)
    (hselected : (selectedMembers
      ((reapCandidates m.state staleBeforeMs).take n)).get groupId = some memberIds) :
    memberIds ≠ [] ∧ memberIds =
      ((group.staleMembers staleBeforeMs).take memberIds.length).map StaleMember.memberId := by
  rw [get_selectedMembers] at hselected
  split_ifs at hselected with hnil
  cases hselected
  refine ⟨by simpa using hnil, ?_⟩
  have hpre : ofGroup groupId ((reapCandidates m.state staleBeforeMs).take n) <+:
      ofGroup groupId (reapCandidates m.state staleBeforeMs) :=
    List.IsPrefix.filter _ ( take_prefix n _)
  have htake := prefix_iff_eq_take.mp hpre
  rw [← stale_ofGroup_reapCandidates hgroup, length_map, ← map_take, ← htake, List.map_map]
  rfl

/-! ## Removing the selected members -/

/-- The member holds a lease on the task. -/
def Holds (m : BrokerStateMachine) (groupId : ConsumerGroupId) (memberId : ConsumerId)
    (taskId : TaskId) : Prop :=
  ∃ lease task, m.memberLease groupId memberId taskId = some (lease, task)

/-- A lease that is still there after others were taken back was there before. -/
theorem memberLease_takeBack {taskId : TaskId} {lease : LeasedTask} {task : Task}
    (h : (m.takeBack place taskIds).memberLease groupId memberId taskId = some (lease, task)) :
    m.memberLease groupId memberId taskId = some (lease, task) := by
  obtain ⟨hget, hstate, hgroup, hmember⟩ := memberLease_eq_some_iff.mp h
  exact memberLease_eq_some_iff.mpr
    ⟨get_of_takeBack_leased hget hstate, hstate, hgroup, hmember⟩

theorem Requeueable.takeBack (h : m.Requeueable groupId memberId) :
    (m.takeBack place taskIds).Requeueable groupId memberId :=
  fun taskId lease task hlease => h taskId lease task (memberLease_takeBack hlease)

/-- Taking back the leases one member still has. -/
theorem mem_or_holds_takeBack {taskId : TaskId} :
    taskId ∈ taskIds ∨ (m.takeBack place taskIds).Holds groupId memberId taskId ↔
      taskId ∈ taskIds ∨ m.Holds groupId memberId taskId := by
  constructor
  · rintro (h | ⟨lease, task, hlease⟩)
    · exact Or.inl h
    · exact Or.inr ⟨lease, task, memberLease_takeBack hlease⟩
  · rintro (h | ⟨lease, task, hlease⟩)
    · exact Or.inl h
    · by_cases hmem : taskId ∈ taskIds
      · exact Or.inl hmem
      · obtain ⟨hget, hstate, hgroup, hmember⟩ := memberLease_eq_some_iff.mp hlease
        refine Or.inr ⟨lease, task, memberLease_eq_some_iff.mpr ⟨?_, hstate, hgroup, hmember⟩⟩
        rw [get_takeBack, if_neg hmem, hget]

/-- The machine after the leases of the listed members were taken back. -/
def LeasesDropped (m : BrokerStateMachine) (groupId : ConsumerGroupId)
    (memberIds : List ConsumerId) (m' : BrokerStateMachine) : Prop :=
  ∃ taskIds, m' = m.takeBack Task.namespaceId taskIds ∧
    ∀ taskId, taskId ∈ taskIds ↔ ∃ memberId ∈ memberIds, m.Holds groupId memberId taskId

/-- The loop over the removed members of a group. -/
theorem dropRemoved_wp (h : Indexed m) {removed : List Consumer}
    (hok : ∀ member ∈ removed, m.Requeueable groupId member.id) :
    wp (removed.foldlM (fun _ member => do
        let _ ← requeueMemberLeases groupId member.id
        return ()) ()) m
      (fun _ m' => m.LeasesDropped groupId (removed.map Consumer.id) m') (fun _ _ => False) := by
  refine wp_foldlM (I := fun rest _ s =>
    ∃ done, done ++ rest = removed ∧ m.LeasesDropped groupId (done.map Consumer.id) s)
    ⟨[], rfl, [], rfl, by simp⟩ ?_ ?_
  · rintro member rest _ s ⟨done, hdone, taskIds, rfl, hmem⟩
    have hmember : member ∈ removed := hdone ▸ mem_append_right done mem_cons_self
    have hs : Indexed (m.takeBack Task.namespaceId taskIds) := takeBack_indexed h taskIds
    rw [wp_bind]
    refine wp_mono (requeueMemberLeases_wp hs (hok member hmember).takeBack) ?_
      fun _ _ hfalse => hfalse
    rintro n s rfl
    refine ⟨done ++ [member], by rw [append_assoc, singleton_append, hdone], _,
      (takeBack_append _ _).symm, fun taskId => ?_⟩
    rw [mem_append, mem_dropped hs]
    refine mem_or_holds_takeBack.trans ?_
    rw [hmem taskId]
    simp [or_and_right, exists_or]
  · rintro _ s ⟨done, hdone, hdropped⟩
    rw [append_nil] at hdone
    rw [← hdone]
    exact hdropped

/-- The machine with other groups. -/
def withGroups (m : BrokerStateMachine) (groups : ConsumerGroups) : BrokerStateMachine :=
  { m with state := { m.state with groups := groups } }

theorem takeBackOne_withGroups (place : Task → NamespaceId) (groups : ConsumerGroups)
    (taskId : TaskId) :
    (m.withGroups groups).takeBackOne place taskId =
      (m.takeBackOne place taskId).withGroups groups := by
  have htasks : (m.withGroups groups).state.tasks = m.state.tasks := rfl
  rw [takeBackOne, takeBackOne, htasks]
  cases m.state.tasks.get taskId with
  | none => rfl
  | some task =>
    dsimp only
    cases task.state with
    | queued | completed => rfl
    | leased => cases task.revision.next <;> rfl

theorem takeBack_withGroups (place : Task → NamespaceId) (groups : ConsumerGroups)
    (taskIds : List TaskId) :
    (m.withGroups groups).takeBack place taskIds =
      (m.takeBack place taskIds).withGroups groups := by
  induction taskIds generalizing m with
  | nil => rfl
  | cons _ _ ih => rw [takeBack_cons, takeBackOne_withGroups, ih, takeBack_cons]

/-- The groups after the members of some groups were removed. -/
structure GroupsReaped (groups groups' : ConsumerGroups) (staleBeforeMs : TimestampMs)
    (entries : List (ConsumerGroupId × List ConsumerId)) : Prop where
  kept : ∀ {groupId}, groupId ∉ entries.map Prod.fst → groups'.get groupId = groups.get groupId
  reaped : ∀ {entry}, entry ∈ entries → ∃ group group' removed,
    groups.get entry.1 = some group ∧ groups'.get entry.1 = some group' ∧
    group.reapStaleMembers staleBeforeMs entry.2.length = .ok (removed, group') ∧
    removed.map Consumer.id = entry.2

/-- The machine after the members of some groups were removed. -/
structure Reaped (m : BrokerStateMachine) (staleBeforeMs : TimestampMs)
    (entries : List (ConsumerGroupId × List ConsumerId)) (m' : BrokerStateMachine) : Prop where
  indexed : Indexed m'
  effect : ∃ groups taskIds, m' = (m.withGroups groups).takeBack Task.namespaceId taskIds ∧
    GroupsReaped m.state.groups groups staleBeforeMs entries ∧
    ∀ taskId, taskId ∈ taskIds ↔
      ∃ entry ∈ entries, ∃ memberId ∈ entry.2, m.Holds entry.1 memberId taskId

/-- What is checked of a group before any group is touched. -/
structure Reapable (m : BrokerStateMachine) (staleBeforeMs : TimestampMs)
    (entry : ConsumerGroupId × List ConsumerId) : Prop where
  reaps : ∃ group group' removed, m.state.groups.get entry.1 = some group ∧
    group.reapStaleMembers staleBeforeMs entry.2.length = .ok (removed, group') ∧
    removed.map Consumer.id = entry.2 ∧ removed ≠ []
  requeues : ∀ memberId ∈ entry.2, m.Requeueable entry.1 memberId

theorem GroupsReaped.snoc {groups groups' : ConsumerGroups}
    {done : List (ConsumerGroupId × List ConsumerId)} {group' : ConsumerGroup}
    {removed : List Consumer} (h : GroupsReaped groups groups' staleBeforeMs done)
    (hfresh : entry.1 ∉ done.map Prod.fst) (hgroup : groups.get entry.1 = some group)
    (hreap : group.reapStaleMembers staleBeforeMs entry.2.length = .ok (removed, group'))
    (hremoved : removed.map Consumer.id = entry.2) :
    GroupsReaped groups (groups'.put group') staleBeforeMs (done ++ [entry]) := by
  have hmoves : group.Moves 0 group' := reap_moves hreap hremoved
  have hid : group'.id = entry.1 := by rw [hmoves.advances.id, key_of_get hgroup]
  refine ⟨fun {groupId} hnew => ?_, fun {other} hother => ?_⟩
  · simp only [map_append, map_cons, map_nil, mem_append,
      mem_singleton, not_or] at hnew
    rw [get_put_of_ne _ (by rw [hid]; exact hnew.2), h.kept hnew.1]
  · rcases mem_append.mp hother with hold | hlast
    · obtain ⟨old, old', oldRemoved, hget, hget', hrest⟩ := h.reaped hold
      have hne : other.1 ≠ group'.id := by
        rw [hid]
        intro heq
        exact hfresh (heq ▸ List.mem_map_of_mem hold)
      exact ⟨old, old', oldRemoved, hget, by rw [get_put_of_ne _ hne, hget'], hrest⟩
    · rw [mem_singleton.mp hlast]
      exact ⟨group, group', removed, hgroup, by rw [← hid, get_put_self], hreap,
        hremoved⟩

theorem reapGroup_wp {done : List (ConsumerGroupId × List ConsumerId)}
    {progress : Nat × List ConsumerGroupId} {s : BrokerStateMachine}
    (hdone : m.Reaped staleBeforeMs done s) (hfresh : entry.1 ∉ done.map Prod.fst)
    (hok : m.Reapable staleBeforeMs entry) :
    wp (reapGroup staleBeforeMs progress entry) s
      (fun progress' s' => m.Reaped staleBeforeMs (done ++ [entry]) s' ∧
        progress' = (progress.1 + entry.2.length, progress.2 ++ [entry.1]))
      (fun _ _ => False) := by
  obtain ⟨hindexed, groups, taskIds, hs, hgroups, hmem⟩ := hdone
  obtain ⟨⟨group, group', removed, hgroup, hreap, hremoved, hnonempty⟩, hrequeues⟩ := hok
  have hsame : s.state.groups = groups := by
    rw [hs]
    exact (takeBack_sameFrame taskIds).groups
  have hfound : s.state.groups.get entry.1 = some group := by
    rw [hsame, hgroups.kept hfresh, hgroup]
  have hmoves : group.Moves 0 group' := reap_moves hreap hremoved
  have hput : Indexed (s.groupPut group') :=
    hindexed.putGroup (by rw [key_of_get hfound, hfound]) hmoves.advances
  -- Writing a group and taking leases back commute, so the leases can be put last.
  have hmachine : s.groupPut group' =
      (m.withGroups (groups.put group')).takeBack Task.namespaceId taskIds := by
    rw [groupPut, hsame, hs, takeBack_withGroups, takeBack_withGroups]
    rfl
  have hrequeueable : ∀ member ∈ removed, (s.groupPut group').Requeueable entry.1 member.id := by
    intro member hmember
    have hmid : member.id ∈ entry.2 := hremoved ▸ List.mem_map_of_mem hmember
    have hm : (m.withGroups (groups.put group')).Requeueable entry.1 member.id :=
      hrequeues member.id hmid
    rw [hmachine]
    exact hm.takeBack
  have hcoordinated : GroupCoordinator.reapStaleMembers s.state.groups entry.1 staleBeforeMs
      entry.2.length = .ok (removed, s.state.groups.put group') :=
    GroupCoordinator.withGroup_eq_ok_iff.mpr ⟨group, group', hfound, hreap, rfl⟩
  refine wp_get_bind (wp_coordinated_bind (fun r hr => ?_) fun e he => ?_)
  · rw [hcoordinated] at hr
    cases hr
    refine wp_set_bind ?_
    simp only [if_neg hnonempty]
    rw [wp_bind]
    refine wp_mono (dropRemoved_wp hput hrequeueable) ?_ fun _ _ hfalse => hfalse
    rintro _ s' ⟨dropped, rfl, hdropped⟩
    refine ⟨⟨takeBack_indexed hput dropped, groups.put group', taskIds ++ dropped, ?_, ?_, ?_⟩, ?_⟩
    · rw [hmachine, takeBack_append]
    · exact hgroups.snoc hfresh hgroup hreap hremoved
    · intro taskId
      -- A lease taken back in an earlier round is no longer held here.
      have hholds : ∀ memberId, taskId ∈ taskIds ∨ (s.groupPut group').Holds entry.1 memberId
          taskId ↔ taskId ∈ taskIds ∨ m.Holds entry.1 memberId taskId := by
        intro memberId
        rw [hmachine]
        exact mem_or_holds_takeBack
      rw [mem_append, hdropped taskId, hremoved]
      by_cases ht : taskId ∈ taskIds
      · obtain ⟨old, hold, hheld⟩ := (hmem taskId).mp ht
        exact ⟨fun _ => ⟨old, mem_append_left _ hold, hheld⟩, fun _ => Or.inl ht⟩
      · simp only [ht, false_or] at hholds ⊢
        have hnone := (not_congr (hmem taskId)).mp ht
        simp only [hholds, mem_append, mem_singleton, or_and_right, exists_or,
          exists_eq_left, hnone, false_or]
    · rw [← hremoved, length_map]
  · rw [hcoordinated] at he
    cases he

/-- The loop over the selected groups: it cannot fail after the preflight. -/
theorem reapGroups_wp (h : Indexed m) {entries : List (ConsumerGroupId × List ConsumerId)}
    (hkeys : (entries.map Prod.fst).Nodup)
    (hok : ∀ entry ∈ entries, m.Reapable staleBeforeMs entry) :
    wp (entries.foldlM (reapGroup staleBeforeMs) (0, [])) m
      (fun progress s => m.Reaped staleBeforeMs entries s ∧
        progress = ((entries.map (·.2.length)).sum, entries.map Prod.fst))
      (fun _ _ => False) := by
  refine wp_foldlM (I := fun rest progress s =>
    ∃ done, done ++ rest = entries ∧ m.Reaped staleBeforeMs done s ∧
      progress = ((done.map (·.2.length)).sum, done.map Prod.fst)) ?_ ?_ ?_
  · refine ⟨[], rfl, ⟨h, m.state.groups, [], rfl, ⟨fun _ => rfl, fun hmem => ?_⟩, ?_⟩, rfl⟩
    · cases hmem
    · simp
  · rintro entry rest progress s ⟨done, hdone, hreaped, hprogress⟩
    have hentry := hok entry (hdone ▸ mem_append_right done mem_cons_self)
    -- Each group is selected once, so its record is still that of `m`.
    have hfresh : entry.1 ∉ done.map Prod.fst := by
      rw [← hdone, map_append] at hkeys
      intro hmem
      exact (nodup_append.mp hkeys).2.2 entry.1 hmem entry.1 (by simp) rfl
    refine wp_mono (reapGroup_wp hreaped hfresh hentry) ?_ fun _ _ hfalse => hfalse
    rintro progress' s' ⟨hreaped', rfl⟩
    refine ⟨done ++ [entry], by rw [append_assoc, singleton_append, hdone], hreaped', ?_⟩
    rw [hprogress]
    simp
  · rintro progress s ⟨done, hdone, hreaped, rfl⟩
    rw [append_nil] at hdone
    subst hdone
    exact ⟨hreaped, rfl⟩

/-! ## The preflight -/

theorem preflightReap_reapable (h : Indexed m) {n : Nat}
    (hentry : entry ∈ (selectedMembers
      ((reapCandidates m.state staleBeforeMs).take n)).entries)
    (hpreflight : m.preflightReap entry.1 entry.2 = .ok ()) : m.Reapable staleBeforeMs entry := by
  obtain ⟨group, hgroup, hrest⟩ := bind_eq_ok_iff.mp hpreflight
  obtain ⟨generation, hgeneration, hrest⟩ := bind_eq_ok_iff.mp hrest
  obtain ⟨revision, hrevision, hmembers⟩ := bind_eq_ok_iff.mp hrest
  have hgroup := ofOption_eq_ok_iff.mp hgroup
  have hget := OrdMap.get_eq_some_iff.mpr hentry
  obtain ⟨hnonempty, hstalest⟩ := selected_eq_stalest hgroup hget
  -- The selection of this group is what the group itself would select.
  have hstale : group.staleMembers staleBeforeMs ≠ [] := by
    intro hnil
    rw [hnil] at hstalest
    exact hnonempty (by simpa using hstalest)
  have hpresent : ∀ memberId ∈ entry.2, group.consumers.get memberId ≠ none := by
    rw [hstalest]
    exact group.staleIds_present staleBeforeMs _
  have hids : (ConsumerGroup.removeMembers entry.2 group.consumers).1.map Consumer.id =
      entry.2 := by
    refine removed_ids ?_ hpresent
    rw [hstalest]
    exact group.staleIds_nodup staleBeforeMs _
  refine ⟨⟨group, _, (ConsumerGroup.removeMembers entry.2 group.consumers).1, hgroup,
    reapStaleMembers_eq_ok_iff.mpr ⟨?_, Or.inr ⟨hstale, generation, revision,
      mapError_eq_ok_iff.mp hgeneration, mapError_eq_ok_iff.mp hrevision, ?_, rfl⟩⟩,
    hids, ?_⟩, ?_⟩
  · simpa using hnonempty
  · rw [← hstalest]
  · intro hnil
    rw [hnil] at hids
    exact hnonempty hids.symm
  · intro memberId hmem
    exact (preflightMemberLeaseRequeue_eq_ok_iff h).mp
      (forM_eq_ok_iff.mp hmembers memberId hmem)

end BrokerStateMachine

end AgentBroker
