import AgentBroker.Storage.AcceptedCheckpoints

/-!
# Which checkpoints are accepted

`from_checkpoint` checks a checkpoint record by record and stops at the first failure.  Here
its checks are one condition on the checkpoint as a whole, which says nothing of the order of
the records; and neither does the machine that is restored.

## Main results

* `fromCheckpoint_of_admissible`, `admissible_of_fromCheckpoint` — the two directions.
* `checkpoint_admission_exact` — a checkpoint is accepted exactly if it is admissible, and
  reordered checkpoints restore to one machine.
-/

namespace AgentBroker

open Except Registry List
open BrokerStateMachine

/-- The lease of a record of a leased task. -/
def TaskCheckpoint.leaseId (record : TaskCheckpoint) : Option LeaseId :=
  match record.state with
  | .leased leaseId .. => some leaseId
  | .queued _ | .completed .. => none

theorem Task.leaseId_checkpoint (task : Task) : task.checkpoint.leaseId = task.activeLeaseId := by
  obtain ⟨id, namespaceId, objective, createdAtMs, revision, state⟩ := task
  cases state <;> rfl

/-- What an accepted checkpoint meets: identities are unique, revisions are positive,
namespaces are listed, and a lease has one task. -/
structure BrokerCheckpoint.Admissible (checkpoint : BrokerCheckpoint) : Prop where
  namespaceIds : (checkpoint.namespaces.map NamespaceCheckpoint.namespaceId).Nodup
  groupIds : (checkpoint.groups.map ConsumerGroupCheckpoint.groupId).Nodup
  taskIds : (checkpoint.tasks.map TaskCheckpoint.taskId).Nodup
  memberIds : ∀ group ∈ checkpoint.groups, (group.members.map MemberCheckpoint.memberId).Nodup
  namespaceRevisions : ∀ record ∈ checkpoint.namespaces, 0 < record.revision.get
  groupRevisions : ∀ group ∈ checkpoint.groups, 0 < group.revision.get
  memberRevisions : ∀ group ∈ checkpoint.groups, ∀ member ∈ group.members,
    0 < member.revision.get
  taskRevisions : ∀ record ∈ checkpoint.tasks, 0 < record.revision.get
  groupNamespaces : ∀ group ∈ checkpoint.groups,
    group.namespaceId ∈ checkpoint.namespaces.map NamespaceCheckpoint.namespaceId
  taskNamespaces : ∀ record ∈ checkpoint.tasks,
    record.namespaceId ∈ checkpoint.namespaces.map NamespaceCheckpoint.namespaceId
  leases : ∀ record ∈ checkpoint.tasks, ∀ other ∈ checkpoint.tasks, ∀ leaseId,
    record.leaseId = some leaseId → other.leaseId = some leaseId → record.taskId = other.taskId

variable {checkpoint : BrokerCheckpoint}

/-! ## Admissible checkpoints are accepted -/

theorem fromCheckpoint_group_of_unique {record : ConsumerGroupCheckpoint}
    (h : (record.members.map MemberCheckpoint.memberId).Nodup) :
    ∃ group, ConsumerGroup.fromCheckpoint record = .ok group ∧ group.id = record.groupId := by
  obtain ⟨consumers, hok, -⟩ := foldlM_ok_of_fresh
    (f := fun (consumers : Consumers) member =>
      consumers.putFresh CheckpointError.duplicateMember (Consumer.fromCheckpoint member))
    id MemberCheckpoint.memberId (fun _ => True)
    (fun consumers member _ _ hfresh => ⟨consumers.put (Consumer.fromCheckpoint member),
      Consumer.fromCheckpoint member, putFresh_of_none hfresh, rfl, rfl, trivial⟩)
    h (fun _ _ => rfl) (s := (∅ : Consumers)) trivial
  exact ⟨_, bind_eq_ok_iff.mpr ⟨consumers, hok, rfl⟩, rfl⟩

/-- A record of an admissible checkpoint is read if its id is fresh and its namespace was
read before. -/
theorem restoreNamespace_of_fresh (h : checkpoint.Admissible) {state : BrokerState}
    {record : NamespaceCheckpoint} (hmem : record ∈ checkpoint.namespaces)
    (hfresh : state.namespaces.get record.namespaceId = none) :
    restoreNamespace state record
      = .ok { state with namespaces := state.namespaces.put (.fromCheckpoint record) } :=
  bind_eq_ok_iff.mpr
    ⟨_, requirePositiveRevision_of_pos "namespace" (h.namespaceRevisions record hmem),
      bind_eq_ok_iff.mpr ⟨_, putFresh_of_none hfresh, rfl⟩⟩

theorem restoreGroup_of_fresh (h : checkpoint.Admissible) {state : BrokerState}
    {record : ConsumerGroupCheckpoint} (hmem : record ∈ checkpoint.groups)
    (hknown : state.namespaces.get record.namespaceId ≠ none)
    (hfresh : state.groups.get record.groupId = none) :
    ∃ group, group.id = record.groupId ∧ restoreGroup state record
      = .ok { state with groups := state.groups.put group } := by
  obtain ⟨group, hgroup, hid⟩ := fromCheckpoint_group_of_unique (h.memberIds record hmem)
  have hmembers : (forM record.members fun member =>
      requirePositiveRevision "member" member.revision) = .ok () :=
    forM_eq_ok_iff.mpr fun member hmember =>
      requirePositiveRevision_of_pos "member" (h.memberRevisions record hmem member hmember)
  exact ⟨group, hid, bind_eq_ok_iff.mpr
    ⟨_, requirePositiveRevision_of_pos "Consumer Group" (h.groupRevisions record hmem),
      bind_eq_ok_iff.mpr ⟨_, hmembers, bind_eq_ok_iff.mpr
        ⟨_, requireKnownNamespace_of_get _ hknown, bind_eq_ok_iff.mpr ⟨_, hgroup,
          bind_eq_ok_iff.mpr ⟨_, putFresh_of_none (hid ▸ hfresh), rfl⟩⟩⟩⟩⟩⟩

theorem restoreTask_of_fresh (h : checkpoint.Admissible) {state : BrokerState}
    {record : TaskCheckpoint} (hmem : record ∈ checkpoint.tasks)
    (hknown : state.namespaces.get record.namespaceId ≠ none)
    (hfresh : state.tasks.get record.taskId = none) :
    restoreTask state record
      = .ok { state with tasks := state.tasks.put (.fromCheckpoint record) } :=
  bind_eq_ok_iff.mpr
    ⟨_, requirePositiveRevision_of_pos "task" (h.taskRevisions record hmem),
      bind_eq_ok_iff.mpr ⟨_, requireKnownNamespace_of_get _ hknown,
        bind_eq_ok_iff.mpr ⟨_, putFresh_of_none hfresh, rfl⟩⟩⟩

/-- So the records can be read one after the other. -/
theorem restoreState_of_admissible (h : checkpoint.Admissible) :
    ∃ state, restoreState checkpoint = .ok state := by
  obtain ⟨first, hfirst, ⟨htasks, hgroups⟩, hknown⟩ := foldlM_ok_of_fresh
    (f := restoreNamespace) BrokerState.namespaces NamespaceCheckpoint.namespaceId
    (fun state => state.tasks = ∅ ∧ state.groups = ∅)
    (fun state record hmem hinv hfresh =>
      ⟨_, _, restoreNamespace_of_fresh h hmem hfresh, rfl, rfl, hinv⟩)
    h.namespaceIds (fun _ _ => rfl)
    (s := (⟨checkpoint.term, checkpoint.revision, ∅, ∅, ∅⟩ : BrokerState)) ⟨rfl, rfl⟩
  obtain ⟨second, hsecond, ⟨hnamespaces, htasks⟩, -⟩ := foldlM_ok_of_fresh
    (f := restoreGroup) BrokerState.groups ConsumerGroupCheckpoint.groupId
    (fun state => state.namespaces = first.namespaces ∧ state.tasks = ∅)
    (fun state record hmem hinv hfresh => by
      have hlisted := hinv.1 ▸ hknown _ (Or.inr (h.groupNamespaces record hmem))
      obtain ⟨group, hid, hok⟩ := restoreGroup_of_fresh h hmem hlisted hfresh
      exact ⟨_, group, hok, hid, rfl, hinv⟩)
    h.groupIds (fun _ _ => by rw [hgroups]; rfl) (s := first) ⟨rfl, htasks⟩
  obtain ⟨state, hstate, -⟩ := foldlM_ok_of_fresh
    (f := restoreTask) BrokerState.tasks TaskCheckpoint.taskId
    (fun state => state.namespaces = first.namespaces)
    (fun state record hmem hinv hfresh => by
      have hlisted := hinv ▸ hknown _ (Or.inr (h.taskNamespaces record hmem))
      exact ⟨_, _, restoreTask_of_fresh h hmem hlisted hfresh, rfl, rfl, hinv⟩)
    h.taskIds (fun _ _ => by rw [htasks]; rfl) (s := second) hnamespaces
  exact ⟨state, bind_eq_ok_iff.mpr ⟨first, hfirst,
    bind_eq_ok_iff.mpr ⟨second, hsecond, hstate⟩⟩⟩

/-- A task of the restored state was read from a record. -/
theorem SameRecords.mem_tasks {state : BrokerState} (h : SameRecords state checkpoint)
    {taskId : TaskId} {leaseId : LeaseId}
    (hattr : state.tasks.attr Task.activeLeaseId taskId = some leaseId) :
    ∃ record ∈ checkpoint.tasks, record.taskId = taskId ∧ record.leaseId = some leaseId := by
  obtain ⟨task, hget, hlease⟩ := attr_eq_some_iff.mp hattr
  have hid : task.id = taskId := key_of_get hget
  subst hid
  exact ⟨task.checkpoint,
    h.tasks.mem_iff.mp (mem_map_of_mem (Registry.mem_values.mpr hget)), rfl,
    (Task.leaseId_checkpoint task).trans hlease⟩

theorem fromCheckpoint_of_admissible (h : checkpoint.Admissible) :
    ∃ r, fromCheckpoint checkpoint = .ok r := by
  obtain ⟨state, hstate⟩ := restoreState_of_admissible h
  have hsame := restoreState_sameRecords hstate
  obtain ⟨indexes, hindexes, -⟩ := rebuildIndexes_of_leases (restoreState_wellFormed hstate)
    fun {leaseId taskId taskId'} hone hother => by
      obtain ⟨record, hrecord, rfl, hlease⟩ := hsame.mem_tasks hone
      obtain ⟨record', hrecord', rfl, hlease'⟩ := hsame.mem_tasks hother
      exact h.leases record hrecord record' hrecord' leaseId hlease hlease'
  exact ⟨_, bind_eq_ok_iff.mpr ⟨state, hstate,
    bind_eq_ok_iff.mpr ⟨indexes, hindexes, rfl⟩⟩⟩

/-! ## Accepted checkpoints are admissible -/

namespace SameRecords

variable {state : BrokerState}

/-- Every record of the checkpoint is one of the state. -/
theorem exists_namespace (h : SameRecords state checkpoint) {record : NamespaceCheckpoint}
    (hmem : record ∈ checkpoint.namespaces) :
    ∃ ns : Namespace, state.namespaces.get ns.id = some ns ∧ ns.checkpoint = record := by
  obtain ⟨ns, hns, heq⟩ := mem_map.mp (h.namespaces.mem_iff.mpr hmem)
  exact ⟨ns, Registry.mem_values.mp hns, heq⟩

theorem exists_group (h : SameRecords state checkpoint) {record : ConsumerGroupCheckpoint}
    (hmem : record ∈ checkpoint.groups) : ∃ group : ConsumerGroup,
      state.groups.get group.id = some group ∧ group.checkpoint = sortMembers record := by
  obtain ⟨group, hgroup, heq⟩ := mem_map.mp
    (h.groups.mem_iff.mpr (mem_map_of_mem hmem))
  exact ⟨group, Registry.mem_values.mp hgroup, heq⟩

theorem exists_task (h : SameRecords state checkpoint) {record : TaskCheckpoint}
    (hmem : record ∈ checkpoint.tasks) :
    ∃ task : Task, state.tasks.get task.id = some task ∧ task.checkpoint = record := by
  obtain ⟨task, htask, heq⟩ := mem_map.mp (h.tasks.mem_iff.mpr hmem)
  exact ⟨task, Registry.mem_values.mp htask, heq⟩

/-- A namespace of the state is listed. -/
theorem mem_namespaceIds (h : SameRecords state checkpoint) {namespaceId : NamespaceId}
    (hknown : state.namespaces.get namespaceId ≠ none) :
    namespaceId ∈ checkpoint.namespaces.map NamespaceCheckpoint.namespaceId := by
  obtain ⟨ns, hns⟩ := Option.ne_none_iff_exists'.mp hknown
  have hid := key_of_get hns
  subst hid
  exact mem_map.mpr ⟨ns.checkpoint,
    h.namespaces.mem_iff.mp (mem_map_of_mem (Registry.mem_values.mpr hns)), rfl⟩

/-- The members of a record are those of its group. -/
theorem members_perm {group : ConsumerGroup} {record : ConsumerGroupCheckpoint}
    (heq : group.checkpoint = sortMembers record) :
    group.checkpoint.members.Perm record.members := by
  rw [heq]
  exact sortByKey_perm _

end SameRecords

theorem admissible_of_fromCheckpoint {r : BrokerStateMachine}
    (hok : fromCheckpoint checkpoint = .ok r) : checkpoint.Admissible := by
  have hstate := restoreState_of_fromCheckpoint hok
  have hsame := restoreState_sameRecords hstate
  have hwf := restoreState_wellFormed hstate
  exact {
    namespaceIds := ((hsame.namespaces.map _).nodup_iff).mp (by
      rw [BrokerState.checkpoint, map_map]
      exact r.state.namespaces.keys_values_nodup)
    groupIds := by
      have hperm := hsame.groups.map ConsumerGroupCheckpoint.groupId
      rw [map_map] at hperm
      refine hperm.nodup_iff.mp ?_
      rw [BrokerState.checkpoint, map_map]
      exact r.state.groups.keys_values_nodup
    taskIds := ((hsame.tasks.map _).nodup_iff).mp (by
      rw [BrokerState.checkpoint, map_map]
      exact r.state.tasks.keys_values_nodup)
    memberIds := fun record hmem => by
      obtain ⟨group, -, heq⟩ := hsame.exists_group hmem
      refine ((SameRecords.members_perm heq).map _).nodup_iff.mp ?_
      rw [ConsumerGroup.checkpoint, map_map]
      exact group.consumers.keys_values_nodup
    namespaceRevisions := fun record hmem => by
      obtain ⟨ns, hns, rfl⟩ := hsame.exists_namespace hmem
      exact hwf.namespaces hns
    groupRevisions := fun record hmem => by
      obtain ⟨group, hget, heq⟩ := hsame.exists_group hmem
      have hrevision := congrArg ConsumerGroupCheckpoint.revision heq
      exact hrevision ▸ (hwf.groups hget).1.revision_pos
    memberRevisions := fun record hmem member hmember => by
      obtain ⟨group, hget, heq⟩ := hsame.exists_group hmem
      obtain ⟨consumer, hconsumer, rfl⟩ := mem_map.mp
        ((SameRecords.members_perm heq).mem_iff.mpr hmember)
      exact (hwf.groups hget).1.member_pos (Registry.mem_values.mp hconsumer)
    taskRevisions := fun record hmem => by
      obtain ⟨task, htask, rfl⟩ := hsame.exists_task hmem
      exact (hwf.tasks htask).1
    groupNamespaces := fun record hmem => by
      obtain ⟨group, hget, heq⟩ := hsame.exists_group hmem
      have hnamespaceId := congrArg ConsumerGroupCheckpoint.namespaceId heq
      exact hnamespaceId ▸ hsame.mem_namespaceIds (hwf.groups hget).2
    taskNamespaces := fun record hmem => by
      obtain ⟨task, htask, rfl⟩ := hsame.exists_task hmem
      exact hsame.mem_namespaceIds (hwf.tasks htask).2
    leases := fun record hmem other hother leaseId hlease hlease' => by
      obtain ⟨task, hget, rfl⟩ := hsame.exists_task hmem
      obtain ⟨task', hget', rfl⟩ := hsame.exists_task hother
      rw [Task.leaseId_checkpoint] at hlease hlease'
      exact (fromCheckpoint_ok hok).1.lease_injective
        ((attr_of_get hget).trans hlease)
        ((attr_of_get hget').trans hlease') }

/-! ## Order -/

/-- A record of a group, with its members in another order. -/
def ConsumerGroupCheckpoint.Reordered (group group' : ConsumerGroupCheckpoint) : Prop :=
  group' = { group with members := group'.members } ∧ group.members.Perm group'.members

/-- A checkpoint of the same records in another order, members of groups included. -/
structure BrokerCheckpoint.Reordered (checkpoint checkpoint' : BrokerCheckpoint) : Prop where
  term : checkpoint.term = checkpoint'.term
  revision : checkpoint.revision = checkpoint'.revision
  namespaces : checkpoint.namespaces.Perm checkpoint'.namespaces
  tasks : checkpoint.tasks.Perm checkpoint'.tasks
  groups : ∃ groups, checkpoint.groups.Perm groups ∧
    List.Forall₂ ConsumerGroupCheckpoint.Reordered groups checkpoint'.groups

/-- Members of distinct ids sort alike from any order. -/
theorem ConsumerGroupCheckpoint.Reordered.sortMembers_eq {group group' : ConsumerGroupCheckpoint}
    (h : group.Reordered group') (hnodup : (group.members.map MemberCheckpoint.memberId).Nodup) :
    sortMembers group = sortMembers group' := by
  obtain ⟨hsame, hperm⟩ := h
  have hstrict : (group.members.sortByKey MemberCheckpoint.memberId).Pairwise
      fun a b => a.memberId < b.memberId := by
    have hkeys : ((group.members.sortByKey MemberCheckpoint.memberId).map
        MemberCheckpoint.memberId).Nodup :=
      ((sortByKey_perm group.members).map _).nodup_iff.mpr hnodup
    exact (sortByKey_sorted group.members).imp₂ (fun _ _ => lt_of_le_of_ne)
      (pairwise_map.mp hkeys)
  have hsorted := sortByKey_eq_of_perm
    (hperm.symm.trans (sortByKey_perm group.members).symm) hstrict
  rw [hsame]
  unfold sortMembers
  rw [hsorted]

theorem map_sortMembers_of_reordered {groups groups' : List ConsumerGroupCheckpoint}
    (h : List.Forall₂ ConsumerGroupCheckpoint.Reordered groups groups')
    (hnodup : ∀ group ∈ groups, (group.members.map MemberCheckpoint.memberId).Nodup) :
    groups.map sortMembers = groups'.map sortMembers := by
  induction h with
  | nil => rfl
  | cons hone _ ih =>
    rw [map_cons, map_cons, hone.sortMembers_eq (hnodup _ mem_cons_self),
      ih fun group hmem => hnodup group (mem_cons_of_mem _ hmem)]

/-- The state that an accepted checkpoint restores to has the records of every reordering. -/
theorem SameRecords.reordered {state : BrokerState} {checkpoint' : BrokerCheckpoint}
    (h : SameRecords state checkpoint) (hadmissible : checkpoint.Admissible)
    (hreordered : checkpoint.Reordered checkpoint') : SameRecords state checkpoint' := by
  obtain ⟨groups, hperm, hmembers⟩ := hreordered.groups
  have hnodup : ∀ group ∈ groups, (group.members.map MemberCheckpoint.memberId).Nodup :=
    fun group hmem => hadmissible.memberIds group (hperm.mem_iff.mpr hmem)
  have hsorted : groups.map sortMembers = checkpoint'.groups.map sortMembers :=
    map_sortMembers_of_reordered hmembers hnodup
  exact ⟨h.term.trans hreordered.term, h.revision.trans hreordered.revision,
    h.namespaces.trans hreordered.namespaces, h.tasks.trans hreordered.tasks,
    h.groups.trans (hsorted ▸ hperm.map sortMembers)⟩

/-- Checkpoint admission is exact and order-free: a checkpoint is accepted exactly if it is
admissible, and accepted checkpoints of the same records, in whatever order, restore to the
same machine, indexes included.  Heaps are kept here as their sorted contents. -/
theorem checkpoint_admission_exact :
    (∀ checkpoint, (∃ r, fromCheckpoint checkpoint = .ok r) ↔ checkpoint.Admissible) ∧
      ∀ checkpoint checkpoint' r r', checkpoint.Reordered checkpoint' →
        fromCheckpoint checkpoint = .ok r → fromCheckpoint checkpoint' = .ok r' → r = r' := by
  refine ⟨fun checkpoint => ⟨fun ⟨r, hok⟩ => admissible_of_fromCheckpoint hok,
    fromCheckpoint_of_admissible⟩, fun checkpoint checkpoint' r r' hreordered hok hok' => ?_⟩
  have hsame := (restoreState_sameRecords (restoreState_of_fromCheckpoint hok)).reordered
    (admissible_of_fromCheckpoint hok) hreordered
  have hexport : r.state.checkpoint = r'.state.checkpoint :=
    hsame.sortCheckpoint_eq.symm.trans (sortCheckpoint_of_fromCheckpoint hok')
  have hread := restoreState_checkpoint (restoreState_wellFormed
    (restoreState_of_fromCheckpoint hok))
  have hread' := restoreState_checkpoint (restoreState_wellFormed
    (restoreState_of_fromCheckpoint hok'))
  rw [hexport, hread'] at hread
  have hstate : r'.state = r.state := Except.ok.inj hread
  -- The indexes are rebuilt from the state alone.
  obtain ⟨state, hfirst, hrest⟩ := bind_eq_ok_iff.mp hok
  obtain ⟨indexes, hindexes, hr⟩ := bind_eq_ok_iff.mp hrest
  obtain ⟨state', hfirst', hrest'⟩ := bind_eq_ok_iff.mp hok'
  obtain ⟨indexes', hindexes', hr'⟩ := bind_eq_ok_iff.mp hrest'
  cases hr
  cases hr'
  change state' = state at hstate
  subst hstate
  rw [hindexes] at hindexes'
  cases hindexes'
  rfl

/-- Two namespaces restore to one machine in either order. -/
theorem checkpoint_admission_either_order :
    ∃ r, fromCheckpoint unorderedCheckpoint = .ok r ∧ fromCheckpoint { unorderedCheckpoint with
      namespaces := unorderedCheckpoint.namespaces.reverse } = .ok r := by
  obtain ⟨r, hok⟩ : ∃ r, fromCheckpoint unorderedCheckpoint = .ok r := ⟨_, rfl⟩
  obtain ⟨r', hok'⟩ : ∃ r, fromCheckpoint { unorderedCheckpoint with
      namespaces := unorderedCheckpoint.namespaces.reverse } = .ok r := ⟨_, rfl⟩
  have hreordered : unorderedCheckpoint.Reordered { unorderedCheckpoint with
      namespaces := unorderedCheckpoint.namespaces.reverse } :=
    ⟨rfl, rfl, (reverse_perm _).symm, .refl _, [], .refl _, .nil⟩
  have hsame := checkpoint_admission_exact.2 _ _ r r' hreordered hok hok'
  exact ⟨r, hok, hsame ▸ hok'⟩

end AgentBroker
