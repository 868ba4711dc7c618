import AgentBroker.Storage.JournalV1

/-!
# Accepted checkpoints

`from_checkpoint` reads the lists of a checkpoint in whatever order they have, and its
checks do not depend on that order.  So an accepted checkpoint is, up to the order of its
lists, the export of the state it restores to: sorting it gives exactly that export.

This is what makes snapshots canonical.  Writing a snapshot sorts, so any accepted
snapshot, also one that another program wrote in another order, is written again as the
snapshot of its state.

## Main results

* `sortCheckpoint_of_fromCheckpoint` — an accepted checkpoint sorts to the export of the
  state it restores to.
* `checkpointToWire_sortCheckpoint` — the order of the lists is not written.
* `snapshot_round_trip` — exact for the states of the machine, and stable for every
  accepted snapshot.
-/

namespace AgentBroker

open Except Registry List
open BrokerStateMachine

/-! ## What was read -/

/-- An accepted group has the members of its record. -/
theorem checkpoint_of_fromCheckpoint_group {record : ConsumerGroupCheckpoint}
    {group : ConsumerGroup} (hok : ConsumerGroup.fromCheckpoint record = .ok group) :
    group.checkpoint = sortMembers record := by
  obtain ⟨consumers, hloop, hgroup⟩ := bind_eq_ok_iff.mp hok
  cases hgroup
  have hperm := foldlM_ok_perm_of_empty (fun consumers : Consumers => consumers)
    Consumer.checkpoint id (fun s s' member hround => by
      obtain ⟨hfresh, hput⟩ := putFresh_eq_ok_iff.mp hround
      exact ⟨Consumer.fromCheckpoint member, rfl, hfresh, hput⟩) rfl hloop
  rw [List.map_id] at hperm
  have hsorted : record.members.sortByKey MemberCheckpoint.memberId =
      consumers.values.map Consumer.checkpoint :=
    sortByKey_eq_of_perm hperm.symm (consumers.map_values_sorted fun _ => rfl)
  rw [sortMembers, hsorted]
  rfl

variable {state state' : BrokerState} {checkpoint : BrokerCheckpoint}

/-- A round that reads a namespace files it and leaves the rest. -/
theorem restoreNamespace_files {record : NamespaceCheckpoint}
    (hok : restoreNamespace state record = .ok state') :
    ∃ ns : Namespace, ns.checkpoint = record ∧ state.namespaces.get ns.id = none ∧
      state' = { state with namespaces := state.namespaces.put ns } := by
  obtain ⟨_, -, hrest⟩ := bind_eq_ok_iff.mp hok
  obtain ⟨namespaces, hput, hstate⟩ := bind_eq_ok_iff.mp hrest
  obtain ⟨hfresh, rfl⟩ := putFresh_eq_ok_iff.mp hput
  cases hstate
  exact ⟨.fromCheckpoint record, rfl, hfresh, rfl⟩

theorem restoreGroup_files {record : ConsumerGroupCheckpoint}
    (hok : restoreGroup state record = .ok state') :
    ∃ group : ConsumerGroup, group.checkpoint = sortMembers record ∧
      state.groups.get group.id = none ∧
      state' = { state with groups := state.groups.put group } := by
  obtain ⟨_, -, hrest⟩ := bind_eq_ok_iff.mp hok
  obtain ⟨_, -, hrest⟩ := bind_eq_ok_iff.mp hrest
  obtain ⟨_, -, hrest⟩ := bind_eq_ok_iff.mp hrest
  obtain ⟨group, hgroup, hrest⟩ := bind_eq_ok_iff.mp hrest
  obtain ⟨groups, hput, hstate⟩ := bind_eq_ok_iff.mp hrest
  obtain ⟨hfresh, rfl⟩ := putFresh_eq_ok_iff.mp hput
  cases hstate
  exact ⟨group, checkpoint_of_fromCheckpoint_group hgroup, hfresh, rfl⟩

theorem restoreTask_files {record : TaskCheckpoint} (hok : restoreTask state record = .ok state') :
    ∃ task : Task, task.checkpoint = record ∧ state.tasks.get task.id = none ∧
      state' = { state with tasks := state.tasks.put task } := by
  obtain ⟨_, -, hrest⟩ := bind_eq_ok_iff.mp hok
  obtain ⟨_, -, hrest⟩ := bind_eq_ok_iff.mp hrest
  obtain ⟨tasks, hput, hstate⟩ := bind_eq_ok_iff.mp hrest
  obtain ⟨hfresh, rfl⟩ := putFresh_eq_ok_iff.mp hput
  cases hstate
  exact ⟨.fromCheckpoint record, Task.checkpoint_fromCheckpoint record, hfresh, rfl⟩

/-- The records of the state are those of the checkpoint, in another order. -/
structure SameRecords (state : BrokerState) (checkpoint : BrokerCheckpoint) : Prop where
  term : state.term = checkpoint.term
  revision : state.revision = checkpoint.revision
  namespaces : state.checkpoint.namespaces.Perm checkpoint.namespaces
  tasks : state.checkpoint.tasks.Perm checkpoint.tasks
  groups : state.checkpoint.groups.Perm (checkpoint.groups.map sortMembers)

/-- **What an accepted checkpoint restores to.** -/
theorem restoreState_sameRecords (hok : restoreState checkpoint = .ok state) :
    SameRecords state checkpoint := by
  obtain ⟨first, hnamespaces, hrest⟩ := bind_eq_ok_iff.mp hok
  obtain ⟨second, hgroups, htasks⟩ := bind_eq_ok_iff.mp hrest
  -- Each of the three loops only files records of its own kind.
  have hfirst : first = { first with
      term := checkpoint.term, revision := checkpoint.revision, tasks := ∅, groups := ∅ } := by
    refine foldlM_ok_rule (I := fun _ (state : BrokerState) => state = { state with
      term := checkpoint.term, revision := checkpoint.revision, tasks := ∅, groups := ∅ })
      (fun record _ before after h hround => ?_) rfl hnamespaces
    obtain ⟨ns, -, -, rfl⟩ := restoreNamespace_files hround
    rw [h]
  have hsecond : second = { first with groups := second.groups } := by
    refine foldlM_ok_rule (I := fun _ (state : BrokerState) =>
      state = { first with groups := state.groups })
      (fun record _ before after h hround => ?_) rfl hgroups
    obtain ⟨group, -, -, rfl⟩ := restoreGroup_files hround
    rw [h]
  have hthird : state = { second with tasks := state.tasks } := by
    refine foldlM_ok_rule (I := fun _ (state : BrokerState) =>
      state = { second with tasks := state.tasks })
      (fun record _ before after h hround => ?_) rfl htasks
    obtain ⟨task, -, -, rfl⟩ := restoreTask_files hround
    rw [h]
  have hnamespacesPerm := foldlM_ok_perm_of_empty BrokerState.namespaces
    Namespace.checkpoint id (fun s s' record hround => by
      obtain ⟨ns, hns, hfresh, rfl⟩ := restoreNamespace_files hround
      exact ⟨ns, hns, hfresh, rfl⟩) rfl hnamespaces
  have hgroupsPerm := foldlM_ok_perm_of_empty BrokerState.groups
    ConsumerGroup.checkpoint sortMembers (fun s s' record hround => by
      obtain ⟨group, hgroup, hfresh, rfl⟩ := restoreGroup_files hround
      exact ⟨group, hgroup, hfresh, rfl⟩) (by rw [hfirst]) hgroups
  have htasksPerm := foldlM_ok_perm_of_empty BrokerState.tasks
    Task.checkpoint id (fun s s' record hround => by
      obtain ⟨task, htask, hfresh, rfl⟩ := restoreTask_files hround
      exact ⟨task, htask, hfresh, rfl⟩) (by rw [hsecond, hfirst]) htasks
  rw [List.map_id] at hnamespacesPerm htasksPerm
  refine ⟨by rw [hthird, hsecond, hfirst], by rw [hthird, hsecond, hfirst], ?_, htasksPerm, ?_⟩
  · rw [hthird, hsecond]
    exact hnamespacesPerm
  · rw [hthird]
    exact hgroupsPerm

/-! ## Sorting -/

theorem sortByKey_map_sortMembers (groups : List ConsumerGroupCheckpoint) :
    (groups.map sortMembers).sortByKey ConsumerGroupCheckpoint.groupId =
      (groups.sortByKey ConsumerGroupCheckpoint.groupId).map sortMembers := by
  refine sortByKey_map_comm (fun a b => ?_) groups
  exact Iff.rfl

theorem sortMembers_idem (group : ConsumerGroupCheckpoint) :
    sortMembers (sortMembers group) = sortMembers group := by
  unfold sortMembers
  rw [sortByKey_idem]

theorem sortCheckpoint_idem (checkpoint : BrokerCheckpoint) :
    sortCheckpoint (sortCheckpoint checkpoint) = sortCheckpoint checkpoint := by
  have hmembers : sortMembers ∘ sortMembers = sortMembers := funext sortMembers_idem
  unfold sortCheckpoint
  rw [sortByKey_map_sortMembers, List.map_map, hmembers, sortByKey_idem,
    sortByKey_idem, sortByKey_idem]

/-- Sorting makes the checkpoint of the records from any order of them. -/
theorem SameRecords.sortCheckpoint_eq (h : SameRecords state checkpoint) :
    sortCheckpoint checkpoint = state.checkpoint := by
  have hnamespaces := sortByKey_eq_of_perm h.namespaces.symm
    (checkpoint_namespaces_sorted state)
  have htasks := sortByKey_eq_of_perm h.tasks.symm (checkpoint_tasks_sorted state)
  have hgroups := sortByKey_eq_of_perm h.groups.symm (checkpoint_groups_sorted state)
  rw [sortByKey_map_sortMembers] at hgroups
  rw [sortCheckpoint, hnamespaces, htasks, hgroups, ← h.term, ← h.revision]
  rfl

theorem restoreState_of_fromCheckpoint {r : BrokerStateMachine}
    (hok : fromCheckpoint checkpoint = .ok r) : restoreState checkpoint = .ok r.state := by
  obtain ⟨state, hstate, hrest⟩ := bind_eq_ok_iff.mp hok
  obtain ⟨indexes, -, hr⟩ := bind_eq_ok_iff.mp hrest
  cases hr
  exact hstate

/-- **An accepted checkpoint sorts to the export of the state it restores to.** -/
theorem sortCheckpoint_of_fromCheckpoint {r : BrokerStateMachine}
    (hok : fromCheckpoint checkpoint = .ok r) :
    sortCheckpoint checkpoint = r.state.checkpoint :=
  (restoreState_sameRecords (restoreState_of_fromCheckpoint hok)).sortCheckpoint_eq

/-! ## Snapshots -/

theorem groupToWire_sortMembers (group : ConsumerGroupCheckpoint) :
    groupToWire (sortMembers group) = groupToWire group := by
  have hmembers : ∀ members : List MemberCheckpoint,
      (members.map memberToWire).sortByKey MemberWire.memberId =
        (members.sortByKey MemberCheckpoint.memberId).map memberToWire :=
    sortByKey_map_comm fun _ _ => Iff.rfl
  unfold groupToWire sortMembers
  rw [hmembers, hmembers, sortByKey_idem]

/-- **The order of the lists is not written.** -/
theorem checkpointToWire_sortCheckpoint (checkpoint : BrokerCheckpoint) :
    checkpointToWire (sortCheckpoint checkpoint) = checkpointToWire checkpoint := by
  have hnamespaces : ∀ l : List NamespaceCheckpoint,
      (l.map namespaceToWire).sortByKey NamespaceWire.namespaceId =
        (l.sortByKey NamespaceCheckpoint.namespaceId).map namespaceToWire :=
    sortByKey_map_comm fun _ _ => Iff.rfl
  have htasks : ∀ l : List TaskCheckpoint, (l.map taskToWire).sortByKey TaskWire.taskId =
      (l.sortByKey TaskCheckpoint.taskId).map taskToWire :=
    sortByKey_map_comm fun a b => by
      rw [taskId_taskToWire, taskId_taskToWire]
      exact Iff.rfl
  have hgroups : ∀ l : List ConsumerGroupCheckpoint,
      (l.map groupToWire).sortByKey GroupWire.groupId =
        (l.sortByKey ConsumerGroupCheckpoint.groupId).map groupToWire :=
    sortByKey_map_comm fun _ _ => Iff.rfl
  have hmembers : groupToWire ∘ sortMembers = groupToWire := funext groupToWire_sortMembers
  unfold checkpointToWire sortCheckpoint
  rw [hnamespaces, hnamespaces, htasks, htasks, hgroups, hgroups, sortByKey_map_sortMembers,
    List.map_map, hmembers, sortByKey_idem, sortByKey_idem, sortByKey_idem]

/-- What a decoded snapshot was checked for. -/
theorem fromCheckpoint_of_decodeSnapshot {json : Codec SnapshotWire} {bytes : Bytes}
    (hok : decodeSnapshot json bytes = .ok checkpoint) :
    ∃ r, fromCheckpoint checkpoint = .ok r := by
  obtain ⟨wire, -, hwire⟩ := bind_eq_ok_iff.mp hok
  obtain ⟨_, -, hwire⟩ := bind_eq_ok_iff.mp hwire
  obtain ⟨_, -, hwire⟩ := bind_eq_ok_iff.mp hwire
  obtain ⟨_, -, hwire⟩ := bind_eq_ok_iff.mp hwire
  obtain ⟨_, -, hwire⟩ := bind_eq_ok_iff.mp hwire
  obtain ⟨_, -, hwire⟩ := bind_eq_ok_iff.mp hwire
  obtain ⟨r, hr, hcheckpoint⟩ := bind_eq_ok_iff.mp hwire
  cases hcheckpoint
  exact ⟨r, mapError_eq_ok_iff.mp hr⟩

/-- The machines a Broker has: it starts empty or from an accepted checkpoint, and then
applies commands. -/
def Reachable (m : BrokerStateMachine) : Prop :=
  ∃ start commands, (start = initial ∨ ∃ checkpoint, fromCheckpoint checkpoint = .ok start) ∧
    m = run start commands

theorem Reachable.indexed {m : BrokerStateMachine} (h : Reachable m) : Indexed m := by
  obtain ⟨start, commands, hstart, rfl⟩ := h
  have hindexed : Indexed start := by
    rcases hstart with rfl | ⟨checkpoint, hok⟩
    · exact initial_indexed
    · exact (fromCheckpoint_ok hok).1
  exact Run.final_invariant (P := Indexed) (fun _ c hm => apply_indexed hm c) hindexed commands

/-- **Snapshots round-trip.**  The checkpoint of every reachable machine is decoded as it
was encoded.  Every snapshot that is accepted, with its lists in any order, is accepted
again when its checkpoint is encoded, and restores to the same state. -/
theorem snapshot_round_trip (json : Codec SnapshotWire) :
    (∀ m, Reachable m →
      decodeSnapshot json (encodeSnapshot json m.state.checkpoint) = .ok m.state.checkpoint) ∧
    ∀ bytes checkpoint, decodeSnapshot json bytes = .ok checkpoint →
      ∃ checkpoint' r r',
        decodeSnapshot json (encodeSnapshot json checkpoint) = .ok checkpoint' ∧
        fromCheckpoint checkpoint = .ok r ∧ fromCheckpoint checkpoint' = .ok r' ∧
        r'.state = r.state := by
  refine ⟨fun m hm => decodeSnapshot_encodeSnapshot json hm.indexed, ?_⟩
  intro bytes checkpoint hdecoded
  obtain ⟨r, hr⟩ := fromCheckpoint_of_decodeSnapshot hdecoded
  have hindexed := (fromCheckpoint_ok hr).1
  obtain ⟨r', hr', hstate, -⟩ := fromCheckpoint_checkpoint hindexed
  -- What is written is the snapshot of the restored state.
  have hencoded : encodeSnapshot json checkpoint = encodeSnapshot json r.state.checkpoint := by
    rw [encodeSnapshot, encodeSnapshot, ← sortCheckpoint_of_fromCheckpoint hr,
      checkpointToWire_sortCheckpoint]
  refine ⟨r.state.checkpoint, r, r', ?_, hr, hr', hstate⟩
  rw [hencoded]
  exact decodeSnapshot_encodeSnapshot json hindexed

/-- A sample namespace. -/
def deploys : NamespaceId := ⟨"deploys", by decide⟩

/-- A snapshot of two namespaces that are out of order. -/
def unorderedSnapshot : SnapshotWire where
  groups := []
  namespaces := [⟨"deploys", 1⟩, ⟨"audits", 1⟩]
  revision := 2
  schemaVersion := schemaVersion
  tasks := []
  term := 1

/-- The checkpoint it stands for. -/
def unorderedCheckpoint : BrokerCheckpoint where
  term := .initial
  revision := 2
  namespaces := [⟨deploys, .one⟩, ⟨⟨"audits", by decide⟩, .one⟩]
  tasks := []
  groups := []

/-- It is accepted, written in order, and restores to the same state. -/
theorem unordered_snapshot_round_trip : ∃ checkpoint' r r',
    decodeSnapshot SnapshotWire.serdeJson
      (encodeSnapshot SnapshotWire.serdeJson unorderedCheckpoint) = .ok checkpoint' ∧
    fromCheckpoint unorderedCheckpoint = .ok r ∧ fromCheckpoint checkpoint' = .ok r' ∧
    r'.state = r.state := by
  have hdecoded : decodeSnapshot SnapshotWire.serdeJson
      (SnapshotWire.serdeJson.toVec unorderedSnapshot) = .ok unorderedCheckpoint := by
    rw [decodeSnapshot, SnapshotWire.serdeJson.fromSlice_toVec]
    rfl
  exact (snapshot_round_trip SnapshotWire.serdeJson).2 _ unorderedCheckpoint hdecoded

end AgentBroker
