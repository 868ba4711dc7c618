import AgentBroker.Domain.StateMachine
import AgentBroker.Lib.Sorting

/-!
# The directory of the Consumer Groups

What a read of the groups returns (`group_directory` in `state_machine.rs`): a summary of
every group, in the order of the group ids.

## Main results

* `group_groupDirectory` — a group is found in the directory iff it exists.
* `consumersMatchingCapabilities_eq` — which members a query by capabilities lists.
-/

namespace AgentBroker

/-- `ConsumerGroupSummary`. -/
structure ConsumerGroupSummary where
  groupId : ConsumerGroupId
  namespaceId : NamespaceId
  generation : Generation
  revision : Revision
  consumerCount : Nat
  deriving DecidableEq, Repr

/-- `ConsumerGroupDirectory`. -/
structure ConsumerGroupDirectory where
  term : Term
  revision : Revision
  groups : List ConsumerGroupSummary
  deriving DecidableEq, Repr

/-- `ConsumerGroupDirectory::group`: a binary search. -/
def ConsumerGroupDirectory.group (directory : ConsumerGroupDirectory)
    (groupId : ConsumerGroupId) : Option ConsumerGroupSummary :=
  directory.groups[directory.groups.bisection fun group => group.groupId ≤ groupId]?.filter
    fun group => group.groupId = groupId

/-- `ConsumerGroup::summary`. -/
def ConsumerGroup.summary (group : ConsumerGroup) : ConsumerGroupSummary :=
  ⟨group.id, group.namespaceId, group.generation, group.revision, group.consumerCount⟩

/-- `group_directory`. -/
def BrokerState.groupDirectory (state : BrokerState) : ConsumerGroupDirectory :=
  ⟨state.term, state.revision, state.groups.values.map ConsumerGroup.summary⟩

variable {state : BrokerState}

theorem groupDirectory_sorted (state : BrokerState) :
    state.groupDirectory.groups.Pairwise fun a b => a.groupId < b.groupId :=
  List.pairwise_map.mpr state.groups.values_sorted

theorem mem_groupDirectory {summary : ConsumerGroupSummary} :
    summary ∈ state.groupDirectory.groups ↔
      ∃ group, state.groups.get summary.groupId = some group ∧ group.summary = summary := by
  constructor
  · intro h
    obtain ⟨group, hgroup, rfl⟩ := List.mem_map.mp h
    exact ⟨group, Registry.mem_values.mp hgroup, rfl⟩
  · rintro ⟨group, hget, rfl⟩
    exact List.mem_map_of_mem (Registry.mem_values.mpr hget)

/-- **A group is found in the directory iff it exists.** -/
theorem group_groupDirectory (state : BrokerState) (groupId : ConsumerGroupId) :
    state.groupDirectory.group groupId = (state.groups.get groupId).map ConsumerGroup.summary := by
  unfold ConsumerGroupDirectory.group
  cases hget : state.groups.get groupId with
  | some group =>
    have hkey : group.id = groupId := Registry.key_of_get hget
    have hid : group.summary.groupId = groupId := hkey
    have hmem : group.summary ∈ state.groupDirectory.groups :=
      mem_groupDirectory.mpr ⟨group, hid.symm ▸ hget, rfl⟩
    have hfound := List.getElem?_bisection (groupDirectory_sorted state) hmem
    rw [hid] at hfound
    rw [hfound, Option.map_some, Option.filter_some, if_pos (decide_eq_true hid)]
  | none =>
    rw [Option.map_none, Option.filter_eq_none_iff]
    intro summary hsummary heq
    obtain ⟨group, hgroup, -⟩ := mem_groupDirectory.mp (List.mem_of_getElem? hsummary)
    rw [of_decide_eq_true heq, hget] at hgroup
    cases hgroup

/-! ## Members by their capabilities -/

/-- `Capabilities::contains_all`: a binary search for each required capability. -/
def Capabilities.containsAll (capabilities required : Capabilities) : Bool :=
  required.asSlice.all fun capability =>
    capabilities.asSlice[capabilities.asSlice.bisection (· ≤ capability)]? = some capability

/-- `GroupCoordinator::consumers_matching_capabilities`. -/
def GroupCoordinator.consumersMatchingCapabilities (groups : ConsumerGroups)
    (groupId : ConsumerGroupId) (required : Capabilities) :
    Except GroupCoordinatorError (List ConsumerId) := do
  let group ← .ofOption (.groupNotFound groupId) (groups.get groupId)
  return (group.consumers.values.filter (·.capabilities.containsAll required)).map (·.id)

theorem Capabilities.containsAll_iff {capabilities required : Capabilities} :
    capabilities.containsAll required = true ↔ required.asSlice ⊆ capabilities.asSlice := by
  have hsorted : capabilities.asSlice.Pairwise fun a b => id a < id b := OrdSet.toList_sorted _
  simp only [containsAll, List.all_eq_true, decide_eq_true_eq]
  exact forall₂_congr fun _ _ => ⟨List.mem_of_getElem?, List.getElem?_bisection hsorted⟩

/-- **A member matches** iff it has every required capability. -/
theorem consumersMatchingCapabilities_eq (groups : ConsumerGroups) (groupId : ConsumerGroupId)
    (required : Capabilities) :
    GroupCoordinator.consumersMatchingCapabilities groups groupId required =
      (Except.ofOption (.groupNotFound groupId) (groups.get groupId)).map fun group =>
        (group.consumers.values.filter fun member =>
          required.asSlice ⊆ member.capabilities.asSlice).map (·.id) := by
  unfold GroupCoordinator.consumersMatchingCapabilities
  cases groups.get groupId with
  | none => rfl
  | some group =>
    refine congrArg (fun members : List Consumer => Except.ok (members.map (·.id))) ?_
    refine List.filter_congr fun member _ => ?_
    rw [Bool.eq_iff_iff, decide_eq_true_iff]
    exact Capabilities.containsAll_iff

end AgentBroker
