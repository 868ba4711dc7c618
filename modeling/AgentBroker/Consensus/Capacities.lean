import AgentBroker.Domain.Footprint
import AgentBroker.Protocol.Request
import AgentBroker.Consensus.ConsensusSnapshot

/-!
# Capacities

A server enforces one set of capacities (`policy.rs`): of namespaces, of the tasks and
groups of a namespace, and of the members of a group.  The commands carry them, and the
state machine admits a new resource by a counter it keeps beside the state.  The session
table of the replicated state machine has a capacity of its own.

Only four commands create anything (`Succeeds.namespaces_cases`, `GroupStep.namespace_cases`,
`TaskStep.namespace_cases`); every other command keeps or lowers every count.

## Main results

* `apply_within` — a command that carries the capacities keeps the counts within them.
* `apply_refusesOnlyWhenFull` — a refusal for capacity is right.
* `capacities_hold` — both over whole runs, and the bound of the session table over logs.
-/

namespace AgentBroker

open Except hiding error
open Registry ConsumerGroup

namespace BrokerStateMachine

variable {m m' : BrokerStateMachine} {c : BrokerCommand} {result : BrokerMutationResult}

/-! ## What a command can create -/

/-- Every task of a namespace was one of its tasks before, or has just been published. -/
theorem TaskStep.namespace_cases {t : TaskId} {record : Option Task} {task' : Task}
    (h : TaskStep m c t record (some task')) :
    (∃ task, record = some task ∧ task.namespaceId = task'.namespaceId) ∨
      ∃ publish, c = .publishTask publish := by
  cases h with
  | kept => exact Or.inl ⟨task', rfl, rfl⟩
  | published publish => exact Or.inr ⟨publish, rfl⟩
  | dropped | expired | claimed | reclaimed | renewed | completed => exact Or.inl ⟨_, rfl, rfl⟩

/-- A publication adds its task below the capacity, or nothing. -/
theorem Succeeds.publish_cases {publish : PublishTaskCommand}
    (hstep : Succeeds m (.publishTask publish) result m') :
    m' = m ∨ m.taskCount publish.namespaceId < publish.maxNamespaceTasks.get ∧
      m.state.tasks.get publish.taskId = none ∧ m'.state.tasks = m.state.tasks.put
        (.new publish.taskId publish.namespaceId publish.objective publish.createdAtMs) := by
  cases hstep with
  | unchanged => exact Or.inl rfl
  | publishTask _ _ fresh room => exact Or.inr ⟨room, fresh, rfl⟩

/-- A group is added below the capacity and takes a new revision, or nothing happens. -/
theorem Succeeds.ensureGroup_cases {ensure : EnsureConsumerGroupCommand}
    (hstep : Succeeds m (.ensureConsumerGroup ensure) result m') :
    m' = m ∨ m.groupCount ensure.namespaceId < ensure.maxNamespaceGroups.get ∧
      m.state.groups.get ensure.groupId = none ∧
      m'.state.groups = m.state.groups.put (.new ensure.groupId ensure.namespaceId) ∧
      m'.state.revision.get = m.state.revision.get + 1 := by
  cases hstep with
  | unchanged => exact Or.inl rfl
  | ensureConsumerGroup _ _ fresh room next =>
    exact Or.inr ⟨room, fresh, rfl, Counter.next_get next⟩

/-- Every other command keeps every group in its namespace and adds none. -/
theorem GroupStep.namespace_cases {g : ConsumerGroupId} {before : Option ConsumerGroup}
    {group' : ConsumerGroup} (h : GroupStep c g before (some group')) :
    (∃ group, before = some group ∧ group.namespaceId = group'.namespaceId) ∨
      ∃ ensure, c = .ensureConsumerGroup ensure := by
  cases h with
  | kept => exact Or.inl ⟨group', rfl, rfl⟩
  | moved moves => exact Or.inl ⟨_, rfl, moves.advances.namespaceId.symm⟩
  | added ensure command => exact Or.inr ⟨ensure, command⟩

/-- A group has at most the members it had, or as many as the command allows. -/
theorem GroupStep.size_le {g : ConsumerGroupId} {before : Option ConsumerGroup}
    {group' : ConsumerGroup} (h : GroupStep c g before (some group')) {limit : Nat}
    (hbefore : ∀ group, before = some group → group.consumers.size ≤ limit)
    (hlimit : memberLimit c ≤ limit) : group'.consumers.size ≤ limit := by
  cases h with
  | kept => exact hbefore group' rfl
  | moved moves => exact moves.size_le.trans (max_le (hbefore _ rfl) hlimit)
  | added => exact Nat.zero_le _

/-! ## Within the capacities -/

/-- The command carries the capacities of the policy. -/
def Carries (policy : BrokerCapacityPolicy) : BrokerCommand → Prop
  | .ensureNamespace c => c.maxNamespaces = policy.maxNamespaces
  | .publishTask c => c.maxNamespaceTasks = policy.maxTasksPerNamespace
  | .ensureConsumerGroup c => c.maxNamespaceGroups = policy.maxGroupsPerNamespace
  | .joinConsumerGroup c => c.maxGroupMembers = policy.maxMembersPerGroup
  | _ => True

/-- The counts of a state are within the capacities of the policy. -/
structure Within (policy : BrokerCapacityPolicy) (state : BrokerState) : Prop where
  namespaces : state.namespaces.values.length ≤ policy.maxNamespaces.get
  tasks : ∀ ns, state.tasks.values.countP (·.namespaceId = ns) ≤
    policy.maxTasksPerNamespace.get
  groups : ∀ ns, state.groups.values.countP (·.namespaceId = ns) ≤
    policy.maxGroupsPerNamespace.get
  members : ∀ g group, state.groups.get g = some group →
    group.consumers.values.length ≤ policy.maxMembersPerGroup.get

variable {policy : BrokerCapacityPolicy}

theorem Indexed.taskCount_eq (h : Indexed m) (ns : NamespaceId) :
    m.taskCount ns = m.state.tasks.values.countP (·.namespaceId = ns) := by
  rw [← countWhere_eq_countP]
  exact h.taskCounts ns

theorem Indexed.groupCount_eq (h : Indexed m) (ns : NamespaceId) :
    m.groupCount ns = m.state.groups.values.countP (·.namespaceId = ns) := by
  rw [← countWhere_eq_countP]
  exact h.groupCounts ns

theorem initial_within : Within policy initial.state :=
  ⟨Nat.zero_le _, fun _ => Nat.zero_le _, fun _ => Nat.zero_le _, fun _ _ h => nomatch h⟩

theorem namespaces_within (h : Indexed m) (hwithin : Within policy m.state)
    (hcarries : Carries policy c) :
    (apply m c).1.state.namespaces.values.length ≤ policy.maxNamespaces.get := by
  rcases apply_cases h c with ⟨result, -, hstep⟩ | ⟨error, -, hstep⟩
  · rcases hstep.namespaces_cases with hsame | ⟨ensure, rfl, hroom, -, hput⟩
    · rw [hsame]
      exact hwithin.namespaces
    · have hsize : (m.state.namespaces.put (.new ensure.namespaceId)).size ≤
          m.state.namespaces.size + 1 := OrdMap.size_insert_le _ _ _
      rw [hput, ← size_eq_length, ← show _ = policy.maxNamespaces from hcarries]
      exact hsize.trans hroom
  · rw [hstep.namespaces]
    exact hwithin.namespaces

/-- A record that is added to a namespace with room for it. -/
theorem countP_put_le {κ ν : Type} [LinearOrder κ] {key : ν → κ} {r : Registry κ ν key} {v : ν}
    (ofRecord : ν → NamespaceId) {limit : Nat} (hfresh : r.get (key v) = none)
    (hroom : r.values.countP (ofRecord · = ofRecord v) < limit)
    (hbefore : ∀ ns, r.values.countP (ofRecord · = ns) ≤ limit) (ns : NamespaceId) :
    (r.put v).values.countP (ofRecord · = ns) ≤ limit := by
  rw [← countWhere_eq_countP, countWhere_put_new _ hfresh, countWhere_eq_countP]
  split_ifs with hns
  · rw [← of_decide_eq_true hns]
    exact hroom
  · exact hbefore ns

theorem tasks_within (h : Indexed m) (hwithin : Within policy m.state)
    (hcarries : Carries policy c) (ns : NamespaceId) :
    (apply m c).1.state.tasks.values.countP (·.namespaceId = ns) ≤
      policy.maxTasksPerNamespace.get := by
  by_cases hpublish : ∃ publish, c = .publishTask publish
  · obtain ⟨publish, rfl⟩ := hpublish
    rcases apply_cases h (.publishTask publish) with ⟨result, -, hstep⟩ | ⟨error, -, hstep⟩
    · rcases hstep.publish_cases with heq | ⟨hroom, hfresh, hput⟩
      · rw [heq]
        exact hwithin.tasks ns
      · rw [h.clearChanges.taskCount_eq, show _ = policy.maxTasksPerNamespace from hcarries]
          at hroom
        rw [hput]
        exact countP_put_le Task.namespaceId hfresh hroom hwithin.tasks ns
    · rw [hstep.eq_of_not_claim fun _ => nofun]
      exact hwithin.tasks ns
  · refine le_trans (countP_values_le fun t task' hget' hns => ?_) (hwithin.tasks ns)
    have htask := apply_taskStep h c t
    rw [hget'] at htask
    rcases htask.namespace_cases with ⟨task, hget, hsame⟩ | hcreated
    · exact ⟨task, hget, by rw [hsame]; exact hns⟩
    · exact absurd hcreated hpublish

theorem groups_within (h : Indexed m) (hwithin : Within policy m.state)
    (hcarries : Carries policy c) (ns : NamespaceId) :
    (apply m c).1.state.groups.values.countP (·.namespaceId = ns) ≤
      policy.maxGroupsPerNamespace.get := by
  by_cases hensure : ∃ ensure, c = .ensureConsumerGroup ensure
  · obtain ⟨ensure, rfl⟩ := hensure
    rcases apply_cases h (.ensureConsumerGroup ensure) with ⟨result, -, hstep⟩ | ⟨error, -, hstep⟩
    · rcases hstep.ensureGroup_cases with heq | ⟨hroom, hfresh, hput, -⟩
      · rw [heq]
        exact hwithin.groups ns
      · rw [h.clearChanges.groupCount_eq, show _ = policy.maxGroupsPerNamespace from hcarries]
          at hroom
        rw [hput]
        exact countP_put_le ConsumerGroup.namespaceId hfresh hroom hwithin.groups ns
    · rw [hstep.groups]
      exact hwithin.groups ns
  · refine le_trans (countP_values_le fun g group' hget' hns => ?_) (hwithin.groups ns)
    have hgroup := apply_groupStep h c g
    rw [hget'] at hgroup
    rcases hgroup.namespace_cases with ⟨group, hget, hsame⟩ | hcreated
    · exact ⟨group, hget, by rw [hsame]; exact hns⟩
    · exact absurd hcreated hensure

theorem memberLimit_le (hcarries : Carries policy c) :
    memberLimit c ≤ policy.maxMembersPerGroup.get := by
  cases c with
  | joinConsumerGroup c => exact le_of_eq (congrArg U64.get hcarries)
  | _ => exact Nat.zero_le _

theorem members_within (h : Indexed m) (hwithin : Within policy m.state)
    (hcarries : Carries policy c) {g : ConsumerGroupId} {group' : ConsumerGroup}
    (hget' : (apply m c).1.state.groups.get g = some group') :
    group'.consumers.values.length ≤ policy.maxMembersPerGroup.get := by
  have hgroup := apply_groupStep h c g
  rw [hget'] at hgroup
  rw [← size_eq_length]
  refine hgroup.size_le (fun group hget => ?_) (memberLimit_le hcarries)
  rw [size_eq_length]
  exact hwithin.members g group hget

/-- **A command that carries the capacities keeps the counts within them.** -/
theorem apply_within (h : Indexed m) (hwithin : Within policy m.state)
    (hcarries : Carries policy c) : Within policy (apply m c).1.state :=
  ⟨namespaces_within h hwithin hcarries, tasks_within h hwithin hcarries,
    groups_within h hwithin hcarries, fun _ _ => members_within h hwithin hcarries⟩

/-! ## Counts fit a machine word -/

/-- The lengths of a state that are reported as numbers. -/
structure CountsFit (state : BrokerState) : Prop where
  groups : state.groups.size ≤ state.revision.get
  members : ∀ g group, state.groups.get g = some group → group.consumers.size < u64Size

theorem memberLimit_lt (c : BrokerCommand) : memberLimit c < u64Size := by
  cases c with
  | joinConsumerGroup c => exact c.maxGroupMembers.isLt
  | _ => exact Nat.two_pow_pos 64

theorem apply_countsFit (h : Indexed m) (hcounts : CountsFit m.state) (c : BrokerCommand) :
    CountsFit (apply m c).1.state where
  groups := by
    have hrevision : m.state.revision.get ≤ (apply m c).1.state.revision.get := by
      rcases apply_counters h c with ⟨-, hsame | hnext⟩ | ⟨-, -, -, -, hnext⟩
      · rw [hsame]
      · exact le_of_lt (Counter.lt_next hnext)
      · exact le_of_lt (Counter.lt_next hnext)
    by_cases hensure : ∃ ensure, c = .ensureConsumerGroup ensure
    · obtain ⟨ensure, rfl⟩ := hensure
      rcases apply_cases h (.ensureConsumerGroup ensure) with
        ⟨result, -, hstep⟩ | ⟨error, -, hstep⟩
      · rcases hstep.ensureGroup_cases with heq | ⟨-, -, hput, hnext⟩
        · rw [heq]
          exact hcounts.groups
        · have hsize : (m.state.groups.put (.new ensure.groupId ensure.namespaceId)).size ≤
              m.state.groups.size + 1 := OrdMap.size_insert_le _ _ _
          rw [hput, hnext]
          exact hsize.trans (Nat.succ_le_succ hcounts.groups)
      · rw [hstep.groups]
        exact hcounts.groups.trans hrevision
    · refine le_trans (size_le_of_keys fun g hnone => ?_) (hcounts.groups.trans hrevision)
      by_contra hsome
      obtain ⟨group', hget'⟩ := Option.ne_none_iff_exists'.mp hsome
      have hgroup := apply_groupStep h c g
      rw [hget'] at hgroup
      rcases hgroup.namespace_cases with ⟨group, hget, -⟩ | hcreated
      · cases hnone.symm.trans hget
      · exact hensure hcreated
  members g group' hget' := by
    have hgroup := apply_groupStep h c g
    rw [hget'] at hgroup
    have hle := hgroup.size_le (fun group hget => Nat.le_pred_of_lt (hcounts.members g group hget))
      (Nat.le_pred_of_lt (memberLimit_lt c))
    exact Nat.lt_of_le_pred (Nat.two_pow_pos 64) hle

theorem run_countsFit (commands : List BrokerCommand) :
    CountsFit (run initial commands).state := by
  have hstep : ∀ m c, Indexed m ∧ CountsFit m.state →
      Indexed (apply m c).1 ∧ CountsFit (apply m c).1.state :=
    fun m c hm => ⟨apply_indexed hm.1 c, apply_countsFit hm.1 hm.2 c⟩
  exact (Run.final_invariant hstep
    ⟨initial_indexed, le_rfl, fun _ _ hget => nomatch hget⟩ commands).2

/-! ## Refusals are right -/

/-- A new resource is refused for capacity only if the true count has reached it. -/
structure RefusesOnlyWhenFull (policy : BrokerCapacityPolicy) (m : BrokerStateMachine) :
    Prop where
  namespaces : ∀ (c : EnsureNamespaceCommand) (error : StateMachineError),
    Carries policy (.ensureNamespace c) → (apply m (.ensureNamespace c)).2 = .error error →
    error.isCapacity = true →
    m.state.namespaces.values.length = policy.maxNamespaces.get
  tasks : ∀ (c : PublishTaskCommand) (error : StateMachineError),
    Carries policy (.publishTask c) → (apply m (.publishTask c)).2 = .error error →
    error.isCapacity = true →
    m.state.tasks.values.countP (·.namespaceId = c.namespaceId) =
      policy.maxTasksPerNamespace.get
  groups : ∀ (c : EnsureConsumerGroupCommand) (error : StateMachineError),
    Carries policy (.ensureConsumerGroup c) →
    (apply m (.ensureConsumerGroup c)).2 = .error error → error.isCapacity = true →
    m.state.groups.values.countP (·.namespaceId = c.namespaceId) =
      policy.maxGroupsPerNamespace.get
  members : ∀ (c : JoinConsumerGroupCommand) (error : StateMachineError),
    Carries policy (.joinConsumerGroup c) → (apply m (.joinConsumerGroup c)).2 = .error error →
    error.isCapacity = true →
    ∃ group, m.state.groups.get c.groupId = some group ∧
      group.consumers.values.length = policy.maxMembersPerGroup.get

/-- What is known of a command that is refused. -/
theorem refuses_of_error {error : StateMachineError} (h : Indexed m)
    (hc : ∀ claim, c ≠ .claimTask claim) (herror : (apply m c).2 = .error error) :
    m.clearChanges.Refuses c error := by
  rcases apply_cases h c with ⟨result, hok, -⟩ | ⟨found, hfound, hstep⟩
  · cases hok.symm.trans herror
  · cases hfound.symm.trans herror
    generalize (apply m c).1 = after at hstep
    cases hstep with
    | refused refuses => exact refuses
    | claimTask claim => exact absurd rfl (hc claim)

/-- **Refusals for capacity are right.** -/
theorem apply_refusesOnlyWhenFull (h : Indexed m) (hwithin : Within policy m.state) :
    RefusesOnlyWhenFull policy m where
  namespaces c error hcarries herror hcapacity := by
    have hfull := Nat.not_lt.mp (refuses_of_error h (by nofun) herror hcapacity)
    rw [show c.maxNamespaces = _ from hcarries] at hfull
    exact le_antisymm hwithin.namespaces (hfull.trans_eq (size_eq_length _))
  tasks c error hcarries herror hcapacity := by
    have hfull := Nat.not_lt.mp ((refuses_of_error h (by nofun) herror).2 hcapacity)
    rw [show c.maxNamespaceTasks = _ from hcarries, h.clearChanges.taskCount_eq] at hfull
    exact le_antisymm (hwithin.tasks c.namespaceId) hfull
  groups c error hcarries herror hcapacity := by
    have hfull := Nat.not_lt.mp (refuses_of_error h (by nofun) herror hcapacity)
    rw [show c.maxNamespaceGroups = _ from hcarries, h.clearChanges.groupCount_eq] at hfull
    exact le_antisymm (hwithin.groups c.namespaceId) hfull
  members c error hcarries herror hcapacity := by
    obtain ⟨group, hget, hfull⟩ := refuses_of_error h (by nofun) herror hcapacity
    rw [show c.maxGroupMembers = _ from hcarries, size_eq_length] at hfull
    exact ⟨group, hget, le_antisymm (hwithin.members c.groupId group hget) hfull⟩

/-! ## Runs -/

/-- **Capacities hold.**  In every run from the initial machine whose commands carry one
policy, the counts stay within its capacities and a new resource is refused for capacity
only when the true count has reached it.  Over any log of proposals, the session table
holds at most 4096 sessions. -/
theorem capacities_hold :
    (∀ (policy : BrokerCapacityPolicy) (commands : List BrokerCommand),
      (∀ c ∈ commands, Carries policy c) →
        Within policy (run initial commands).state ∧
          RefusesOnlyWhenFull policy (run initial commands)) ∧
    ∀ log, (SessionedBroker.run .initial log).commandSessions.entries.length ≤ 4096 := by
  refine ⟨fun policy commands hcarry => ?_, fun log => (SessionedBroker.run_storable log).bounded⟩
  have hreached : Indexed (run initial commands) ∧ Within policy (run initial commands).state :=
    Run.final_invariant_of_meets (P := fun m => Indexed m ∧ Within policy m.state)
      (fun m c hm hc => ⟨apply_indexed hm.1 c, apply_within hm.1 hm.2 hc⟩)
      ⟨initial_indexed, initial_within⟩ (Run.meets_of_forall_mem hcarry initial)
  exact ⟨hreached.2, apply_refusesOnlyWhenFull hreached.1 hreached.2⟩

/-- Room for one of everything. -/
def oneEach : BrokerCapacityPolicy where
  maxNamespaces := 1
  maxTasksPerNamespace := 1
  maxGroupsPerNamespace := 1
  maxMembersPerGroup := 1
  namespaces_pos := by decide
  tasks_pos := by decide
  groups_pos := by decide
  members_pos := by decide

/-- A publication under that policy. -/
def publishOne (taskId : TaskId) : PublishTaskCommand where
  namespaceId := ⟨"builds", by decide⟩
  taskId := taskId
  objective := ⟨"Review the change.", by decide⟩
  createdAtMs := 1
  maxNamespaceTasks := oneEach.maxTasksPerNamespace

/-- A namespace with its one task. -/
def oneTaskPublished : List BrokerCommand :=
  [.ensureNamespace ⟨⟨"builds", by decide⟩, oneEach.maxNamespaces⟩,
    .publishTask (publishOne ⟨"task-1", by decide⟩)]

/-- The second task of the namespace is refused, and the first is there. -/
theorem second_task_refused :
    (apply (run initial oneTaskPublished)
      (.publishTask (publishOne ⟨"task-2", by decide⟩))).2 =
        .error (.capacityExceeded "Broker Task" 1) ∧
      (run initial oneTaskPublished).state.tasks.values.countP
        (·.namespaceId = ⟨"builds", by decide⟩) = 1 := by
  have hrefused : (apply (run initial oneTaskPublished)
      (.publishTask (publishOne ⟨"task-2", by decide⟩))).2 =
        .error (.capacityExceeded "Broker Task" 1) := by decide +kernel
  have hcarry : ∀ c ∈ oneTaskPublished, Carries oneEach c := by
    intro c hc
    rcases List.mem_cons.mp hc with rfl | hc
    · rfl
    · rw [List.mem_singleton.mp hc]
      rfl
  exact ⟨hrefused, (capacities_hold.1 oneEach oneTaskPublished hcarry).2.tasks
    (publishOne ⟨"task-2", by decide⟩) _ rfl hrefused rfl⟩

end BrokerStateMachine

end AgentBroker
