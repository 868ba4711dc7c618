import Mathlib.Data.List.TakeWhile
import AgentBroker.Domain.Transitions

/-!
# Pruning completed tasks

A prune selects the oldest completed tasks on a copy of the completed heap, checks
that the task counts can go down, and then deletes as many tasks as it selected.
With exact indexes both loops walk over the same entries, and neither meets an
entry that names no completed task.

## Main results

* `selected_eq_oldest` — the selected entries are the oldest up to the cutoff.
* `prune_loops` — the deletion loop deletes exactly the tasks of the selected entries.
-/

namespace AgentBroker

open Registry List

namespace BrokerStateMachine

open EStateM (wp)

variable {m : BrokerStateMachine} {c : PruneCompletedTasksCommand}

/-- The task of one entry is deleted. -/
def pruneOne (m : BrokerStateMachine) (e : TimedTask) : BrokerStateMachine :=
  match m.state.tasks.get e.taskId with
  | none => m
  | some task => m.deleted task

/-- The tasks of a list of entries are deleted. -/
def pruneAll (m : BrokerStateMachine) (entries : List TimedTask) : BrokerStateMachine :=
  entries.foldl pruneOne m

theorem pruneOne_of_get {e : TimedTask} {task : Task}
    (h : m.state.tasks.get e.taskId = some task) : m.pruneOne e = m.deleted task := by
  rw [pruneOne, h]

theorem get_pruneOne (e : TimedTask) (t : TaskId) :
    (m.pruneOne e).state.tasks.get t = if t = e.taskId then none else m.state.tasks.get t := by
  unfold pruneOne
  cases hget : m.state.tasks.get e.taskId with
  | none =>
    split_ifs with ht
    · rw [ht, hget]
    · rfl
  | some =>
    rw [← key_of_get hget]
    exact Registry.get_erase _ _ _

/-- What no single deletion touches stays as it is. -/
theorem pruneAll_untouched {α : Type} (f : BrokerStateMachine → α)
    (hdeleted : ∀ (m : BrokerStateMachine) (task : Task), f (m.deleted task) = f m)
    (entries : List TimedTask) : f (m.pruneAll entries) = f m := by
  induction entries generalizing m with
  | nil => rfl
  | cons e rest ih =>
    refine (ih (m := m.pruneOne e)).trans ?_
    unfold pruneOne
    cases m.state.tasks.get e.taskId with
    | none => rfl
    | some task => exact hdeleted m task

theorem pruneAll_groups (entries : List TimedTask) :
    (m.pruneAll entries).state.groups = m.state.groups :=
  pruneAll_untouched (·.state.groups) (fun _ _ => rfl) entries

theorem get_pruneAll (entries : List TimedTask) (t : TaskId) :
    (m.pruneAll entries).state.tasks.get t =
      if t ∈ entries.map TimedTask.taskId then none else m.state.tasks.get t := by
  induction entries generalizing m with
  | nil => simp [pruneAll]
  | cons e rest ih =>
    have hrest : (m.pruneAll (e :: rest)).state.tasks.get t = _ := ih (m := m.pruneOne e)
    rw [hrest, get_pruneOne]
    by_cases ht : t = e.taskId
    · simp [ht]
    · simp [ht]

/-- Every entry of the completed heap names a completed task. -/
theorem completedNamespace_of_mem (h : Indexed m) {e : TimedTask} (he : e ∈ m.completedTasks) :
    ∃ task, m.state.tasks.get e.taskId = some task ∧
      completedNamespace m.state.tasks e = some task.namespaceId := by
  obtain ⟨task, hget, hat⟩ := attr_eq_some_iff.mp ((h.completed.mem_iff e).mp he)
  obtain ⟨payload, hstate, hatMs⟩ := Task.completedAt_eq_some_iff.mp hat
  refine ⟨task, hget, ?_⟩
  simp [completedNamespace, hget, hstate, hatMs]

/-- A namespace with a task has a count. -/
theorem exists_count (h : Indexed m) {task : Task} (hget : m.state.tasks.get task.id = some task) :
    m.namespaceTaskCounts.get task.namespaceId = some (m.taskCount task.namespaceId) := by
  have hpos : 0 < m.namespaceTaskCounts.getD task.namespaceId 0 := by
    rw [h.taskCounts task.namespaceId]
    exact Registry.countWhere_pos_of_get hget (by simp)
  unfold taskCount
  cases hcount : m.namespaceTaskCounts.get task.namespaceId with
  | none =>
    rw [OrdMap.getD_of_none hcount] at hpos
    exact absurd hpos (Nat.lt_irrefl 0)
  | some => rw [OrdMap.getD_of_get hcount]

/-! ## The loops -/

/-- The selection loop takes the entries up to the cutoff, as many as there is room for. -/
theorem popList_selectStep {tasks : Tasks} {l : List TimedTask}
    (hlive : ∀ e ∈ l, completedNamespace tasks e ≠ none)
    (selected : List (TimedTask × NamespaceId)) :
    (MinHeap.popList (selectStep tasks c) selected l).1.map Prod.fst =
      selected.map Prod.fst ++
        (l.takeWhile (·.atMs ≤ c.completedBeforeMs)).take (c.maxTasks.get - selected.length) := by
  induction l generalizing selected with
  | nil => simp [MinHeap.popList]
  | cons e rest ih =>
    obtain ⟨ns, hns⟩ := Option.ne_none_iff_exists'.mp (hlive e mem_cons_self)
    rw [MinHeap.popList, selectStep, hns]
    split_ifs with hfull hlate
    · rw [Nat.sub_eq_zero_of_le hfull, take_zero, append_nil]
    · have hnot : ¬decide (e.atMs ≤ c.completedBeforeMs) = true := by simpa using hlate
      rw [takeWhile_cons, if_neg hnot, take_nil, append_nil]
    · have hroom : c.maxTasks.get - selected.length =
          (c.maxTasks.get - (selected ++ [(e, ns)]).length) + 1 := by
        rw [length_append, length_singleton]
        omega
      rw [ih (fun e' he' => hlive e' (mem_cons_of_mem e he')), hroom, takeWhile_cons,
        if_pos (decide_eq_true (not_lt.mp hlate)), take_succ_cons, map_append, append_assoc]
      rfl

/-- The oldest completions, up to the cutoff and the bound of a prune. -/
def oldest (m : BrokerStateMachine) (c : PruneCompletedTasksCommand) : List TimedTask :=
  (m.completedTasks.entries.takeWhile (·.atMs ≤ c.completedBeforeMs)).take c.maxTasks.get

theorem length_oldest_le : (m.oldest c).length ≤ c.maxTasks.get := length_take_le _ _

theorem atMs_le_of_mem_oldest {e : TimedTask} (he : e ∈ m.oldest c) :
    e.atMs ≤ c.completedBeforeMs := by
  have hcut := mem_takeWhile_imp (mem_of_mem_take he)
  exact of_decide_eq_true hcut

/-- With exact indexes no entry of the completed heap is stale, so the loop skips none. -/
theorem selected_eq_oldest (h : Indexed m) :
    (m.completedTasks.popLoop (selectStep m.state.tasks c) []).1.map Prod.fst = m.oldest c := by
  refine (popList_selectStep (fun e he => ?_) []).trans rfl
  obtain ⟨task, -, hcompleted⟩ := completedNamespace_of_mem h he
  rw [hcompleted]
  exact Option.some_ne_none _

/-- One round of the deletion loop. -/
theorem pruneStep_eq_next {e : TimedTask} {l : List TimedTask}
    {hsorted : (e :: l).Pairwise (· ≤ ·)} {n count : Nat}
    (h : Indexed (m.withCompleted ⟨e :: l, hsorted⟩)) (hcount : count < n)
    (hcut : e.atMs ≤ c.completedBeforeMs) :
    pruneStep c n ⟨m, count, none⟩ e = .next ⟨m.pruneOne e, count + 1, none⟩ := by
  obtain ⟨task, hget, hcompleted⟩ :
      ∃ task, m.state.tasks.get e.taskId = some task ∧
        completedNamespace m.state.tasks e = some task.namespaceId :=
    completedNamespace_of_mem h mem_cons_self
  have hid : task.id = e.taskId := key_of_get hget
  have hcounted : m.namespaceTaskCounts.get task.namespaceId =
      some (m.taskCount task.namespaceId) :=
    exists_count h (show m.state.tasks.get task.id = some task by rw [hid, hget])
  unfold pruneStep
  dsimp only
  rw [if_neg (not_le.mpr hcount), if_neg (not_lt.mpr hcut), hcompleted]
  dsimp only
  rw [hcounted, pruneOne_of_get hget, deleted, hid]

/-- The deletion loop removes the selected tasks and pops their entries. -/
theorem popList_pruneStep {gone rest : List TimedTask} {n count : Nat}
    {hsorted : (gone ++ rest).Pairwise (· ≤ ·)}
    (h : Indexed (m.withCompleted ⟨gone ++ rest, hsorted⟩))
    (hcount : count + gone.length = n) (hcut : ∀ e ∈ gone, e.atMs ≤ c.completedBeforeMs) :
    MinHeap.popList (pruneStep c n) ⟨m, count, none⟩ (gone ++ rest) =
        (⟨m.pruneAll gone, n, none⟩, rest) ∧
      ∀ hrest, Indexed ((m.pruneAll gone).withCompleted ⟨rest, hrest⟩) := by
  induction gone generalizing m count with
  | nil =>
    refine ⟨?_, fun _ => h⟩
    have hn : count = n := hcount
    subst hn
    cases rest with
    | nil => rfl
    | cons => simp [MinHeap.popList, pruneStep, pruneAll]
  | cons e gone ih =>
    obtain ⟨task, hget, -⟩ :
        ∃ task, m.state.tasks.get e.taskId = some task ∧
          completedNamespace m.state.tasks e = some task.namespaceId :=
      completedNamespace_of_mem h mem_cons_self
    have hid : task.id = e.taskId := key_of_get hget
    have hlength : count + 1 + gone.length = n := by
      rw [length_cons] at hcount
      omega
    have hlt : count < n := by omega
    have hdelete : Indexed ((m.pruneOne e).withCompleted
        ⟨gone ++ rest, (pairwise_cons.mp hsorted).2⟩) := by
      rw [pruneOne_of_get hget]
      exact h.delete (by rw [hid, hget]) hid.symm
    obtain ⟨hloop, hindexed⟩ :=
      ih hdelete hlength fun e' he' => hcut e' (mem_cons_of_mem e he')
    refine ⟨?_, hindexed⟩
    rw [cons_append, MinHeap.popList, pruneStep_eq_next h hlt (hcut e mem_cons_self)]
    exact hloop

/-- What the two loops do together. -/
theorem prune_loops (h : Indexed m) :
    ∃ heap, m.oldest c ++ heap.entries = m.completedTasks.entries ∧
      m.completedTasks.popLoop (pruneStep c
          (m.completedTasks.popLoop (selectStep m.state.tasks c) []).1.length) ⟨m, 0, none⟩ =
        (⟨m.pruneAll (m.oldest c), (m.oldest c).length, none⟩, heap) ∧
      Indexed ((m.pruneAll (m.oldest c)).withCompleted heap) := by
  have hn : (m.completedTasks.popLoop (selectStep m.state.tasks c) []).1.length =
      (m.oldest c).length := by rw [← selected_eq_oldest h, length_map]
  obtain ⟨rest, hsplit⟩ : m.oldest c <+: m.completedTasks.entries :=
    ( take_prefix _ _).trans ( takeWhile_prefix _)
  have hsorted : (m.oldest c ++ rest).Pairwise (· ≤ ·) := hsplit ▸ m.completedTasks.sorted
  have hrest : rest.Pairwise (· ≤ ·) := (pairwise_append.mp hsorted).2.1
  have hheap : m.completedTasks = ⟨m.oldest c ++ rest, hsorted⟩ :=
    MinHeap.ext_perm (List.Perm.of_eq hsplit.symm)
  have hm : Indexed (m.withCompleted ⟨m.oldest c ++ rest, hsorted⟩) := by
    rw [← hheap]
    exact h
  obtain ⟨hloop, hindexed⟩ :=
    popList_pruneStep hm (Nat.zero_add (m.oldest c).length) fun _ => atMs_le_of_mem_oldest
  refine ⟨⟨rest, hrest⟩, hsplit, ?_, hindexed hrest⟩
  rw [hn]
  unfold MinHeap.popLoop
  simp only [← hsplit, hloop]

/-! ## The command -/

/-- The oldest completed tasks are deleted and the revision advances. -/
def pruned (m : BrokerStateMachine) (gone : List TimedTask) (heap : MinHeap TimedTask)
    (revision : Revision) : BrokerStateMachine :=
  { (m.pruneAll gone).withCompleted heap with
    state := { (m.pruneAll gone).state with revision := revision } }

end BrokerStateMachine

end AgentBroker
