import AgentBroker.Domain.History
import AgentBroker.Domain.Removal
import AgentBroker.Domain.Retries

/-!
# Completion is final

A completed task is not touched by any command but the prune that deletes it.  Entries
that heaps and indexes may still hold for it are looked up by the state of the task, and
a completed task has no lease.

## Main results

* `completed_step` — one command keeps the record of a completed task, or it is a prune
  whose cutoff the completion has reached.
* `completion_final` — the same along every run, and what a later completion must show.
* `work_not_lost` — a published task is there until it has been completed and pruned.
-/

namespace AgentBroker

namespace BrokerStateMachine

variable {m : BrokerStateMachine} {t : TaskId} {task : Task} {payload : CompletedTask}

/-- The command is a prune that deletes the task, with a cutoff at or after `atMs`. -/
def Prunes (m : BrokerStateMachine) (t : TaskId) (atMs : TimestampMs) (c : BrokerCommand) : Prop :=
  ∃ prune, c = .pruneCompletedTasks prune ∧ atMs ≤ prune.completedBeforeMs ∧
    (apply m c).1.state.tasks.get t = none

/-- A prune deletes a completed task only up to its cutoff. -/
theorem cutoff_of_pruned (h : Indexed m) (c : PruneCompletedTasksCommand)
    (hget : m.state.tasks.get t = some task) (hstate : task.state = .completed payload)
    (hgone : (apply m (.pruneCompletedTasks c)).1.state.tasks.get t = none) :
    payload.completedAtMs ≤ c.completedBeforeMs := by
  rcases apply_cases h (.pruneCompletedTasks c) with ⟨result, hok, -⟩ | ⟨error, -, hfails⟩
  · have hdeleted := (apply_ok_of_wp (pruneCompletedTasks_deletes h.clearChanges c) hok).1
    have hlisted : t ∈ (oldestCompletions m.state c).map TimedTask.taskId := by
      by_contra hkept
      rw [hdeleted.others t hkept] at hgone
      exact nomatch hget.symm.trans hgone
    obtain ⟨e, he, rfl⟩ := List.mem_map.mp hlisted
    have hat : m.state.tasks.attr Task.completedAt e.taskId = some e.atMs :=
      (hdeleted.deleted e he).1
    have hcompletedAt : task.completedAt = some payload.completedAtMs :=
      Task.completedAt_eq_some_iff.mpr ⟨payload, hstate, rfl⟩
    rw [Registry.attr_of_get hget, hcompletedAt] at hat
    have hfiltered := (List.perm_insertionSort (· ≤ ·) _).mem_iff.mp (List.mem_of_mem_take he)
    rw [Option.some.inj hat]
    exact of_decide_eq_true (List.mem_filter.mp hfiltered).2
  · -- A prune that fails changes nothing.
    generalize (apply m (.pruneCompletedTasks c)).1 = after at hfails hgone
    cases hfails with
    | refused => exact nomatch hget.symm.trans hgone

/-- **One command** keeps the record of a completed task or is the prune that deletes
it. -/
theorem completed_step (h : Indexed m) (c : BrokerCommand)
    (hget : m.state.tasks.get t = some task) (hstate : task.state = .completed payload) :
    (apply m c).1.state.tasks.get t = some task ∨ m.Prunes t payload.completedAtMs c := by
  have hstep := apply_taskStep h c t
  rw [hget] at hstep
  generalize hafter : (apply m c).1.state.tasks.get t = after at hstep
  cases hstep with
  | kept => exact Or.inl rfl
  | dropped _ _ _ leased | expired _ _ _ _ leased | renewed _ _ _ leased
  | reclaimed _ _ _ _ leased | completed _ _ _ leased =>
    exact nomatch hstate.symm.trans leased
  | claimed _ _ _ _ queued => exact nomatch hstate.symm.trans queued
  | pruned prune => exact Or.inr ⟨prune, rfl, cutoff_of_pruned h prune hget hstate hafter, hafter⟩

/-- A completion of a completed task repeats its lease id and its result. -/
theorem repeated_of_complete_ok {c : CompleteTaskCommand} {applied : AppliedMutation}
    (hget : m.state.tasks.get c.taskId = some task) (hstate : task.state = .completed payload)
    (hok : (apply m (.completeTask c)).2 = .ok applied) :
    c.leaseId = payload.leaseId ∧ c.result = payload.result := by
  obtain ⟨found, ⟨outcome, after⟩, hfound, hcomplete⟩ :=
    ((apply_completeTask_ok_iff c).mp ⟨applied, hok⟩).task
  cases hget.symm.trans hfound
  rcases Task.complete_eq_ok_iff.mp hcomplete with
    ⟨lease, revision, hleased, -⟩ | ⟨completed, hcompleted, hlease, hresult, -⟩
  · exact nomatch hstate.symm.trans hleased
  · cases hstate.symm.trans hcompleted
    exact ⟨hlease.symm, hresult.symm⟩

/-- **Completion is final.**  Once a task is completed, its whole record is the same after
every later command, until a prune whose cutoff is at or after the completion deletes it;
and a completion of it succeeds only with its lease id and its result. -/
theorem completion_final (commands later : List BrokerCommand) (t : TaskId) (task : Task)
    (payload : CompletedTask) (hget : (run initial commands).state.tasks.get t = some task)
    (hstate : task.state = .completed payload) :
    ((run (run initial commands) later).state.tasks.get t = some task ∨
      ∃ first prune rest, later = first ++ .pruneCompletedTasks prune :: rest ∧
        payload.completedAtMs ≤ prune.completedBeforeMs ∧
        (run (run initial commands) first).state.tasks.get t = some task ∧
        (run (run initial commands) (first ++ [.pruneCompletedTasks prune])).state.tasks.get t =
          none) ∧
    ∀ c applied, c.taskId = t →
      (run (run initial commands) later).state.tasks.get t = some task →
      (apply (run (run initial commands) later) (.completeTask c)).2 = .ok applied →
      c.leaseId = payload.leaseId ∧ c.result = payload.result := by
  have h := run_indexed commands
  generalize run initial commands = m at h hget ⊢
  refine ⟨?_, ?_⟩
  · have hrun : (run m later).state.tasks.get t = some task ∨ ∃ first c rest,
        later = first ++ c :: rest ∧ (run m first).state.tasks.get t = some task ∧
          (run m first).Prunes t payload.completedAtMs c :=
      Run.final_or_broken (I := Indexed)
        (P := fun s : BrokerStateMachine => s.state.tasks.get t = some task)
        (fun _ c hs => apply_indexed hs c)
        (fun _ c hs hrecord => completed_step hs c hrecord hstate) h hget later
    rcases hrun with hkept | ⟨first, _, rest, hsplit, hrecord, prune, rfl, hcutoff, hgone⟩
    · exact Or.inl hkept
    · refine Or.inr ⟨first, prune, rest, hsplit, hcutoff, hrecord, ?_⟩
      rw [run, Run.final_append]
      exact hgone
  · rintro c applied rfl hrecord hok
    exact repeated_of_complete_ok hrecord hstate hok

/-- The record of the task that was leased and completed. -/
def finishedRecord : Task :=
  ⟨taskT, namespaceA, someObjective,
    0, 3, .completed ⟨leaseL,
      workerW, groupG, 1, 1,
      someResult, 0⟩⟩

/-- A prune of one task at the time of the completion. -/
def pruneNow : BrokerCommand := .pruneCompletedTasks ⟨0, 1⟩

/-- The completed task is there until it is pruned. -/
theorem finished_task_final :
    (run initial finishedTask).state.tasks.get taskT = some finishedRecord ∧
      ((run (run initial finishedTask) [pruneNow]).state.tasks.get taskT =
          some finishedRecord ∨
        ∃ first prune rest, [pruneNow] = first ++ .pruneCompletedTasks prune :: rest ∧
          (0 : TimestampMs) ≤ prune.completedBeforeMs ∧
          (run (run initial finishedTask) first).state.tasks.get taskT =
            some finishedRecord ∧
          (run (run initial finishedTask) (first ++ [.pruneCompletedTasks prune])).state.tasks.get
            taskT = none) := by
  have hget : (run initial finishedTask).state.tasks.get taskT =
      some finishedRecord := by decide +kernel
  exact ⟨hget, (completion_final finishedTask [pruneNow] _ finishedRecord _ hget rfl).1⟩

/-! ## Accepted work -/

/-- The record of the work is there. -/
def KeepsWork (task : Task) (t : TaskId) (m : BrokerStateMachine) : Prop :=
  ∃ task', m.state.tasks.get t = some task' ∧ Continues task task'

/-- The work has been completed, and the command prunes it. -/
def PrunesWork (task : Task) (t : TaskId) (m : BrokerStateMachine) (c : BrokerCommand) : Prop :=
  ∃ task' payload, m.state.tasks.get t = some task' ∧ Continues task task' ∧
    task'.state = .completed payload ∧ m.Prunes t payload.completedAtMs c

theorem KeepsWork.step (h : Indexed m) (c : BrokerCommand) (hkeeps : KeepsWork task t m) :
    KeepsWork task t (apply m c).1 ∨ PrunesWork task t m c := by
  obtain ⟨task', hget, hcontinues⟩ := hkeeps
  have hstep := apply_taskStep h c t
  rw [hget] at hstep
  cases hafter : (apply m c).1.state.tasks.get t with
  | some task'' =>
    rw [hafter] at hstep
    exact Or.inl ⟨task'', hafter, hcontinues.trans hstep.continues⟩
  | none =>
    rw [hafter] at hstep
    cases hstep with
    | pruned prune _ state =>
      exact Or.inr ⟨task', _, hget, hcontinues, state, prune, rfl,
        cutoff_of_pruned h prune hget state hafter, hafter⟩

/-- Accepted work is not lost.  After any further run a task is there with the same namespace,
objective and time of creation, and its record is the same if its revision is; or it was
completed on the way, and a prune whose cutoff the completion has reached deleted it. -/
theorem work_not_lost (commands later : List BrokerCommand) (t : TaskId) (task : Task)
    (hget : (run initial commands).state.tasks.get t = some task) :
    KeepsWork task t (run (run initial commands) later) ∨
      ∃ first c rest, later = first ++ c :: rest ∧
        PrunesWork task t (run (run initial commands) first) c := by
  refine (Run.final_or_broken (P := KeepsWork task t) (fun _ c h => apply_indexed h c)
    (fun _ c h => KeepsWork.step h c) (run_indexed commands) ⟨task, hget, rfl, Or.inl rfl⟩
      later).imp_right ?_
  rintro ⟨first, c, rest, hsplit, -, hprunes⟩
  exact ⟨first, c, rest, hsplit, hprunes⟩

/-- The completed task goes on until it is pruned. -/
theorem finished_task_not_lost :
    (run initial finishedTask).state.tasks.get taskT = some finishedRecord ∧
      (KeepsWork finishedRecord taskT (run (run initial finishedTask) [pruneNow]) ∨
        ∃ first c rest, [pruneNow] = first ++ c :: rest ∧
          PrunesWork finishedRecord taskT (run (run initial finishedTask) first) c) := by
  have hget : (run initial finishedTask).state.tasks.get taskT =
      some finishedRecord := by decide +kernel
  exact ⟨hget, work_not_lost finishedTask [pruneNow] _ finishedRecord hget⟩

end BrokerStateMachine

end AgentBroker
