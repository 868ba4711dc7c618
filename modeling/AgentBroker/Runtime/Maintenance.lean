import AgentBroker.Consensus.Standalone
import AgentBroker.Domain.Sweep

/-!
# Maintenance

One tick of the maintenance of a Broker (`standalone_maintenance.rs`): it reaps stale members
in batches, at most so many, and then prunes completed tasks in the same way.  A batch that
is not full is the last of its kind.

## Main results

* `reapBatches_sweeps`, `pruneBatches_sweeps` — the loops remove the first entries of one
  list, each batch from where the last one ended.
* `tick_is_one_sweep` — a tick is one bounded sweep.
-/

namespace AgentBroker

open EStateM List
open EStateM (wp)

/-- `StandaloneMaintenancePolicy`. -/
structure StandaloneMaintenancePolicy where
  completedTaskRetentionMs : U64
  memberTimeoutMs : U64
  intervalMs : Ranged 100 3600000
  pruneBatch : Ranged 1 4096
  maxPruneBatchesPerTick : Ranged 1 64
  reapBatch : Ranged 1 4096
  maxReapBatchesPerTick : Ranged 1 64

/-- `StandaloneMaintenancePolicy::new`; the error is the text of the invalid configuration. -/
def StandaloneMaintenancePolicy.new (completedTaskRetentionMs memberTimeoutMs intervalMs : U64)
    (pruneBatch maxPruneBatchesPerTick reapBatch maxReapBatchesPerTick : Usize) :
    Except String StandaloneMaintenancePolicy := do
  let intervalMs ←
    Ranged.new "maintenance interval_ms must be between 100 and 3600000" intervalMs
  let pruneBatch ← Ranged.new "maintenance prune_batch must be between 1 and 4096" pruneBatch
  let maxPruneBatchesPerTick ←
    Ranged.new "max_prune_batches_per_tick must be between 1 and 64" maxPruneBatchesPerTick
  let reapBatch ← Ranged.new "maintenance reap_batch must be between 1 and 4096" reapBatch
  let maxReapBatchesPerTick ←
    Ranged.new "max_reap_batches_per_tick must be between 1 and 64" maxReapBatchesPerTick
  return ⟨completedTaskRetentionMs, memberTimeoutMs, intervalMs, pruneBatch,
    maxPruneBatchesPerTick, reapBatch, maxReapBatchesPerTick⟩

/-- `StandaloneMaintenancePolicy::default`. -/
def StandaloneMaintenancePolicy.default : StandaloneMaintenancePolicy where
  completedTaskRetentionMs := ⟨24 * 60 * 60 * 1000, by decide⟩
  memberTimeoutMs := 45000
  intervalMs := ⟨5000, by decide, by decide⟩
  pruneBatch := ⟨1024, by decide, by decide⟩
  maxPruneBatchesPerTick := ⟨4, by decide, by decide⟩
  reapBatch := ⟨1024, by decide, by decide⟩
  maxReapBatchesPerTick := ⟨4, by decide, by decide⟩

/-- `StandaloneMaintenanceResult`. -/
structure StandaloneMaintenanceResult where
  prunedCompletedTasks : Nat
  reapedStaleMembers : Nat
  deriving DecidableEq, Repr

/-- `u64::saturating_sub` on a timestamp. -/
def TimestampMs.saturatingSub (t : TimestampMs) (ms : U64) : TimestampMs :=
  ⟨t.get - ms.get, lt_of_le_of_lt (Nat.sub_le _ _) t.isLt⟩

section Tick

variable {σ : Type} (adapter : ConsensusAdapter σ)

/-- Up to `remaining` batches of a command that answers with a count; `total` counts what was
done before. -/
def batches (batch : Nat) (step : EStateM BrokerError σ Nat) :
    Nat → Nat → EStateM BrokerError σ Nat
  | 0, total => pure total
  | remaining + 1, total => do
      let count ← step
      let total := saturatingAdd total count
      if count < batch then pure total else batches batch step remaining total

/-- `run_once`. -/
def runOnce (policy : StandaloneMaintenancePolicy) (nowMs : TimestampMs) :
    EStateM BrokerError σ StandaloneMaintenanceResult := do
  let reapLimit ← EStateM.ofExcept ((ReapMemberLimit.new policy.reapBatch.get).mapError
    (BrokerError.new .internalError))
  let pruneLimit ← EStateM.ofExcept ((PruneTaskLimit.new policy.pruneBatch.get).mapError
    (BrokerError.new .internalError))
  let staleBeforeMs := nowMs.saturatingSub policy.memberTimeoutMs
  let completedBeforeMs := nowMs.saturatingSub policy.completedTaskRetentionMs
  let reapedStaleMembers ← batches policy.reapBatch.get.get
    (do return (← adapter.reapStaleMembers staleBeforeMs reapLimit).reapedCount)
    policy.maxReapBatchesPerTick.get.get 0
  let prunedCompletedTasks ← batches policy.pruneBatch.get.get
    (do return (← adapter.pruneCompletedTasks completedBeforeMs pruneLimit).prunedCount)
    policy.maxPruneBatchesPerTick.get.get 0
  return ⟨prunedCompletedTasks, reapedStaleMembers⟩

end Tick

/-! ## Batches -/

section Batches

variable {σ α : Type}

/-- **Batches of the first entries are the first entries.**  `Q s todo` says that `todo` is
what is left to do in state `s`, and `R` collects what was done. -/
theorem wp_batches {step : EStateM BrokerError σ Nat} {batch : Nat} {Q : σ → List α → Prop}
    {R : σ → σ → List α → Prop} (hrefl : ∀ s, R s s [])
    (htrans : ∀ {s t u done done'}, R s t done → R t u done' → R s u (done ++ done'))
    (hstep : ∀ s todo, Q s todo → wp step s
      (fun count t => count = (todo.take batch).length ∧ R s t (todo.take batch) ∧
        Q t (todo.drop batch)) (fun _ _ => True))
    {s : σ} {todo : List α} (hs : Q s todo) {remaining total : Nat}
    (hbound : total + batch * remaining < u64Size) :
    wp (batches batch step remaining total) s
      (fun total' t => total' = total + (todo.take (batch * remaining)).length ∧
        R s t (todo.take (batch * remaining)) ∧ Q t (todo.drop (batch * remaining)))
      (fun _ _ => True) := by
  induction remaining generalizing s todo total with
  | zero =>
    rw [Nat.mul_zero, take_zero, drop_zero]
    exact ⟨rfl, hrefl s, hs⟩
  | succ remaining ih =>
    unfold batches
    refine wp_bind.mpr (wp_mono (hstep s todo hs) ?_ fun _ _ _ => trivial)
    rintro count t ⟨rfl, hdone, hrest⟩
    have hsplit : batch * (remaining + 1) = batch + batch * remaining := by
      rw [Nat.mul_succ, Nat.add_comm]
    have hlength := length_take_le batch todo
    have hsum : saturatingAdd total (todo.take batch).length =
        total + (todo.take batch).length := by
      unfold saturatingAdd
      omega
    dsimp only
    rw [hsum, hsplit]
    by_cases hlast : (todo.take batch).length < batch
    · -- The batch was not full, so nothing is left.
      have hshort : todo.length ≤ batch := by
        rw [length_take] at hlast
        omega
      have hshort' : todo.length ≤ batch + batch * remaining := hshort.trans (Nat.le_add_right _ _)
      rw [if_pos hlast, take_of_length_le hshort', drop_eq_nil_of_le hshort']
      rw [take_of_length_le hshort, drop_eq_nil_of_le hshort] at *
      exact ⟨rfl, hdone, hrest⟩
    · rw [if_neg hlast]
      have hbound' : total + (todo.take batch).length + batch * remaining < u64Size := by
        omega
      refine wp_mono (ih hrest hbound') ?_ fun _ _ h => h
      rintro total' u ⟨rfl, hmore, hleft⟩
      rw [take_add, length_append, Nat.add_assoc]
      refine ⟨rfl, htrans hdone hmore, ?_⟩
      rw [drop_drop] at hleft
      exact hleft

end Batches

section Sweeps

open BrokerStateMachine

variable {σ : Type} {adapter : ConsensusAdapter σ} {machine : σ → BrokerStateMachine}

/-- One batch of reaping. -/
theorem wp_reapStaleMembers (hadapter : adapter.AppliesOnce machine) {s : σ}
    (hs : (machine s).Indexed) (cutoff : TimestampMs) (limit : ReapMemberLimit) :
    wp (do return (← adapter.reapStaleMembers cutoff limit).reapedCount) s
      (fun count t =>
        count = ((reapCandidates (machine s).state cutoff).take limit.get.get).length ∧
        Swept (machine s).state (machine t).state
          ((reapCandidates (machine s).state cutoff).take limit.get.get) [] ∧
        (machine t).Indexed)
      (fun _ _ => True) := by
  unfold ConsensusAdapter.reapStaleMembers
  rw [wp_bind, wp_bind]
  refine wp_mono (hadapter.wp_propose (reapStaleMembers_reaps hs.clearChanges _)) ?_
    fun _ _ _ => trivial
  rintro result t ⟨hmachine, hreaped, rfl⟩
  exact ⟨rfl, hreaped.swept, hmachine ▸ apply_indexed hs _⟩

/-- One batch of pruning. -/
theorem wp_pruneCompletedTasks (hadapter : adapter.AppliesOnce machine) {s : σ}
    (hs : (machine s).Indexed) (cutoff : TimestampMs) (limit : PruneTaskLimit) :
    wp (do return (← adapter.pruneCompletedTasks cutoff limit).prunedCount) s
      (fun count t =>
        count = ((prunable (machine s).state cutoff).take limit.get.get).length ∧
        Swept (machine s).state (machine t).state []
          ((prunable (machine s).state cutoff).take limit.get.get) ∧
        (machine t).Indexed)
      (fun _ _ => True) := by
  unfold ConsensusAdapter.pruneCompletedTasks
  rw [wp_bind, wp_bind]
  refine wp_mono (hadapter.wp_propose (pruneCompletedTasks_deletes hs.clearChanges _)) ?_
    fun _ _ _ => trivial
  rintro result t ⟨hmachine, hdeleted, rfl⟩
  exact ⟨rfl, hdeleted.swept, hmachine ▸ apply_indexed hs _⟩

/-- The counts of a tick stay far below the bounds of a number. -/
theorem batches_bound (limit : Ranged 1 maxMaintenanceBatch) (count : Ranged 1 64) :
    0 + limit.get.get * count.get.get < u64Size := by
  have hle : limit.get.get * count.get.get ≤ maxMaintenanceBatch * 64 :=
    Nat.mul_le_mul limit.le_hi count.le_hi
  have hmax : maxMaintenanceBatch * 64 < u64Size := by decide
  omega

/-- The loop of reaping. -/
theorem reapBatches_sweeps (hadapter : adapter.AppliesOnce machine) {s : σ}
    (hs : (machine s).Indexed) (cutoff : TimestampMs) (limit : ReapMemberLimit)
    (count : Ranged 1 64) :
    wp (batches limit.get.get
        (do return (← adapter.reapStaleMembers cutoff limit).reapedCount) count.get.get 0) s
      (fun total t =>
        total = ((reapCandidates (machine s).state cutoff).take
          (limit.get.get * count.get.get)).length ∧
        Swept (machine s).state (machine t).state
          ((reapCandidates (machine s).state cutoff).take (limit.get.get * count.get.get)) [] ∧
        (machine t).Indexed)
      (fun _ _ => True) := by
  refine wp_mono (wp_batches
    (Q := fun s todo => (machine s).Indexed ∧ reapCandidates (machine s).state cutoff = todo)
    (R := fun s t done => Swept (machine s).state (machine t).state done [])
    (fun s => Swept.refl _) (fun h h' => h.trans h') ?_ ⟨hs, rfl⟩ (batches_bound limit count))
    ?_ fun _ _ h => h
  · rintro s todo ⟨hs, rfl⟩
    refine wp_mono (wp_reapStaleMembers hadapter hs cutoff limit) ?_ fun _ _ h => h
    rintro n t ⟨hn, hswept, ht⟩
    exact ⟨hn, hswept, ht, reapCandidates_of_swept hswept⟩
  · rintro total t ⟨htotal, hswept, ht, -⟩
    rw [Nat.zero_add] at htotal
    exact ⟨htotal, hswept, ht⟩

/-- The loop of pruning. -/
theorem pruneBatches_sweeps (hadapter : adapter.AppliesOnce machine) {s : σ}
    (hs : (machine s).Indexed) (cutoff : TimestampMs) (limit : PruneTaskLimit)
    (count : Ranged 1 64) :
    wp (batches limit.get.get
        (do return (← adapter.pruneCompletedTasks cutoff limit).prunedCount) count.get.get 0) s
      (fun total t =>
        total = ((prunable (machine s).state cutoff).take
          (limit.get.get * count.get.get)).length ∧
        Swept (machine s).state (machine t).state []
          ((prunable (machine s).state cutoff).take (limit.get.get * count.get.get)) ∧
        (machine t).Indexed)
      (fun _ _ => True) := by
  refine wp_mono (wp_batches
    (Q := fun s todo => (machine s).Indexed ∧ prunable (machine s).state cutoff = todo)
    (R := fun s t done => Swept (machine s).state (machine t).state [] done)
    (fun s => Swept.refl _) (fun h h' => h.trans h') ?_ ⟨hs, rfl⟩ (batches_bound limit count))
    ?_ fun _ _ h => h
  · rintro s todo ⟨hs, rfl⟩
    refine wp_mono (wp_pruneCompletedTasks hadapter hs cutoff limit) ?_ fun _ _ h => h
    rintro n t ⟨hn, hswept, ht⟩
    exact ⟨hn, hswept, ht, prunable_of_swept hswept⟩
  · rintro total t ⟨htotal, hswept, ht, -⟩
    rw [Nat.zero_add] at htotal
    exact ⟨htotal, hswept, ht⟩

/-- The stale members that one tick can reap. -/
def StandaloneMaintenancePolicy.dueMembers (policy : StandaloneMaintenancePolicy)
    (nowMs : TimestampMs) (state : BrokerState) : List ReapCandidate :=
  (reapCandidates state (nowMs.saturatingSub policy.memberTimeoutMs)).take
    (policy.reapBatch.get.get * policy.maxReapBatchesPerTick.get.get)

/-- The completed tasks that one tick can prune. -/
def StandaloneMaintenancePolicy.dueTasks (policy : StandaloneMaintenancePolicy)
    (nowMs : TimestampMs) (state : BrokerState) : List TimedTask :=
  (prunable state (nowMs.saturatingSub policy.completedTaskRetentionMs)).take
    (policy.pruneBatch.get.get * policy.maxPruneBatchesPerTick.get.get)

/-- What a tick over a machine with exact indexes removes, and what it reports. -/
theorem wp_runOnce (hadapter : adapter.AppliesOnce machine)
    (policy : StandaloneMaintenancePolicy) (nowMs : TimestampMs) {s : σ}
    (hs : (machine s).Indexed) :
    wp (runOnce adapter policy nowMs) s
      (fun result t => Swept (machine s).state (machine t).state
          (policy.dueMembers nowMs (machine s).state) (policy.dueTasks nowMs (machine s).state) ∧
        result.reapedStaleMembers = (policy.dueMembers nowMs (machine s).state).length ∧
        result.prunedCompletedTasks = (policy.dueTasks nowMs (machine s).state).length)
      (fun _ _ => True) := by
  unfold runOnce ReapMemberLimit.new PruneTaskLimit.new
  have hreap : (Ranged.new (maintenanceBatchOutOfRange "max_members") policy.reapBatch.get :
      Except String ReapMemberLimit) = .ok policy.reapBatch := Ranged.new_get _ policy.reapBatch
  have hprune : (Ranged.new (maintenanceBatchOutOfRange "max_tasks") policy.pruneBatch.get :
      Except String PruneTaskLimit) = .ok policy.pruneBatch := Ranged.new_get _ policy.pruneBatch
  rw [hreap, hprune]
  refine wp_bind.mpr (wp_bind.mpr (wp_bind.mpr ?_))
  refine wp_mono (reapBatches_sweeps hadapter hs _ policy.reapBatch
    policy.maxReapBatchesPerTick) ?_ fun _ _ h => h
  rintro reaped t ⟨rfl, hreaped, ht⟩
  refine wp_bind.mpr (wp_mono (pruneBatches_sweeps hadapter ht _
    policy.pruneBatch policy.maxPruneBatchesPerTick) ?_ fun _ _ h => h)
  -- The members that were reaped leave the completed tasks as they are.
  rw [prunable_of_reaped hreaped]
  rintro pruned u ⟨rfl, hpruned, -⟩
  have hboth := hreaped.trans hpruned
  rw [append_nil, nil_append] at hboth
  exact ⟨hboth, rfl, rfl⟩

/-- The same of a tick that succeeded. -/
theorem runOnce_sweeps (hadapter : adapter.AppliesOnce machine)
    {policy : StandaloneMaintenancePolicy} {nowMs : TimestampMs} {s s' : σ}
    (hs : (machine s).Indexed) {result : StandaloneMaintenanceResult}
    (hrun : (runOnce adapter policy nowMs).run s = .ok result s') :
    Swept (machine s).state (machine s').state (policy.dueMembers nowMs (machine s).state)
        (policy.dueTasks nowMs (machine s).state) ∧
      result.reapedStaleMembers = (policy.dueMembers nowMs (machine s).state).length ∧
      result.prunedCompletedTasks = (policy.dueTasks nowMs (machine s).state).length := by
  have hwp := wp_runOnce hadapter policy nowMs hs
  unfold wp at hwp
  rw [hrun] at hwp
  exact hwp

/-- **A tick is one bounded sweep.**  A tick that succeeds has removed the first of the stale
members and the first of the old completed tasks, as many as all its batches hold, and reports
how many these were. -/
theorem tick_is_one_sweep (hadapter : adapter.AppliesOnce machine)
    (policy : StandaloneMaintenancePolicy) (nowMs : TimestampMs) {s s' : σ}
    {commands : List BrokerCommand} (hs : machine s = run initial commands)
    {result : StandaloneMaintenanceResult}
    (hrun : (runOnce adapter policy nowMs).run s = .ok result s') :
    let members := (reapCandidates (machine s).state
      (nowMs.saturatingSub policy.memberTimeoutMs)).take
        (policy.reapBatch.get.get * policy.maxReapBatchesPerTick.get.get)
    let tasks := (prunable (machine s).state
      (nowMs.saturatingSub policy.completedTaskRetentionMs)).take
        (policy.pruneBatch.get.get * policy.maxPruneBatchesPerTick.get.get)
    Swept (machine s).state (machine s').state members tasks ∧
      result.reapedStaleMembers = members.length ∧
      result.prunedCompletedTasks = tasks.length := by
  intro members tasks
  have hindexed : (machine s).Indexed := hs ▸ run_indexed commands
  exact runOnce_sweeps hadapter hindexed hrun

/-- An adapter with nothing but a machine. -/
def memoryConsensus : ConsensusAdapter BrokerStateMachine where
  term m := m.state.term
  revision m := m.state.revision
  propose command := fun m =>
    match BrokerStateMachine.apply m command with
    | (m, .ok applied) => .ok applied.result m
    | (m, .error error) => .error (.ofStateMachine error) m

theorem memoryConsensus_appliesOnce : memoryConsensus.AppliesOnce id := by
  intro command m result m' hrun
  change (match BrokerStateMachine.apply m command with
    | (m, .ok applied) => EStateM.Result.ok applied.result m
    | (m, .error error) => .error (BrokerError.ofStateMachine error) m) = .ok result m' at hrun
  rcases happly : BrokerStateMachine.apply m command with ⟨m'', error | applied⟩
  · rw [happly] at hrun
    cases hrun
  · rw [happly] at hrun
    cases hrun
    dsimp only [id]
    rw [happly]
    exact ⟨rfl, applied.changes, rfl⟩

/-- The worker of a completed task has gone, and both are removed. -/
theorem tick_removes_worker_and_task :
    ∃ result s', (runOnce memoryConsensus .default 100000000).run
        (run initial finishedTask) = .ok result s' ∧
      result = ⟨1, 1⟩ ∧
      Swept (run initial finishedTask).state s'.state
        ((reapCandidates (run initial finishedTask).state 99955000).take 4096)
        ((prunable (run initial finishedTask).state 13600000).take 4096) := by
  have hresult : (match (runOnce memoryConsensus .default 100000000).run
      (run initial finishedTask) with
    | .ok result _ => some result
    | .error _ _ => none) = some ⟨1, 1⟩ := by decide +kernel
  cases hrun : (runOnce memoryConsensus .default 100000000).run
      (run initial finishedTask) with
  | ok result s' =>
    rw [hrun] at hresult
    cases hresult
    obtain ⟨hswept, -, -⟩ := tick_is_one_sweep memoryConsensus_appliesOnce .default
      100000000 (s := run initial finishedTask) rfl hrun
    exact ⟨_, s', rfl, rfl, hswept⟩
  | error error s' =>
    rw [hrun] at hresult
    cases hresult

/-! ## A tick of the standalone Broker -/

section Standalone

variable {snapshotJson : Codec SnapshotWire} {json : LineCodec JournalMutationWire}

end Standalone

end Sweeps

end AgentBroker
