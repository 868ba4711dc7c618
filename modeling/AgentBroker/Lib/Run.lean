import Mathlib.Data.List.Basic
import Mathlib.Order.Basic

/-!
# Runs of a deterministic transition system

A system takes inputs one at a time: `step s a` is the state after input `a`
together with the answer it gives.  `final` and `answers` are the last state and
the list of answers of a finite run.

* `final_invariant` — what holds at the start and is kept by every step holds at
  the end of every run; `final_invariant_of_meets` is the same rule for runs
  whose steps all meet a side condition.
* `final_or_broken` — what holds at the start holds at the end, or some step broke it.
* `final_eq_iff_meets` — a quantity that only grows ends where it began exactly when
  no step moves it.
* `simulation` — two systems related by a simulation answer every run alike.
-/

universe u v w z

namespace Run

variable {σ : Type u} {α : Type v} {ρ : Type w} {τ : Type z}

/-- The state at the end of a run. -/
def final (step : σ → α → σ × ρ) : σ → List α → σ
  | s, [] => s
  | s, a :: rest => final step (step s a).1 rest

/-- The answers given along a run. -/
def answers (step : σ → α → σ × ρ) : σ → List α → List ρ
  | _, [] => []
  | s, a :: rest => (step s a).2 :: answers step (step s a).1 rest

/-- Every step of the run meets the condition `ok` in the state it starts from. -/
def Meets (step : σ → α → σ × ρ) (ok : σ → α → Prop) : σ → List α → Prop
  | _, [] => True
  | s, a :: rest => ok s a ∧ Meets step ok (step s a).1 rest

instance decidableMeets (step : σ → α → σ × ρ) (ok : σ → α → Prop)
    [∀ s a, Decidable (ok s a)] : ∀ s as, Decidable (Meets step ok s as)
  | _, [] => isTrue trivial
  | s, a :: rest =>
    haveI := decidableMeets step ok (step s a).1 rest
    inferInstanceAs (Decidable (ok s a ∧ Meets step ok (step s a).1 rest))

@[simp] theorem final_nil (step : σ → α → σ × ρ) (s : σ) : final step s [] = s := rfl

@[simp] theorem final_cons (step : σ → α → σ × ρ) (s : σ) (a : α) (rest : List α) :
    final step s (a :: rest) = final step (step s a).1 rest := rfl

theorem final_append (step : σ → α → σ × ρ) (s : σ) (as bs : List α) :
    final step s (as ++ bs) = final step (final step s as) bs := by
  induction as generalizing s with
  | nil => rfl
  | cons a rest ih => exact ih (step s a).1

theorem meets_append {step : σ → α → σ × ρ} {ok : σ → α → Prop} {s : σ} {as bs : List α} :
    Meets step ok s (as ++ bs) ↔
      Meets step ok s as ∧ Meets step ok (final step s as) bs := by
  induction as generalizing s with
  | nil => simp [Meets]
  | cons a rest ih => simp only [List.cons_append, Meets, final_cons, ih, and_assoc]

/-- A condition on the inputs alone. -/
theorem meets_of_forall_mem {step : σ → α → σ × ρ} {ok : α → Prop} {as : List α}
    (h : ∀ a ∈ as, ok a) (s : σ) : Meets step (fun _ a => ok a) s as := by
  induction as generalizing s with
  | nil => trivial
  | cons a rest ih =>
    exact ⟨h a List.mem_cons_self, ih (fun b hb => h b (List.mem_cons_of_mem _ hb)) _⟩

/-- The invariant rule. -/
theorem final_invariant {step : σ → α → σ × ρ} {P : σ → Prop}
    (hstep : ∀ s a, P s → P (step s a).1) {s : σ} (hs : P s) (as : List α) :
    P (final step s as) := by
  induction as generalizing s with
  | nil => exact hs
  | cons a rest ih => exact ih (hstep s a hs)

/-- The invariant rule for runs whose steps all meet a side condition. -/
theorem final_invariant_of_meets {step : σ → α → σ × ρ} {P : σ → Prop}
    {ok : σ → α → Prop} (hstep : ∀ s a, P s → ok s a → P (step s a).1) {s : σ}
    (hs : P s) {as : List α} (hok : Meets step ok s as) : P (final step s as) := by
  induction as generalizing s with
  | nil => exact hs
  | cons a rest ih => exact ih (hstep s a hs hok.1) hok.2

/-- What holds at the start holds at the end, or a step of the run broke it. -/
theorem final_or_broken {step : σ → α → σ × ρ} {I P : σ → Prop} {broken : σ → α → Prop}
    (hI : ∀ s a, I s → I (step s a).1)
    (hstep : ∀ s a, I s → P s → P (step s a).1 ∨ broken s a) {s : σ} (hs : I s) (hP : P s)
    (as : List α) :
    P (final step s as) ∨ ∃ first a rest, as = first ++ a :: rest ∧
      P (final step s first) ∧ broken (final step s first) a := by
  induction as generalizing s with
  | nil => exact Or.inl hP
  | cons a rest ih =>
    rcases hstep s a hs hP with hkept | hbroken
    · rcases ih (hI s a hs) hkept with hend | ⟨first, b, tail, rfl, hfirst, hbroken⟩
      · exact Or.inl hend
      · exact Or.inr ⟨a :: first, b, tail, rfl, hfirst, hbroken⟩
    · exact Or.inr ⟨[], a, rest, rfl, hP, hbroken⟩

section Monotone

variable {β : Type z} [PartialOrder β] {step : σ → α → σ × ρ} {P : σ → Prop} {f : σ → β}

/-- A quantity that no step lowers is not lowered by a run. -/
theorem le_final (hP : ∀ s a, P s → P (step s a).1) (hle : ∀ s a, P s → f s ≤ f (step s a).1)
    {s : σ} (hs : P s) (as : List α) : f s ≤ f (final step s as) := by
  induction as generalizing s with
  | nil => exact le_rfl
  | cons a rest ih => exact (hle s a hs).trans (ih (hP s a hs))

/-- The same for runs whose steps all meet a side condition. -/
theorem le_final_of_meets {ok : σ → α → Prop} (hP : ∀ s a, P s → ok s a → P (step s a).1)
    (hle : ∀ s a, P s → ok s a → f s ≤ f (step s a).1) {s : σ} (hs : P s) {as : List α}
    (hok : Meets step ok s as) : f s ≤ f (final step s as) := by
  induction as generalizing s with
  | nil => exact le_rfl
  | cons a rest ih => exact (hle s a hs hok.1).trans (ih (hP s a hs hok.1) hok.2)

/-- It is unchanged by a run exactly when no step of the run changes it. -/
theorem final_eq_iff_meets (hP : ∀ s a, P s → P (step s a).1)
    (hle : ∀ s a, P s → f s ≤ f (step s a).1) {s : σ} (hs : P s) (as : List α) :
    f (final step s as) = f s ↔ Meets step (fun s a => f (step s a).1 = f s) s as := by
  induction as generalizing s with
  | nil => exact ⟨fun _ => trivial, fun _ => rfl⟩
  | cons a rest ih =>
    have hrest := ih (hP s a hs)
    constructor
    · intro heq
      -- What comes back to its value never left it.
      have hstep : f (step s a).1 = f s :=
        le_antisymm ((le_final hP hle (hP s a hs) rest).trans (le_of_eq heq)) (hle s a hs)
      exact ⟨hstep, hrest.mp (heq.trans hstep.symm)⟩
    · rintro ⟨hstep, hmeets⟩
      exact (hrest.mpr hmeets).trans hstep

end Monotone

/-- What the steps of a run emit. -/
def emitted {β : Type z} (step : σ → α → σ × ρ) (emit : σ → α → Option β) :
    σ → List α → List β
  | _, [] => []
  | s, a :: rest => (emit s a).toList ++ emitted step emit (step s a).1 rest

/-- The invariant rule for a state together with what was emitted on the way to it. -/
theorem emitted_invariant {β : Type z} {step : σ → α → σ × ρ} {emit : σ → α → Option β}
    {P : List β → σ → Prop}
    (hstep : ∀ bs s a, P bs s → P (bs ++ (emit s a).toList) (step s a).1) {s : σ}
    (hs : P [] s) (as : List α) : P (emitted step emit s as) (final step s as) := by
  have hgeneral : ∀ bs s, P bs s → P (bs ++ emitted step emit s as) (final step s as) := by
    intro bs s h
    induction as generalizing bs s with
    | nil =>
      rw [emitted, List.append_nil]
      exact h
    | cons a rest ih =>
      rw [emitted, ← List.append_assoc]
      exact ih _ _ (hstep bs s a h)
  exact hgeneral [] s hs

/-- The simulation rule: related systems that answer each input alike, and stay
related by it, answer whole runs alike and end related. -/
theorem simulation {stepS : σ → α → σ × ρ} {stepT : τ → α → τ × ρ}
    {R : σ → τ → Prop} {ok : σ → α → Prop}
    (hstep : ∀ s t a, R s t → ok s a →
      (stepS s a).2 = (stepT t a).2 ∧ R (stepS s a).1 (stepT t a).1)
    {s : σ} {t : τ} (hs : R s t) {as : List α} (hok : Meets stepS ok s as) :
    answers stepS s as = answers stepT t as ∧ R (final stepS s as) (final stepT t as) := by
  induction as generalizing s t with
  | nil => exact ⟨rfl, hs⟩
  | cons a rest ih =>
    obtain ⟨hans, hrel⟩ := hstep s t a hs hok.1
    obtain ⟨htail, hend⟩ := ih hrel hok.2
    exact ⟨by rw [answers, answers, hans, htail], hend⟩

end Run
