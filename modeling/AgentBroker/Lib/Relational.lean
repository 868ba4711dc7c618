import AgentBroker.Lib.Effects

/-!
# Two runs of stateful programs

`EStateM.Rel R x y s t`: run from `s` and `t`, the programs `x` and `y` both succeed
with one value or both fail with one error, and the states they reach are related by
`R`.  The rules follow the structure of the programs, so that two runs of one program
are compared step by step without running it.

* `rel_bind`, `rel_get_bind`, `rel_set_bind`, `rel_ofExcept_bind` — sequencing.
* `rel_foldlM` — the loop rule.
-/

universe u

namespace EStateM

variable {ε σ α β γ : Type u}

/-- Both programs succeed with the same value or fail with the same error, in states
related by `R`. -/
def Rel (R : σ → σ → Prop) (x y : EStateM ε σ α) (s t : σ) : Prop :=
  match x.run s, y.run t with
  | .ok a s', .ok b t' => a = b ∧ R s' t'
  | .error e s', .error e' t' => e = e' ∧ R s' t'
  | _, _ => False

variable {R : σ → σ → Prop} {s t : σ}

theorem rel_pure (a : α) (h : R s t) : Rel R (pure a : EStateM ε σ α) (pure a) s t := ⟨rfl, h⟩

theorem rel_bind {x y : EStateM ε σ α} {f g : α → EStateM ε σ β} (h : Rel R x y s t)
    (hf : ∀ a s' t', R s' t' → Rel R (f a) (g a) s' t') : Rel R (x >>= f) (y >>= g) s t := by
  unfold Rel at h ⊢
  rw [run_bind, run_bind]
  cases hx : x.run s with
  | ok a s' =>
    cases hy : y.run t with
    | ok b t' =>
      rw [hx, hy] at h
      obtain ⟨rfl, hR⟩ := h
      exact hf a s' t' hR
    | error =>
      rw [hx, hy] at h
      exact h.elim
  | error =>
    cases hy : y.run t with
    | ok =>
      rw [hx, hy] at h
      exact h.elim
    | error =>
      rw [hx, hy] at h
      exact h

theorem rel_get_bind {f g : σ → EStateM ε σ β} (h : Rel R (f s) (g t) s t) :
    Rel R (get >>= f) (get >>= g) s t := h

theorem rel_set_bind {s' t' : σ} {f g : PUnit → EStateM ε σ β}
    (h : Rel R (f ⟨⟩) (g ⟨⟩) s' t') : Rel R (set s' >>= f) (set t' >>= g) s t := h

theorem rel_ofExcept {x : Except ε α} (h : R s t) : Rel R (ofExcept x) (ofExcept x) s t := by
  cases x <;> exact ⟨rfl, h⟩

theorem rel_ofExcept_bind {x : Except ε α} {f g : α → EStateM ε σ β} (h : R s t)
    (hf : ∀ a, x = .ok a → Rel R (f a) (g a) s t) :
    Rel R (ofExcept x >>= f) (ofExcept x >>= g) s t := by
  cases x with
  | ok a => exact hf a rfl
  | error e => exact ⟨rfl, h⟩

/-- **The loop rule** for two runs over one list. -/
theorem rel_foldlM {f g : β → γ → EStateM ε σ β} (l : List γ) (b : β) (h : R s t)
    (hstep : ∀ b c s t, R s t → Rel R (f b c) (g b c) s t) :
    Rel R (l.foldlM f b) (l.foldlM g b) s t := by
  induction l generalizing b s t with
  | nil => exact ⟨rfl, h⟩
  | cons c rest ih =>
    rw [List.foldlM_cons, List.foldlM_cons]
    exact rel_bind (hstep b c s t h) fun b' s' t' h' => ih b' h'

end EStateM
