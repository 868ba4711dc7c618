/-!
# Fallible and stateful programs

A function that may refuse its input returns `Except ε α`; a method that mutates
its receiver and may fail half way is an `EStateM ε σ α`, whose failures carry
the state reached so far.  This module has the rules with which such programs
are taken apart in proofs, so that no proof unfolds a bind.

## Main results

* `Except.bind_eq_ok_iff`, `Except.bind_eq_error_iff` — how a sequence of
  fallible steps succeeds or fails.
* `EStateM.wp` with `EStateM.wp_bind`, `EStateM.wp_ofExcept` and their siblings —
  weakest preconditions for stateful programs, with one postcondition for success
  and one for failure.
* `EStateM.wp_foldlM` — the loop rule.
-/

universe u v

open List

namespace Except

variable {ε ε' : Type u} {α β : Type v}

/-- Go on only if `p` holds. -/
def require (p : Prop) [Decidable p] (e : ε) : Except ε PUnit.{v + 1} :=
  if p then .ok ⟨⟩ else .error e

@[simp] theorem require_eq_ok_iff {p : Prop} [Decidable p] {e : ε} {u : PUnit.{v + 1}} :
    require p e = .ok u ↔ p := by
  unfold require
  split <;> simp_all

@[simp] theorem require_eq_error_iff {p : Prop} [Decidable p] {e e' : ε} :
    (require p e : Except ε PUnit.{v + 1}) = .error e' ↔ ¬p ∧ e = e' := by
  unfold require
  split <;> simp_all

theorem require_pos {p : Prop} [Decidable p] {e : ε} (h : p) :
    (require p e : Except ε PUnit.{v + 1}) = .ok ⟨⟩ := if_pos h

theorem require_neg {p : Prop} [Decidable p] {e : ε} (h : ¬p) :
    (require p e : Except ε PUnit.{v + 1}) = .error e := if_neg h

theorem bind_eq_ok_iff {x : Except ε α} {f : α → Except ε β} {b : β} :
    (x >>= f) = .ok b ↔ ∃ a, x = .ok a ∧ f a = .ok b := by
  cases x <;> simp [bind, Except.bind]

theorem bind_eq_error_iff {x : Except ε α} {f : α → Except ε β} {e : ε} :
    (x >>= f) = .error e ↔ x = .error e ∨ ∃ a, x = .ok a ∧ f a = .error e := by
  cases x <;> simp [bind, Except.bind]

@[simp] theorem ok_bind (a : α) (f : α → Except ε β) : (.ok a >>= f) = f a := rfl

@[simp] theorem mapError_ok (g : ε → ε') (a : α) :
    (.ok a : Except ε α).mapError g = .ok a := rfl

@[simp] theorem mapError_error (g : ε → ε') (e : ε) :
    (.error e : Except ε α).mapError g = .error (g e) := rfl

@[simp] theorem mapError_eq_ok_iff {g : ε → ε'} {x : Except ε α} {a : α} :
    x.mapError g = .ok a ↔ x = .ok a := by
  cases x <;> simp

theorem mapError_eq_error_iff {g : ε → ε'} {x : Except ε α} {e : ε'} :
    x.mapError g = .error e ↔ ∃ e', x = .error e' ∧ g e' = e := by
  cases x <;> simp

theorem length_of_mapM_eq_ok {f : α → Except ε β} {l : List α} {l' : List β}
    (h : l.mapM f = .ok l') : l'.length = l.length := by
  induction l generalizing l' with
  | nil => cases h; rfl
  | cons a rest ih =>
    rw [mapM_cons] at h
    obtain ⟨b, -, h⟩ := bind_eq_ok_iff.mp h
    obtain ⟨bs, hbs, h⟩ := bind_eq_ok_iff.mp h
    cases h
    rw [length_cons, length_cons, ih hbs]

/-- The elements of the result are the images of the elements. -/
theorem mem_of_mapM_eq_ok {f : α → Except ε β} {l : List α} {l' : List β}
    (h : l.mapM f = .ok l') (b : β) : b ∈ l' ↔ ∃ a ∈ l, f a = .ok b := by
  induction l generalizing l' with
  | nil => cases h; simp
  | cons a rest ih =>
    rw [mapM_cons] at h
    obtain ⟨b', hb', h⟩ := bind_eq_ok_iff.mp h
    obtain ⟨bs, hbs, h⟩ := bind_eq_ok_iff.mp h
    cases h
    simp only [mem_cons, ih hbs, or_and_right, exists_or, exists_eq_left, hb', ok.injEq,
      @eq_comm _ b]

/-- A loop that succeeded did so in every round. -/
theorem exists_of_mapM_eq_ok {f : α → Except ε β} {l : List α} {l' : List β}
    (h : l.mapM f = .ok l') {a : α} (ha : a ∈ l) : ∃ b, f a = .ok b := by
  induction l generalizing l' with
  | nil => cases ha
  | cons _ _ ih =>
    rw [mapM_cons] at h
    obtain ⟨b', hb', h⟩ := bind_eq_ok_iff.mp h
    obtain ⟨bs, hbs, -⟩ := bind_eq_ok_iff.mp h
    cases ha with
    | head => exact ⟨b', hb'⟩
    | tail _ ha => exact ih hbs ha

/-- A loop whose rounds all succeed succeeds. -/
theorem exists_mapM_eq_ok {f : α → Except ε β} {l : List α}
    (h : ∀ a ∈ l, ∃ b, f a = .ok b) : ∃ l', l.mapM f = .ok l' := by
  induction l with
  | nil => exact ⟨[], rfl⟩
  | cons a rest ih =>
    obtain ⟨b, hb⟩ := h a mem_cons_self
    obtain ⟨bs, hbs⟩ := ih fun a' ha' => h a' (mem_cons_of_mem _ ha')
    refine ⟨b :: bs, ?_⟩
    rw [mapM_cons, hb, hbs]
    rfl

/-- A fallible function on an optional value succeeds where there is no value, or where it
succeeds on the value. -/
theorem optionMapM_eq_ok_iff {f : α → Except ε β} {x : Option α} {y : Option β} :
    x.mapM f = .ok y ↔
      (x = none ∧ y = none) ∨ ∃ a b, x = some a ∧ y = some b ∧ f a = .ok b := by
  cases x with
  | none =>
    constructor
    · intro h
      cases h
      exact Or.inl ⟨rfl, rfl⟩
    · rintro (⟨-, rfl⟩ | ⟨a, b, ha, -⟩)
      · rfl
      · cases ha
  | some a =>
    constructor
    · intro h
      obtain ⟨b, hb, h⟩ := bind_eq_ok_iff.mp h
      cases h
      exact Or.inr ⟨a, b, rfl, rfl, hb⟩
    · rintro (⟨h, -⟩ | ⟨a', b, ha, rfl, hb⟩)
      · cases h
      · cases ha
        exact bind_eq_ok_iff.mpr ⟨b, hb, rfl⟩

/-- A reader that undoes a writer, on optional values. -/
theorem optionMapM_eq_ok_iff_map {f : β → Except ε α} {g : α → β}
    (h : ∀ b a, f b = .ok a ↔ b = g a) {x : Option β} {y : Option α} :
    x.mapM f = .ok y ↔ x = y.map g := by
  rw [optionMapM_eq_ok_iff]
  cases x <;> cases y <;> simp [h]

/-- A loop of checks passes if and only if every check passes. -/
theorem forM_eq_ok_iff {f : α → Except ε PUnit.{v + 1}} {l : List α} {u : PUnit.{v + 1}} :
    forM l f = .ok u ↔ ∀ a ∈ l, f a = .ok ⟨⟩ := by
  induction l with
  | nil => simp [pure, Except.pure]
  | cons a rest ih =>
    rw [forM_cons, bind_eq_ok_iff]
    simp only [ih, forall_mem_cons]
    constructor
    · rintro ⟨⟨⟩, ha, hrest⟩
      exact ⟨ha, hrest⟩
    · rintro ⟨ha, hrest⟩
      exact ⟨⟨⟩, ha, hrest⟩

/-- Decoding the encoded elements of a list one by one gives the list back. -/
theorem mapM_map_eq_ok {f : β → Except ε α} {g : α → β} {l : List α}
    (h : ∀ a ∈ l, f (g a) = .ok a) : (l.map g).mapM f = .ok l := by
  induction l with
  | nil => rfl
  | cons a rest ih =>
    have hrest := ih fun b hb => h b (mem_cons_of_mem _ hb)
    rw [map_cons, mapM_cons, h a mem_cons_self, hrest]
    rfl

/-- **The loop rule**: a loop whose rounds all succeed.  `I rest b` holds before each
round, with `rest` the elements still to come. -/
theorem foldlM_rule {f : β → α → Except ε β} {I : List α → β → Prop}
    (hstep : ∀ a rest b, I (a :: rest) b → ∃ b', f b a = .ok b' ∧ I rest b')
    {l : List α} {b : β} (hinit : I l b) : ∃ b', l.foldlM f b = .ok b' ∧ I [] b' := by
  induction l generalizing b with
  | nil => exact ⟨b, rfl, hinit⟩
  | cons a rest ih =>
    obtain ⟨b', hb', hI⟩ := hstep a rest b hinit
    rw [foldlM_cons, hb', ok_bind]
    exact ih hI

/-- The loop rule for a loop that is known to have succeeded. -/
theorem foldlM_ok_rule {f : β → α → Except ε β} {I : List α → β → Prop}
    (hstep : ∀ a rest b b', I (a :: rest) b → f b a = .ok b' → I rest b')
    {l : List α} {b b' : β} (hinit : I l b) (hok : l.foldlM f b = .ok b') : I [] b' := by
  induction l generalizing b with
  | nil =>
    cases hok
    exact hinit
  | cons a rest ih =>
    rw [foldlM_cons] at hok
    obtain ⟨next, hnext, hrest⟩ := bind_eq_ok_iff.mp hok
    exact ih (hstep a rest b next hinit hnext) hrest

/-! ### Which errors are possible -/

/-- Every error of the program satisfies `P`. -/
def Raises (P : ε → Prop) (x : Except ε α) : Prop := ∀ e, x = .error e → P e

namespace Raises

variable {P : ε → Prop}

theorem ok (a : α) : Raises P (.ok a : Except ε α) := fun _ h => nomatch h

theorem require {p : Prop} [Decidable p] {e : ε} (h : P e) :
    Raises P (Except.require p e : Except ε PUnit.{v + 1}) := fun _ he =>
  (require_eq_error_iff.mp he).2 ▸ h

theorem mapError {g : ε' → ε} {x : Except ε' α} (h : ∀ e, P (g e)) :
    Raises P (x.mapError g) := fun _ he => by
  obtain ⟨e', -, rfl⟩ := mapError_eq_error_iff.mp he
  exact h e'

theorem bind {x : Except ε α} {f : α → Except ε β} (hx : Raises P x)
    (hf : ∀ a, x = .ok a → Raises P (f a)) : Raises P (x >>= f) := fun e he => by
  rcases bind_eq_error_iff.mp he with hfirst | ⟨a, ha, hrest⟩
  · exact hx e hfirst
  · exact hf a ha e hrest

theorem foldlM {f : β → α → Except ε β} (h : ∀ b a, Raises P (f b a)) (l : List α) (b : β) :
    Raises P (l.foldlM f b) := by
  induction l generalizing b with
  | nil => exact ok b
  | cons a rest ih =>
    rw [foldlM_cons]
    exact bind (h b a) fun next _ => ih next

end Raises

/-- The value of a present option, or the given failure. -/
def ofOption (e : ε) : Option α → Except ε α
  | some a => .ok a
  | none => .error e

@[simp] theorem ofOption_some (e : ε) (a : α) : ofOption e (some a) = .ok a := rfl

@[simp] theorem ofOption_none (e : ε) : ofOption e (none : Option α) = .error e := rfl

@[simp] theorem ofOption_eq_ok_iff {e : ε} {o : Option α} {a : α} :
    ofOption e o = .ok a ↔ o = some a := by
  cases o <;> simp

@[simp] theorem ofOption_eq_error_iff {e e' : ε} {o : Option α} :
    ofOption e o = .error e' ↔ o = none ∧ e = e' := by
  cases o <;> simp

end Except

namespace EStateM

variable {ε σ α β γ : Type u}

/-- Run a fallible computation that does not touch the state. -/
def ofExcept (x : Except ε α) : EStateM ε σ α := fun s =>
  match x with
  | .ok a => .ok a s
  | .error e => .error e s

/-! ## Weakest preconditions -/

/-- From `s`, the program either succeeds with a value and a state in `Q` or fails
with an error and a state in `E`. -/
def wp (x : EStateM ε σ α) (s : σ) (Q : α → σ → Prop) (E : ε → σ → Prop) : Prop :=
  match x.run s with
  | .ok a s' => Q a s'
  | .error e s' => E e s'

variable {s : σ} {Q : α → σ → Prop} {E : ε → σ → Prop}

@[simp] theorem wp_pure (a : α) : wp (pure a : EStateM ε σ α) s Q E ↔ Q a s := Iff.rfl

@[simp] theorem wp_get {Q : σ → σ → Prop} : wp (get : EStateM ε σ σ) s Q E ↔ Q s s := Iff.rfl

@[simp] theorem wp_set {Q : PUnit → σ → Prop} (s' : σ) :
    wp (set s' : EStateM ε σ PUnit) s Q E ↔ Q ⟨⟩ s' := Iff.rfl

@[simp] theorem wp_bind {x : EStateM ε σ α} {f : α → EStateM ε σ β} {Q : β → σ → Prop} :
    wp (x >>= f) s Q E ↔ wp x s (fun a s' => wp (f a) s' Q E) E := by
  unfold wp
  rw [run_bind]
  cases x.run s <;> rfl

@[simp] theorem wp_ofExcept {x : Except ε α} :
    wp (ofExcept x : EStateM ε σ α) s Q E ↔
      (∀ a, x = .ok a → Q a s) ∧ (∀ e, x = .error e → E e s) := by
  cases x <;> simp [wp, ofExcept, run]

/-- **Consequence**: postconditions may be weakened. -/
theorem wp_mono {x : EStateM ε σ α} {Q' : α → σ → Prop} {E' : ε → σ → Prop}
    (h : wp x s Q E) (hQ : ∀ a s', Q a s' → Q' a s') (hE : ∀ e s', E e s' → E' e s') :
    wp x s Q' E' := by
  unfold wp at h ⊢
  cases hx : x.run s with
  | ok a s' =>
    rw [hx] at h
    exact hQ a s' h
  | error e s' =>
    rw [hx] at h
    exact hE e s' h

/-- One outcome, as a weakest precondition. -/
theorem run_eq_ok_iff {x : EStateM ε σ α} {a : α} {s' : σ} :
    x.run s = .ok a s' ↔ wp x s (fun b t => b = a ∧ t = s') (fun _ _ => False) := by
  unfold wp
  cases x.run s with
  | ok | error => simp

/-- Nothing is asked of the program. -/
theorem wp_trivial (x : EStateM ε σ α) : wp x s (fun _ _ => True) (fun _ _ => True) := by
  unfold wp
  cases x.run s <;> trivial

/-- **The loop rule**.  `I rest b s` holds before each round, with `rest` the
elements still to come. -/
theorem wp_foldlM {f : β → γ → EStateM ε σ β} {l : List γ} {b : β} {Q : β → σ → Prop}
    {I : List γ → β → σ → Prop} (hinit : I l b s)
    (hstep : ∀ c rest b s, I (c :: rest) b s → wp (f b c) s (I rest) E)
    (hexit : ∀ b s, I [] b s → Q b s) : wp (l.foldlM f b) s Q E := by
  induction l generalizing b s with
  | nil => exact hexit b s hinit
  | cons c rest ih =>
    rw [foldlM_cons, wp_bind]
    exact wp_mono (hstep c rest b s hinit) (fun b' s' h => ih h) fun _ _ h => h

end EStateM
