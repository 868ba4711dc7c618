import Mathlib.Data.List.Basic
import Mathlib.Data.List.Sort
import Mathlib.Order.Basic

/-!
# Min-heaps

A binary heap over a total order is observed only through `push`, `peek` and
`pop`, and `pop` always returns a least element.  Elements that compare equal are
equal, so the heap is determined by the multiset it holds; `MinHeap` is that
multiset in its one sorted arrangement, and `pop` takes the head.

A loop that pops until some condition holds is `popLoop`: its step looks at the
least element and decides whether to leave it in the heap (`keep`), to pop it and
go on (`next`), or to pop it and leave the loop (`stop`).
-/

open List

universe u v

/-- A min-heap: the elements it holds, in increasing order. -/
structure MinHeap (α : Type u) [LinearOrder α] where
  entries : List α
  sorted : entries.Pairwise (· ≤ ·)

/-- The decision of a pop loop at the least element of its heap. -/
inductive PopDecision (σ : Type v) where
  | keep
  | next (s : σ)
  | stop (s : σ)

namespace MinHeap

variable {α : Type u} {σ : Type v} [LinearOrder α]

/-- The heap without elements. -/
def empty : MinHeap α := ⟨[], List.Pairwise.nil⟩

instance : EmptyCollection (MinHeap α) := ⟨empty⟩

instance : Inhabited (MinHeap α) := ⟨empty⟩

instance : DecidableEq (MinHeap α) := fun h h' =>
  decidable_of_iff (h.entries = h'.entries)
    ⟨fun e => by cases h; cases h'; cases e; rfl, fun e => e ▸ rfl⟩

instance : Membership α (MinHeap α) := ⟨fun h a => a ∈ h.entries⟩

theorem mem_def {h : MinHeap α} {a : α} : a ∈ h ↔ a ∈ h.entries := Iff.rfl

instance (h : MinHeap α) (a : α) : Decidable (a ∈ h) :=
  inferInstanceAs (Decidable (a ∈ h.entries))

/-- Add an element. -/
def push (h : MinHeap α) (a : α) : MinHeap α :=
  ⟨h.entries.orderedInsert (· ≤ ·) a, h.sorted.orderedInsert a _⟩

/-- The heap without its least element. -/
def tail (h : MinHeap α) : MinHeap α := ⟨h.entries.tail, h.sorted.tail⟩

@[simp] theorem not_mem_empty (a : α) : a ∉ (∅ : MinHeap α) := by
  simp [mem_def, EmptyCollection.emptyCollection, empty]

@[simp] theorem mem_push {h : MinHeap α} {a b : α} : b ∈ h.push a ↔ b = a ∨ b ∈ h :=
  mem_orderedInsert _

theorem push_perm (h : MinHeap α) (a : α) : (h.push a).entries.Perm (a :: h.entries) :=
  perm_orderedInsert _ a h.entries

/-- A heap is determined by the multiset of its elements. -/
theorem ext_perm {h h' : MinHeap α} (hp : h.entries.Perm h'.entries) : h = h' := by
  have heq : h.entries = h'.entries := hp.eq_of_pairwise' h.sorted h'.sorted
  cases h
  cases h'
  cases heq
  rfl

theorem nodup_push {h : MinHeap α} {a : α} (hn : h.entries.Nodup) (ha : a ∉ h) :
    (h.push a).entries.Nodup :=
  (push_perm h a).nodup_iff.mpr (nodup_cons.mpr ⟨ha, hn⟩)

/-! ## Pop loops -/

/-- A pop loop over the elements of a heap, least first. -/
def popList (step : σ → α → PopDecision σ) : σ → List α → σ × List α
  | s, [] => (s, [])
  | s, a :: rest =>
    match step s a with
    | .keep => (s, a :: rest)
    | .next s' => popList step s' rest
    | .stop s' => (s', rest)

omit [LinearOrder α] in
theorem popList_suffix (step : σ → α → PopDecision σ) (s : σ) (l : List α) :
    (popList step s l).2 <:+ l := by
  induction l generalizing s with
  | nil => exact suffix_rfl
  | cons a rest ih =>
    rw [popList]
    cases step s a with
    | keep => exact suffix_rfl
    | next s' => exact (ih s').trans (suffix_cons a rest)
    | stop s' => exact suffix_cons a rest

omit [LinearOrder α] in
/-- **The loop rule**.  `I s l` holds before each round, with `l` the elements the
loop has not popped. -/
theorem popList_rule {step : σ → α → PopDecision σ} {I J : σ → List α → Prop}
    (hend : ∀ s, I s [] → J s [])
    (hkeep : ∀ s a rest, I s (a :: rest) → step s a = .keep → J s (a :: rest))
    (hnext : ∀ s a rest s', I s (a :: rest) → step s a = .next s' → I s' rest)
    (hstop : ∀ s a rest s', I s (a :: rest) → step s a = .stop s' → J s' rest)
    {s : σ} (l : List α) (hinit : I s l) : J (popList step s l).1 (popList step s l).2 := by
  induction l generalizing s with
  | nil => exact hend s hinit
  | cons a rest ih =>
    rw [popList]
    cases h : step s a with
    | keep => exact hkeep s a rest hinit h
    | next s' => exact ih (hnext s a rest s' hinit h)
    | stop s' => exact hstop s a rest s' hinit h

/-- Run a pop loop: the loop's final state and the heap it leaves. -/
def popLoop (step : σ → α → PopDecision σ) (s : σ) (h : MinHeap α) : σ × MinHeap α :=
  ((popList step s h.entries).1,
    ⟨(popList step s h.entries).2,
      h.sorted.sublist (popList_suffix step s h.entries).sublist⟩)

theorem popLoop_of_nil (step : σ → α → PopDecision σ) (s : σ) {h : MinHeap α}
    (hnil : h.entries = []) : popLoop step s h = (s, h) := by
  obtain ⟨entries, hsorted⟩ := h
  dsimp only at hnil
  subst hnil
  rfl

/-- A loop that stops at the least element pops just that. -/
theorem popLoop_of_stop {step : σ → α → PopDecision σ} {s s' : σ} {h : MinHeap α} {a : α}
    {rest : List α} (hcons : h.entries = a :: rest) (hstop : step s a = .stop s') :
    popLoop step s h = (s', h.tail) := by
  obtain ⟨entries, hsorted⟩ := h
  dsimp only at hcons
  subst hcons
  simp [popLoop, popList, hstop, tail]

/-- A loop that pops the elements of a down-set and keeps the others. -/
theorem popList_downset {step : σ → α → PopDecision σ} {p : α → Bool} {f : σ → α → σ}
    (hstep : ∀ s a, step s a = if p a then .next (f s a) else .keep)
    (hdown : ∀ {a b}, a ≤ b → p b = true → p a = true) (s : σ) {l : List α}
    (hsorted : l.Pairwise (· ≤ ·)) :
    popList step s l = ((l.filter p).foldl f s, l.filter (!p ·)) := by
  induction l generalizing s with
  | nil => rfl
  | cons a rest ih =>
    obtain ⟨hle, hrest⟩ := pairwise_cons.mp hsorted
    rw [popList, hstep]
    by_cases ha : p a = true
    · simp [ha, ih _ hrest]
    · -- Everything above an element that stays also stays.
      have hnone : ∀ b ∈ rest, p b = false := fun b hb =>
        Bool.eq_false_iff.mpr fun hp => ha (hdown (hle b hb) hp)
      have hstay : rest.filter (!p ·) = rest := filter_eq_self.mpr (by simpa using hnone)
      have hpop : rest.filter p = [] := filter_eq_nil_iff.mpr (by simpa using hnone)
      simp [ha, hstay, hpop]

end MinHeap
