import AgentBroker.Lib.OrdMap
import AgentBroker.Lib.MinHeap

/-!
# Secondary indexes

A store of records keeps indexes beside it: from an attribute to the one record
that has it (`Inverse`), from an attribute to the set of records that have it
(`Grouping`), or a heap of the records ordered by an attribute (`Listing`).  Each
notion says that the index is exactly what the attribute function `f` of the
records determines, and each update of a record has a rule saying which index
update keeps the index exact.

The attribute function after an update is described pointwise (`Updates f g k x`:
`g` is `f` except that `k` now has `x`), so the rules apply to whatever map the
records live in.

## Main results

* `Inverse.insert`, `Inverse.erase` — a record gains or loses its attribute.
* `Grouping.add`, `Grouping.remove`, `Grouping.eraseGroup` — the same for sets.
* `Listing.push`, `Listing.pop` — the same for heaps.
* `Inverse.unique`, `Grouping.unique`, `Listing.unique` — an exact index is
  determined by the records.
-/

open OrdMap

universe u v w

namespace Index

variable {κ : Type u} {ι : Type v} {α : Type w} [LinearOrder κ] [LinearOrder ι] [LinearOrder α]

/-- `g` is `f` with the value at `k` replaced by `x`. -/
def Updates (f g : κ → α) (k : κ) (x : α) : Prop := ∀ j, g j = if j = k then x else f j

omit [LinearOrder ι] [LinearOrder α] in
theorem Updates.at_key {f g : κ → α} {k : κ} {x : α} (h : Updates f g k x) : g k = x := by
  rw [h k, if_pos rfl]

omit [LinearOrder ι] [LinearOrder α] in
theorem Updates.of_ne {f g : κ → α} {k j : κ} {x : α} (h : Updates f g k x) (hj : j ≠ k) :
    g j = f j := by
  rw [h j, if_neg hj]

/-- An update that replaces a value by itself changes nothing. -/
theorem Updates.eq_of_eq {κ : Type u} {α : Type w} [LinearOrder κ] {f g : κ → α} {k : κ} {x : α}
    (h : Updates f g k x) (hk : f k = x) (j : κ) : g j = f j := by
  rw [h j]
  split_ifs with hj
  · rw [hj, hk]
  · rfl

/-! ## One record per attribute -/

/-- `idx` maps every attribute to the one record that has it. -/
def Inverse (idx : OrdMap ι κ) (f : κ → Option ι) : Prop :=
  ∀ i k, idx.get i = some k ↔ f k = some i

namespace Inverse

variable {idx idx' : OrdMap ι κ} {f g : κ → Option ι} {i : ι} {k : κ}

omit [LinearOrder κ] in
theorem congr (h : Inverse idx f) (hfg : ∀ k, g k = f k) : Inverse idx g := fun i k => by
  rw [h i k, hfg k]

omit [LinearOrder κ] in
/-- An exact index is determined by the records. -/
theorem unique (h : Inverse idx f) (h' : Inverse idx' f) : idx = idx' :=
  OrdMap.ext_get fun i => Option.ext fun k => by rw [h i k, h' i k]

omit [LinearOrder κ] in
theorem get_eq_none (h : Inverse idx f) (hi : ∀ k, f k ≠ some i) : idx.get i = none := by
  cases hget : idx.get i with
  | none => rfl
  | some k => exact absurd ((h i k).mp hget) (hi k)

/-- A record gains a fresh attribute. -/
theorem insert (h : Inverse idx f) (hfresh : idx.get i = none) (hk : f k = none)
    (hg : Updates f g k (some i)) : Inverse (idx.insert i k) g := by
  intro j l
  rw [get_insert]
  by_cases hl : l = k
  · subst hl
    rw [hg.at_key]
    split_ifs with hj
    · simp [hj]
    · have hnot : idx.get j ≠ some l := fun hget => by simp [(h j l).mp hget] at hk
      simp [hnot, Ne.symm hj]
  · rw [hg.of_ne hl]
    split_ifs with hj
    · subst hj
      have hnot : f l ≠ some j := fun hf => by simp [(h j l).mpr hf] at hfresh
      simp [hnot, Ne.symm hl]
    · exact h j l

/-- A record loses its attribute. -/
theorem erase (h : Inverse idx f) (hk : f k = some i) (hg : Updates f g k none) :
    Inverse (idx.erase i) g := by
  have hget : idx.get i = some k := (h i k).mpr hk
  intro j l
  rw [OrdMap.get_erase]
  by_cases hl : l = k
  · subst hl
    rw [hg.at_key]
    split_ifs with hj
    · simp
    · have hnot : idx.get j ≠ some l := fun hget' => by
        have := (h j l).mp hget'
        rw [hk] at this
        exact hj (Option.some.inj this).symm
      simp [hnot]
  · rw [hg.of_ne hl]
    split_ifs with hj
    · subst hj
      have hnot : f l ≠ some j := fun hf => by
        have := (h j l).mpr hf
        rw [hget] at this
        exact hl (Option.some.inj this).symm
      simp [hnot]
    · exact h j l

end Inverse

/-! ## Sets of records per attribute -/

/-- Drop a record from the set of an attribute; an empty set is dropped too. -/
def removeFrom (idx : OrdMap ι (OrdSet κ)) (i : ι) (k : κ) : OrdMap ι (OrdSet κ) :=
  match idx.get i with
  | none => idx
  | some records =>
    if (records.erase k : OrdSet κ) = ∅ then idx.erase i
    else idx.insert i (records.erase k)

/-- `idx` maps every attribute to the set of the records that have it, and holds
no empty set. -/
structure Grouping (idx : OrdMap ι (OrdSet κ)) (f : κ → Option ι) : Prop where
  mem_iff : ∀ i k, k ∈ idx.getD i ∅ ↔ f k = some i
  nonempty : ∀ i records, idx.get i = some records → records ≠ ∅

namespace Grouping

variable {idx idx' : OrdMap ι (OrdSet κ)} {f g : κ → Option ι} {i : ι} {k : κ}

theorem congr (h : Grouping idx f) (hfg : ∀ k, g k = f k) : Grouping idx g :=
  ⟨fun i k => by rw [h.mem_iff i k, hfg k], h.nonempty⟩

/-- An exact index is determined by the records. -/
theorem unique (h : Grouping idx f) (h' : Grouping idx' f) : idx = idx' := by
  have hsets : ∀ i, idx.getD i ∅ = idx'.getD i ∅ := fun i =>
    OrdSet.ext_mem fun k => by rw [h.mem_iff i k, h'.mem_iff i k]
  refine OrdMap.ext_get fun i => ?_
  have hi := hsets i
  unfold OrdMap.getD at hi
  cases hget : idx.get i with
  | none =>
    cases hget' : idx'.get i with
    | none => rfl
    | some records =>
      rw [hget, hget'] at hi
      exact absurd hi.symm (h'.nonempty i records hget')
  | some records =>
    cases hget' : idx'.get i with
    | none =>
      rw [hget, hget'] at hi
      exact absurd hi (h.nonempty i records hget)
    | some =>
      rw [hget, hget'] at hi
      exact congrArg some hi

/-- A record gains an attribute. -/
theorem add (h : Grouping idx f) (hk : f k = none) (hg : Updates f g k (some i)) :
    Grouping (idx.updateD i ∅ (OrdSet.add · k)) g := by
  constructor
  · intro j l
    rw [getD_updateD]
    by_cases hl : l = k
    · subst hl
      rw [hg.at_key]
      split_ifs with hj
      · simp [hj]
      · have hnot : l ∉ idx.getD j ∅ := fun hmem => by
          simp [(h.mem_iff j l).mp hmem] at hk
        simp [hnot, Ne.symm hj]
    · rw [hg.of_ne hl]
      split_ifs with hj
      · subst hj
        rw [OrdSet.mem_add, h.mem_iff]
        simp [hl]
      · exact h.mem_iff j l
  · intro j records hget
    rw [OrdMap.updateD, get_insert] at hget
    split_ifs at hget with hj
    · cases hget
      intro hempty
      have hmem : k ∈ OrdSet.add (idx.getD i ∅) k := OrdSet.mem_add.mpr (Or.inl rfl)
      rw [hempty] at hmem
      exact OrdSet.not_mem_empty k hmem
    · exact h.nonempty j records hget

theorem getD_removeFrom (idx : OrdMap ι (OrdSet κ)) (i j : ι) (k : κ) :
    (removeFrom idx i k).getD j ∅ =
      if j = i then (idx.getD i ∅).erase k else idx.getD j ∅ := by
  unfold removeFrom
  cases hget : idx.get i with
  | none =>
    dsimp only
    split_ifs with hj
    · rw [hj, getD_of_none hget]
      exact (erase_of_get_none (OrdMap.get_empty k)).symm
    · rfl
  | some records =>
    rw [getD_of_get hget]
    dsimp only
    by_cases hempty : (records.erase k : OrdSet κ) = ∅
    · rw [if_pos hempty, getD_erase, hempty]
    · rw [if_neg hempty, getD_insert]

/-- A record loses its attribute. -/
theorem remove (h : Grouping idx f) (hk : f k = some i) (hg : Updates f g k none) :
    Grouping (removeFrom idx i k) g := by
  constructor
  · intro j l
    rw [getD_removeFrom]
    by_cases hl : l = k
    · subst hl
      rw [hg.at_key]
      split_ifs with hj
      · simp
      · have hnot : l ∉ idx.getD j ∅ := fun hmem => by
          have := (h.mem_iff j l).mp hmem
          rw [hk] at this
          exact hj (Option.some.inj this).symm
        simp [hnot]
    · rw [hg.of_ne hl]
      split_ifs with hj
      · subst hj
        rw [OrdSet.mem_erase, h.mem_iff]
        simp [hl]
      · exact h.mem_iff j l
  · intro j records hget
    unfold removeFrom at hget
    cases hi : idx.get i with
    | none =>
      rw [hi] at hget
      exact h.nonempty j records hget
    | some =>
      rw [hi] at hget
      dsimp only at hget
      split_ifs at hget with hempty
      -- The last record of its group takes the group with it.
      · rw [OrdMap.get_erase] at hget
        split_ifs at hget
        exact h.nonempty j records hget
      · rw [get_insert] at hget
        split_ifs at hget with hj
        · cases hget
          exact hempty
        · exact h.nonempty j records hget

/-- All records of one attribute lose it. -/
theorem eraseGroup (h : Grouping idx f) (hg : ∀ k, g k = if f k = some i then none else f k) :
    Grouping (idx.erase i) g := by
  constructor
  · intro j l
    rw [getD_erase, hg l]
    split_ifs with hj hl hl
    · simp
    · subst hj
      simp [hl]
    · have hnot : l ∉ idx.getD j ∅ := fun hmem => by
        have := (h.mem_iff j l).mp hmem
        rw [hl] at this
        exact hj (Option.some.inj this).symm
      simp [hnot]
    · exact h.mem_iff j l
  · intro j records hget
    rw [OrdMap.get_erase] at hget
    split_ifs at hget
    exact h.nonempty j records hget

end Grouping

/-! ## Heaps of records -/

/-- The heap holds each element of `p` once and nothing else. -/
structure Listing (heap : MinHeap α) (p : α → Prop) : Prop where
  nodup : heap.entries.Nodup
  mem_iff : ∀ a, a ∈ heap ↔ p a

namespace Listing

omit [LinearOrder κ] [LinearOrder ι]

variable {heap heap' : MinHeap α} {p q : α → Prop} {a : α}

theorem congr (h : Listing heap p) (hpq : ∀ a, q a ↔ p a) : Listing heap q :=
  ⟨h.nodup, fun a => by rw [h.mem_iff a, hpq a]⟩

/-- An exact heap is determined by the records. -/
theorem unique (h : Listing heap p) (h' : Listing heap' p) : heap = heap' := by
  refine MinHeap.ext_perm ((List.perm_ext_iff_of_nodup h.nodup h'.nodup).mpr fun a => ?_)
  rw [← MinHeap.mem_def, ← MinHeap.mem_def, h.mem_iff a, h'.mem_iff a]

/-- A record enters the heap. -/
theorem push (h : Listing heap p) (ha : ¬p a) (hq : ∀ b, q b ↔ b = a ∨ p b) :
    Listing (heap.push a) q :=
  ⟨MinHeap.nodup_push h.nodup fun hmem => ha ((h.mem_iff a).mp hmem),
    fun b => by rw [MinHeap.mem_push, hq b, h.mem_iff b]⟩

/-- The least record leaves the heap. -/
theorem pop {a : α} {rest : List α} {hsorted : (a :: rest).Pairwise (· ≤ ·)}
    {hrest : rest.Pairwise (· ≤ ·)} (h : Listing ⟨a :: rest, hsorted⟩ p)
    (hq : ∀ b, q b ↔ b ≠ a ∧ p b) : Listing ⟨rest, hrest⟩ q := by
  obtain ⟨hfresh, hnodup⟩ := List.nodup_cons.mp h.nodup
  refine ⟨hnodup, fun b => ?_⟩
  have hb := h.mem_iff b
  rw [MinHeap.mem_def, List.mem_cons] at hb
  rw [hq b, ← hb]
  constructor
  · intro hmem
    exact ⟨fun heq => hfresh (heq ▸ hmem), Or.inr hmem⟩
  · rintro ⟨hne, heq | hmem⟩
    · exact absurd heq hne
    · exact hmem

end Listing

omit [LinearOrder ι] in
/-- The elements of a family of heaps after a push to one of them. -/
theorem mem_getD_push {heaps : OrdMap κ (MinHeap α)} {k k' : κ} {a b : α} :
    b ∈ (heaps.updateD k' ∅ (·.push a)).getD k ∅ ↔ (k = k' ∧ b = a) ∨ b ∈ heaps.getD k ∅ := by
  rw [getD_updateD]
  split_ifs with hk
  · rw [MinHeap.mem_push, hk]
    simp
  · simp [hk]

end Index
