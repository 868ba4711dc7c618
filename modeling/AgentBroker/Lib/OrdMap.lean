import Mathlib.Data.List.Basic
import Mathlib.Data.List.Sort
import Mathlib.Data.List.Nodup
import Mathlib.Order.Basic
import Mathlib.Order.Lex

/-!
# Ordered maps

A finite map with totally ordered keys, stored as the list of its bindings in
strictly increasing key order.  The order is a field of the structure, so every
value of `OrdMap κ ν` is canonical: two maps with the same lookups are the same
map (`OrdMap.ext_get`).  Iteration (`keys`, `values`) runs in key order, which is
what makes a fold over such a map deterministic.

An `OrdSet` is an `OrdMap` with trivial values.

## Main results

* `get_insert`, `get_erase` — lookups after an update.
* `ext_get` — extensionality.
* `insertAll_entries` — re-inserting the bindings one by one rebuilds the map.
* `countWhere_insert_new`, `countWhere_insert_of_some`, `countWhere_of_get_some` — how
  the number of bindings with a given property changes under an update.
-/

universe u v w

/-- Records with two keys, in the order of the first and then of the second. -/
theorem toLex_pair_injective {α : Type u} {β : Type v} {γ : Type w} {f : α → β} {g : α → γ}
    (h : ∀ a b, f a = f b → g a = g b → a = b) :
    Function.Injective fun a => toLex (f a, g a) := by
  intro a b heq
  have hpair : (f a, g a) = (f b, g b) := toLex.injective heq
  exact h a b (congrArg Prod.fst hpair) (congrArg Prod.snd hpair)

/-- A finite map as the list of its bindings, strictly increasing in the key. -/
structure OrdMap (κ : Type u) (ν : Type v) [LinearOrder κ] where
  entries : List (κ × ν)
  sorted : entries.Pairwise (fun a b => a.1 < b.1)

open OrdMap List

namespace OrdMap

variable {κ : Type u} {ν : Type v} {β : Type w} [LinearOrder κ]

/-! ## Bindings lists -/

/-- The value bound to `k` in a list of bindings. -/
def lookup (k : κ) : List (κ × ν) → Option ν
  | [] => none
  | (k', v) :: rest => if k = k' then some v else lookup k rest

/-- Insert a binding at its place, replacing an older binding of the key. -/
def insertEntry (k : κ) (v : ν) : List (κ × ν) → List (κ × ν)
  | [] => [(k, v)]
  | (k', v') :: rest =>
    if k < k' then (k, v) :: (k', v') :: rest
    else if k = k' then (k, v) :: rest
    else (k', v') :: insertEntry k v rest

theorem mem_insertEntry {k : κ} {v : ν} {b : κ × ν} {l : List (κ × ν)}
    (h : b ∈ insertEntry k v l) : b = (k, v) ∨ b ∈ l := by
  induction l with
  | nil => exact Or.inl (by simpa [insertEntry] using h)
  | cons e rest ih =>
    obtain ⟨k', v'⟩ := e
    rw [insertEntry] at h
    split_ifs at h with hlt heq
    · rcases mem_cons.mp h with h | h
      · exact Or.inl h
      · exact Or.inr h
    · rcases mem_cons.mp h with h | h
      · exact Or.inl h
      · exact Or.inr (mem_cons_of_mem _ h)
    · rcases mem_cons.mp h with h | h
      · exact Or.inr (h ▸ mem_cons_self)
      · exact (ih h).imp id (mem_cons_of_mem _)

theorem insertEntry_sorted (k : κ) (v : ν) {l : List (κ × ν)}
    (h : l.Pairwise (fun a b => a.1 < b.1)) :
    (insertEntry k v l).Pairwise (fun a b => a.1 < b.1) := by
  induction l with
  | nil => simp [insertEntry]
  | cons e rest ih =>
    obtain ⟨k', v'⟩ := e
    obtain ⟨hhead, hrest⟩ := pairwise_cons.mp h
    rw [insertEntry]
    split_ifs with hlt heq
    · refine pairwise_cons.mpr ⟨fun b hb => ?_, h⟩
      rcases mem_cons.mp hb with rfl | hb
      · exact hlt
      · exact hlt.trans (hhead b hb)
    · subst heq
      exact pairwise_cons.mpr ⟨hhead, hrest⟩
    · refine pairwise_cons.mpr ⟨fun b hb => ?_, ih hrest⟩
      rcases mem_insertEntry hb with rfl | hb
      · exact lt_of_le_of_ne (not_lt.mp hlt) (Ne.symm heq)
      · exact hhead b hb

theorem lookup_insertEntry (k k' : κ) (v : ν) (l : List (κ × ν)) :
    lookup k' (insertEntry k v l) = if k' = k then some v else lookup k' l := by
  induction l with
  | nil => simp [insertEntry, lookup]
  | cons e rest ih =>
    obtain ⟨j, w⟩ := e
    rw [insertEntry]
    by_cases hk : k' = k
    · subst hk
      rw [if_pos rfl] at ih ⊢
      split_ifs with hlt heq
      · simp [lookup]
      · simp [lookup]
      · rw [lookup, if_neg heq, ih]
    · rw [if_neg hk] at ih ⊢
      split_ifs with hlt heq
      · simp [lookup, hk]
      · subst heq
        simp [lookup, hk]
      · rw [lookup, lookup, ih]

theorem lookup_eq_none_of_forall {k : κ} {l : List (κ × ν)}
    (h : ∀ b ∈ l, b.1 ≠ k) : lookup k l = none := by
  induction l with
  | nil => rfl
  | cons e rest ih =>
    obtain ⟨j, w⟩ := e
    rw [lookup, if_neg (Ne.symm (h (j, w) mem_cons_self))]
    exact ih fun b hb => h b (mem_cons_of_mem _ hb)

theorem lookup_eq_some_iff {k : κ} {v : ν} {l : List (κ × ν)}
    (h : l.Pairwise (fun a b => a.1 < b.1)) :
    lookup k l = some v ↔ (k, v) ∈ l := by
  induction l with
  | nil => simp [lookup]
  | cons e rest ih =>
    obtain ⟨j, w⟩ := e
    obtain ⟨hhead, hrest⟩ := pairwise_cons.mp h
    rw [lookup, mem_cons]
    split_ifs with hk
    · subst hk
      constructor
      · intro hw
        exact Or.inl (by rw [Option.some.inj hw])
      · rintro (hw | hw)
        · rw [(Prod.mk.inj hw).2]
        · exact absurd (hhead _ hw) (lt_irrefl _)
    · rw [ih hrest]
      constructor
      · exact Or.inr
      · rintro (hw | hw)
        · exact absurd (Prod.mk.inj hw).1 hk
        · exact hw

/-! ## Maps -/

/-- The map without bindings. -/
def empty : OrdMap κ ν := ⟨[], List.Pairwise.nil⟩

instance : EmptyCollection (OrdMap κ ν) := ⟨empty⟩

instance : Inhabited (OrdMap κ ν) := ⟨empty⟩

instance [DecidableEq ν] : DecidableEq (OrdMap κ ν) := fun m m' =>
  decidable_of_iff (m.entries = m'.entries)
    ⟨fun h => by cases m; cases m'; cases h; rfl, fun h => h ▸ rfl⟩

/-- The value bound to a key. -/
def get (m : OrdMap κ ν) (k : κ) : Option ν := lookup k m.entries

/-- Bind `k` to `v`, replacing an older binding. -/
def insert (m : OrdMap κ ν) (k : κ) (v : ν) : OrdMap κ ν :=
  ⟨insertEntry k v m.entries, insertEntry_sorted k v m.sorted⟩

/-- Drop the binding of `k`, if any. -/
def erase (m : OrdMap κ ν) (k : κ) : OrdMap κ ν :=
  ⟨m.entries.filter (fun b => b.1 ≠ k), m.sorted.filter _⟩

/-- The keys in increasing order. -/
def keys (m : OrdMap κ ν) : List κ := m.entries.map Prod.fst

/-- The values in increasing key order. -/
def values (m : OrdMap κ ν) : List ν := m.entries.map Prod.snd

/-- The number of bindings. -/
def size (m : OrdMap κ ν) : Nat := m.entries.length

/-- The number of bindings whose value satisfies `p`. -/
def countWhere (p : ν → Bool) (m : OrdMap κ ν) : Nat :=
  m.entries.countP (fun b => p b.2)

theorem get_eq_some_iff {m : OrdMap κ ν} {k : κ} {v : ν} :
    m.get k = some v ↔ (k, v) ∈ m.entries :=
  lookup_eq_some_iff m.sorted

@[simp] theorem get_empty (k : κ) : (∅ : OrdMap κ ν).get k = none := rfl

theorem get_insert (m : OrdMap κ ν) (k k' : κ) (v : ν) :
    (m.insert k v).get k' = if k' = k then some v else m.get k' :=
  lookup_insertEntry k k' v m.entries

@[simp] theorem get_insert_self (m : OrdMap κ ν) (k : κ) (v : ν) :
    (m.insert k v).get k = some v := by
  rw [get_insert, if_pos rfl]

theorem get_insert_of_ne (m : OrdMap κ ν) {k k' : κ} (v : ν) (h : k' ≠ k) :
    (m.insert k v).get k' = m.get k' := by
  rw [get_insert, if_neg h]

theorem get_erase (m : OrdMap κ ν) (k k' : κ) :
    (m.erase k).get k' = if k' = k then none else m.get k' := by
  split_ifs with h
  · subst h
    exact lookup_eq_none_of_forall fun b hb => by
      simpa [erase] using (mem_filter.mp hb).2
  · refine Option.ext fun v => ?_
    rw [get_eq_some_iff, get_eq_some_iff]
    simp [erase, h]

@[simp] theorem get_erase_self (m : OrdMap κ ν) (k : κ) :
    (m.erase k).get k = none := by
  rw [get_erase, if_pos rfl]

theorem mem_keys {m : OrdMap κ ν} {k : κ} :
    k ∈ m.keys ↔ ∃ v, m.get k = some v := by
  simp [keys, get_eq_some_iff]

theorem mem_values {m : OrdMap κ ν} {v : ν} :
    v ∈ m.values ↔ ∃ k, m.get k = some v := by
  simp [values, get_eq_some_iff]

theorem keys_sorted (m : OrdMap κ ν) : m.keys.Pairwise (· < ·) :=
  pairwise_map.mpr m.sorted

theorem keys_nodup (m : OrdMap κ ν) : m.keys.Nodup :=
  m.keys_sorted.imp ne_of_lt

/-- **Extensionality**: a map is determined by its lookups. -/
theorem ext_get {m m' : OrdMap κ ν} (h : ∀ k, m.get k = m'.get k) : m = m' := by
  have hentries : m.entries = m'.entries := by
    have : Std.Irrefl (fun a b : κ × ν => a.1 < b.1) := ⟨fun a => lt_irrefl a.1⟩
    have : Std.Antisymm (fun a b : κ × ν => a.1 < b.1) :=
      ⟨fun a b hab hba => absurd (hab.trans hba) (lt_irrefl _)⟩
    refine List.Pairwise.eq_of_mem_iff m.sorted m'.sorted fun b => ?_
    rw [← get_eq_some_iff, ← get_eq_some_iff, h]
  cases m
  cases m'
  cases hentries
  rfl

theorem erase_of_get_none {m : OrdMap κ ν} {k : κ} (h : m.get k = none) :
    m.erase k = m := by
  refine ext_get fun k' => ?_
  rw [get_erase]
  split_ifs with hk
  · rw [hk, h]
  · rfl

theorem insert_get_self {m : OrdMap κ ν} {k : κ} {v : ν} (h : m.get k = some v) :
    m.insert k v = m := by
  refine ext_get fun k' => ?_
  rw [get_insert]
  split_ifs with hk
  · rw [hk, h]
  · rfl

theorem eq_empty_iff {m : OrdMap κ ν} : m = ∅ ↔ ∀ k, m.get k = none := by
  constructor
  · rintro rfl k
    rfl
  · exact fun h => ext_get fun k => by rw [h k, get_empty]

/-! ## Rebuilding a map from its bindings -/

/-- Insert a list of bindings in order; later bindings of a key win. -/
def insertAll (m : OrdMap κ ν) (l : List (κ × ν)) : OrdMap κ ν :=
  l.foldl (fun acc b => acc.insert b.1 b.2) m

theorem get_insertAll_of_not_mem (l : List (κ × ν)) (m : OrdMap κ ν) {k : κ}
    (h : ∀ b ∈ l, b.1 ≠ k) : (m.insertAll l).get k = m.get k := by
  induction l generalizing m with
  | nil => rfl
  | cons b rest ih =>
    have hb : b.1 ≠ k := h b mem_cons_self
    rw [insertAll, foldl_cons, ← insertAll,
      ih (m.insert b.1 b.2) fun c hc => h c (mem_cons_of_mem _ hc),
      get_insert_of_ne _ _ (Ne.symm hb)]

/-- With pairwise distinct keys every listed binding is found again. -/
theorem get_insertAll_of_mem (l : List (κ × ν)) (m : OrdMap κ ν) {k : κ} {v : ν}
    (hnodup : (l.map Prod.fst).Nodup) (h : (k, v) ∈ l) :
    (m.insertAll l).get k = some v := by
  induction l generalizing m with
  | nil => cases h
  | cons b rest ih =>
    rw [map_cons, nodup_cons] at hnodup
    rw [insertAll, foldl_cons, ← insertAll]
    rcases mem_cons.mp h with rfl | h
    · have hfresh : ∀ c ∈ rest, c.1 ≠ k := fun c hc hck =>
        hnodup.1 (List.mem_map.mpr ⟨c, hc, hck⟩)
      rw [get_insertAll_of_not_mem rest _ hfresh, get_insert_self]
    · exact ih _ hnodup.2 h

/-- Re-inserting the bindings of a map one by one rebuilds it. -/
theorem insertAll_entries (m : OrdMap κ ν) : (∅ : OrdMap κ ν).insertAll m.entries = m := by
  refine ext_get fun k => ?_
  cases hk : m.get k with
  | some v =>
    exact get_insertAll_of_mem _ _ m.keys_nodup (get_eq_some_iff.mp hk)
  | none =>
    rw [get_insertAll_of_not_mem, get_empty]
    intro b hb hbk
    have : m.get k = some b.2 := get_eq_some_iff.mpr (by rw [← hbk]; exact hb)
    rw [hk] at this
    cases this

/-- Bindings behind all others are appended. -/
theorem entries_insertAll {m : OrdMap κ ν} {l : List (κ × ν)}
    (h : (m.entries ++ l).Pairwise (fun a b => a.1 < b.1)) :
    (m.insertAll l).entries = m.entries ++ l := by
  have hall : (∅ : OrdMap κ ν).insertAll (m.entries ++ l) = ⟨m.entries ++ l, h⟩ :=
    insertAll_entries ⟨m.entries ++ l, h⟩
  have hbefore := insertAll_entries m
  rw [insertAll, foldl_append] at hall
  rw [insertAll] at hbefore
  rw [hbefore] at hall
  exact congrArg entries hall

/-! ## Counting bindings -/

theorem entries_insert_perm {m : OrdMap κ ν} {k : κ} (v : ν) :
    (m.insert k v).entries.Perm ((k, v) :: (m.erase k).entries) := by
  have hnodup : ∀ m' : OrdMap κ ν, m'.entries.Nodup := fun m' =>
    m'.sorted.imp fun hlt heq => absurd (congrArg Prod.fst heq) (ne_of_lt hlt)
  have hcons : ((k, v) :: (m.erase k).entries).Nodup := by
    refine nodup_cons.mpr ⟨fun hmem => ?_, hnodup _⟩
    have := get_eq_some_iff.mpr hmem
    rw [get_erase_self] at this
    cases this
  refine (perm_ext_iff_of_nodup (hnodup _) hcons).mpr fun b => ?_
  obtain ⟨j, w⟩ := b
  rw [mem_cons, ← get_eq_some_iff, ← get_eq_some_iff, get_insert, get_erase]
  split_ifs with hj
  · subst hj
    simp [eq_comm]
  · simp [hj]

theorem countWhere_insert (p : ν → Bool) (m : OrdMap κ ν) (k : κ) (v : ν) :
    countWhere p (m.insert k v) = countWhere p (m.erase k) + if p v then 1 else 0 := by
  rw [countWhere, (entries_insert_perm v).countP_eq, countP_cons, countWhere]

theorem countWhere_of_get_some (p : ν → Bool) {m : OrdMap κ ν} {k : κ} {v : ν}
    (h : m.get k = some v) :
    countWhere p m = countWhere p (m.erase k) + if p v then 1 else 0 := by
  conv_lhs => rw [← insert_get_self h]
  exact countWhere_insert p m k v

theorem countWhere_insert_new (p : ν → Bool) {m : OrdMap κ ν} {k : κ} (v : ν) (h : m.get k = none) :
    countWhere p (m.insert k v) = countWhere p m + if p v then 1 else 0 := by
  rw [countWhere_insert, erase_of_get_none h]

/-- Replacing a value by one with the same property leaves the count alone. -/
theorem countWhere_insert_of_some (p : ν → Bool) {m : OrdMap κ ν} {k : κ} {v v' : ν}
    (h : m.get k = some v) (hp : p v' = p v) :
    countWhere p (m.insert k v') = countWhere p m := by
  rw [countWhere_insert, countWhere_of_get_some p h, hp]

theorem countWhere_pos_of_get {p : ν → Bool} {m : OrdMap κ ν} {k : κ} {v : ν}
    (h : m.get k = some v) (hp : p v = true) : 0 < countWhere p m := by
  rw [countWhere_of_get_some p h, if_pos hp]
  exact Nat.succ_pos _

/-! ## Bindings with a default -/

/-- The value of a key, or the default. -/
def getD (m : OrdMap κ ν) (k : κ) (d : ν) : ν := (m.get k).getD d

/-- Replace the value of a key, starting from the default if it has none. -/
def updateD (m : OrdMap κ ν) (k : κ) (d : ν) (f : ν → ν) : OrdMap κ ν :=
  m.insert k (f (m.getD k d))

theorem getD_of_get {m : OrdMap κ ν} {k : κ} {v : ν} (h : m.get k = some v) (d : ν) :
    m.getD k d = v := by
  rw [getD, h, Option.getD_some]

theorem getD_of_none {m : OrdMap κ ν} {k : κ} (h : m.get k = none) (d : ν) :
    m.getD k d = d := by
  rw [getD, h, Option.getD_none]

theorem getD_insert (m : OrdMap κ ν) (k k' : κ) (v d : ν) :
    (m.insert k v).getD k' d = if k' = k then v else m.getD k' d := by
  rw [getD, get_insert]
  split_ifs <;> rfl

theorem getD_erase (m : OrdMap κ ν) (k k' : κ) (d : ν) :
    (m.erase k).getD k' d = if k' = k then d else m.getD k' d := by
  rw [getD, get_erase]
  split_ifs <;> rfl

theorem getD_updateD (m : OrdMap κ ν) (k k' : κ) (d : ν) (f : ν → ν) :
    (m.updateD k d f).getD k' d = if k' = k then f (m.getD k d) else m.getD k' d :=
  getD_insert m k k' _ d

theorem size_insert_le (m : OrdMap κ ν) (k : κ) (v : ν) : (m.insert k v).size ≤ m.size + 1 := by
  have hperm := (m.entries_insert_perm v : (m.insert k v).entries.Perm _).length_eq
  have herase : (m.erase k).entries.length ≤ m.entries.length := length_filter_le _ _
  rw [length_cons] at hperm
  unfold size
  omega

/-- Rebinding a key keeps the size. -/
theorem size_insert_of_some {m : OrdMap κ ν} {k : κ} {v : ν} (h : m.get k = some v) (w : ν) :
    (m.insert k w).size = m.size := by
  have hnew := (m.entries_insert_perm w : (m.insert k w).entries.Perm _).length_eq
  have hold := (m.entries_insert_perm v : (m.insert k v).entries.Perm _).length_eq
  rw [insert_get_self h] at hold
  exact hnew.trans hold.symm

end OrdMap

/-! ## Ordered sets -/

/-- A finite set as an ordered map with trivial values. -/
abbrev OrdSet (κ : Type u) [LinearOrder κ] := OrdMap κ Unit

namespace OrdSet

variable {κ : Type u} [LinearOrder κ]

/-- Add an element. -/
def add (s : OrdSet κ) (k : κ) : OrdSet κ := OrdMap.insert s k ()

/-- The elements in increasing order. -/
def toList (s : OrdSet κ) : List κ := OrdMap.keys s

instance : Membership κ (OrdSet κ) := ⟨fun s k => OrdMap.get s k = some ()⟩

theorem mem_def {s : OrdSet κ} {k : κ} : k ∈ s ↔ OrdMap.get s k = some () := Iff.rfl

instance (s : OrdSet κ) (k : κ) : Decidable (k ∈ s) :=
  inferInstanceAs (Decidable (OrdMap.get s k = some ()))

theorem get_eq_none_iff {s : OrdSet κ} {k : κ} : OrdMap.get s k = none ↔ k ∉ s := by
  rw [mem_def]
  cases OrdMap.get s k <;> simp

@[simp] theorem not_mem_empty (k : κ) : k ∉ (∅ : OrdSet κ) := by
  simp [mem_def]

@[simp] theorem mem_toList {s : OrdSet κ} {k : κ} : k ∈ toList s ↔ k ∈ s := by
  rw [toList, OrdMap.mem_keys, mem_def]
  exact ⟨fun ⟨_, h⟩ => h, fun h => ⟨_, h⟩⟩

@[simp] theorem mem_add {s : OrdSet κ} {k j : κ} : j ∈ add s k ↔ j = k ∨ j ∈ s := by
  rw [mem_def, add, get_insert, mem_def]
  split_ifs with h <;> simp [h]

theorem ne_empty_of_mem {s : OrdSet κ} {k : κ} (h : k ∈ s) : s ≠ ∅ := by
  rintro rfl
  exact not_mem_empty k h

theorem add_ne_empty (s : OrdSet κ) (k : κ) : s.add k ≠ ∅ :=
  ne_empty_of_mem (mem_add.mpr (Or.inl rfl))

@[simp] theorem mem_erase {s : OrdSet κ} {k j : κ} :
    j ∈ (OrdMap.erase s k : OrdSet κ) ↔ j ≠ k ∧ j ∈ s := by
  rw [mem_def, OrdMap.get_erase, mem_def]
  split_ifs with h <;> simp [h]

theorem ext_mem {s t : OrdSet κ} (h : ∀ k, k ∈ s ↔ k ∈ t) : s = t := by
  refine OrdMap.ext_get fun k => Option.ext fun _ => ?_
  exact h k

theorem toList_nodup (s : OrdSet κ) : (toList s).Nodup := keys_nodup s

/-- The set of the elements of a list. -/
def ofList (l : List κ) : OrdSet κ := l.foldl add ∅

theorem mem_foldl_add {l : List κ} {s : OrdSet κ} {k : κ} :
    k ∈ l.foldl add s ↔ k ∈ l ∨ k ∈ s := by
  induction l generalizing s with
  | nil => simp
  | cons j rest ih =>
    rw [foldl_cons, ih, mem_add, mem_cons]
    tauto

@[simp] theorem mem_ofList {l : List κ} {k : κ} : k ∈ ofList l ↔ k ∈ l := by
  rw [ofList, mem_foldl_add]
  simp

theorem ofList_toList (s : OrdSet κ) : ofList (toList s) = s :=
  ext_mem fun k => by rw [mem_ofList, mem_toList]

theorem size_ofList_le (l : List κ) : OrdMap.size (ofList l) ≤ l.length := by
  have hfold : ∀ (l : List κ) (s : OrdSet κ),
      OrdMap.size (l.foldl add s) ≤ OrdMap.size s + l.length := by
    intro l
    induction l with
    | nil => intro s; exact Nat.le_add_right _ _
    | cons j rest ih =>
      intro s
      have hrest := ih (add s j)
      have hadd : OrdMap.size (add s j) ≤ OrdMap.size s + 1 := size_insert_le s j ()
      rw [foldl_cons, length_cons]
      omega
  have hempty : OrdMap.size (∅ : OrdSet κ) = 0 := rfl
  have := hfold l ∅
  rw [hempty, Nat.zero_add] at this
  exact this

theorem toList_sorted (s : OrdSet κ) : (toList s).Pairwise (· < ·) := keys_sorted s

theorem toList_eq_nil_iff {s : OrdSet κ} : toList s = [] ↔ s = ∅ := by
  rw [eq_empty_iff, eq_nil_iff_forall_not_mem]
  simp only [mem_toList, get_eq_none_iff]

end OrdSet
