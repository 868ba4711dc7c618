import AgentBroker.Lib.Effects
import AgentBroker.Lib.Index

/-!
# Registries

A registry holds records that know their own key: every record is bound to
exactly the key it names.  The agreement of key and record is a field, so it is
never an assumption of a later proof; `put` takes only the record.

## Main results

* `get_put`, `get_erase` — lookups after an update.
* `mem_values` — the records listed are those that are found under their keys.
* `putAll_values` — putting the records of a registry one by one rebuilds it.
* `changed_put` — the only record an update changes.
* `attr_put`, `attr_erase` — an attribute of the records after an update, in the
  form the rules for secondary indexes take.
-/

open OrdMap List Option

universe u v w

/-- Records of type `ν`, each under the key `key` reads off it. -/
structure Registry (κ : Type u) (ν : Type v) [LinearOrder κ] (key : ν → κ) where
  map : OrdMap κ ν
  keyed : ∀ k v, map.get k = some v → key v = k

namespace Registry

variable {κ : Type u} {ν : Type v} [LinearOrder κ] {key : ν → κ}

/-- The registry without records. -/
def empty : Registry κ ν key := ⟨∅, fun _ _ h => by simp at h⟩

instance : EmptyCollection (Registry κ ν key) := ⟨empty⟩

instance : Inhabited (Registry κ ν key) := ⟨empty⟩

instance [DecidableEq ν] : DecidableEq (Registry κ ν key) := fun r r' =>
  decidable_of_iff (r.map = r'.map)
    ⟨fun h => by cases r; cases r'; cases h; rfl, fun h => h ▸ rfl⟩

/-- The record under a key. -/
def get (r : Registry κ ν key) (k : κ) : Option ν := r.map.get k

/-- File a record under its key, replacing an older one. -/
def put (r : Registry κ ν key) (v : ν) : Registry κ ν key where
  map := r.map.insert (key v) v
  keyed k w h := by
    rw [get_insert] at h
    split_ifs at h with hk
    · cases h
      exact hk.symm
    · exact r.keyed k w h

/-- Drop the record under a key, if any. -/
def erase (r : Registry κ ν key) (k : κ) : Registry κ ν key where
  map := r.map.erase k
  keyed j w h := by
    rw [OrdMap.get_erase] at h
    split_ifs at h
    exact r.keyed j w h

/-- The records in increasing key order. -/
def values (r : Registry κ ν key) : List ν := r.map.values

/-- The number of records. -/
def size (r : Registry κ ν key) : Nat := r.map.size

/-- The number of records that satisfy `p`. -/
def countWhere (p : ν → Bool) (r : Registry κ ν key) : Nat := r.map.countWhere p

theorem key_of_get {r : Registry κ ν key} {k : κ} {v : ν} (h : r.get k = some v) :
    key v = k := r.keyed k v h

@[simp] theorem get_empty (k : κ) : (∅ : Registry κ ν key).get k = none := rfl

theorem get_put (r : Registry κ ν key) (v : ν) (k : κ) :
    (r.put v).get k = if k = key v then some v else r.get k :=
  get_insert r.map (key v) k v

theorem get_put_self (r : Registry κ ν key) (v : ν) : (r.put v).get (key v) = some v := by
  rw [get_put, if_pos rfl]

theorem get_put_of_ne (r : Registry κ ν key) {v : ν} {k : κ} (h : k ≠ key v) :
    (r.put v).get k = r.get k := by
  rw [get_put, if_neg h]

theorem get_put_ne_none {r : Registry κ ν key} {k : κ} (h : r.get k ≠ none) (v : ν) :
    (r.put v).get k ≠ none := by
  rw [get_put]
  split_ifs
  · exact some_ne_none v
  · exact h

theorem get_erase (r : Registry κ ν key) (k j : κ) :
    (r.erase k).get j = if j = k then none else r.get j :=
  OrdMap.get_erase r.map k j

/-- **Extensionality**: a registry is determined by its lookups. -/
theorem ext_get {r r' : Registry κ ν key} (h : ∀ k, r.get k = r'.get k) : r = r' := by
  have hmap : r.map = r'.map := OrdMap.ext_get h
  cases r
  cases r'
  cases hmap
  rfl

theorem mem_values {r : Registry κ ν key} {v : ν} :
    v ∈ r.values ↔ r.get (key v) = some v := by
  rw [values, OrdMap.mem_values]
  constructor
  · rintro ⟨k, h⟩
    rw [r.keyed k v h]
    exact h
  · exact fun h => ⟨key v, h⟩

theorem values_sorted (r : Registry κ ν key) :
    r.values.Pairwise (fun a b => key a < key b) := by
  refine pairwise_map.mpr (r.map.sorted.imp_of_mem ?_)
  intro a b ha hb hab
  rw [r.keyed a.1 a.2 (get_eq_some_iff.mpr ha), r.keyed b.1 b.2 (get_eq_some_iff.mpr hb)]
  exact hab

theorem keys_values_nodup (r : Registry κ ν key) : (r.values.map key).Nodup :=
  pairwise_map.mpr (r.values_sorted.imp ne_of_lt)

theorem put_get_self {r : Registry κ ν key} {k : κ} {v : ν} (h : r.get k = some v) :
    r.put v = r := by
  refine ext_get fun j => ?_
  rw [get_put, key_of_get h]
  split_ifs with hj
  · rw [hj, h]
  · rfl

/-! ## Rebuilding a registry from its records -/

/-- Put a list of records in order; later records of a key win. -/
def putAll (r : Registry κ ν key) (l : List ν) : Registry κ ν key := l.foldl put r

@[simp] theorem putAll_cons (r : Registry κ ν key) (v : ν) (l : List ν) :
    r.putAll (v :: l) = (r.put v).putAll l := rfl

theorem get_putAll_of_not_mem (l : List ν) (r : Registry κ ν key) {k : κ}
    (h : ∀ v ∈ l, key v ≠ k) : (r.putAll l).get k = r.get k := by
  induction l generalizing r with
  | nil => rfl
  | cons v rest ih =>
    rw [putAll_cons, ih _ fun w hw => h w (mem_cons_of_mem _ hw),
      get_put_of_ne _ (Ne.symm (h v mem_cons_self))]

theorem get_putAll_of_mem (l : List ν) (r : Registry κ ν key) {v : ν}
    (hnodup : (l.map key).Nodup) (h : v ∈ l) : (r.putAll l).get (key v) = some v := by
  induction l generalizing r with
  | nil => cases h
  | cons w rest ih =>
    rw [map_cons, nodup_cons] at hnodup
    rw [putAll_cons]
    rcases mem_cons.mp h with rfl | h
    · have hfresh : ∀ w ∈ rest, key w ≠ key v := fun w hw hk =>
        hnodup.1 (List.mem_map.mpr ⟨w, hw, hk⟩)
      rw [get_putAll_of_not_mem rest _ hfresh, get_put_self]
    · exact ih _ hnodup.2 h

/-- Putting the records of a registry one by one rebuilds it. -/
theorem putAll_values (r : Registry κ ν key) : (∅ : Registry κ ν key).putAll r.values = r := by
  refine ext_get fun k => ?_
  cases hk : r.get k with
  | some v =>
    have hmem : v ∈ r.values := mem_values.mpr (by rw [key_of_get hk, hk])
    have hget := get_putAll_of_mem r.values ∅ r.keys_values_nodup hmem
    rwa [key_of_get hk] at hget
  | none =>
    rw [get_putAll_of_not_mem, get_empty]
    intro v hv hvk
    rw [mem_values, hvk, hk] at hv
    cases hv

/-- File a record under its key, refusing a second record of the key. -/
def putFresh {ε : Type w} (duplicate : κ → ε) (r : Registry κ ν key) (v : ν) :
    Except ε (Registry κ ν key) :=
  match r.get (key v) with
  | some _ => .error (duplicate (key v))
  | none => .ok (r.put v)

theorem putFresh_eq_ok_iff {ε : Type w} {duplicate : κ → ε} {r r' : Registry κ ν key} {v : ν} :
    r.putFresh duplicate v = .ok r' ↔ r.get (key v) = none ∧ r' = r.put v := by
  unfold putFresh
  cases r.get (key v) <;> simp [eq_comm]

theorem putFresh_of_none {ε : Type w} {duplicate : κ → ε} {r : Registry κ ν key} {v : ν}
    (h : r.get (key v) = none) : r.putFresh duplicate v = .ok (r.put v) :=
  putFresh_eq_ok_iff.mpr ⟨h, rfl⟩

/-- The records have distinct keys, none of them in the registry. -/
structure Fresh (r : Registry κ ν key) (l : List ν) : Prop where
  nodup : (l.map key).Nodup
  absent : ∀ v ∈ l, r.get (key v) = none

theorem fresh_values (r : Registry κ ν key) : (∅ : Registry κ ν key).Fresh r.values :=
  ⟨r.keys_values_nodup, fun _ _ => rfl⟩

theorem Fresh.put {r : Registry κ ν key} {v : ν} {l : List ν} (h : r.Fresh (v :: l)) :
    (r.put v).Fresh l := by
  obtain ⟨hv, hnodup⟩ := nodup_cons.mp h.nodup
  refine ⟨hnodup, fun w hw => ?_⟩
  rw [get_put_of_ne]
  · exact h.absent w (mem_cons_of_mem v hw)
  · intro heq
    exact hv (heq ▸ List.mem_map_of_mem hw)

/-- Records that are there stay when records of other keys are put. -/
theorem Fresh.get_putAll {r : Registry κ ν key} {l : List ν} (h : r.Fresh l) {k : κ} {v : ν}
    (hk : r.get k = some v) : (r.putAll l).get k = some v := by
  rw [get_putAll_of_not_mem l r, hk]
  intro w hw heq
  have habsent := h.absent w hw
  rw [heq, hk] at habsent
  cases habsent

/-- **Reading records back.**  A loop that decodes one record a round and files it,
refusing what it already has, files all records of a fresh list. -/
theorem foldlM_eq_ok_putAll {ε : Type w} {α : Type w} {σ : Type w} {f : σ → α → Except ε σ}
    (encode : ν → α) (state : Registry κ ν key → σ) (l : List ν) (r : Registry κ ν key)
    (hfresh : r.Fresh l)
    (hstep : ∀ r v, v ∈ l → r.get (key v) = none →
      f (state r) (encode v) = .ok (state (r.put v))) :
    (l.map encode).foldlM f (state r) = .ok (state (r.putAll l)) := by
  induction l generalizing r with
  | nil => rfl
  | cons v rest ih =>
    have hv := hstep r v mem_cons_self (hfresh.absent v mem_cons_self)
    rw [map_cons, foldlM_cons, hv]
    exact ih (r.put v) hfresh.put fun r' w hw => hstep r' w (mem_cons_of_mem v hw)

theorem values_put_perm {r : Registry κ ν key} {v : ν} (h : r.get (key v) = none) :
    (r.put v).values.Perm (v :: r.values) := by
  have hperm := (r.map.entries_insert_perm v :
    (r.map.insert (key v) v).entries.Perm _).map Prod.snd
  rwa [erase_of_get_none h] at hperm

/-- **What a reading loop that succeeded has read.**  Each round files one record, which
encodes to the canonical form `norm a` of what it read, and refuses a second record of a
key: the records are those that were read, in another order. -/
theorem foldlM_ok_perm {ε α σ β : Type w} {f : σ → α → Except ε σ}
    (records : σ → Registry κ ν key) (encode : ν → β) (norm : α → β)
    (hstep : ∀ s s' a, f s a = .ok s' → ∃ v, encode v = norm a ∧
      (records s).get (key v) = none ∧ records s' = (records s).put v)
    {l : List α} {s s' : σ} (hok : l.foldlM f s = .ok s') :
    ((records s').values.map encode).Perm (l.map norm ++ (records s).values.map encode) := by
  induction l generalizing s with
  | nil =>
    cases hok
    exact List.Perm.refl _
  | cons a rest ih =>
    rw [foldlM_cons] at hok
    obtain ⟨next, hnext, hrest⟩ := Except.bind_eq_ok_iff.mp hok
    obtain ⟨v, hv, hfresh, hput⟩ := hstep s next a hnext
    have hone : ((records next).values.map encode).Perm
        (norm a :: (records s).values.map encode) := by
      rw [hput, ← hv]
      exact (values_put_perm hfresh).map encode
    exact (ih hrest).trans ((hone.append_left _).trans perm_middle)

/-- The same for a loop that starts without records. -/
theorem foldlM_ok_perm_of_empty {ε α σ β : Type w} {f : σ → α → Except ε σ}
    (records : σ → Registry κ ν key) (encode : ν → β) (norm : α → β)
    (hstep : ∀ s s' a, f s a = .ok s' → ∃ v, encode v = norm a ∧
      (records s).get (key v) = none ∧ records s' = (records s).put v)
    {l : List α} {s s' : σ} (hempty : records s = ∅) (hok : l.foldlM f s = .ok s') :
    ((records s').values.map encode).Perm (l.map norm) := by
  have hperm := foldlM_ok_perm records encode norm hstep hok
  have hnone : (records s).values = [] := by rw [hempty]; rfl
  rwa [hnone, map_nil, append_nil] at hperm

/-- A loop that files one record a round, under the key that its input names, succeeds on
inputs of distinct new keys.  `Inv` is what its rounds keep. -/
theorem foldlM_ok_of_fresh {ε α σ : Type w} {f : σ → α → Except ε σ}
    (records : σ → Registry κ ν key) (name : α → κ) (Inv : σ → Prop) {l : List α} {s : σ}
    (hstep : ∀ s a, a ∈ l → Inv s → (records s).get (name a) = none → ∃ s' v,
      f s a = .ok s' ∧ key v = name a ∧ records s' = (records s).put v ∧ Inv s')
    (hnodup : (l.map name).Nodup) (habsent : ∀ a ∈ l, (records s).get (name a) = none)
    (hinv : Inv s) :
    ∃ s', l.foldlM f s = .ok s' ∧ Inv s' ∧
      ∀ k, (records s).get k ≠ none ∨ k ∈ l.map name → (records s').get k ≠ none := by
  induction l generalizing s with
  | nil => exact ⟨s, rfl, hinv, fun k hk => hk.elim (fun h => h) (fun h => by cases h)⟩
  | cons a rest ih =>
    obtain ⟨hnew, hnodup⟩ := nodup_cons.mp hnodup
    obtain ⟨next, v, hok, hkey, hput, hnext⟩ :=
      hstep s a mem_cons_self hinv (habsent a mem_cons_self)
    have hfresh : ∀ b ∈ rest, (records next).get (name b) = none := by
      intro b hb
      have hne : name b ≠ key v := fun heq =>
        hnew (hkey ▸ heq ▸ List.mem_map_of_mem hb)
      rw [hput, get_put_of_ne _ hne]
      exact habsent b (mem_cons_of_mem a hb)
    obtain ⟨s', hrest, hinv', hfiled⟩ := ih (fun s b hb => hstep s b (mem_cons_of_mem a hb))
      hnodup hfresh hnext
    rw [foldlM_cons, hok]
    refine ⟨s', hrest, hinv', fun k hk => hfiled k ?_⟩
    rw [hput]
    rcases hk with hk | hk
    · exact Or.inl (get_put_ne_none hk v)
    · rcases mem_cons.mp hk with rfl | hk
      · rw [← hkey, get_put_self]
        exact Or.inl (some_ne_none v)
      · exact Or.inr hk

/-! ## Attributes and properties of records -/

/-- The attribute `h` of the record under a key. -/
def attr {β : Type w} (h : ν → Option β) (r : Registry κ ν key) (k : κ) : Option β :=
  (r.get k).bind h

theorem attr_of_get {β : Type w} {h : ν → Option β} {r : Registry κ ν key} {k : κ} {v : ν}
    (hk : r.get k = some v) : r.attr h k = h v := by
  rw [attr, hk, bind_some]

theorem attr_of_none {β : Type w} {h : ν → Option β} {r : Registry κ ν key} {k : κ}
    (hk : r.get k = none) : r.attr h k = none := by
  rw [attr, hk, bind_none]

theorem attr_eq_some_iff {β : Type w} {h : ν → Option β} {r : Registry κ ν key} {k : κ} {b : β} :
    r.attr h k = some b ↔ ∃ v, r.get k = some v ∧ h v = some b :=
  bind_eq_some_iff

theorem attr_put {β : Type w} (h : ν → Option β) (r : Registry κ ν key) (v : ν) :
    Index.Updates (r.attr h) ((r.put v).attr h) (key v) (h v) := by
  intro k
  rw [attr, get_put]
  split_ifs <;> rfl

theorem attr_erase {β : Type w} (h : ν → Option β) (r : Registry κ ν key) (k : κ) :
    Index.Updates (r.attr h) ((r.erase k).attr h) k none := by
  intro j
  rw [attr, get_erase]
  split_ifs <;> rfl

/-- Every record satisfies `P`. -/
def Forall (P : ν → Prop) (r : Registry κ ν key) : Prop := ∀ ⦃k v⦄, r.get k = some v → P v

namespace Forall

variable {P P' : ν → Prop} {r : Registry κ ν key}

theorem empty : (∅ : Registry κ ν key).Forall P := fun k v h => by simp at h

theorem put (h : r.Forall P) {v : ν} (hv : P v) : (r.put v).Forall P := fun k w hw => by
  rw [get_put] at hw
  split_ifs at hw
  · cases hw
    exact hv
  · exact h hw

theorem erase (h : r.Forall P) (k : κ) : (r.erase k).Forall P := fun j w hw => by
  rw [get_erase] at hw
  split_ifs at hw
  exact h hw

theorem imp (h : r.Forall P) (hP : ∀ v, P v → P' v) : r.Forall P' := fun _ v hv => hP v (h hv)

end Forall

/-! ## Counting records -/

theorem countWhere_eq_countP (p : ν → Bool) (r : Registry κ ν key) :
    countWhere p r = r.values.countP p :=
  countP_map.symm

theorem countWhere_put_new (p : ν → Bool) {r : Registry κ ν key} {v : ν}
    (h : r.get (key v) = none) :
    countWhere p (r.put v) = countWhere p r + if p v then 1 else 0 :=
  countWhere_insert_new p v h

/-- Replacing a record by one with the same property leaves the count alone. -/
theorem countWhere_put_of_some (p : ν → Bool) {r : Registry κ ν key} {v v' : ν}
    (h : r.get (key v') = some v) (hp : p v' = p v) :
    countWhere p (r.put v') = countWhere p r :=
  countWhere_insert_of_some p h hp

theorem countWhere_of_get_some (p : ν → Bool) {r : Registry κ ν key} {k : κ} {v : ν}
    (h : r.get k = some v) :
    countWhere p r = countWhere p (r.erase k) + if p v then 1 else 0 :=
  OrdMap.countWhere_of_get_some p h

theorem countWhere_pos_of_get {p : ν → Bool} {r : Registry κ ν key} {k : κ} {v : ν}
    (h : r.get k = some v) (hp : p v = true) : 0 < countWhere p r :=
  OrdMap.countWhere_pos_of_get h hp

theorem size_eq_length (r : Registry κ ν key) : r.size = r.values.length :=
  (length_map _).symm

/-- A registry whose records were records with the property before has no more of them. -/
theorem countP_values_le {p : ν → Bool} {r r' : Registry κ ν key}
    (h : ∀ k v', r'.get k = some v' → p v' = true → ∃ v, r.get k = some v ∧ p v = true) :
    r'.values.countP p ≤ r.values.countP p := by
  -- The records with the property are compared through their keys.
  have hkeys : ∀ r : Registry κ ν key,
      r.values.countP p = ((r.values.filter p).map key).length := fun r => by
    rw [length_map, countP_eq_length_filter]
  rw [hkeys r', hkeys r]
  have hnodup : ((r'.values.filter p).map key).Nodup :=
    r'.keys_values_nodup.sublist (filter_sublist.map key)
  refine (subperm_of_subset hnodup fun k hk => ?_).length_le
  obtain ⟨v', hv', rfl⟩ := List.mem_map.mp hk
  obtain ⟨hmem, hp⟩ := mem_filter.mp hv'
  obtain ⟨v, hget, hpv⟩ := h (key v') v' (mem_values.mp hmem) hp
  refine List.mem_map.mpr ⟨v, mem_filter.mpr ⟨mem_values.mpr ?_, hpv⟩, key_of_get hget⟩
  rwa [key_of_get hget]

/-- A registry that keeps at most the keys it had has no more records. -/
theorem size_le_of_keys {r r' : Registry κ ν key}
    (h : ∀ k, r.get k = none → r'.get k = none) : r'.size ≤ r.size := by
  rw [size_eq_length, size_eq_length, ← countP_true]
  refine countP_values_le fun k v' hget _ => ?_
  cases hk : r.get k with
  | none => cases hget.symm.trans (h k hk)
  | some v => exact ⟨v, rfl, rfl⟩

/-! ## Tallies -/

/-- `counts` holds the number of records of each class. -/
def Tally {ι : Type w} [LinearOrder ι] (counts : OrdMap ι Nat) (cls : ν → ι)
    (r : Registry κ ν key) : Prop :=
  ∀ i, counts.getD i 0 = r.countWhere (cls · = i)

namespace Tally

variable {ι : Type w} [LinearOrder ι] {counts : OrdMap ι Nat} {cls : ν → ι}
variable {r : Registry κ ν key}

/-- A record is added. -/
theorem put_new (h : r.Tally counts cls) {v : ν} (hfresh : r.get (key v) = none) :
    (r.put v).Tally (counts.insert (cls v) (counts.getD (cls v) 0 + 1)) cls := by
  intro i
  rw [getD_insert, countWhere_put_new _ hfresh]
  by_cases hi : i = cls v
  · rw [if_pos hi, hi, h (cls v)]
    simp
  · rw [if_neg hi, h i]
    simp [Ne.symm hi]

/-- Counting the records of a fresh list one by one. -/
theorem putAll (h : r.Tally counts cls) {l : List ν} (hfresh : r.Fresh l) :
    (r.putAll l).Tally (l.foldl (fun counts v => counts.updateD (cls v) 0 (· + 1)) counts)
      cls := by
  induction l generalizing r counts with
  | nil => exact h
  | cons v rest ih =>
    exact ih (h.put_new (hfresh.absent v mem_cons_self)) hfresh.put

/-- A record is replaced within its class. -/
theorem put_of_some (h : r.Tally counts cls) {v v' : ν} (hget : r.get (key v') = some v)
    (hcls : cls v' = cls v) : (r.put v').Tally counts cls := by
  intro i
  rw [h i, countWhere_put_of_some _ hget (by rw [hcls])]

/-- A record is dropped. -/
theorem erase (h : r.Tally counts cls) {v : ν} (hget : r.get (key v) = some v) :
    (r.erase (key v)).Tally (counts.insert (cls v) (counts.getD (cls v) 0 - 1)) cls := by
  intro i
  have hcount := countWhere_of_get_some (fun w => decide (cls w = i)) hget
  rw [getD_insert]
  by_cases hi : i = cls v
  · rw [if_pos hi, ← hi, h i, hcount]
    simp [hi]
  · rw [if_neg hi, h i, hcount]
    simp [Ne.symm hi]

end Tally

/-! ## Comparing two registries -/

/-- The record of `k` is new or differs. -/
def Changed (before after : Registry κ ν key) (k : κ) : Prop :=
  after.get k ≠ none ∧ after.get k ≠ before.get k

/-- The record of `k` is gone. -/
def Deleted (before after : Registry κ ν key) (k : κ) : Prop :=
  before.get k ≠ none ∧ after.get k = none

theorem not_changed_self (r : Registry κ ν key) (k : κ) : ¬r.Changed r k := fun h => h.2 rfl

theorem not_deleted_self (r : Registry κ ν key) (k : κ) : ¬r.Deleted r k := fun h => h.1 h.2

/-- Putting a record that was not there changes its key only. -/
theorem changed_put {r : Registry κ ν key} {v : ν} (h : r.get (key v) ≠ some v) {k : κ} :
    r.Changed (r.put v) k ↔ k = key v := by
  unfold Changed
  rw [get_put]
  split_ifs with hk
  · rw [hk]
    exact ⟨fun _ => rfl, fun _ => ⟨some_ne_none v, fun heq => h heq.symm⟩⟩
  · exact ⟨fun hchanged => absurd rfl hchanged.2, fun heq => absurd heq hk⟩

end Registry
