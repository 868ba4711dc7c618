import AgentBroker.Lib.Registry

/-!
# Sorting records by key

`sort_by` on a key.  Records are sorted to make their order independent of how they were
collected; the facts here say that for records with distinct keys it is.

## Main results

* `List.sortByKey_of_sorted` — sorting does nothing to sorted records.
* `List.sortByKey_eq_of_perm` — records with distinct keys sort to the one sorted list.
* `List.partitionPoint_append` — binary search finds where a property ends.
-/

universe u v

namespace List

variable {α : Type u} {κ : Type v} [LinearOrder κ] {key : α → κ}

/-- Sort by key, keeping the order of equal keys. -/
def sortByKey (key : α → κ) (l : List α) : List α := l.insertionSort fun a b => key a ≤ key b

theorem sortByKey_of_sorted {l : List α} (h : l.Pairwise fun a b => key a < key b) :
    sortByKey key l = l :=
  (h.imp fun hlt => le_of_lt hlt).insertionSort_eq

/-- Mapping sorted records in order keeps them sorted. -/
theorem sortByKey_map {β : Type u} {ι : Type v} [LinearOrder ι] {k : β → ι} {f : α → β}
    {l : List α} (hf : ∀ a b, key a < key b → k (f a) < k (f b))
    (h : l.Pairwise fun a b => key a < key b) : sortByKey k (l.map f) = l.map f :=
  sortByKey_of_sorted (pairwise_map.mpr (h.imp fun {a b} hlt => hf a b hlt))

/-- Sorting commutes with a map that keeps the order of the keys. -/
theorem sortByKey_map_comm {β : Type u} {ι : Type v} [LinearOrder ι] {k : β → ι} {f : α → β}
    (hf : ∀ a b, key a ≤ key b ↔ k (f a) ≤ k (f b)) (l : List α) :
    sortByKey k (l.map f) = (sortByKey key l).map f :=
  (map_insertionSort _ _ f l fun a _ b _ => hf a b).symm

theorem sortByKey_perm (l : List α) : (sortByKey key l).Perm l :=
  perm_insertionSort _ l

theorem sortByKey_sorted (l : List α) : (sortByKey key l).Pairwise fun a b => key a ≤ key b := by
  have : IsTrans α fun a b => key a ≤ key b := ⟨fun _ _ _ hab hbc => le_trans hab hbc⟩
  have : Std.Total fun a b : α => key a ≤ key b := ⟨fun a b => le_total (key a) (key b)⟩
  exact pairwise_insertionSort _ l

theorem sortByKey_idem (l : List α) : sortByKey key (sortByKey key l) = sortByKey key l :=
  (sortByKey_sorted l).insertionSort_eq

/-- Two sorted lists of the same records are equal. -/
theorem eq_of_perm_of_key_lt {l l' : List α} (hperm : l.Perm l')
    (h : l.Pairwise fun a b => key a < key b) (h' : l'.Pairwise fun a b => key a < key b) :
    l = l' :=
  hperm.eq_of_pairwise (fun _ _ _ _ hab hba => absurd (hab.trans hba) (lt_irrefl _)) h h'

/-- **Records with distinct keys sort to the one sorted list of them.** -/
theorem sortByKey_eq_of_perm {l l' : List α} (hperm : l.Perm l')
    (h' : l'.Pairwise fun a b => key a < key b) : sortByKey key l = l' := by
  have hall : (sortByKey key l).Perm l' := (sortByKey_perm l).trans hperm
  have hkeys : ((sortByKey key l).map key).Nodup := by
    refine (hall.map key).nodup_iff.mpr ?_
    exact (pairwise_map.mpr (h'.imp fun hlt => ne_of_lt hlt))
  refine eq_of_perm_of_key_lt hall ?_ h'
  have hne := pairwise_map.mp hkeys
  exact ((sortByKey_sorted l).and hne).imp fun hboth => lt_of_le_of_ne hboth.1 hboth.2

/-! ## Binary search -/

/-- The loop of a binary search among `size` indices from `base` on. -/
def bisect (below : Nat → Bool) : Nat → Nat → Nat → Nat
  | 0, base, _ => base
  | fuel + 1, base, size =>
    if size ≤ 1 then base
    else
      let half := size / 2
      bisect below fuel (if below (base + half) then base + half else base) (size - half)

/-- Where a binary search for the end of `p` stops: an index at it, or right before it. -/
def bisection (p : α → Bool) (l : List α) : Nat :=
  bisect (fun i => l[i]?.any p) l.length 0 l.length

/-- `partition_point`. -/
def partitionPoint (p : α → Bool) (l : List α) : Nat :=
  let base := bisection p l
  if l[base]?.any p then base + 1 else base

/-- The search closes in on `k`, where the property ends. -/
theorem bisect_spec {below : Nat → Bool} {k : Nat} (hbelow : ∀ i, below i = true ↔ i < k)
    {fuel base size : Nat} (hfuel : size ≤ fuel) (hbase : base = 0 ∨ base < k)
    (hsize : k ≤ base + max size 1) :
    (bisect below fuel base size = 0 ∨ bisect below fuel base size < k) ∧
      k ≤ bisect below fuel base size + 1 := by
  induction fuel generalizing base size with
  | zero =>
    rw [bisect]
    exact ⟨hbase, by omega⟩
  | succ fuel ih =>
    rw [bisect]
    split_ifs with hstop
    · exact ⟨hbase, by omega⟩
    · dsimp only
      by_cases hhalf : below (base + size / 2) = true
      · rw [if_pos hhalf]
        exact ih (by omega) (Or.inr ((hbelow _).mp hhalf)) (by omega)
      · rw [if_neg hhalf]
        rw [hbelow] at hhalf
        exact ih (by omega) hbase (by omega)

theorem any_getElem?_append {p : α → Bool} {front back : List α} (hfront : ∀ a ∈ front, p a = true)
    (hback : ∀ a ∈ back, ¬p a = true) (i : Nat) :
    ((front ++ back)[i]?.any p) = true ↔ i < front.length := by
  rw [Option.any_eq_true]
  constructor
  · rintro ⟨a, hget, hp⟩
    by_contra hlt
    rw [getElem?_append_right (not_lt.mp hlt)] at hget
    exact hback a (mem_of_getElem? hget) hp
  · intro hlt
    refine ⟨front[i], ?_, hfront _ (getElem_mem hlt)⟩
    rw [getElem?_append_left hlt, getElem?_eq_getElem hlt]

theorem bisection_append {p : α → Bool} {front back : List α} (hfront : ∀ a ∈ front, p a = true)
    (hback : ∀ a ∈ back, ¬p a = true) :
    (bisection p (front ++ back) = 0 ∨ bisection p (front ++ back) < front.length) ∧
      front.length ≤ bisection p (front ++ back) + 1 := by
  refine bisect_spec (any_getElem?_append hfront hback) le_rfl (Or.inl rfl) ?_
  rw [length_append]
  omega

/-- **Binary search finds where a property ends.** -/
theorem partitionPoint_append {p : α → Bool} {front back : List α}
    (hfront : ∀ a ∈ front, p a = true) (hback : ∀ a ∈ back, ¬p a = true) :
    partitionPoint p (front ++ back) = front.length := by
  obtain ⟨hbase, hend⟩ := bisection_append hfront hback
  have hany := any_getElem?_append hfront hback (bisection p (front ++ back))
  unfold partitionPoint
  dsimp only
  split_ifs with h
  · have hlt := hany.mp h
    omega
  · have hge : ¬bisection p (front ++ back) < front.length := fun hlt => h (hany.mpr hlt)
    omega

/-- A list that is sorted by key, cut at a key. -/
theorem filter_le_append_filter_gt {l : List α} (h : l.Pairwise fun a b => key a < key b)
    (k : κ) : l.filter (fun a => key a ≤ k) ++ l.filter (fun a => k < key a) = l := by
  induction l with
  | nil => rfl
  | cons a rest ih =>
    obtain ⟨hhead, hrest⟩ := pairwise_cons.mp h
    by_cases ha : key a ≤ k
    · rw [filter_cons_of_pos (by simpa using ha), filter_cons_of_neg (by simpa using ha),
        cons_append, ih hrest]
    · -- Everything after a greater key is greater.
      have hgreater : ∀ b ∈ rest, k < key b := fun b hb => (not_le.mp ha).trans (hhead b hb)
      have hnone : rest.filter (fun b => decide (key b ≤ k)) = [] :=
        filter_eq_nil_iff.mpr fun b hb => by simpa using hgreater b hb
      have hall : rest.filter (fun b => decide (k < key b)) = rest :=
        filter_eq_self.mpr fun b hb => by simpa using hgreater b hb
      rw [filter_cons_of_neg (by simpa using ha), filter_cons_of_pos (by simpa using ha), hnone,
        hall, nil_append]

/-- Binary search in a sorted list skips what does not come after a key. -/
theorem drop_partitionPoint {l : List α} (h : l.Pairwise fun a b => key a < key b) (k : κ) :
    l.drop (partitionPoint (fun a => key a ≤ k) l) = l.filter fun a => k < key a := by
  have hsplit := filter_le_append_filter_gt h k
  have hpoint : partitionPoint (fun a => decide (key a ≤ k)) l =
      (l.filter fun a => key a ≤ k).length := by
    rw [← hsplit]
    rw [partitionPoint_append, hsplit]
    · intro a ha
      exact (mem_filter.mp ha).2
    · intro a ha
      simpa using (mem_filter.mp ha).2
  rw [hpoint]
  nth_rewrite 2 [← hsplit]
  exact drop_left

/-- Binary search in a sorted list finds the record of a key. -/
theorem getElem?_bisection {l : List α} (h : l.Pairwise fun a b => key a < key b) {a : α}
    (ha : a ∈ l) : l[bisection (fun b => key b ≤ key a) l]? = some a := by
  have hsplit := filter_le_append_filter_gt h (key a)
  have hfront : ∀ b ∈ l.filter (fun b => key b ≤ key a), decide (key b ≤ key a) = true :=
    fun b hb => (mem_filter.mp hb).2
  have hback : ∀ b ∈ l.filter (fun b => key a < key b), ¬decide (key b ≤ key a) = true :=
    fun b hb => by simpa using (mem_filter.mp hb).2
  have hmem : a ∈ l.filter fun b => key b ≤ key a := mem_filter.mpr ⟨ha, by simp⟩
  have hsorted : (l.filter fun b => key b ≤ key a).Pairwise fun a b => key a < key b :=
    h.sublist filter_sublist
  obtain ⟨hbase, hend⟩ := bisection_append hfront hback
  rw [hsplit] at hbase hend
  obtain ⟨i, hi, hget⟩ := getElem_of_mem hmem
  -- The record is the last one that is not greater.
  have hlast : i + 1 = (l.filter fun b => key b ≤ key a).length := by
    by_contra hne
    have hnext : i + 1 < (l.filter fun b => key b ≤ key a).length := by omega
    have hlt := pairwise_iff_getElem.mp hsorted i (i + 1) hi hnext (Nat.lt_succ_self i)
    have hle := hfront _ (getElem_mem hnext)
    rw [hget] at hlt
    exact absurd (of_decide_eq_true hle) (not_le.mpr hlt)
  have hindex : bisection (fun b => decide (key b ≤ key a)) l = i := by omega
  rw [hindex]
  nth_rewrite 1 [← hsplit]
  rw [getElem?_append_left hi, getElem?_eq_getElem hi, hget]

/-- What comes after the last record of the front of a sorted list is the rest. -/
theorem filter_gt_of_getLast? {front back : List α}
    (h : (front ++ back).Pairwise fun a b => key a < key b) {a : α}
    (hlast : front.getLast? = some a) :
    (front ++ back).filter (fun b => key a < key b) = back := by
  obtain ⟨init, rfl⟩ := getLast?_eq_some_iff.mp hlast
  obtain ⟨hfront, -, hcross⟩ := pairwise_append.mp h
  have hnone : (init ++ [a]).filter (fun b => decide (key a < key b)) = [] := by
    refine filter_eq_nil_iff.mpr fun b hb => ?_
    rw [decide_eq_true_eq, not_lt]
    rcases mem_append.mp hb with hb | hb
    · exact le_of_lt ((pairwise_append.mp hfront).2.2 b hb a (mem_singleton_self a))
    · exact le_of_eq (congrArg key (mem_singleton.mp hb))
  have hall : back.filter (fun b => decide (key a < key b)) = back :=
    filter_eq_self.mpr fun b hb =>
      decide_eq_true (hcross a (mem_append_right init (mem_singleton_self a)) b hb)
  rw [filter_append, hnone, hall, nil_append]

end List

/-- The records of a registry, mapped to anything with the same keys, are sorted. -/
theorem Registry.map_values_sorted {κ : Type u} {ν α : Type v} [LinearOrder κ] {key : ν → κ}
    (r : Registry κ ν key) {f : ν → α} {k : α → κ} (h : ∀ v, k (f v) = key v) :
    (r.values.map f).Pairwise fun a b => k a < k b := by
  refine List.pairwise_map.mpr (r.values_sorted.imp fun {a b} hlt => ?_)
  rwa [h a, h b]
