import AgentBroker.Lib.Registry
import Mathlib.Algebra.Ring.Nat
import Mathlib.Algebra.Group.Action.Defs
import Mathlib.Algebra.BigOperators.Group.Finset.Piecewise
import Mathlib.Algebra.BigOperators.Group.List.Basic
import Mathlib.Algebra.Order.BigOperators.Group.Finset

/-!
# Sizes and weights of registries

A patch of a registry names some keys, each once.  If every record that it carries stems
from a record of the registry before, with one exception, then the patch weighs no more
than what was set aside for those records and for the exception.

## Main results

* `Registry.sum_patch_le`, `Registry.le_sum_patch` — what a patch weighs at most and at
  least.
-/

open List Option

universe u v

namespace Registry

variable {κ : Type u} {ν : Type v} [LinearOrder κ] {key : ν → κ}

/-! ## Sizes -/

theorem length_values (r : Registry κ ν key) : r.values.length = r.size := by
  rw [values, OrdMap.values, length_map, size, OrdMap.size]

/-! ## Weights -/

/-- What the record of a key weighs. -/
def weightAt (r : Registry κ ν key) (weight : ν → Nat) (k : κ) : Nat :=
  ((r.get k).map weight).getD 0

theorem weightAt_of_get {r : Registry κ ν key} {weight : ν → Nat} {k : κ} {v : ν}
    (h : r.get k = some v) : r.weightAt weight k = weight v := by
  rw [weightAt, h, map_some, getD_some]

theorem weightAt_of_none {r : Registry κ ν key} {weight : ν → Nat} {k : κ}
    (h : r.get k = none) : r.weightAt weight k = 0 := by
  rw [weightAt, h, map_none, getD_none]

theorem sum_map_filterMap_get (r : Registry κ ν key) (weight : ν → Nat) (ids : List κ) :
    ((ids.filterMap r.get).map weight).sum = (ids.map (r.weightAt weight)).sum := by
  induction ids with
  | nil => rfl
  | cons id rest ih =>
    cases hget : r.get id with
    | none =>
      rw [filterMap_cons_none hget, ih, map_cons, sum_cons, weightAt_of_none hget, Nat.zero_add]
    | some v =>
      rw [filterMap_cons_some hget, map_cons, sum_cons, ih, map_cons,
        sum_cons, weightAt_of_get hget]

/-- The records of some keys weigh no more than all records. -/
theorem sum_weightAt_le (r : Registry κ ν key) (weight : ν → Nat) (s : Finset κ) :
    ∑ k ∈ s, r.weightAt weight k ≤ (r.values.map weight).sum := by
  have hkeys : ∑ k ∈ (r.values.map key).toFinset, r.weightAt weight k =
      (r.values.map weight).sum := by
    rw [sum_toFinset _ r.keys_values_nodup, List.map_map]
    refine congrArg List.sum (map_congr_left fun v hv => ?_)
    exact weightAt_of_get (mem_values.mp hv)
  rw [← hkeys]
  refine Finset.sum_le_sum_of_ne_zero fun k _ hweight => ?_
  cases hget : r.get k with
  | none => exact absurd (weightAt_of_none hget) hweight
  | some v =>
    have hkey := key_of_get hget
    rw [List.mem_toFinset, List.mem_map]
    exact ⟨v, mem_values.mpr (by rw [hkey, hget]), hkey⟩

/-- **What some records weigh** that each stem from a record of `r` which is counted in
`budget`, where one of them may weigh up to `bound` more. -/
theorem sum_patch_le {r r' : Registry κ ν key} {ids : List κ} (hnodup : ids.Nodup)
    {weight budget : ν → Nat} (own : Option κ) {bound : Nat}
    (h : ∀ id ∈ ids, ∀ v', r'.get id = some v' →
      weight v' ≤ (if own = some id then bound else 0) + r.weightAt budget id) :
    ((ids.filterMap r'.get).map weight).sum ≤ bound + (r.values.map budget).sum := by
  -- The surplus is counted once, because no key is named twice.
  have hown : ∑ id ∈ ids.toFinset, (if own = some id then bound else 0) ≤ bound := by
    cases own with
    | none => simp
    | some k =>
      simp only [Option.some.injEq, Finset.sum_ite_eq]
      split_ifs
      · exact le_rfl
      · exact Nat.zero_le bound
  rw [sum_map_filterMap_get, ← sum_toFinset _ hnodup]
  calc ∑ id ∈ ids.toFinset, r'.weightAt weight id
      ≤ ∑ id ∈ ids.toFinset, ((if own = some id then bound else 0) + r.weightAt budget id) := by
        refine Finset.sum_le_sum fun id hid => ?_
        cases hget : r'.get id with
        | none =>
          rw [weightAt_of_none hget]
          exact Nat.zero_le _
        | some v' =>
          rw [weightAt_of_get hget]
          exact h id (List.mem_toFinset.mp hid) v' hget
    _ ≤ bound + (r.values.map budget).sum := by
        rw [Finset.sum_add_distrib]
        exact Nat.add_le_add hown (r.sum_weightAt_le budget _)

/-- All records weigh what they weighed before, except for one that may be new. -/
theorem sum_values_le {r r' : Registry κ ν key} {weight : ν → Nat} (own : Option κ)
    {bound : Nat} (hbound : ∀ v, weight v ≤ bound)
    (h : ∀ k v, r'.get k = some v → own = some k ∨ r.get k = some v) :
    (r'.values.map weight).sum ≤
      (if own = none then 0 else bound) + (r.values.map weight).sum := by
  have hvalues : (r'.values.map key).filterMap r'.get = r'.values := by
    have hget : ∀ v ∈ r'.values, (r'.get ∘ key) v = some v := fun v hv => mem_values.mp hv
    rw [filterMap_map, filterMap_congr hget, filterMap_some]
  rw [← hvalues]
  refine sum_patch_le r'.keys_values_nodup own fun k _ v hget => ?_
  rcases h k v hget with rfl | hkept
  · rw [if_pos rfl, if_neg (some_ne_none k)]
    exact (hbound v).trans (Nat.le_add_right _ _)
  · rw [weightAt_of_get hkept]
    exact Nat.le_add_left _ _

/-- A patch weighs at least what some of its records weigh. -/
theorem le_sum_patch {r : Registry κ ν key} {ids heavy : List κ} (hnodup : ids.Nodup)
    (hheavy : heavy.Nodup) (hsub : ∀ k ∈ heavy, k ∈ ids) {weight : ν → Nat} {bound : Nat}
    (h : ∀ k ∈ heavy, ∃ v, r.get k = some v ∧ bound ≤ weight v) :
    heavy.length * bound ≤ ((ids.filterMap r.get).map weight).sum := by
  rw [sum_map_filterMap_get, ← sum_toFinset _ hnodup]
  calc heavy.length * bound
      = ∑ _k ∈ heavy.toFinset, bound := by
        rw [Finset.sum_const, toFinset_card_of_nodup hheavy, smul_eq_mul]
    _ ≤ ∑ k ∈ heavy.toFinset, r.weightAt weight k := by
        refine Finset.sum_le_sum fun k hk => ?_
        obtain ⟨v, hv, hle⟩ := h k (List.mem_toFinset.mp hk)
        rw [weightAt_of_get hv]
        exact hle
    _ ≤ ∑ k ∈ ids.toFinset, r.weightAt weight k := by
        refine Finset.sum_le_sum_of_subset fun k hk => ?_
        exact List.mem_toFinset.mpr (hsub k (List.mem_toFinset.mp hk))

end Registry
