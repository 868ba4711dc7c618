import AgentBroker.Lib.Sorting

/-!
# Replacing records by key

A list of records with distinct keys is brought up to date by records that replace those
of the same key, if a check admits the replacement, or are appended.  What matters of the
result is which records it has, since it is sorted afterwards.

## Main results

* `List.upsertAll_spec` — the records after a sequence of replacements.
* `List.upsertAll_ok` — what a sequence that succeeded did, with repeated keys too.
* `Registry.patched` — the replacements that a comparison of two registries asks for, and
  the removal of the deleted keys, turn the records of the one into those of the other.
-/

universe u v

open List Option

namespace List

section Patched

variable {α : Type u} {κ : Type v} {key : α → κ}

/-- What the records `old` become when `new` replace or join them one after the other: the
last new record of a key wins. -/
def Patched (key : α → κ) (old new : List α) (a : α) : Prop :=
  (∃ before after, new = before ++ a :: after ∧ key a ∉ after.map key) ∨
    (a ∈ old ∧ key a ∉ new.map key)

theorem patched_nil {old : List α} {a : α} : Patched key old [] a ↔ a ∈ old := by
  simp [Patched]

/-- The first new record counts for as much as one that is there. -/
theorem patched_cons {old mid new : List α} {first : α}
    (hmid : ∀ a, a ∈ mid ↔ a = first ∨ (a ∈ old ∧ key a ≠ key first)) (a : α) :
    Patched key old (first :: new) a ↔ Patched key mid new a := by
  constructor
  · rintro (⟨before, after, hsplit, hlast⟩ | ⟨hold, hnew⟩)
    · cases before with
      | nil =>
        cases hsplit
        exact Or.inr ⟨(hmid first).mpr (Or.inl rfl), hlast⟩
      | cons _ before =>
        cases hsplit
        exact Or.inl ⟨before, after, rfl, hlast⟩
    · rw [map_cons, mem_cons, not_or] at hnew
      exact Or.inr ⟨(hmid a).mpr (Or.inr ⟨hold, hnew.1⟩), hnew.2⟩
  · rintro (⟨before, after, rfl, hlast⟩ | ⟨hmem, hnew⟩)
    · exact Or.inl ⟨first :: before, after, rfl, hlast⟩
    · rcases (hmid a).mp hmem with rfl | ⟨hold, hne⟩
      · exact Or.inl ⟨[], new, rfl, hnew⟩
      · refine Or.inr ⟨hold, ?_⟩
        rw [map_cons, mem_cons, not_or]
        exact ⟨hne, hnew⟩

end Patched

variable {α : Type u} {κ : Type v} {ε : Type u} [DecidableEq κ] {key : α → κ}
variable {check : α → α → Except ε PUnit.{u + 1}}

/-- Replace the first record of the same key, if `check` admits it, or append. -/
def upsert (key : α → κ) (check : α → α → Except ε PUnit.{u + 1}) (incoming : α) :
    List α → Except ε (List α)
  | [] => .ok [incoming]
  | existing :: rest =>
    if key existing = key incoming then do
      check existing incoming
      return incoming :: rest
    else do
      let rest ← upsert key check incoming rest
      return existing :: rest

/-- **One replacement.** -/
theorem upsert_spec {incoming : α} {l : List α} (hkeys : (l.map key).Nodup)
    (hcheck : ∀ existing ∈ l, key existing = key incoming →
      check existing incoming = .ok ⟨⟩) :
    ∃ l', l.upsert key check incoming = .ok l' ∧ (l'.map key).Nodup ∧
      ∀ a, a ∈ l' ↔ a = incoming ∨ (a ∈ l ∧ key a ≠ key incoming) := by
  induction l with
  | nil => exact ⟨[incoming], rfl, nodup_singleton _, fun a => by simp⟩
  | cons existing rest ih =>
    rw [map_cons, nodup_cons] at hkeys
    obtain ⟨hfresh, hrest⟩ := hkeys
    by_cases hkey : key existing = key incoming
    · -- No other record has this key.
      have hother : ∀ a ∈ rest, key a ≠ key incoming := fun a ha heq =>
        hfresh (hkey ▸ heq ▸ mem_map_of_mem ha)
      refine ⟨incoming :: rest, ?_, ?_, fun a => ?_⟩
      · rw [upsert, if_pos hkey, hcheck existing mem_cons_self hkey]
        rfl
      · rw [map_cons, nodup_cons, ← hkey]
        exact ⟨hfresh, hrest⟩
      · rw [mem_cons, mem_cons]
        constructor
        · rintro (rfl | ha)
          · exact Or.inl rfl
          · exact Or.inr ⟨Or.inr ha, hother a ha⟩
        · rintro (rfl | ⟨rfl | ha, hne⟩)
          · exact Or.inl rfl
          · exact absurd hkey hne
          · exact Or.inr ha
    · obtain ⟨l', hl', hnodup, hmem⟩ := ih hrest fun a ha => hcheck a (mem_cons_of_mem _ ha)
      refine ⟨existing :: l', ?_, ?_, fun a => ?_⟩
      · rw [upsert, if_neg hkey, hl']
        rfl
      · rw [map_cons, nodup_cons]
        refine ⟨fun hin => ?_, hnodup⟩
        obtain ⟨a, ha, heq⟩ := mem_map.mp hin
        rcases (hmem a).mp ha with rfl | ⟨hold, -⟩
        · exact hkey heq.symm
        · exact hfresh (heq ▸ mem_map_of_mem hold)
      · rw [mem_cons, mem_cons, hmem]
        constructor
        · rintro (rfl | rfl | ⟨ha, hne⟩)
          · exact Or.inr ⟨Or.inl rfl, hkey⟩
          · exact Or.inl rfl
          · exact Or.inr ⟨Or.inr ha, hne⟩
        · rintro (rfl | ⟨rfl | ha, hne⟩)
          · exact Or.inr (Or.inl rfl)
          · exact Or.inl rfl
          · exact Or.inr (Or.inr ⟨ha, hne⟩)

/-- A replacement that succeeded was admitted. -/
theorem check_of_upsert_ok {incoming : α} {l l' : List α} (hkeys : (l.map key).Nodup)
    (hok : l.upsert key check incoming = .ok l') {existing : α} (hexisting : existing ∈ l)
    (hkey : key existing = key incoming) : check existing incoming = .ok ⟨⟩ := by
  induction l generalizing l' with
  | nil => cases hexisting
  | cons _ _ ih =>
    rw [map_cons, nodup_cons] at hkeys
    rw [upsert] at hok
    split_ifs at hok with hfirst
    · obtain ⟨_, hcheck, -⟩ := Except.bind_eq_ok_iff.mp hok
      rcases mem_cons.mp hexisting with rfl | hrest
      · exact hcheck
      · -- No other record has this key.
        exact absurd (mem_map_of_mem hrest) (hkey.trans hfirst.symm ▸ hkeys.1)
    · obtain ⟨rest', hrest', -⟩ := Except.bind_eq_ok_iff.mp hok
      rcases mem_cons.mp hexisting with rfl | hrest
      · exact absurd hkey hfirst
      · exact ih hkeys.2 hrest' hrest

/-- A sequence of replacements. -/
def upsertAll (key : α → κ) (check : α → α → Except ε PUnit.{u + 1}) (l incoming : List α) :
    Except ε (List α) :=
  incoming.foldlM (fun l record => l.upsert key check record) l

/-- **A sequence of replacements** with distinct keys: each is checked against the record
that was there at the start. -/
theorem upsertAll_spec {l incoming : List α} (hkeys : (l.map key).Nodup)
    (hincoming : (incoming.map key).Nodup)
    (hcheck : ∀ existing ∈ l, ∀ record ∈ incoming, key existing = key record →
      check existing record = .ok ⟨⟩) :
    ∃ l', upsertAll key check l incoming = .ok l' ∧ (l'.map key).Nodup ∧
      ∀ a, a ∈ l' ↔ a ∈ incoming ∨ (a ∈ l ∧ key a ∉ incoming.map key) := by
  induction incoming generalizing l with
  | nil => exact ⟨l, rfl, hkeys, fun a => by simp⟩
  | cons record rest ih =>
    rw [map_cons, nodup_cons] at hincoming
    obtain ⟨hfresh, hrest⟩ := hincoming
    obtain ⟨mid, hmid, hmidKeys, hmidMem⟩ := upsert_spec hkeys
      fun existing hexisting => hcheck existing hexisting record mem_cons_self
    have hmidCheck : ∀ existing ∈ mid, ∀ next ∈ rest, key existing = key next →
        check existing next = .ok ⟨⟩ := by
      intro existing hexisting next hnext heq
      rcases (hmidMem existing).mp hexisting with rfl | ⟨hold, -⟩
      · exact absurd (heq ▸ mem_map_of_mem hnext) hfresh
      · exact hcheck existing hold next (mem_cons_of_mem _ hnext) heq
    obtain ⟨l', hl', hl'Keys, hl'Mem⟩ := ih hmidKeys hrest hmidCheck
    refine ⟨l', ?_, hl'Keys, fun a => ?_⟩
    · rw [upsertAll, foldlM_cons, hmid]
      exact hl'
    · rw [hl'Mem, hmidMem, mem_cons, map_cons, mem_cons, not_or]
      constructor
      · rintro (ha | ⟨rfl | ⟨ha, hne⟩, hnot⟩)
        · exact Or.inl (Or.inr ha)
        · exact Or.inl (Or.inl rfl)
        · exact Or.inr ⟨ha, hne, hnot⟩
      · rintro ((rfl | ha) | ⟨ha, hne, hnot⟩)
        · exact Or.inr ⟨Or.inl rfl, hfresh⟩
        · exact Or.inl ha
        · exact Or.inr ⟨Or.inr ⟨ha, hne⟩, hnot⟩

/-- **A sequence of replacements that succeeded**, with any keys: the last record of each
key is there, and every record is `R`-above the one it replaced. -/
theorem upsertAll_ok {R : α → α → Prop} (hrefl : ∀ a, R a a)
    (htrans : ∀ a b c, R a b → R b c → R a c)
    (hcheck : ∀ a b, check a b = .ok ⟨⟩ → R a b) {l incoming l' : List α}
    (hkeys : (l.map key).Nodup) (hok : upsertAll key check l incoming = .ok l') :
    (l'.map key).Nodup ∧ (∀ a, a ∈ l' ↔ Patched key l incoming a) ∧
      ∀ a ∈ l, ∀ b ∈ l', key a = key b → R a b := by
  induction incoming generalizing l with
  | nil =>
    cases hok
    refine ⟨hkeys, fun a => patched_nil.symm, fun a ha b hb heq => ?_⟩
    rw [inj_on_of_nodup_map hkeys ha hb heq]
    exact hrefl b
  | cons first rest ih =>
    rw [upsertAll, foldlM_cons] at hok
    obtain ⟨mid, hmid, hrest⟩ := Except.bind_eq_ok_iff.mp hok
    have hadmitted : ∀ existing ∈ l, key existing = key first →
        check existing first = .ok ⟨⟩ :=
      fun existing hexisting hkey => check_of_upsert_ok hkeys hmid hexisting hkey
    obtain ⟨found, hfound, hmidKeys, hmidMem⟩ := upsert_spec hkeys hadmitted
    cases hmid.symm.trans hfound
    obtain ⟨hkeys', hmem', habove⟩ := ih hmidKeys hrest
    refine ⟨hkeys', fun a => (hmem' a).trans (patched_cons hmidMem a).symm, ?_⟩
    intro a ha b hb heq
    by_cases hfirst : key a = key first
    · refine htrans a first b (hcheck a first (hadmitted a ha hfirst)) ?_
      exact habove first ((hmidMem first).mpr (Or.inl rfl)) b hb (hfirst ▸ heq)
    · exact habove a ((hmidMem a).mpr (Or.inr ⟨ha, hfirst⟩)) b hb heq

end List

namespace Registry

variable {κ : Type v} {ν α ε : Type u} [LinearOrder κ] {key : ν → κ}
variable {before after : Registry κ ν key} {f : ν → α} {k : α → κ}

/-- The records that differ between two registries, in any order. -/
structure IsDelta (before after : Registry κ ν key) (f : ν → α) (k : α → κ)
    (incoming : List α) : Prop where
  keys : (incoming.map k).Nodup
  mem_iff : ∀ a, a ∈ incoming ↔
    ∃ v, f v = a ∧ after.get (key v) = some v ∧ before.Changed after (key v)

theorem IsDelta.of_perm {incoming incoming' : List α} (h : IsDelta before after f k incoming)
    (hperm : incoming'.Perm incoming) : IsDelta before after f k incoming' where
  keys := (hperm.map k).nodup_iff.mpr h.keys
  mem_iff a := hperm.mem_iff.trans (h.mem_iff a)

/-- The records of keys that are all there have these keys. -/
theorem map_key_filterMap_get {r : Registry κ ν key} {ids : List κ}
    (h : ∀ id ∈ ids, r.get id ≠ none) : (ids.filterMap r.get).map key = ids := by
  induction ids with
  | nil => rfl
  | cons id rest ih =>
    obtain ⟨v, hv⟩ := ne_none_iff_exists'.mp (h id mem_cons_self)
    rw [filterMap_cons_some hv, map_cons, key_of_get hv,
      ih fun other hother => h other (mem_cons_of_mem _ hother)]

/-- **The records of the changed keys are a delta.** -/
theorem isDelta_filterMap_get (hk : ∀ v, k (f v) = key v) {ids : List κ} (hnodup : ids.Nodup)
    (hids : ∀ j, j ∈ ids ↔ before.Changed after j) :
    IsDelta before after f k ((ids.filterMap after.get).map f) where
  keys := by
    have hcomp : k ∘ f = key := funext hk
    rw [List.map_map, hcomp, map_key_filterMap_get fun id hid => ((hids id).mp hid).1]
    exact hnodup
  mem_iff a := by
    rw [List.mem_map]
    constructor
    · rintro ⟨v, hv, rfl⟩
      obtain ⟨id, hid, hget⟩ := mem_filterMap.mp hv
      cases key_of_get hget
      exact ⟨v, rfl, hget, (hids _).mp hid⟩
    · rintro ⟨v, rfl, hget, hchanged⟩
      exact ⟨v, mem_filterMap.mpr ⟨key v, (hids _).mpr hchanged, hget⟩, rfl⟩

/-- The same in sorted order. -/
theorem isDelta_sorted (hk : ∀ v, k (f v) = key v) {ids : List κ} (hnodup : ids.Nodup)
    (hids : ∀ j, j ∈ ids ↔ before.Changed after j) :
    IsDelta before after f k (((ids.filterMap after.get).map f).sortByKey k) :=
  (isDelta_filterMap_get hk hnodup hids).of_perm (sortByKey_perm _)

/-- The records of `after` are those of the delta and the others of `before`, without the
deleted ones. -/
theorem IsDelta.mem_values_iff {incoming : List α} (h : IsDelta before after f k incoming)
    (hk : ∀ v, k (f v) = key v) {deleted : κ → Prop}
    (hdeleted : ∀ j, deleted j ↔ before.Deleted after j) (a : α) :
    ((a ∈ incoming ∨ (a ∈ before.values.map f ∧ k a ∉ incoming.map k)) ∧ ¬deleted (k a)) ↔
      a ∈ after.values.map f := by
  constructor
  · rintro ⟨hin | ⟨hold, hnot⟩, hkept⟩
    · obtain ⟨v, rfl, hget, -⟩ := (h.mem_iff a).mp hin
      exact List.mem_map_of_mem (mem_values.mpr hget)
    · obtain ⟨v, hv, rfl⟩ := List.mem_map.mp hold
      have hbefore := mem_values.mp hv
      rw [hk, hdeleted] at hkept
      rw [hk] at hnot
      -- It is still there, and a different record of its key would be in the delta.
      cases hafter : after.get (key v) with
      | none => exact absurd ⟨hbefore ▸ some_ne_none v, hafter⟩ hkept
      | some w =>
        have hkey : key w = key v := key_of_get hafter
        by_cases hvw : w = v
        · exact List.mem_map_of_mem (mem_values.mpr (hvw ▸ hafter))
        · refine absurd (List.mem_map.mpr ⟨f w, (h.mem_iff _).mpr ⟨w, rfl, ?_, ?_⟩, ?_⟩) hnot
          · rw [hkey, hafter]
          · rw [hkey, Changed, hafter, hbefore]
            exact ⟨some_ne_none w, fun heq => hvw (Option.some.inj heq)⟩
          · rw [hk, hkey]
  · intro ha
    obtain ⟨v, hv, rfl⟩ := List.mem_map.mp ha
    have hafter := mem_values.mp hv
    refine ⟨?_, fun hgone => ?_⟩
    · by_cases hsame : before.get (key v) = some v
      · refine Or.inr ⟨List.mem_map_of_mem (mem_values.mpr hsame), fun hin => ?_⟩
        obtain ⟨b, hb, hkb⟩ := List.mem_map.mp hin
        obtain ⟨w, rfl, -, hchanged⟩ := (h.mem_iff b).mp hb
        rw [hk, hk] at hkb
        rw [hkb] at hchanged
        exact hchanged.2 (hafter.trans hsame.symm)
      · exact Or.inl ((h.mem_iff _).mpr ⟨v, rfl, hafter, hafter ▸ some_ne_none v,
          fun heq => hsame (heq.symm.trans hafter)⟩)
    · rw [hk, hdeleted] at hgone
      exact absurd (hgone.2.symm.trans hafter) (some_ne_none v).symm

/-- **Patching.**  The records of the delta replace those of `before`, what is deleted
leaves, and sorting gives the records of `after`. -/
theorem patched {check : α → α → Except ε PUnit.{u + 1}} {incoming : List α}
    (h : IsDelta before after f k incoming) (hk : ∀ v, k (f v) = key v)
    (hcheck : ∀ v w, before.get (key v) = some v → after.get (key v) = some w →
      check (f v) (f w) = .ok ⟨⟩)
    (deleted : κ → Prop) [DecidablePred deleted]
    (hdeleted : ∀ j, deleted j ↔ before.Deleted after j) :
    ∃ l, (before.values.map f).upsertAll k check incoming = .ok l ∧
      (l.filter fun a => ¬deleted (k a)).sortByKey k = after.values.map f := by
  have hcomp : k ∘ f = key := funext hk
  have hold : ((before.values.map f).map k).Nodup := by
    rw [List.map_map, hcomp]
    exact before.keys_values_nodup
  have haccepts : ∀ existing ∈ before.values.map f, ∀ record ∈ incoming,
      k existing = k record → check existing record = .ok ⟨⟩ := by
    intro existing hexisting record hrecord heq
    obtain ⟨v, hv, rfl⟩ := List.mem_map.mp hexisting
    obtain ⟨w, rfl, hw, -⟩ := (h.mem_iff record).mp hrecord
    rw [hk, hk] at heq
    exact hcheck v w (mem_values.mp hv) (heq ▸ hw)
  obtain ⟨l, hl, hkeys, hmem⟩ := upsertAll_spec hold h.keys haccepts
  refine ⟨l, hl, sortByKey_eq_of_perm ?_ (after.map_values_sorted hk)⟩
  have hlNodup : (l.filter fun a => ¬deleted (k a)).Nodup := hkeys.of_map.filter _
  have hafterKeys : ((after.values.map f).map k).Nodup := by
    rw [List.map_map, hcomp]
    exact after.keys_values_nodup
  refine (perm_ext_iff_of_nodup hlNodup hafterKeys.of_map).mpr fun a => ?_
  rw [mem_filter, hmem, ← h.mem_values_iff hk hdeleted, decide_eq_true_eq]

/-- Patching when nothing is deleted. -/
theorem patched_of_kept {check : α → α → Except ε PUnit.{u + 1}} {incoming : List α}
    (h : IsDelta before after f k incoming) (hk : ∀ v, k (f v) = key v)
    (hcheck : ∀ v w, before.get (key v) = some v → after.get (key v) = some w →
      check (f v) (f w) = .ok ⟨⟩)
    (hkept : ∀ j, ¬before.Deleted after j) :
    ∃ l, (before.values.map f).upsertAll k check incoming = .ok l ∧
      l.sortByKey k = after.values.map f := by
  obtain ⟨l, hl, hsorted⟩ := patched h hk hcheck (fun _ => False)
    fun j => ⟨False.elim, hkept j⟩
  refine ⟨l, hl, ?_⟩
  rw [← hsorted]
  simp

end Registry
