import AgentBroker.Lib.JsonValue

/-!
# Records in JSON

How typed records are read: from an object by the names of their fields, or from an array
by their order.  Every field is read by a reader for its type; a field may be required, or
`none` where it is missing or `null`.

A record can be read from a text, where a field may be malformed or occur twice, or from a
value, where it may not.

## Main results

* `fields_tree` — the fields of an object that was written.
* `sum_named_le` — the members of a record are no shorter than its fields.
-/

namespace Json

open List Option

section Fields

variable {α : Type}

/-- The values of some names, none of which may occur twice.  If `deny` is set, no other
name may occur either. -/
def namedFields (deny : Bool) (names : List String) (fields : List (String × α)) :
    Option (List (Option α)) :=
  if (deny = true → ∀ field ∈ fields, field.1 ∈ names) ∧
      ((fields.map Prod.fst).filter (· ∈ names)).Nodup then
    some (names.map fun name => OrdMap.lookup name fields)
  else none

/-- Values by their order. -/
def orderedFields (names : List String) (items : List α) : Option (List (Option α)) :=
  if items.length ≤ names.length then some ((List.range names.length).map (items[·]?)) else none

end Fields

/-- The fields of a record in a text. -/
def Tree.fields (deny : Bool) (names : List String) : Tree → Option (List (Option Tree))
  | .object members => (members.mapM (readField some)).bind (namedFields deny names)
  | .array items => orderedFields names items
  | _ => none

/-- The fields of a record in a value; no others may occur. -/
def Value.fields (names : List String) : Value → Option (List (Option Value))
  | .object fields => namedFields true names fields
  | .array items => orderedFields names items
  | _ => none

/-- A text. -/
def Tree.asString : Tree → Option String
  | .string token => tokenString token
  | _ => none

/-- A number below a bound. -/
def Tree.asNatural (bound : Nat) : Tree → Option Nat
  | .number token => (naturalToken token).bind fun n => if n.val < bound then some n.val else none
  | _ => none

/-- `null`, or a value. -/
def Tree.asOption {α : Type} (f : Tree → Option α) : Tree → Option (Option α)
  | .null => some none
  | tree => (f tree).map some

/-- A field that has to be there. -/
def required {τ α : Type} (f : τ → Option α) (field : Option τ) : Option α := field.bind f

/-- A field that is `none` where it is missing. -/
def defaulted {τ α : Type} (f : τ → Option (Option α)) : Option τ → Option (Option α)
  | none => some none
  | some tree => f tree

/-- A text. -/
def Value.asString : Value → Option String
  | .string s => some s
  | _ => none

/-- A `u64`. -/
def Value.asNatural : Value → Option (Fin (2 ^ 64))
  | .natural n => some n
  | _ => none

/-- An array. -/
def Value.asArray {α : Type} (f : Value → Option α) : Value → Option (List α)
  | .array items => items.mapM f
  | _ => none

/-- `null`, or a value. -/
def Value.asOption {α : Type} (f : Value → Option α) : Value → Option (Option α)
  | .null => some none
  | value => (f value).map some

/-- A field of an object. -/
def Value.get (name : String) : Value → Option Value
  | .object fields => OrdMap.lookup name fields
  | _ => none

/-- An object with the given entries. -/
def Value.ofEntries (entries : List (String × Value)) : Value := .object (ofFields entries)

/-- The keys stand in their order, and every one of them is a name of the record. -/
def Fits (names keys : List String) : Prop :=
  keys.Pairwise (· < ·) ∧ ∀ key ∈ keys, key ∈ names

instance (names keys : List String) : Decidable (Fits names keys) :=
  inferInstanceAs (Decidable (_ ∧ _))

variable {entries : List (String × Value)} {depth : Nat} {α : Type} {names : List String}
  {deny : Bool} {field : Option Value} {tree : Tree}

/-- Entries in the order of their keys. -/
theorem ofEntries_eq (h : (entries.map Prod.fst).Pairwise (· < ·)) :
    Value.ofEntries entries = .object entries := by
  rw [Value.ofEntries, ofFields_of_sorted (pairwise_map.mp h)]

theorem regular_ofEntries (h : ∀ entry ∈ entries, entry.2.Regular depth) :
    (Value.ofEntries entries).Regular (depth + 1) :=
  ⟨ofFields_sorted entries, fun field hfield => h field (mem_of_mem_ofFields hfield)⟩

/-! ## What was written -/

theorem namedFields_of_nodup {fields : List (String × α)} (h : (fields.map Prod.fst).Nodup)
    (hnames : ∀ key ∈ fields.map Prod.fst, key ∈ names) :
    namedFields deny names fields = some (names.map fun name => OrdMap.lookup name fields) :=
  if_pos ⟨fun _ _ hfield => hnames _ (List.mem_map_of_mem hfield), h.filter _⟩

theorem Fits.nodup {keys : List String} (h : Fits names keys) : keys.Nodup :=
  h.1.imp fun hlt => ne_of_lt hlt

/-- The keys of an object that was written are read back. -/
theorem mapM_readField_fieldTree (fields : List (String × Value)) :
    (fields.map fieldTree).mapM (readField some) =
      some (fields.map fun field => (field.1, field.2.tree)) := by
  induction fields with
  | nil => rfl
  | cons field rest ih =>
    have hfield : readField some (fieldTree field) = some (field.1, field.2.tree) := by
      rw [readField, fieldTree, stringTokenOf, tokenString_escaped]
      rfl
    rw [map_cons, mapM_cons, hfield, ih]
    rfl

/-- The fields of an object that was written. -/
theorem fields_tree (deny : Bool) (names : List String) (fields : List (String × Value)) :
    (Value.object fields).tree.fields deny names =
      namedFields deny names (fields.map fun field => (field.1, field.2.tree)) := by
  rw [Value.tree, Tree.fields, fieldTrees_eq_map, mapM_readField_fieldTree, bind_some]

/-- A record that was written in any order is read by the names of its fields. -/
theorem fields_tree_of_nodup (h : (entries.map Prod.fst).Nodup)
    (hnames : ∀ key ∈ entries.map Prod.fst, key ∈ names) :
    (Value.object entries).tree.fields deny names =
      some (names.map fun name =>
        OrdMap.lookup name (entries.map fun entry => (entry.1, entry.2.tree))) := by
  have hkeys : (entries.map fun entry => (entry.1, entry.2.tree)).map Prod.fst =
      entries.map Prod.fst := List.map_map
  rw [fields_tree, namedFields_of_nodup (hkeys ▸ h) (hkeys ▸ hnames)]

/-- A record that was built is read by the names of its fields. -/
theorem fields_ofEntries (h : Fits names (entries.map Prod.fst)) :
    (Value.ofEntries entries).fields names =
      some (names.map fun name => OrdMap.lookup name entries) := by
  rw [ofEntries_eq h.1, Value.fields, namedFields_of_nodup h.nodup h.2]

/-- A record that was written is read by the names of its fields. -/
theorem fields_tree_ofEntries (h : Fits names (entries.map Prod.fst)) :
    (Value.ofEntries entries).tree.fields deny names =
      some (names.map fun name =>
        OrdMap.lookup name (entries.map fun entry => (entry.1, entry.2.tree))) := by
  rw [ofEntries_eq h.1, fields_tree_of_nodup h.nodup h.2]

@[simp] theorem asString_tree (s : String) : (Value.string s).tree.asString = some s :=
  tokenString_escaped s

theorem asNatural_tree {bound : Nat} {n : Fin (2 ^ 64)} (h : n.val < bound) :
    (Value.natural n).tree.asNatural bound = some n.val := by
  rw [Value.tree, Tree.asNatural, naturalToken_number, bind_some, if_pos h]

@[simp] theorem required_some {τ : Type} (f : τ → Option α) (tree : τ) :
    required f (some tree) = f tree := rfl

@[simp] theorem defaulted_none {τ : Type} (f : τ → Option (Option α)) :
    defaulted f none = some none := rfl

@[simp] theorem defaulted_some {τ : Type} (f : τ → Option (Option α)) (tree : τ) :
    defaulted f (some tree) = f tree := rfl

theorem required_eq_some_iff {τ : Type} {f : τ → Option α} {field : Option τ} {a : α} :
    required f field = some a ↔ ∃ tree, field = some tree ∧ f tree = some a :=
  bind_eq_some_iff

/-- A required field, with what is made of it. -/
theorem required_bind_eq_some_iff {τ β : Type} {f : τ → Option α} {field : Option τ}
    {g : α → Option β} {b : β} : required f field >>= g = some b ↔
      ∃ tree, field = some tree ∧ ∃ a, f tree = some a ∧ g a = some b := by
  cases field with
  | none => exact ⟨fun h => (nomatch h), fun ⟨_, h, _⟩ => (nomatch h)⟩
  | some => simp [required, bind_eq_some_iff]

/-- A record that was written, read for some of its fields only. -/
theorem fields_tree_of_sorted (h : (entries.map Prod.fst).Pairwise (· < ·)) :
    (Value.ofEntries entries).tree.fields false names =
      some (names.map fun name =>
        OrdMap.lookup name (entries.map fun entry => (entry.1, entry.2.tree))) := by
  rw [ofEntries_eq h, fields_tree]
  refine if_pos ⟨fun hdeny => Bool.noConfusion hdeny, ?_⟩
  rw [List.map_map]
  exact (h.imp fun hlt => ne_of_lt hlt).filter _

/-- A record of a text, read for one of its fields only. -/
theorem fields_single {members : List (Bytes × Tree)} {name : String} {field : Option Tree}
    {rest : List (Option Tree)}
    (h : (Tree.object members).fields deny (name :: names) = some (field :: rest)) :
    (Tree.object members).fields false [name] = some [field] := by
  obtain ⟨fields, hfields, h⟩ := bind_eq_some_iff.mp h
  unfold namedFields at h
  split_ifs at h with hnames
  cases h
  rw [Tree.fields, hfields, bind_some]
  refine if_pos ⟨fun hdeny => Bool.noConfusion hdeny, ?_⟩
  refine List.Nodup.sublist (monotone_filter_right _ fun key hkey => ?_) hnames.2
  simp only [mem_singleton, decide_eq_true_eq] at hkey
  simp [hkey]

/-! ## Records without loss -/

/-- The fields of an object that was read stand in the order of their keys. -/
theorem sorted_of_toValue {numberText : Bytes → Option Bytes} {fields : List (String × Value)}
    (h : tree.toValue numberText depth = some (.object fields)) :
    fields.Pairwise (fun a b => a.1 < b.1) := by
  cases tree with
  | object =>
    cases depth with
    | zero => cases h
    | succ =>
      obtain ⟨read, -, h⟩ := map_eq_some_iff.mp h
      cases h
      exact ofFields_sorted read
  | number token =>
    rw [Tree.toValue] at h
    cases hnatural : naturalToken token with
    | some n =>
      rw [hnatural] at h
      cases h
    | none =>
      rw [hnatural] at h
      obtain ⟨_, _, h⟩ := map_eq_some_iff.mp h
      cases h
  | string token =>
    have hvalue : (tokenString token).map .string = some (Value.object fields) := by
      cases depth <;> exact h
    obtain ⟨_, _, hvalue⟩ := map_eq_some_iff.mp hvalue
    cases hvalue
  | array =>
    cases depth with
    | zero => cases h
    | succ =>
      obtain ⟨_, _, h⟩ := map_eq_some_iff.mp h
      cases h
  | null | bool b => cases depth <;> cases h

/-- A field that is there, without loss. -/
def Present (depth : Nat) (field : Option Value) : Prop :=
  ∃ value, field = some value ∧ value.Regular depth

theorem present_of_string {s : String} (h : required Value.asString field = some s) :
    Present depth field := by
  obtain ⟨value, rfl, h⟩ := required_eq_some_iff.mp h
  cases value with
  | string => exact ⟨_, rfl, regular_string _ _⟩
  | _ => cases h

theorem present_of_natural {f : Fin (2 ^ 64) → α} {a : α}
    (h : required (fun value => value.asNatural.map f) field = some a) : Present depth field := by
  obtain ⟨value, rfl, h⟩ := required_eq_some_iff.mp h
  cases value with
  | natural => exact ⟨_, rfl, regular_natural _ _⟩
  | _ => cases h

theorem present_of_strings {texts : List String}
    (h : required (Value.asArray Value.asString) field = some texts) :
    Present (depth + 1) field := by
  obtain ⟨value, rfl, h⟩ := required_eq_some_iff.mp h
  cases value with
  | array =>
    refine ⟨_, rfl, fun item hitem => ?_⟩
    obtain ⟨text, htext⟩ := exists_of_mem_mapM h hitem
    have hpresent : Present depth (some item) :=
      present_of_string (required_eq_some_iff.mpr ⟨item, rfl, htext⟩)
    obtain ⟨_, heq, hregular⟩ := hpresent
    cases heq
    exact hregular
  | _ => cases h

/-- A record all of whose fields are there is without loss. -/
theorem regular_of_fields {value : Value} {looked : List (Option Value)}
    (hsorted : ∀ fields, value = .object fields → fields.Pairwise (fun a b => a.1 < b.1))
    (h : value.fields names = some looked) (hlooked : ∀ field ∈ looked, Present depth field) :
    value.Regular (depth + 1) := by
  cases value with
  | object fields =>
    have hfields := hsorted fields rfl
    rw [Value.fields, namedFields] at h
    split_ifs at h with hnames
    cases h
    refine ⟨hfields, fun field hfield => ?_⟩
    obtain ⟨value, hlookup, hregular⟩ := hlooked _
      (List.mem_map.mpr ⟨field.1, hnames.1 rfl field hfield, rfl⟩)
    rw [(OrdMap.lookup_eq_some_iff hfields).mpr hfield] at hlookup
    cases hlookup
    exact hregular
  | array =>
    rw [Value.fields, orderedFields] at h
    split_ifs at h with hlength
    cases h
    intro item hitem
    obtain ⟨i, hi, rfl⟩ := getElem_of_mem hitem
    obtain ⟨value, hvalue, hregular⟩ := hlooked _
      (List.mem_map.mpr ⟨i, mem_range.mpr (hi.trans_le hlength), rfl⟩)
    rw [List.getElem?_eq_getElem hi] at hvalue
    cases hvalue
    exact hregular
  | _ => cases h

/-! ## The first field of a record -/

/-- The field a record starts with: by its name in an object, the first item of an array. -/
def Tree.first (name : String) : Tree → Option Tree
  | .object members => (members.mapM (readField some)).bind (OrdMap.lookup name)
  | .array items => items.head?
  | _ => none

theorem first_of_fields {name : String} {field : Option Tree} {rest : List (Option Tree)}
    (h : tree.fields deny (name :: names) = some (field :: rest)) : tree.first name = field := by
  cases tree with
  | object =>
    obtain ⟨fields, hfields, h⟩ := bind_eq_some_iff.mp h
    unfold namedFields at h
    split_ifs at h
    cases h
    rw [Tree.first, hfields, bind_some]
  | array items =>
    rw [Tree.fields, orderedFields] at h
    split_ifs at h
    rw [length_cons, range_succ_eq_map] at h
    cases h
    cases items <;> rfl
  | _ => cases h

/-! ## The lengths of members -/

/-- Written anew, a text is no longer than what it was read from. -/
theorem length_string_le_of_asString {s : String} (h : tree.asString = some s) :
    (string s).length ≤ tree.text.length := by
  cases tree with
  | string =>
    have hle := length_string_le_of_token h
    rw [Tree.text, length_cons, length_append, length_singleton]
    omega
  | _ => cases h

/-- A number has a digit. -/
theorem length_pos_of_asNatural {bound n : Nat} (h : tree.asNatural bound = some n) :
    0 < tree.text.length := by
  cases tree with
  | number =>
    obtain ⟨m, hm, -⟩ := bind_eq_some_iff.mp h
    unfold naturalToken at hm
    split_ifs at hm with hdigits
    exact length_pos_of_ne_nil hdigits.1
  | _ => cases h

/-- What a member takes in an object, with a comma; nothing if it is missing. -/
def memberLength (name : String) : Option Tree → Nat
  | none => 0
  | some tree => (string name).length + 1 + tree.text.length + 1

theorem sum_ite_le (hnames : names.Nodup) (key : String) (cost : Nat) (other : String → Nat) :
    (names.map fun name => if name = key then cost else other name).sum ≤
      cost + (names.map other).sum := by
  induction names with
  | nil => exact Nat.zero_le _
  | cons name names ih =>
    obtain ⟨hname, hnames⟩ := nodup_cons.mp hnames
    rw [map_cons, map_cons, sum_cons, sum_cons]
    split_ifs with hkey
    · subst hkey
      have hrest : (names.map fun n => if n = name then cost else other n) = names.map other :=
        map_congr_left fun n hn => if_neg fun heq : n = name => hname (heq ▸ hn)
      rw [hrest]
      omega
    · have hrest := ih hnames
      omega

theorem sum_lookup_le (hnames : names.Nodup) (fields : List (String × Tree)) :
    (names.map fun name => memberLength name (OrdMap.lookup name fields)).sum ≤
      (fields.map fun field => memberLength field.1 (some field.2)).sum := by
  induction fields with
  | nil => simp [OrdMap.lookup, memberLength]
  | cons field rest ih =>
    obtain ⟨key, tree⟩ := field
    have hsplit : ∀ name, memberLength name (OrdMap.lookup name ((key, tree) :: rest)) =
        if name = key then memberLength key (some tree)
        else memberLength name (OrdMap.lookup name rest) := by
      intro name
      rw [OrdMap.lookup]
      split_ifs with hkey
      · rw [hkey]
      · rfl
    simp only [hsplit]
    have hle := sum_ite_le hnames key (memberLength key (some tree))
      fun name => memberLength name (OrdMap.lookup name rest)
    rw [map_cons, sum_cons]
    dsimp only at hle ⊢
    omega

/-- **The members of a record are no shorter than its fields written out.** -/
theorem sum_named_le (hnames : names.Nodup) {members : List (Bytes × Tree)}
    {looked : List (Option Tree)} (h : (Tree.object members).fields deny names = some looked) :
    (List.zipWith memberLength names looked).sum + 1 ≤ (Tree.object members).text.length := by
  obtain ⟨fields, hfields, h⟩ := bind_eq_some_iff.mp h
  unfold namedFields at h
  split_ifs at h
  cases h
  have hmembers : (fields.map fun field => memberLength field.1 (some field.2)).sum ≤
      (members.map fun member => (memberText member).length + 1).sum := by
    refine sum_le_of_forall₂ (forall₂_of_mapM hfields) ?_
    intro member field _ hfield
    obtain ⟨key, hkey, hfield⟩ := bind_eq_some_iff.mp hfield
    cases hfield
    have hstring := length_string_le_of_token hkey
    simp only [memberLength, memberText, length_cons, length_append]
    omega
  have hlookup := sum_lookup_le hnames fields
  have hzip : List.zipWith memberLength names
      (names.map fun name => OrdMap.lookup name fields) =
      names.map fun name => memberLength name (OrdMap.lookup name fields) := by
    rw [zipWith_map_right]
    exact zipWith_self
  have htext : (members.map fun member => (memberText member).length + 1).sum + 1 ≤
      (Tree.object members).text.length := by
    rw [Tree.text, length_cons, length_append, length_commas, memberTexts_eq_map,
      List.map_map, sum_map_add]
    simp only [map_const', sum_replicate, smul_eq_mul, Nat.mul_one, length_map,
      length_singleton, Function.comp_def]
    omega
  rw [hzip]
  omega

end Json
