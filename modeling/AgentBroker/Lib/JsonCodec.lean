import AgentBroker.Lib.JsonRecord

/-!
# Codecs for JSON texts

A record type is given to `serde_json` by saying which value stands for each record.  From
that alone this module makes a codec: the text is the compact text of the value, and a text
is read by parsing it and looking for the record whose value it spells.

## The design decisions

* **A writer is injective, not invertible.**  `Writer` asks for a value for every record and
  that no two records share one.  A reader by field names would have to be written and
  proved for every record type; injectivity is a statement about the writer alone, and it is
  the only thing a reader can rest on.  The price is that the reader is not computable.
* **The text is parsed.**  The codec does not compare bytes: whatever `parse` reads as the
  tree of a record's value is read as that record, so whitespace after it is allowed, and a
  line that was cut short is recognised by the parser and not by a table of texts.
* **Numbers have one spelling.**  A number beyond `u64` is a different value from every
  number below it, although both are written with their digits; `Value.Whole` keeps the two
  apart, which is what makes `tree` injective.

## Main results

* `Value.Whole.tree_injective` — two values with the same text are the same value.
* `Value.Whole.newline_not_mem` — a compact text has no line break.
* `Writer.codec`, `Writer.lineCodec` — the codec of a record type, and the one for a record
  on a line.
-/

universe u

namespace Json

open List

variable {v w : Value} {n m : Nat} {α β : Type u}

/-! ## A value has one text -/

theorem stringTokenOf_injective : Function.Injective stringTokenOf := by
  intro a b h
  have hread := tokenString_escaped a
  change tokenString (stringTokenOf a) = some a at hread
  rw [h] at hread
  exact (Option.some.inj (hread.symm.trans (tokenString_escaped b)))

theorem number_injective : Function.Injective number := by
  intro a b h
  rw [← decimal_number a, h, decimal_number]

/-- Two lists with the same image are the same, if their items are told apart by it. -/
theorem eq_of_map_eq {f : α → β} {l l' : List α}
    (h : ∀ a ∈ l, ∀ b ∈ l', f a = f b → a = b) (heq : l.map f = l'.map f) : l = l' := by
  induction l generalizing l' with
  | nil => exact (map_eq_nil_iff.mp heq.symm).symm
  | cons a l ih =>
    cases l' with
    | nil => cases heq
    | cons b l' =>
      obtain ⟨hhead, htail⟩ := List.cons.inj heq
      have hsame := h a mem_cons_self b mem_cons_self hhead
      have hrest := ih (fun a ha b hb => h a (mem_cons_of_mem _ ha) b (mem_cons_of_mem _ hb)) htail
      rw [hsame, hrest]

/-- **Two values with the same tree are the same**, by induction on the first. -/
theorem Value.Whole.tree_injective (hv : v.Whole) (hw : w.Whole) (h : v.tree = w.tree) :
    v = w := by
  induction hv generalizing w with
  | null => cases hw <;> first | rfl | cases h
  | bool => cases hw <;> first | (cases h; rfl) | cases h
  | natural n =>
    cases hw with
    | natural m =>
      have hnumber := number_injective (Tree.number.inj h)
      rw [Fin.ext hnumber]
    | beyond hbeyond =>
      have hnumber := number_injective (Tree.number.inj h)
      exact absurd n.isLt (not_lt.mpr (hnumber ▸ hbeyond))
    | _ => cases h
  | beyond hbeyond =>
    cases hw with
    | natural m =>
      have hnumber := number_injective (Tree.number.inj h)
      exact absurd m.isLt (not_lt.mpr (hnumber ▸ hbeyond))
    | beyond => exact congrArg Value.other (Tree.number.inj h)
    | _ => cases h
  | string =>
    cases hw with
    | string => exact congrArg Value.string (stringTokenOf_injective (Tree.string.inj h))
    | _ => cases h
  | array _ ih =>
    cases hw with
    | array hitems =>
      have htrees := Tree.array.inj h
      rw [itemTrees_eq_map, itemTrees_eq_map] at htrees
      refine congrArg Value.array (eq_of_map_eq (fun a ha b hb => ?_) htrees)
      exact ih a ha (hitems b hb)
    | _ => cases h
  | object _ ih =>
    cases hw with
    | object hfields =>
      have htrees := Tree.object.inj h
      rw [fieldTrees_eq_map, fieldTrees_eq_map] at htrees
      refine congrArg Value.object (eq_of_map_eq (fun a ha b hb hab => ?_) htrees)
      obtain ⟨hkey, hvalue⟩ := Prod.mk.inj hab
      exact Prod.ext (stringTokenOf_injective hkey) (ih a ha (hfields b hb) hvalue)
    | _ => cases h

/-! ## A text is one line -/

theorem newline_not_mem_string (s : String) : newline ∉ string s := by
  have hescape : ∀ byte : UInt8, newline ∉ escape byte := by
    intro byte
    have hall : ∀ n : Fin 256, newline ∉ escape (UInt8.ofNat n) := by decide +kernel
    have hbyte := hall ⟨byte.toNat, byte.toNat_lt⟩
    rwa [UInt8.ofNat_toNat] at hbyte
  rw [string, mem_cons, mem_append, mem_flatMap, mem_singleton]
  rintro (h | ⟨byte, -, h⟩ | h)
  · cases h
  · exact hescape byte h
  · cases h

theorem newline_not_mem_number (n : Nat) : newline ∉ number n := by
  intro h
  exact absurd (isDigit_of_mem_number h) (by decide)

theorem newline_not_mem_commas {items : List Bytes} (h : ∀ item ∈ items, newline ∉ item) :
    newline ∉ commas items := by
  fun_induction commas items with
  | case1 => exact not_mem_nil
  | case2 item => exact h item mem_cons_self
  | case3 item rest _ ih =>
    have hrest := ih fun other hother => h other (mem_cons_of_mem _ hother)
    rw [mem_append, mem_cons]
    rintro (hmem | hmem | hmem)
    · exact h item mem_cons_self hmem
    · cases hmem
    · exact hrest hmem

/-- Neither bracket is a line break. -/
theorem newline_not_mem_brackets {first last : UInt8} {items : List Bytes}
    (hfirst : newline ≠ first) (hlast : newline ≠ last) (h : ∀ item ∈ items, newline ∉ item) :
    newline ∉ first :: (commas items ++ [last]) := by
  rw [mem_cons, mem_append, mem_singleton]
  rintro (hmem | hmem | hmem)
  · exact hfirst hmem
  · exact newline_not_mem_commas h hmem
  · exact hlast hmem

/-- **A compact text has no line break.** -/
theorem Value.Whole.newline_not_mem (h : v.Whole) : newline ∉ v.compact := by
  induction h with
  | null => decide
  | bool b => cases b <;> decide
  | natural n => exact newline_not_mem_number n
  | beyond => exact newline_not_mem_number _
  | string s => exact newline_not_mem_string s
  | array _ ih =>
    rw [compact_array]
    refine newline_not_mem_brackets (by decide) (by decide) fun item hitem => ?_
    obtain ⟨value, hvalue, rfl⟩ := List.mem_map.mp hitem
    exact ih value hvalue
  | object _ ih =>
    rw [compact_object]
    refine newline_not_mem_brackets (by decide) (by decide) fun item hitem => ?_
    obtain ⟨field, hfield, rfl⟩ := List.mem_map.mp hitem
    obtain ⟨value, hvalue, rfl⟩ := List.mem_map.mp hfield
    rw [mem_append, mem_cons]
    rintro (hmem | hmem | hmem)
    · exact newline_not_mem_string _ hmem
    · cases hmem
    · exact ih value hvalue hmem

/-! ## Parts of records -/

/-- A natural number, as large as it may be. -/
def ofNat (n : Nat) : Value := if h : n < 2 ^ 64 then .natural ⟨n, h⟩ else .other (number n)

@[simp] theorem compact_ofNat (n : Nat) : (ofNat n).compact = number n := by
  unfold ofNat
  split <;> rfl

@[simp] theorem whole_ofNat (n : Nat) : (ofNat n).Whole := by
  unfold ofNat
  split
  case isTrue h => exact .natural _
  case isFalse h => exact .beyond (Nat.le_of_not_lt h)

@[simp] theorem ofNat_inj : ofNat n = ofNat m ↔ n = m := by
  refine ⟨fun h => number_injective ?_, fun h => by rw [h]⟩
  rw [← compact_ofNat, h, compact_ofNat]

/-- `null`, or what stands for the record. -/
def optional (write : α → Value) (value : Option α) : Value := (value.map write).getD .null

/-- A record is not written as `null`. -/
def NotNull (write : α → Value) : Prop := ∀ a, write a ≠ .null

theorem optional_injective {write : α → Value} (hwrite : Function.Injective write)
    (hnull : NotNull write) : Function.Injective (optional write) := by
  intro a b h
  cases a with
  | none =>
    cases b with
    | none => rfl
    | some b => exact absurd h.symm (hnull b)
  | some a =>
    cases b with
    | none => exact absurd h (hnull a)
    | some b => exact congrArg some (hwrite h)

theorem whole_optional {write : α → Value} (h : ∀ a, (write a).Whole) (value : Option α) :
    (optional write value).Whole := by
  cases value with
  | none => exact .null
  | some a => exact h a

theorem whole_map_array {write : α → Value} (h : ∀ a, (write a).Whole) (items : List α) :
    (Value.array (items.map write)).Whole :=
  .array fun item hitem => by
    obtain ⟨a, -, rfl⟩ := List.mem_map.mp hitem
    exact h a

/-- Fields of which those without a value are left out (`skip_serializing_if`). -/
def present (fields : List (String × Option Value)) : List (String × Value) :=
  fields.filterMap fun field => field.2.map fun value => (field.1, value)

theorem mem_of_mem_present {fields : List (String × Option Value)} {field : String × Value}
    (h : field ∈ present fields) : (field.1, some field.2) ∈ fields := by
  obtain ⟨⟨key, value⟩, hmem, hvalue⟩ := mem_filterMap.mp h
  obtain ⟨value, rfl, rfl⟩ := Option.map_eq_some_iff.mp hvalue
  exact hmem

/-- What is left out is known from the names: two lists of fields with the same names, none
of which occurs twice, are told apart by what is present. -/
theorem present_injective {fields fields' : List (String × Option Value)} (keys : List String)
    (hkeys : fields.map Prod.fst = keys) (hkeys' : fields'.map Prod.fst = keys)
    (hnodup : keys.Nodup) (h : present fields = present fields') : fields = fields' := by
  induction keys generalizing fields fields' with
  | nil => rw [map_eq_nil_iff.mp hkeys, map_eq_nil_iff.mp hkeys']
  | cons _ keys ih =>
    obtain ⟨⟨_, value⟩, rest, rfl, rfl, hrest⟩ := map_eq_cons_iff.mp hkeys
    obtain ⟨⟨key, value'⟩, rest', rfl, rfl, hrest'⟩ := map_eq_cons_iff.mp hkeys'
    change (key :: keys).Nodup at hnodup
    obtain ⟨hfresh, hnodup⟩ := nodup_cons.mp hnodup
    -- The name of the first field does not occur among the others.
    have habsent : ∀ (others : List (String × Option Value)) (v : Value),
        others.map Prod.fst = keys → (key, v) ∉ present others := by
      intro others v hothers hmem
      exact hfresh (hothers ▸ mem_map_of_mem (mem_of_mem_present hmem))
    have hsame : value = value' ∧ present rest = present rest' := by
      cases value with
      | none =>
        cases value' with
        | none => exact ⟨rfl, h⟩
        | some v' =>
          change present rest = (key, v') :: present rest' at h
          exact absurd (h ▸ mem_cons_self) (habsent rest v' hrest)
      | some v =>
        cases value' with
        | none =>
          change (key, v) :: present rest = present rest' at h
          exact absurd (h ▸ mem_cons_self) (habsent rest' v hrest')
        | some v' =>
          change (key, v) :: present rest = (key, v') :: present rest' at h
          obtain ⟨hhead, htail⟩ := List.cons.inj h
          exact ⟨congrArg some (Prod.mk.inj hhead).2, htail⟩
    rw [hsame.1, ih hrest hrest' hnodup hsame.2]

theorem whole_present {fields : List (String × Option Value)}
    (h : ∀ field ∈ fields, ∀ value ∈ field.2, value.Whole) :
    (Value.object (present fields)).Whole :=
  .object fun _ hfield => h _ (mem_of_mem_present hfield) _ rfl

/-! ## Codecs -/

/-- A value for every record, and no value for two. -/
structure Writer (α : Type u) where
  write : α → Value
  whole : ∀ a, (write a).Whole
  injective : Function.Injective write

namespace Writer

variable (writer : Writer α)

open Classical in
/-- The record whose value a text spells. -/
noncomputable def fromSlice (bytes : Bytes) : Except String α :=
  match parse bytes with
  | none => .error "malformed JSON"
  | some tree =>
    if h : ∃ a, (writer.write a).tree = tree then .ok h.choose else .error "another record"

/-- What is written is read back, whatever whitespace follows. -/
theorem fromSlice_compact (a : α) (rest : Bytes) (hrest : ∀ byte ∈ rest, isSpace byte = true) :
    writer.fromSlice ((writer.write a).compact ++ rest) = .ok a := by
  have hex : ∃ b, (writer.write b).tree = (writer.write a).tree := ⟨a, rfl⟩
  have hsame := (writer.whole hex.choose).tree_injective (writer.whole a) hex.choose_spec
  unfold fromSlice
  rw [parse_compact (writer.whole a) hrest]
  dsimp only
  rw [dif_pos hex, writer.injective hsame]

/-- The codec that writes compact texts. -/
noncomputable def codec : Codec α where
  toVec a := (writer.write a).compact
  fromSlice := writer.fromSlice
  fromSlice_toVec a := by
    have hread := writer.fromSlice_compact a [] fun _ h => absurd h not_mem_nil
    rwa [append_nil] at hread

/-- The codec for one compact text on a line; a line is well formed if it parses. -/
noncomputable def lineCodec : LineCodec α where
  toCodec := writer.codec
  isValue bytes := (parse bytes).isSome
  newline_not_mem a := (writer.whole a).newline_not_mem
  fromSlice_line a := writer.fromSlice_compact a _ isSpace_newline
  isValue_line a := by
    have hparse : parse ((writer.write a).compact ++ [newline]) = some (writer.write a).tree :=
      parse_compact (writer.whole a) isSpace_newline
    exact Option.isSome_of_eq_some hparse

end Writer

end Json
