import AgentBroker.Lib.JsonRecord

/-!
# Sizes of JSON texts

What a value takes when it is written without whitespace, from the sizes of its parts: a
text takes its quotes and escapes, a number its digits, and an object the names of its
fields besides their values.

## Main results

* `Value.length_compact` — the size of any value, read off its texts and numbers.
* `length_compact_fields` — the size of a record from the sizes of its fields.
* `objectBytes_eq` — the names of a record and its values are counted apart.
* `length_compact_ofEntries_le` — a bound for a record from bounds for its fields.
-/

namespace Json

open List

/-- A text with its quotes and escapes. -/
def textBytes (s : String) : Nat :=
  ((Bytes.ofString s).map fun byte => (escape byte).length).sum + 2

/-- The decimal digits of a number. -/
def digitCount (n : Nat) : Nat := (Nat.toDigits 10 n).length

/-- An array whose items take so much. -/
def arrayBytes (items : List Nat) : Nat := items.sum + (items.length - 1) + 2

/-- An object whose fields take so much; every name has its quotes and a colon. -/
def objectBytes (fields : List (String × Nat)) : Nat :=
  (fields.map fun field => field.1.utf8ByteSize + 3 + field.2).sum + (fields.length - 1) + 2

theorem length_string_eq (s : String) : (string s).length = textBytes s := length_string s

theorem length_number (n : Nat) : (number n).length = digitCount n := by
  rw [number_eq_map, length_map, digitCount]

theorem length_array (items : List Bytes) :
    (array items).length = arrayBytes (items.map List.length) := by
  rw [array, length_cons, length_append, length_commas, arrayBytes, length_map]
  rfl

/-- A text is as long as its bytes with their escapes. -/
theorem length_compact_text (s : String) : (Value.string s).compact.length = textBytes s := by
  rw [compact_string, length_string_eq]

theorem length_compact_texts (texts : List String) :
    (Value.array (texts.map .string)).compact.length = arrayBytes (texts.map textBytes) := by
  rw [compact_array, length_array, List.map_map, List.map_map]
  refine congrArg arrayBytes (map_congr_left fun text _ => ?_)
  exact length_compact_text text

/-! ## Objects -/

/-- Names that need no escapes. -/
def Unescaped (names : List String) : Prop :=
  ∀ name ∈ names, ∀ byte ∈ Bytes.ofString name, Plain byte

instance (names : List String) : Decidable (Unescaped names) :=
  inferInstanceAs (Decidable (∀ name ∈ names, _))

/-- **The size of an object from the sizes of its fields**, in the order they have. -/
theorem length_compact_fields {entries : List (String × Value)}
    (h : Unescaped (entries.map Prod.fst)) :
    (Value.object entries).compact.length =
      objectBytes (entries.map fun entry => (entry.1, entry.2.compact.length)) := by
  have hfields : entries.map fieldLength =
      entries.map fun entry => entry.1.utf8ByteSize + 3 + entry.2.compact.length := by
    refine map_congr_left fun entry hentry => ?_
    rw [fieldLength, length_string_of_plain (h _ (List.mem_map_of_mem hentry))]
  rw [length_compact_object, hfields, objectBytes, List.map_map, length_map]
  rfl

/-- **Names and values are counted apart.** -/
theorem objectBytes_eq (fields : List (String × Nat)) :
    objectBytes fields =
      objectBytes (fields.map fun field => (field.1, 0)) + (fields.map Prod.snd).sum := by
  have hsum : (fields.map fun field => field.1.utf8ByteSize + 3 + field.2).sum =
      (fields.map fun field => field.1.utf8ByteSize + 3).sum + (fields.map Prod.snd).sum :=
    List.sum_map_add
  simp only [objectBytes, List.map_map, Function.comp_def, length_map, hsum, Nat.add_zero]
  omega

/-- Every item takes its comma. -/
theorem arrayBytes_le (items : List Nat) : arrayBytes items ≤ (items.map (· + 1)).sum + 2 := by
  have hsum : (items.map (· + 1)).sum = items.sum + items.length := by
    rw [sum_map_add, map_id', map_const', sum_replicate, smul_eq_mul, Nat.mul_one]
  rw [arrayBytes]
  omega

/-! ## Any value -/

mutual

/-- What a value takes: its texts with their quotes and escapes, its numbers with their digits,
the names of its fields, and the punctuation. -/
def Value.bytes : Value → Nat
  | .null => 4
  | .bool b => if b then 4 else 5
  | .natural n => digitCount n
  | .other text => text.length
  | .string s => textBytes s
  | .array items => arrayBytes (itemBytes items)
  | .object fields => (memberBytes fields).sum + (fields.length - 1) + 2

/-- What the items of an array take. -/
def itemBytes : List Value → List Nat
  | [] => []
  | item :: rest => item.bytes :: itemBytes rest

/-- What the fields of an object take, with their names. -/
def memberBytes : List (String × Value) → List Nat
  | [] => []
  | (key, value) :: rest => (textBytes key + 1 + value.bytes) :: memberBytes rest

end

mutual

/-- **The size of a value is read off its texts and numbers.** -/
theorem Value.length_compact : ∀ value : Value, value.compact.length = value.bytes
  | .null => rfl
  | .bool true => rfl
  | .bool false => rfl
  | .natural n => length_number n
  | .other _ => rfl
  | .string s => length_compact_text s
  | .array items => by
    rw [compact_array, length_array, List.map_map, Value.bytes, ← length_items items]
    rfl
  | .object fields => by rw [length_compact_object, Value.bytes, length_members fields]

theorem length_items : ∀ items : List Value,
    items.map (fun value => value.compact.length) = itemBytes items
  | [] => rfl
  | item :: rest => by rw [map_cons, itemBytes, item.length_compact, length_items rest]

theorem length_members : ∀ fields : List (String × Value),
    fields.map fieldLength = memberBytes fields
  | [] => rfl
  | (key, value) :: rest => by
    rw [map_cons, memberBytes, fieldLength, value.length_compact, length_string_eq,
      length_members rest]

end

/-! ## Objects in the order of their keys -/

/-- Names in their order that need no escapes. -/
def Spelled (names : List String) : Prop := names.Pairwise (· < ·) ∧ Unescaped names

instance (names : List String) : Decidable (Spelled names) :=
  inferInstanceAs (Decidable (_ ∧ _))

/-- The same of an object whose fields are put in order. -/
theorem length_compact_ofEntries {entries : List (String × Value)}
    (h : Spelled (entries.map Prod.fst)) :
    (Value.ofEntries entries).compact.length =
      objectBytes (entries.map fun entry => (entry.1, entry.2.compact.length)) := by
  rw [ofEntries_eq h.1, length_compact_fields h.2]

/-- **A bound for an object from bounds for its fields.** -/
theorem length_compact_ofEntries_le {entries : List (String × Value)}
    (bounds : List (String × Nat)) (hkeys : entries.map Prod.fst = bounds.map Prod.fst)
    (hspelled : Spelled (bounds.map Prod.fst))
    (h : entries.Forall₂ (fun entry bound => entry.2.compact.length ≤ bound.2) bounds) :
    (Value.ofEntries entries).compact.length ≤ objectBytes bounds := by
  rw [length_compact_ofEntries (hkeys ▸ hspelled), objectBytes, objectBytes, length_map,
    h.length_eq, List.map_map]
  clear hspelled
  have hsum : (entries.map ((fun field : String × Nat => field.1.utf8ByteSize + 3 + field.2) ∘
      fun entry => (entry.1, entry.2.compact.length))).sum ≤
      (bounds.map fun field => field.1.utf8ByteSize + 3 + field.2).sum := by
    induction h with
    | nil => exact le_rfl
    | cons hentry _ ih =>
      rw [map_cons, map_cons, List.cons.injEq] at hkeys
      rw [map_cons, map_cons, sum_cons, sum_cons]
      refine Nat.add_le_add ?_ (ih hkeys.2)
      dsimp only [Function.comp_apply]
      rw [hkeys.1]
      exact Nat.add_le_add_left hentry _
  omega

/-- A bound for an array from a bound for its items. -/
theorem length_compact_array_le {items : List Value} {count bound : Nat}
    (hcount : items.length ≤ count) (h : ∀ item ∈ items, item.compact.length ≤ bound) :
    (Value.array items).compact.length ≤ count * bound + (count - 1) + 2 := by
  have hsum : ((items.map Value.compact).map List.length).sum ≤ items.length * bound := by
    have hcard := sum_le_card_nsmul ((items.map Value.compact).map List.length) bound
      (by simpa using h)
    simpa using hcard
  have hle : items.length * bound ≤ count * bound := Nat.mul_le_mul_right bound hcount
  rw [compact_array, length_array, arrayBytes, length_map, length_map]
  omega

/-- A number below a power of ten. -/
theorem digitCount_le {n digits : Nat} (hpos : 0 < digits) (h : n < 10 ^ digits) :
    digitCount n ≤ digits :=
  (Nat.length_toDigits_le_iff (by decide) hpos).mpr h

end Json
