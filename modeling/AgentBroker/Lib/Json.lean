import AgentBroker.Lib.Bytes
import Mathlib.Algebra.Group.Action.Defs
import Mathlib.Algebra.Order.BigOperators.Group.List

/-!
# Compact JSON

The bytes a compact JSON writer puts out for texts, numbers, arrays and objects, with
every text escaped byte by byte.  Only the sizes are studied here: escaping can make a
text six times as long, and never shortens it.

## Main results

* `Json.length_string_le` — a text grows at most sixfold.
* `Json.length_string_of_plain` — a text without quotes, backslashes and control
  characters keeps its length.
* `Json.length_object` — a record is as long as its keys and values together.
-/

open List

/-- The UTF-8 bytes of a string. -/
def Bytes.ofString (s : String) : Bytes := s.toByteArray.data.toList

theorem Bytes.length_ofString (s : String) : (Bytes.ofString s).length = s.utf8ByteSize := by
  rw [Bytes.ofString, Array.length_toList]
  rfl

theorem Bytes.ofString_ofList (chars : List Char) :
    Bytes.ofString (String.ofList chars) = chars.flatMap String.utf8EncodeChar := by
  rw [Bytes.ofString, String.toByteArray_ofList, List.utf8Encode, data_toByteArray]

/-- An ASCII character is one byte. -/
theorem Bytes.utf8EncodeChar_of_ascii {c : Char} (h : c.toNat < 128) :
    String.utf8EncodeChar c = [UInt8.ofNat c.toNat] := by
  unfold String.utf8EncodeChar
  rw [if_pos (show c.val.toNat ≤ 127 from Nat.lt_succ_iff.mp h)]
  rfl

theorem Bytes.ofString_ofList_ascii {chars : List Char} (h : ∀ c ∈ chars, c.toNat < 128) :
    Bytes.ofString (String.ofList chars) = chars.map fun c => UInt8.ofNat c.toNat := by
  rw [Bytes.ofString_ofList, map_eq_flatMap]
  exact flatMap_congr fun c hc => Bytes.utf8EncodeChar_of_ascii (h c hc)

/-- `String::from_utf8`. -/
def Bytes.toString? (bytes : Bytes) : Option String := String.fromUTF8? ⟨bytes.toArray⟩

theorem Bytes.toString?_ofString (s : String) : (Bytes.ofString s).toString? = some s := by
  rw [Bytes.toString?, String.fromUTF8?]
  exact dif_pos s.isValidUTF8

theorem Bytes.ofString_of_toString? {bytes : Bytes} {s : String} (h : bytes.toString? = some s) :
    Bytes.ofString s = bytes := by
  rw [Bytes.toString?, String.fromUTF8?] at h
  split_ifs at h
  cases h
  rfl

/-- The bytes are the UTF-8 of some string. -/
def Bytes.IsText (bytes : Bytes) : Prop := ∃ s, bytes = Bytes.ofString s

theorem Bytes.IsText.nil : Bytes.IsText [] := ⟨"", rfl⟩

theorem Bytes.IsText.append {a b : Bytes} (ha : a.IsText) (hb : b.IsText) : (a ++ b).IsText := by
  obtain ⟨s, rfl⟩ := ha
  obtain ⟨t, rfl⟩ := hb
  exact ⟨s ++ t, by simp [Bytes.ofString]⟩

theorem Bytes.IsText.char (c : Char) : Bytes.IsText (String.utf8EncodeChar c) :=
  ⟨String.ofList [c], by rw [Bytes.ofString_ofList, flatMap_singleton]⟩

theorem Bytes.IsText.byte {byte : UInt8} (h : byte < 128) : Bytes.IsText [byte] := by
  have hall : ∀ n : Fin 128,
      String.utf8EncodeChar (Char.ofNat n) = [UInt8.ofNat n] := by
    decide +kernel
  have hbyte := hall ⟨byte.toNat, h⟩
  rw [UInt8.ofNat_toNat] at hbyte
  exact hbyte ▸ Bytes.IsText.char _

theorem Bytes.IsText.ascii {bytes : Bytes} (h : bytes.all (· < 128) = true) :
    bytes.IsText := by
  induction bytes with
  | nil => exact .nil
  | cons byte rest ih =>
    rw [all_cons, Bool.and_eq_true, decide_eq_true_eq] at h
    exact (IsText.byte h.1).append (ih h.2)

namespace Json

/-! ## Texts -/

/-- A hexadecimal digit in lower case. -/
def hexDigit (n : UInt8) : UInt8 := if n < 10 then 48 + n else 87 + n

/-- One byte of a text between quotes. -/
def escape (byte : UInt8) : Bytes :=
  if byte = 34 then [92, 34]
  else if byte = 92 then [92, 92]
  else if byte = 8 then [92, 98]
  else if byte = 9 then [92, 116]
  else if byte = 10 then [92, 110]
  else if byte = 12 then [92, 102]
  else if byte = 13 then [92, 114]
  -- The control characters without a short form.
  else if byte < 32 then [92, 117, 48, 48, hexDigit (byte / 16), hexDigit (byte % 16)]
  else [byte]

/-- The byte is written as it is. -/
def Plain (byte : UInt8) : Prop := escape byte = [byte]

instance (byte : UInt8) : Decidable (Plain byte) := inferInstanceAs (Decidable (_ = _))

/-- A text between quotes. -/
def string (s : String) : Bytes := 34 :: ((Bytes.ofString s).flatMap escape ++ [34])

theorem length_escape_le (byte : UInt8) : (escape byte).length ≤ 6 := by
  unfold escape
  split_ifs <;> simp

theorem length_string (s : String) :
    (string s).length = ((Bytes.ofString s).map fun byte => (escape byte).length).sum + 2 := by
  rw [string, length_cons, length_append, length_flatMap]
  rfl

/-- **A text grows at most sixfold.** -/
theorem length_string_le (s : String) : (string s).length ≤ 6 * s.utf8ByteSize + 2 := by
  have hsum := sum_le_card_nsmul ((Bytes.ofString s).map fun byte => (escape byte).length) 6
    (fun n hn => by
      obtain ⟨byte, -, rfl⟩ := List.mem_map.mp hn
      exact length_escape_le byte)
  rw [length_map, Bytes.length_ofString, smul_eq_mul] at hsum
  rw [length_string]
  omega

/-- **A plain text keeps its length.** -/
theorem length_string_of_plain {s : String} (h : ∀ byte ∈ Bytes.ofString s, Plain byte) :
    (string s).length = s.utf8ByteSize + 2 := by
  have hones : ((Bytes.ofString s).map fun byte => (escape byte).length) =
      (Bytes.ofString s).map fun _ => 1 :=
    map_congr_left fun byte hbyte => by rw [h byte hbyte, length_singleton]
  rw [length_string, hones, ← Bytes.length_ofString]
  simp

/-! ## Numbers -/

/-- A number in decimal. -/
def number (n : Nat) : Bytes := Bytes.ofString (Nat.repr n)

/-- A decimal digit as a byte. -/
def digitByte (c : Char) : UInt8 := UInt8.ofNat c.toNat

theorem number_eq_map (n : Nat) : number n = (Nat.toDigits 10 n).map digitByte := by
  have hascii : ∀ c ∈ Nat.toDigits 10 n, c.toNat < 128 := fun c hc => by
    have hdigit := Nat.isDigit_of_mem_toDigits (by decide) (by decide) hc
    simp only [Char.isDigit, Bool.and_eq_true, decide_eq_true_eq] at hdigit
    have hle : c.val.toNat ≤ 57 := hdigit.2
    exact Nat.lt_of_le_of_lt hle (by decide)
  rw [number, Nat.repr_eq_ofList_toDigits, Bytes.ofString_ofList_ascii hascii]
  rfl

/-- A number has as many bytes as digits. -/
theorem length_number_le {n digits : Nat} (hpos : 0 < digits) (h : n < 10 ^ digits) :
    (number n).length ≤ digits := by
  rw [number_eq_map, length_map]
  exact (Nat.length_toDigits_le_iff (by decide) hpos).mpr h

/-! ## Arrays and objects -/

/-- `null`. -/
def null : Bytes := [110, 117, 108, 108]

/-- Items with commas between them. -/
def commas : List Bytes → Bytes
  | [] => []
  | [item] => item
  | item :: rest => item ++ 44 :: commas rest

def array (items : List Bytes) : Bytes := 91 :: (commas items ++ [93])

/-- An object, with its keys in the order they are given. -/
def object (fields : List (String × Bytes)) : Bytes :=
  123 :: (commas (fields.map fun field => string field.1 ++ 58 :: field.2) ++ [125])

theorem length_commas (items : List Bytes) :
    (commas items).length = (items.map List.length).sum + (items.length - 1) := by
  fun_induction commas items with
  | case1 => rfl
  | case2 => simp
  | case3 item rest hrest ih =>
    rw [length_append, length_cons, ih]
    have hpos : 0 < rest.length := length_pos_of_ne_nil (by simpa using hrest)
    simp only [map_cons, sum_cons, length_cons]
    omega

/-- **An object is as long as its values together, on top of what its keys take.** -/
theorem length_object (fields : List (String × Bytes)) :
    (object fields).length =
      (object (fields.map fun field => (field.1, []))).length +
        (fields.map fun field => field.2.length).sum := by
  have hsum : (fields.map fun field => (string field.1 ++ 58 :: field.2).length).sum =
      (fields.map fun field => (string field.1 ++ [58]).length).sum +
        (fields.map fun field => field.2.length).sum := by
    rw [← sum_map_add]
    refine congrArg List.sum (map_congr_left fun field _ => ?_)
    simp only [length_append, length_cons, length_nil]
    omega
  simp only [object, length_cons, length_append, length_commas, List.map_map,
    Function.comp_def, length_map]
  simp only [length_append, length_cons, length_nil] at hsum ⊢
  omega

/-- An array is longer than each of its items. -/
theorem length_lt_length_array {items : List Bytes} {item : Bytes} (h : item ∈ items) :
    item.length < (array items).length := by
  have hsum : item.length ≤ (items.map List.length).sum :=
    le_sum_of_mem (List.mem_map.mpr ⟨item, h, rfl⟩)
  rw [array, length_cons, length_append, length_commas]
  omega

/-- An object is longer than each of its values. -/
theorem length_lt_length_object {fields : List (String × Bytes)} {field : String × Bytes}
    (h : field ∈ fields) : field.2.length < (object fields).length := by
  have hsum : field.2.length ≤ (fields.map fun field => field.2.length).sum :=
    le_sum_of_mem (List.mem_map.mpr ⟨field, h, rfl⟩)
  have hpos : 0 < (object (fields.map fun field => (field.1, []))).length := Nat.succ_pos _
  rw [length_object]
  omega

end Json
