import AgentBroker.Lib.JsonText
import AgentBroker.Lib.OrdMap
import Mathlib.Data.List.TakeWhile
import Mathlib.Data.String.Basic

/-!
# JSON values

What the tokens of a JSON text stand for.  Escapes are resolved, a member that occurs twice
keeps its last value, and the members of an object are put in the order of their keys.  A
value is written without whitespace and with as few escapes as possible.

Numbers that are no `u64` are kept as the text the writer would print for them; how that
text depends on the token is a parameter.

## Main results

* `parse_compact` — what was written is read back.
* `length_compact_le_of_toValue` — no text of a value is shorter than the one that is written.
* `isText_compact` — what is written is UTF-8.
-/

namespace Json

open List Option

/-! ## Texts -/

/-- Resolve the escapes of a token. -/
def unescape : Bytes → Option Bytes
  | [] => some []
  | byte :: rest =>
    if byte = 92 then
      match rest with
      | [] => none
      | letter :: rest =>
        if letter = 117 then
          match rest with
          | a :: b :: c :: d :: rest => do
              let unit ← hex4 a b c d
              -- Half of a surrogate pair stands for no character.
              if 0xDC00 ≤ unit ∧ unit ≤ 0xDFFF then none
              else if 0xD800 ≤ unit ∧ unit ≤ 0xDBFF then
                match rest with
                | slash :: u :: a :: b :: c :: d :: rest =>
                  if slash = 92 ∧ u = 117 then do
                    let low ← hex4 a b c d
                    if 0xDC00 ≤ low ∧ low ≤ 0xDFFF then
                      (unescape rest).map (String.utf8EncodeChar (Char.ofNat
                        (0x10000 + (unit - 0xD800) * 0x400 + (low - 0xDC00))) ++ ·)
                    else none
                  else none
                | _ => none
              else (unescape rest).map (String.utf8EncodeChar (Char.ofNat unit) ++ ·)
          | _ => none
        else (simpleEscape letter).bind fun byte => (unescape rest).map ([byte] ++ ·)
    -- A quote ends the text, and control characters have to be escaped.
    else if byte = 34 ∨ byte < 32 then none
    else (unescape rest).map ([byte] ++ ·)

/-- The text a token stands for. -/
def tokenString (token : Bytes) : Option String :=
  (unescape token).bind fun bytes => String.fromUTF8? ⟨bytes.toArray⟩

variable {byte : UInt8} {n bound depth fuel : Nat} {rest bytes token : Bytes} {v : Value}
  {α β : Type} {fields : List (String × Value)}

theorem unescape_simple {letter : UInt8} (hu : letter ≠ 117) (h : simpleEscape letter = some byte)
    (rest : Bytes) :
    unescape ([92, letter] ++ rest) = (unescape rest).map ([byte] ++ ·) := by
  rw [cons_append, unescape.eq_def]
  simp [hu, h]

theorem utf8EncodeChar_control (h : byte < 32) :
    String.utf8EncodeChar (Char.ofNat byte.toNat) = [byte] := by
  have hall : ∀ n : Fin 32,
      String.utf8EncodeChar (Char.ofNat (UInt8.ofNat n).toNat) = [UInt8.ofNat n] := by
    decide +kernel
  have hbyte := hall ⟨byte.toNat, h⟩
  rwa [UInt8.ofNat_toNat] at hbyte

theorem unescape_escape (byte : UInt8) (rest : Bytes) :
    unescape (escape byte ++ rest) = (unescape rest).map ([byte] ++ ·) := by
  unfold escape
  split_ifs with h34 h92 h8 h9 h10 h12 h13 hcontrol
  iterate 7
    first
    | subst byte
      exact unescape_simple (by decide) (by decide) rest
  · have hunit : byte.toNat < 32 := hcontrol
    rw [cons_append, unescape.eq_def]
    simp [hex4_control hcontrol, utf8EncodeChar_control hcontrol,
      show ¬56320 ≤ byte.toNat by omega, show ¬55296 ≤ byte.toNat by omega]
  · rw [singleton_append, unescape.eq_def]
    dsimp only
    rw [if_neg h92, if_neg (not_or.mpr ⟨h34, hcontrol⟩)]

theorem unescape_escaped (bytes : Bytes) : unescape (bytes.flatMap escape) = some bytes := by
  induction bytes with
  | nil => rfl
  | cons _ _ ih =>
    rw [flatMap_cons, unescape_escape, ih]
    rfl

/-- **A text survives its escapes.** -/
theorem tokenString_escaped (s : String) :
    tokenString ((Bytes.ofString s).flatMap escape) = some s := by
  rw [tokenString, unescape_escaped, bind_some, String.fromUTF8?]
  exact dif_pos s.isValidUTF8

/-- A character beyond ASCII is written as it is. -/
theorem length_escape_of_le (hle : 128 ≤ n) (hlt : n < 256) :
    (escape (UInt8.ofNat n)).length = 1 := by
  have hall : ∀ n : Fin 256, 128 ≤ n.val → (escape (UInt8.ofNat n)).length = 1 := by
    decide +kernel
  exact hall ⟨n, hlt⟩ hle

theorem length_escaped_char_le (c : Char) :
    ((String.utf8EncodeChar c).flatMap escape).length ≤ 6 := by
  unfold String.utf8EncodeChar
  dsimp only
  split_ifs
  · rw [flatMap_singleton]
    exact length_escape_le _
  all_goals
    simp only [flatMap_cons, flatMap_nil, length_append, length_nil]
    repeat rw [length_escape_of_le (by omega) (by omega)]
    decide

theorem length_escaped_byte_le (h : ¬(byte = 34 ∨ byte < 32)) (h92 : byte ≠ 92) :
    (escape byte).length ≤ 1 := by
  have hall : ∀ n : Fin 256, ¬(UInt8.ofNat n = 34 ∨ UInt8.ofNat n < 32) →
      UInt8.ofNat n ≠ 92 → (escape (UInt8.ofNat n)).length ≤ 1 := by
    decide +kernel
  have hbyte := hall ⟨byte.toNat, byte.toNat_lt⟩
  rw [UInt8.ofNat_toNat] at hbyte
  exact hbyte h h92

theorem length_simpleEscape_le {letter : UInt8} (h : simpleEscape letter = some byte) :
    (escape byte).length ≤ 2 := by
  unfold simpleEscape at h
  split_ifs at h <;> cases h <;> decide

theorem length_escaped_map_le {front : Bytes} (hfront : (front.flatMap escape).length ≤ bound)
    (hrest : ∀ {bytes : Bytes}, unescape rest = some bytes →
      (bytes.flatMap escape).length ≤ rest.length)
    (h : (unescape rest).map (front ++ ·) = some bytes) :
    (bytes.flatMap escape).length ≤ bound + rest.length := by
  obtain ⟨tail, htail, rfl⟩ := map_eq_some_iff.mp h
  rw [flatMap_append, length_append]
  exact Nat.add_le_add hfront (hrest htail)

/-- **Escaping anew makes no token longer.** -/
theorem length_escaped_le (h : unescape token = some bytes) :
    (bytes.flatMap escape).length ≤ token.length := by
  fun_induction unescape token generalizing bytes with
  | case1 =>
    cases h
    exact Nat.le_refl _
  | case3 a b c d rest ih₂ ih₁ =>
    obtain ⟨unit, -, h⟩ := bind_eq_some_iff.mp h
    split_ifs at h
    · split at h
      · split_ifs at h
        obtain ⟨low, -, h⟩ := bind_eq_some_iff.mp h
        split_ifs at h
        have hle := length_escaped_map_le (length_escaped_char_le _) ih₂ h
        simp only [length_cons]
        omega
      · cases h
    · have hle := length_escaped_map_le (length_escaped_char_le _) ih₁ h
      simp only [length_cons]
      omega
  | case5 _ _ _ ih =>
    obtain ⟨byte, hbyte, h⟩ := bind_eq_some_iff.mp h
    have hfront : ([byte].flatMap escape).length ≤ 2 := by
      rw [flatMap_singleton]
      exact length_simpleEscape_le hbyte
    have hle := length_escaped_map_le hfront ih h
    simp only [length_cons]
    omega
  | case7 byte rest h92 hplain ih =>
    have hfront : ([byte].flatMap escape).length ≤ 1 := by
      rw [flatMap_singleton]
      exact length_escaped_byte_le hplain h92
    have hle := length_escaped_map_le hfront ih h
    simp only [length_cons]
    omega
  | _ => cases h

/-- Written anew, a text is no longer than its token between quotes. -/
theorem length_string_le_of_token {s : String} (h : tokenString token = some s) :
    (string s).length ≤ token.length + 2 := by
  obtain ⟨bytes, hbytes, h⟩ := bind_eq_some_iff.mp h
  have hle := length_escaped_le hbytes
  have hstring : Bytes.ofString s = bytes := by
    rw [String.fromUTF8?] at h
    split_ifs at h
    cases h
    rfl
  rw [string, hstring, length_cons, length_append, length_singleton]
  omega

/-! ## Numbers -/

/-- What decimal digits stand for. -/
def decimal (token : Bytes) : Nat := token.foldl (fun acc byte => acc * 10 + (byte.toNat - 48)) 0

/-- The `u64` that a token of digits stands for. -/
def naturalToken (token : Bytes) : Option (Fin (2 ^ 64)) :=
  if token ≠ [] ∧ token.all isDigit then
    if h : decimal token < 2 ^ 64 then some ⟨decimal token, h⟩ else none
  else none

theorem decimal_append_digit (token : Bytes) (h : n < 10) :
    decimal (token ++ [UInt8.ofNat (48 + n)]) = decimal token * 10 + n := by
  have hbyte : (UInt8.ofNat (48 + n)).toNat = 48 + n := by
    rw [UInt8.toNat_ofNat']
    omega
  rw [decimal, foldl_append, foldl_cons, foldl_nil, hbyte, Nat.add_sub_cancel_left]
  rfl

theorem decimal_number (n : Nat) : decimal (number n) = n := by
  induction n using Nat.strong_induction_on with
  | h n ih =>
    rw [number_eq_if]
    split_ifs with hlt
    · have hdigit := decimal_append_digit [] hlt
      rw [nil_append] at hdigit
      rw [hdigit, decimal, foldl_nil, Nat.zero_mul, Nat.zero_add]
    · rw [decimal_append_digit _ (Nat.mod_lt n (by decide)), ih (n / 10) (by omega)]
      omega

theorem naturalToken_number (n : Fin (2 ^ 64)) : naturalToken (number n) = some n := by
  have hdigits : (number n).all isDigit = true :=
    List.all_eq_true.mpr fun _ => isDigit_of_mem_number
  have hlt : decimal (number n) < 2 ^ 64 := by
    rw [decimal_number]
    exact n.isLt
  rw [naturalToken, if_pos ⟨number_ne_nil n, hdigits⟩, dif_pos hlt]
  exact congrArg some (Fin.ext (decimal_number n))

theorem foldl_decimal_lt (h : token.all isDigit = true) (acc : Nat) :
    token.foldl (fun acc byte => acc * 10 + (byte.toNat - 48)) acc <
      (acc + 1) * 10 ^ token.length := by
  induction token generalizing acc with
  | nil => simp
  | cons byte token ih =>
    rw [all_cons, Bool.and_eq_true] at h
    have hbyte : byte.toNat - 48 < 10 := by
      have hle : byte ≤ 57 := by
        have hdigit := h.1
        simp only [isDigit, Bool.and_eq_true, decide_eq_true_eq] at hdigit
        exact hdigit.2
      have hnat : byte.toNat ≤ 57 := hle
      omega
    rw [foldl_cons, length_cons, pow_succ]
    calc token.foldl (fun acc byte => acc * 10 + (byte.toNat - 48))
          (acc * 10 + (byte.toNat - 48))
        < (acc * 10 + (byte.toNat - 48) + 1) * 10 ^ token.length := ih h.2 _
      _ ≤ (acc + 1) * 10 * 10 ^ token.length :=
          Nat.mul_le_mul_right _ (by omega)
      _ = (acc + 1) * (10 ^ token.length * 10) := by rw [Nat.mul_assoc, Nat.mul_comm 10]

/-- Written anew, a number is no longer than its token. -/
theorem length_number_le_of_token {n : Fin (2 ^ 64)} (h : naturalToken token = some n) :
    (number n).length ≤ token.length := by
  unfold naturalToken at h
  split_ifs at h with hdigits hlt
  cases h
  refine length_number_le (length_pos_of_ne_nil hdigits.1) ?_
  have hbound := foldl_decimal_lt hdigits.2 0
  rw [Nat.zero_add, Nat.one_mul] at hbound
  exact hbound

/-! ## Values -/

/-- A JSON value.  The fields of an object stand in the order of their keys. -/
inductive Value where
  | null
  | bool (b : Bool)
  | natural (n : Fin (2 ^ 64))
  /-- A number that is no `u64`, as it is printed. -/
  | other (text : Bytes)
  | string (s : String)
  | array (items : List Value)
  | object (fields : List (String × Value))

/-- The token of a text that is written. -/
def stringTokenOf (s : String) : Bytes := (Bytes.ofString s).flatMap escape

mutual

/-- The tree of the text that is written for a value. -/
def Value.tree : Value → Tree
  | .null => .null
  | .bool b => .bool b
  | .natural n => .number (number n)
  | .other text => .number text
  | .string s => .string (stringTokenOf s)
  | .array items => .array (itemTrees items)
  | .object fields => .object (fieldTrees fields)

/-- The trees of the items of an array. -/
def itemTrees : List Value → List Tree
  | [] => []
  | item :: rest => item.tree :: itemTrees rest

/-- The trees of the fields of an object. -/
def fieldTrees : List (String × Value) → List (Bytes × Tree)
  | [] => []
  | (key, value) :: rest => (stringTokenOf key, value.tree) :: fieldTrees rest

end

theorem itemTrees_eq_map (items : List Value) : itemTrees items = items.map Value.tree := by
  induction items with
  | nil => rfl
  | cons _ _ ih => rw [itemTrees, ih, map_cons]

/-- The tree of one field. -/
def fieldTree (field : String × Value) : Bytes × Tree := (stringTokenOf field.1, field.2.tree)

theorem fieldTrees_eq_map (fields : List (String × Value)) :
    fieldTrees fields = fields.map fieldTree := by
  induction fields with
  | nil => rfl
  | cons field rest ih =>
    obtain ⟨key, value⟩ := field
    rw [fieldTrees, ih, map_cons, fieldTree]

/-- `serde_json::to_vec`: the value without whitespace. -/
def Value.compact (v : Value) : Bytes := v.tree.text

@[simp] theorem compact_natural (n : Fin (2 ^ 64)) : (Value.natural n).compact = number n := rfl

@[simp] theorem compact_string (s : String) : (Value.string s).compact = string s := rfl

@[simp] theorem compact_array (items : List Value) :
    (Value.array items).compact = array (items.map Value.compact) := by
  rw [Value.compact, Value.tree, Tree.text, itemTexts_eq_map, itemTrees_eq_map, List.map_map]
  rfl

@[simp] theorem compact_object (fields : List (String × Value)) :
    (Value.object fields).compact =
      object (fields.map fun field => (field.1, field.2.compact)) := by
  rw [Value.compact, Value.tree, Tree.text, memberTexts_eq_map, fieldTrees_eq_map, List.map_map,
    object, List.map_map]
  refine congrArg (fun texts => 123 :: (commas texts ++ [125])) (map_congr_left ?_)
  intro field _
  simp [memberText, fieldTree, stringTokenOf, string, Value.compact]

/-- Insert fields one by one; a key that occurs again replaces its value. -/
def ofFields {α : Type} (fields : List (String × α)) : List (String × α) :=
  ((∅ : OrdMap String α).insertAll fields).entries

/-- Read a member: its key as a text, and its value. -/
def readField {α : Type} (f : Tree → Option α) (member : Bytes × Tree) : Option (String × α) := do
  return (← tokenString member.1, ← f member.2)

section Reading

variable (numberText : Bytes → Option Bytes)

/-- The value a tree stands for; `depth` bounds how deep it may nest. -/
def Tree.toValue : Nat → Tree → Option Value
  | _, .null => some .null
  | _, .bool b => some (.bool b)
  | _, .number token =>
    match naturalToken token with
    | some n => some (.natural n)
    | none => (numberText token).map .other
  | _, .string token => (tokenString token).map .string
  | 0, .array _ => none
  | 0, .object _ => none
  | depth + 1, .array items => (items.mapM (Tree.toValue depth)).map .array
  | depth + 1, .object members =>
    (members.mapM (readField (Tree.toValue depth))).map fun fields => .object (ofFields fields)

end Reading

/-- Values that are written and read without loss: no number but a `u64`, every object in
the order of its keys, and no deeper than `depth`. -/
def Value.Regular : Nat → Value → Prop
  | _, .null => True
  | _, .bool _ => True
  | _, .natural _ => True
  | _, .other _ => False
  | _, .string _ => True
  | 0, .array _ => False
  | 0, .object _ => False
  | depth + 1, .array items => ∀ item ∈ items, Value.Regular depth item
  | depth + 1, .object fields =>
    fields.Pairwise (fun a b => a.1 < b.1) ∧ ∀ field ∈ fields, Value.Regular depth field.2

@[simp] theorem regular_null (depth : Nat) : Value.null.Regular depth := by
  cases depth <;> trivial

@[simp] theorem regular_natural (depth : Nat) (n : Fin (2 ^ 64)) :
    (Value.natural n).Regular depth := by
  cases depth <;> trivial

@[simp] theorem regular_string (depth : Nat) (s : String) : (Value.string s).Regular depth := by
  cases depth <;> trivial

/-- Values all of whose numbers are natural; the fields of an object may stand in any
order.  A number beyond `u64` is spelled with its digits, so that no number has two
spellings. -/
inductive Value.Whole : Value → Prop where
  | null : Value.null.Whole
  | bool (b : Bool) : (Value.bool b).Whole
  | natural (n : Fin (2 ^ 64)) : (Value.natural n).Whole
  | beyond {n : Nat} (h : 2 ^ 64 ≤ n) : (Value.other (number n)).Whole
  | string (s : String) : (Value.string s).Whole
  | array {items : List Value} (h : ∀ item ∈ items, item.Whole) : (Value.array items).Whole
  | object {fields : List (String × Value)} (h : ∀ field ∈ fields, field.2.Whole) :
      (Value.object fields).Whole

theorem Value.Regular.whole (h : v.Regular depth) : v.Whole := by
  induction depth generalizing v with
  | zero =>
    cases v with
    | null => exact .null
    | bool b => exact .bool b
    | natural n => exact .natural n
    | string s => exact .string s
    | _ => exact h.elim
  | succ _ ih =>
    cases v with
    | null => exact .null
    | bool b => exact .bool b
    | natural n => exact .natural n
    | string s => exact .string s
    | other => exact h.elim
    | array => exact .array fun item hitem => ih (h item hitem)
    | object => exact .object fun field hfield => ih (h.2 field hfield)

theorem ofFields_sorted (fields : List (String × α)) :
    (ofFields fields).Pairwise (fun a b => a.1 < b.1) :=
  ((∅ : OrdMap String α).insertAll fields).sorted

/-- Fields in the order of their keys stay as they are. -/
theorem ofFields_of_sorted {fields : List (String × α)}
    (h : fields.Pairwise (fun a b => a.1 < b.1)) : ofFields fields = fields :=
  congrArg OrdMap.entries (OrdMap.insertAll_entries ⟨fields, h⟩)

theorem Value.Regular.mono {depth' : Nat} (h : v.Regular depth) (hle : depth ≤ depth') :
    v.Regular depth' := by
  induction depth' generalizing depth v with
  | zero =>
    cases Nat.le_zero.mp hle
    exact h
  | succ _ ih =>
    cases v with
    | array =>
      cases depth with
      | zero => exact h.elim
      | succ => exact fun item hitem => ih (h item hitem) (Nat.le_of_succ_le_succ hle)
    | object =>
      cases depth with
      | zero => exact h.elim
      | succ =>
        exact ⟨h.1, fun field hfield => ih (h.2 field hfield) (Nat.le_of_succ_le_succ hle)⟩
    | other => cases depth <;> exact h.elim
    | _ => trivial

/-! ## What is written is read back -/

theorem mapM_map_eq {γ : Type} {f : α → β} {g : β → Option γ} {k : α → γ} {l : List α}
    (h : ∀ a ∈ l, g (f a) = some (k a)) : (l.map f).mapM g = some (l.map k) := by
  induction l with
  | nil => rfl
  | cons a l ih =>
    rw [map_cons, mapM_cons, h a mem_cons_self, ih fun b hb => h b (mem_cons_of_mem _ hb)]
    rfl

theorem mapM_map_of_forall {f : α → β} {g : β → Option α} {l : List α}
    (h : ∀ a ∈ l, g (f a) = some a) : (l.map f).mapM g = some l := by
  rw [mapM_map_eq h, List.map_id']

/-- **The tree of a value stands for it.** -/
theorem toValue_tree (numberText : Bytes → Option Bytes) (h : v.Regular depth) :
    v.tree.toValue numberText depth = some v := by
  induction depth generalizing v with
  | zero =>
    cases v with
    | null | bool b => rfl
    | natural n => rw [Value.tree, Tree.toValue, naturalToken_number]
    | string s =>
      rw [Value.tree, Tree.toValue, stringTokenOf, tokenString_escaped]
      rfl
    | _ => exact h.elim
  | succ depth ih =>
    cases v with
    | null | bool b => rfl
    | natural n => rw [Value.tree, Tree.toValue, naturalToken_number]
    | other => exact h.elim
    | string s =>
      rw [Value.tree, Tree.toValue, stringTokenOf, tokenString_escaped]
      rfl
    | array =>
      rw [Value.tree, Tree.toValue, itemTrees_eq_map,
        mapM_map_of_forall fun item hitem => ih (h item hitem)]
      rfl
    | object fields =>
      have hfields : ∀ field ∈ fields,
          readField (Tree.toValue numberText depth) (fieldTree field) = some field := by
        intro field hfield
        rw [readField, fieldTree, stringTokenOf, tokenString_escaped, ih (h.2 field hfield)]
        rfl
      rw [Value.tree, Tree.toValue, fieldTrees_eq_map, mapM_map_of_forall hfields,
        map_some, ofFields_of_sorted h.1]

/-- A number starts with a digit. -/
theorem number_head_plain (n : Nat) :
    ∃ byte rest, number n = byte :: rest ∧ isSpace byte = false ∧ byte ≠ 93 := by
  cases hnumber : number n with
  | nil => exact absurd hnumber (number_ne_nil n)
  | cons byte rest =>
    have hdigit : isDigit byte = true :=
      isDigit_of_mem_number (hnumber ▸ mem_cons_self)
    refine ⟨byte, rest, rfl, ?_, ?_⟩
    · rw [Bool.eq_false_iff]
      intro hspace
      simp only [isSpace, Bool.or_eq_true, beq_iff_eq] at hspace
      rcases hspace with ((rfl | rfl) | rfl) | rfl <;> exact absurd hdigit (by decide)
    · rintro rfl
      exact absurd hdigit (by decide)

/-- The first byte of a value is neither whitespace nor a closing bracket. -/
theorem compact_head (h : v.Whole) :
    ∃ byte rest, v.compact = byte :: rest ∧ isSpace byte = false ∧ byte ≠ 93 := by
  cases h with
  | null => exact ⟨110, _, rfl, rfl, by decide⟩
  | bool b => cases b with
      | true => exact ⟨116, _, rfl, rfl, by decide⟩
      | false => exact ⟨102, _, rfl, rfl, by decide⟩
  | natural n => exact number_head_plain n
  | beyond => exact number_head_plain _
  | string s => exact ⟨34, _, rfl, rfl, by decide⟩
  | array h => exact ⟨91, _, rfl, rfl, by decide⟩
  | object h => exact ⟨123, _, rfl, rfl, by decide⟩

theorem stops_of_head (hhead : bytes.head? = some byte)
    (h : isDigit byte = false ∧ byte ≠ 46 ∧ byte ≠ 101 ∧ byte ≠ 69) : Stops bytes := by
  intro b hb
  rw [hhead] at hb
  cases hb
  exact h

theorem expect_append (word rest : Bytes) : expect word (word ++ rest) = some rest := by
  have hword : word.isPrefixOf (word ++ rest) = true :=
    List.isPrefixOf_iff_prefix.mpr (prefix_append word rest)
  rw [expect, if_pos hword, drop_left]

theorem readValue_null (fuel : Nat) (rest : Bytes) :
    readValue (fuel + 1) (null ++ rest) = some (.null, rest) := by
  rw [readValue, null, cons_append, skip_cons rfl]
  dsimp only
  rw [expect_append]
  rfl

theorem readValue_boolean (fuel : Nat) (b : Bool) (rest : Bytes) :
    readValue (fuel + 1) (boolean b ++ rest) = some (.bool b, rest) := by
  cases b <;>
  · rw [readValue, boolean, cons_append, skip_cons rfl]
    dsimp only
    rw [expect_append]
    rfl

theorem readValue_number (fuel n : Nat) (h : Stops rest) :
    readValue (fuel + 1) (number n ++ rest) = some (.number (number n), rest) := by
  have htoken := numberToken_number n h
  cases hnumber : number n with
  | nil => exact absurd hnumber (number_ne_nil n)
  | cons byte =>
    have hdigit : isDigit byte = true := isDigit_of_mem_number (hnumber ▸ mem_cons_self)
    have hne : ∀ other : UInt8, isDigit other = false → byte ≠ other := by
      rintro other hother rfl
      rw [hdigit] at hother
      cases hother
    have hspace : isSpace byte = false := by
      simp [isSpace, hne 32 rfl, hne 10 rfl, hne 9 rfl, hne 13 rfl]
    rw [hnumber, cons_append] at htoken
    rw [readValue, cons_append, skip_cons hspace]
    dsimp only
    rw [if_neg (hne 34 rfl), if_neg (hne 91 rfl), if_neg (hne 123 rfl), if_neg (hne 110 rfl),
      if_neg (hne 116 rfl), if_neg (hne 102 rfl), htoken]
    rfl

theorem readValue_string (fuel : Nat) (s : String) (rest : Bytes) :
    readValue (fuel + 1) (string s ++ rest) = some (.string (stringTokenOf s), rest) := by
  rw [readValue, string, cons_append, skip_cons rfl, append_assoc, singleton_append]
  dsimp only
  rw [if_pos rfl, stringToken_escaped]
  rfl

theorem readValue_array {items : List Value}
    (hhead : ∀ item ∈ items, ∃ byte rest, item.compact = byte :: rest ∧ isSpace byte = false ∧
      byte ≠ 93)
    (hread : ∀ item ∈ items, ∀ rest : Bytes, Stops rest →
      readValue fuel (item.compact ++ rest) = some (item.tree, rest)) (rest : Bytes) :
    readValue (fuel + 1) ((Value.array items).compact ++ rest) =
      some ((Value.array items).tree, rest) := by
  have hlist := readList_commas 93 (readValue fuel) Tree.text rfl (by decide)
    (show ∀ tree ∈ items.map Value.tree, _ from ?_) ?_ rest
  · rw [Value.compact, Value.tree, Tree.text, itemTexts_eq_map, itemTrees_eq_map, array, readValue,
      cons_append, skip_cons rfl, append_assoc, singleton_append]
    dsimp only
    rw [if_neg (by decide), if_pos rfl, hlist]
    rfl
  · intro tree htree
    obtain ⟨item, hitem, rfl⟩ := List.mem_map.mp htree
    exact hhead item hitem
  · intro tree htree rest hnext
    obtain ⟨item, hitem, rfl⟩ := List.mem_map.mp htree
    refine hread item hitem rest ?_
    rcases hnext with hnext | hnext <;> exact stops_of_head hnext (by decide)

theorem readMember_compact {field : String × Value}
    (hread : ∀ rest : Bytes, Stops rest →
      readValue fuel (field.2.compact ++ rest) = some (field.2.tree, rest)) (hrest : Stops rest) :
    readMember (readValue fuel) (memberText (fieldTree field) ++ rest) =
      some (fieldTree field, rest) := by
  rw [memberText, readMember, cons_append, skip_cons rfl]
  dsimp only
  rw [if_pos rfl, fieldTree, stringTokenOf, append_assoc, cons_append,
    stringToken_escaped, cons_append]
  simp only [bind_eq_bind, bind_some, skip_cons (show isSpace 58 = false from rfl), if_pos]
  have hvalue := hread rest hrest
  rw [Value.compact] at hvalue
  rw [hvalue]
  rfl

theorem readValue_object
    (hread : ∀ field ∈ fields, ∀ rest : Bytes, Stops rest →
      readValue fuel (field.2.compact ++ rest) = some (field.2.tree, rest)) (rest : Bytes) :
    readValue (fuel + 1) ((Value.object fields).compact ++ rest) =
      some ((Value.object fields).tree, rest) := by
  have hlist := readList_commas 125 (readMember (readValue fuel)) memberText rfl (by decide)
    (show ∀ member ∈ fields.map fieldTree, _ from ?_) ?_ rest
  · rw [Value.compact, Value.tree, Tree.text, memberTexts_eq_map, fieldTrees_eq_map, readValue,
      cons_append, skip_cons rfl, append_assoc, singleton_append]
    dsimp only
    rw [if_neg (by decide), if_neg (by decide), if_pos rfl, hlist]
    rfl
  · intro member hmember
    obtain ⟨field, -, rfl⟩ := List.mem_map.mp hmember
    exact ⟨34, _, rfl, rfl, by decide⟩
  · intro member hmember rest hnext
    obtain ⟨field, hfield, rfl⟩ := List.mem_map.mp hmember
    refine readMember_compact (hread field hfield) ?_
    rcases hnext with hnext | hnext <;> exact stops_of_head hnext (by decide)

/-- A value after which a number would stop is read up to its end.  Its length is enough
fuel, since its parts are shorter. -/
theorem readValue_compact (h : v.Whole) (hfuel : v.compact.length < fuel) (hrest : Stops rest) :
    readValue fuel (v.compact ++ rest) = some (v.tree, rest) := by
  induction fuel generalizing v rest with
  | zero => exact absurd hfuel (Nat.not_lt_zero _)
  | succ fuel ih =>
    cases h with
    | null => exact readValue_null fuel rest
    | bool b => exact readValue_boolean fuel b rest
    | natural n => exact readValue_number fuel n hrest
    | beyond => exact readValue_number fuel _ hrest
    | string s => exact readValue_string fuel s rest
    | array h =>
      refine readValue_array (fun item hitem => compact_head (h item hitem))
        (fun item hitem rest hrest => ih (h item hitem) ?_ hrest) rest
      have hlt := length_lt_length_array (List.mem_map.mpr ⟨item, hitem, rfl⟩ :
        item.compact ∈ _)
      rw [← compact_array] at hlt
      omega
    | @object fields h =>
      refine readValue_object (fun field hfield rest hrest => ih (h field hfield) ?_ hrest) rest
      have hmem : (field.1, field.2.compact) ∈
          fields.map fun field => (field.1, field.2.compact) :=
        List.mem_map.mpr ⟨field, hfield, rfl⟩
      have hlt := length_lt_length_object hmem
      rw [← compact_object] at hlt
      dsimp only at hlt
      omega

theorem isSpace_newline : ∀ byte ∈ [10], isSpace byte = true :=
  forall_mem_singleton.mpr rfl

/-- **What was written is read back**, with whitespace after it. -/
theorem parse_compact (h : v.Whole) (hrest : ∀ byte ∈ rest, isSpace byte = true) :
    parse (v.compact ++ rest) = some v.tree := by
  have hspace : skip rest = [] := dropWhile_eq_nil_iff.mpr hrest
  have hstops : Stops rest := by
    intro byte hbyte
    have hmem := hrest byte (List.mem_of_mem_head? hbyte)
    simp only [isSpace, Bool.or_eq_true, beq_iff_eq] at hmem
    rcases hmem with ((rfl | rfl) | rfl) | rfl <;> decide
  have hfuel : v.compact.length < (v.compact ++ rest).length + 1 := by
    rw [length_append]
    omega
  rw [parse, readValue_compact h hfuel hstops]
  simp [hspace]

/-! ## No text of a value is shorter than the one that is written -/

section Costs

variable {α β : Type}

theorem sum_insertEntry_le (cost : String × α → Nat) (key : String) (a : α)
    (entries : List (String × α)) :
    ((OrdMap.insertEntry key a entries).map cost).sum ≤ cost (key, a) + (entries.map cost).sum := by
  induction entries with
  | nil => exact Nat.le_refl _
  | cons entry =>
    obtain ⟨key', a'⟩ := entry
    rw [OrdMap.insertEntry]
    split_ifs
    · exact Nat.le_refl _
    · simp only [map_cons, sum_cons]
      omega
    · simp only [map_cons, sum_cons]
      omega

theorem sum_ofFields_le (cost : String × α → Nat) (fields : List (String × α)) :
    ((ofFields fields).map cost).sum ≤ (fields.map cost).sum := by
  have hinsert : ∀ (m : OrdMap String α), ((m.insertAll fields).entries.map cost).sum ≤
        (fields.map cost).sum + (m.entries.map cost).sum := by
    induction fields with
    | nil => exact fun m => Nat.le_add_left _ _
    | cons field rest ih =>
      obtain ⟨key, a⟩ := field
      intro m
      have hrest := ih (m.insert key a)
      have hhead : ((m.insert key a).entries.map cost).sum ≤
          cost (key, a) + (m.entries.map cost).sum :=
        sum_insertEntry_le cost key a m.entries
      rw [map_cons, sum_cons]
      exact hrest.trans (by omega)
  exact hinsert ∅

theorem mem_of_mem_ofFields {fields : List (String × α)} {field : String × α}
    (h : field ∈ ofFields fields) : field ∈ fields := by
  have hinsert : ∀ (m : OrdMap String α), field ∈ (m.insertAll fields).entries →
      field ∈ fields ∨ field ∈ m.entries := by
    clear h
    induction fields with
    | nil => exact fun m => Or.inr
    | cons head rest ih =>
      intro m hmem
      rcases ih (m.insert head.1 head.2) hmem with hrest | hm
      · exact Or.inl (mem_cons_of_mem _ hrest)
      · rcases OrdMap.mem_insertEntry hm with rfl | hm
        · exact Or.inl mem_cons_self
        · exact Or.inr hm
  exact (hinsert ∅ h).resolve_right not_mem_nil

theorem length_ofFields_le (fields : List (String × α)) :
    (ofFields fields).length ≤ fields.length := by
  have hle := sum_ofFields_le (fun _ => 1) fields
  simpa using hle

/-- Fields are inserted by their keys alone. -/
theorem map_ofFields (f : α → β) (fields : List (String × α)) :
    (ofFields fields).map (fun field => (field.1, f field.2)) =
      ofFields (fields.map fun field => (field.1, f field.2)) := by
  have hentry : ∀ key a (entries : List (String × α)),
      (OrdMap.insertEntry key a entries).map (fun field => (field.1, f field.2)) =
        OrdMap.insertEntry key (f a) (entries.map fun field => (field.1, f field.2)) := by
    intro key a entries
    induction entries with
    | nil => rfl
    | cons entry rest ih =>
      obtain ⟨key', a'⟩ := entry
      rw [OrdMap.insertEntry, map_cons, OrdMap.insertEntry]
      split_ifs
      · rfl
      · rfl
      · rw [map_cons, ih]
  have hinsert : ∀ (m : OrdMap String α) (m' : OrdMap String β),
      m.entries.map (fun field => (field.1, f field.2)) = m'.entries →
      (m.insertAll fields).entries.map (fun field => (field.1, f field.2)) =
        (m'.insertAll (fields.map fun field => (field.1, f field.2))).entries := by
    induction fields with
    | nil => exact fun m m' h => h
    | cons field rest ih =>
      intro m m' h
      refine ih (m.insert field.1 field.2) (m'.insert field.1 (f field.2)) ?_
      show (OrdMap.insertEntry field.1 field.2 m.entries).map _ = _
      rw [hentry, h]
      rfl
  exact hinsert ∅ ∅ rfl

end Costs

theorem forall₂_of_mapM {f : α → Option β} {l : List α} {r : List β} (h : l.mapM f = some r) :
    List.Forall₂ (fun a b => f a = some b) l r := by
  induction l generalizing r with
  | nil =>
    cases h
    exact .nil
  | cons a l ih =>
    rw [mapM_cons] at h
    obtain ⟨b, hb, h⟩ := bind_eq_some_iff.mp h
    obtain ⟨bs, hbs, h⟩ := bind_eq_some_iff.mp h
    cases h
    exact .cons hb (ih hbs)

theorem exists_of_mem_mapM {f : α → Option β} {l : List α} {r : List β} (h : l.mapM f = some r)
    {a : α} (ha : a ∈ l) : ∃ b, f a = some b := by
  have hread := forall₂_of_mapM h
  clear h
  induction hread with
  | nil => exact absurd ha not_mem_nil
  | cons hab _ ih =>
    rcases mem_cons.mp ha with rfl | ha
    · exact ⟨_, hab⟩
    · exact ih ha

theorem sum_le_of_forall₂ {R : α → β → Prop} {f : α → Nat} {g : β → Nat} {l : List α} {r : List β}
    (h : List.Forall₂ R l r) (hle : ∀ a b, b ∈ r → R a b → g b ≤ f a) :
    (r.map g).sum ≤ (l.map f).sum := by
  induction h with
  | nil => exact Nat.le_refl _
  | cons hab _ ih =>
    rw [map_cons, map_cons, sum_cons, sum_cons]
    exact Nat.add_le_add (hle _ _ mem_cons_self hab)
      (ih fun a b hb => hle a b (mem_cons_of_mem _ hb))

theorem length_compact_le_of_leaf {numberText : Bytes → Option Bytes} {tree : Tree}
    (h : tree.toValue numberText depth = some v) (hv : v.Regular bound)
    (harray : ∀ items, tree ≠ .array items) (hobject : ∀ members, tree ≠ .object members) :
    v.compact.length ≤ tree.text.length := by
  cases tree with
  | null | bool b =>
    cases depth <;>
    · cases h
      exact Nat.le_refl _
  | number token =>
    have hvalue : (match naturalToken token with
        | some n => some (.natural n)
        | none => (numberText token).map .other) = some v := by
      cases depth <;> exact h
    cases hn : naturalToken token with
    | some n =>
      rw [hn] at hvalue
      cases hvalue
      exact length_number_le_of_token hn
    | none =>
      rw [hn] at hvalue
      obtain ⟨text, -, rfl⟩ := map_eq_some_iff.mp hvalue
      cases bound <;> exact hv.elim
  | string token =>
    have hvalue : (tokenString token).map .string = some v := by
      cases depth <;> exact h
    obtain ⟨s, hs, rfl⟩ := map_eq_some_iff.mp hvalue
    have hle := length_string_le_of_token hs
    rw [compact_string, Tree.text, length_cons, length_append, length_singleton]
    omega
  | array items => exact absurd rfl (harray items)
  | object members => exact absurd rfl (hobject members)

/-- A field as it is written in an object. -/
def fieldLength (field : String × Value) : Nat :=
  (string field.1).length + 1 + field.2.compact.length

/-- Fields with what the members they were read from take. -/
theorem exists_costs {f : Tree → Option Value} {P : String × Value → Prop}
    (hle : ∀ tree key value, P (key, value) → f tree = some value →
      value.compact.length ≤ tree.text.length) {members : List (Bytes × Tree)}
    (hread : List.Forall₂ (fun member field => readField f member = some field) members fields) :
    ∃ costs : List (String × Value × Nat), costs.map (fun cost => (cost.1, cost.2.1)) = fields ∧
        (costs.map fun cost => cost.2.2).sum =
          (members.map fun member => (memberText member).length).sum ∧
        ∀ cost ∈ costs, P (cost.1, cost.2.1) → fieldLength (cost.1, cost.2.1) ≤ cost.2.2 := by
  induction hread with
  | nil => exact ⟨[], rfl, rfl, fun cost hcost => absurd hcost not_mem_nil⟩
  | @cons member field _ _ hfield _ ih =>
    obtain ⟨costs, rfl, hsum, hcosts⟩ := ih
    refine ⟨(field.1, field.2, (memberText member).length) :: costs, rfl, ?_, ?_⟩
    · rw [map_cons, map_cons, sum_cons, sum_cons, hsum]
    · intro cost hcost hP
      rcases mem_cons.mp hcost with rfl | hcost
      · obtain ⟨key, hkey, hfield⟩ := bind_eq_some_iff.mp hfield
        obtain ⟨value, hvalue, hfield⟩ := bind_eq_some_iff.mp hfield
        cases hfield
        have hstring := length_string_le_of_token hkey
        have hlength : value.compact.length ≤ member.2.text.length := hle _ _ _ hP hvalue
        simp only [fieldLength, memberText, length_cons, length_append]
        omega
      · exact hcosts cost hcost hP

theorem sum_fields_le {f : Tree → Option Value} {members : List (Bytes × Tree)}
    (hread : members.mapM (readField f) = some fields)
    (hle : ∀ tree key value, (key, value) ∈ ofFields fields → f tree = some value →
      value.compact.length ≤ tree.text.length) :
    ((ofFields fields).map fieldLength).sum ≤
      (members.map fun member => (memberText member).length).sum := by
  obtain ⟨costs, hfields, hsum, hcosts⟩ := exists_costs hle (forall₂_of_mapM hread)
  have hmap := map_ofFields Prod.fst costs
  rw [hfields] at hmap
  rw [← hsum, ← hmap, List.map_map]
  refine le_trans (sum_le_sum fun cost hcost => ?_) (sum_ofFields_le _ costs)
  refine hcosts cost (mem_of_mem_ofFields hcost) ?_
  rw [← hmap]
  exact List.mem_map.mpr ⟨cost, hcost, rfl⟩

theorem length_compact_object (fields : List (String × Value)) :
    (Value.object fields).compact.length =
      (fields.map fieldLength).sum + (fields.length - 1) + 2 := by
  rw [compact_object, object]
  simp only [length_cons, length_append, length_nil, length_commas, List.map_map,
    Function.comp_def, length_map]
  rw [show (fields.map fun field => (string field.1).length + (field.2.compact.length + 1)) =
    fields.map fieldLength from map_congr_left fun field _ => by rw [fieldLength]; omega]

/-- **No text of a value is shorter than the one that is written.** -/
theorem length_compact_le_of_toValue {numberText : Bytes → Option Bytes} {tree : Tree}
    (h : tree.toValue numberText depth = some v) (hv : v.Regular bound) :
    v.compact.length ≤ tree.text.length := by
  induction depth generalizing tree v bound with
  | zero =>
    refine length_compact_le_of_leaf h hv ?_ ?_
    · rintro items rfl
      cases h
    · rintro members rfl
      cases h
  | succ _ ih =>
    cases tree with
    | array =>
      obtain ⟨values, hvalues, rfl⟩ := map_eq_some_iff.mp h
      have hread := forall₂_of_mapM hvalues
      have hregular : ∃ bound', ∀ value ∈ values, value.Regular bound' := by
        cases bound with
        | zero => exact hv.elim
        | succ bound => exact ⟨bound, hv⟩
      obtain ⟨bound', hregular⟩ := hregular
      have hsum := sum_le_of_forall₂ (f := fun tree => tree.text.length)
        (g := fun value => value.compact.length) hread
        fun tree value hvalue hread => ih hread (hregular value hvalue)
      have hlength := hread.length_eq
      rw [compact_array, Tree.text, itemTexts_eq_map, array, array]
      simp only [length_cons, length_append, length_commas, List.map_map,
        Function.comp_def, length_map]
      omega
    | object =>
      obtain ⟨fields, hfields, rfl⟩ := map_eq_some_iff.mp h
      have hregular : ∃ bound', ∀ field ∈ ofFields fields, field.2.Regular bound' := by
        cases bound with
        | zero => exact hv.elim
        | succ bound => exact ⟨bound, hv.2⟩
      obtain ⟨bound', hregular⟩ := hregular
      have hsum := sum_fields_le hfields fun tree key value hfield hread =>
        ih hread (hregular (key, value) hfield)
      have hlength := (forall₂_of_mapM hfields).length_eq
      have hfewer := length_ofFields_le fields
      rw [length_compact_object, Tree.text, memberTexts_eq_map]
      simp only [length_cons, length_append, length_commas, List.map_map,
        Function.comp_def, length_map, length_nil]
      omega
    | _ =>
      refine length_compact_le_of_leaf h hv ?_ ?_
      · rintro items heq
        cases heq
      · rintro members heq
        cases heq

/-! ## What is written is UTF-8 -/

open Bytes (IsText)

theorem escape_of_le (hle : 128 ≤ n) (hlt : n < 256) :
    escape (UInt8.ofNat n) = [UInt8.ofNat n] := by
  have hall : ∀ n : Fin 256, 128 ≤ n.val → escape (UInt8.ofNat n) = [UInt8.ofNat n] := by
    decide +kernel
  exact hall ⟨n, hlt⟩ hle

theorem isText_escape (h : byte < 128) : IsText (escape byte) := by
  have hall : ∀ n : Fin 128, (escape (UInt8.ofNat n)).all (· < 128) = true := by decide +kernel
  have hbytes := hall ⟨byte.toNat, h⟩
  rw [UInt8.ofNat_toNat] at hbytes
  exact .ascii hbytes

/-- Escapes are ASCII, and no byte of a longer character is escaped. -/
theorem isText_escaped_char (c : Char) : IsText ((String.utf8EncodeChar c).flatMap escape) := by
  have hchar := IsText.char c
  unfold String.utf8EncodeChar at hchar ⊢
  dsimp only at hchar ⊢
  split_ifs at hchar ⊢ with hascii
  · rw [flatMap_singleton]
    refine isText_escape ?_
    rw [UInt8.lt_iff_toNat_lt, UInt8.toNat_ofNat']
    have hmod := Nat.mod_le c.val.toNat 256
    exact Nat.lt_of_le_of_lt hmod (Nat.lt_succ_of_le hascii)
  all_goals
    simp only [flatMap_cons, flatMap_nil, append_nil]
    repeat rw [escape_of_le (by omega) (by omega)]
    exact hchar

theorem isText_string (s : String) : IsText (string s) := by
  have hbody : ∀ chars : List Char,
      IsText ((chars.flatMap String.utf8EncodeChar).flatMap escape) := by
    intro chars
    induction chars with
    | nil => exact .nil
    | cons c _ ih =>
      rw [flatMap_cons, flatMap_append]
      exact (isText_escaped_char c).append ih
  have hbytes := hbody s.toList
  rw [← Bytes.ofString_ofList, String.ofList_toList] at hbytes
  exact (IsText.byte (by decide : (34 : UInt8) < 128)).append
    (hbytes.append (IsText.byte (by decide)))

theorem isText_commas {items : List Bytes} (h : ∀ item ∈ items, IsText item) :
    IsText (commas items) := by
  fun_induction commas items with
  | case1 => exact .nil
  | case2 item => exact h item mem_cons_self
  | case3 item rest _ ih =>
    exact (h item mem_cons_self).append ((IsText.byte (by decide : (44 : UInt8) < 128)).append
      (ih fun other hother => h other (mem_cons_of_mem _ hother)))

/-- **What is written for a value is UTF-8.** -/
theorem isText_compact (h : v.Whole) : IsText v.compact := by
  induction h with
  | null => exact .ascii (by decide)
  | bool b => cases b <;> exact .ascii (by decide)
  | natural n => exact ⟨_, rfl⟩
  | beyond => exact ⟨_, rfl⟩
  | string s => exact isText_string s
  | array h ih =>
    rw [compact_array]
    refine (IsText.byte (by decide : (91 : UInt8) < 128)).append
      ((isText_commas fun item hitem => ?_).append (IsText.byte (by decide)))
    obtain ⟨value, hvalue, rfl⟩ := List.mem_map.mp hitem
    exact ih value hvalue
  | object h ih =>
    rw [compact_object]
    refine (IsText.byte (by decide : (123 : UInt8) < 128)).append
      ((isText_commas fun item hitem => ?_).append (IsText.byte (by decide)))
    obtain ⟨field, hfield, rfl⟩ := List.mem_map.mp hitem
    obtain ⟨value, hvalue, rfl⟩ := List.mem_map.mp hfield
    exact (isText_string _).append ((IsText.byte (by decide : (58 : UInt8) < 128)).append
      (ih value hvalue))

end Json
