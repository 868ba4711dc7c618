import AgentBroker.Lib.Json

/-!
# Reading JSON texts

The grammar of JSON as a reader of bytes: whitespace between tokens, escapes inside of
texts, members of objects in any order.  What is read is the tree of the tokens as they
were written; a member that occurs twice is still there twice.  What the tokens stand for
is the subject of `JsonValue`.

A tree has a shortest text, `Tree.text`, with no whitespace at all.

## Main results

* `length_text_le_of_parse` — a text is at least as long as the shortest text of its tree.
* `stringToken_escaped`, `numberToken_number` — the tokens of a compact writer are read
  back as they are.
-/

namespace Json

open List Option

/-- A JSON text as it is written.  The token of a text is what stands between the quotes. -/
inductive Tree where
  | null
  | bool (b : Bool)
  | number (token : Bytes)
  | string (token : Bytes)
  | array (items : List Tree)
  | object (members : List (Bytes × Tree))

/-! ## Tokens -/

/-- Space, line feed, tab and carriage return. -/
def isSpace (byte : UInt8) : Bool := byte == 32 || byte == 10 || byte == 9 || byte == 13

/-- Skip whitespace. -/
def skip (bytes : Bytes) : Bytes := bytes.dropWhile isSpace

/-- A decimal digit. -/
def isDigit (byte : UInt8) : Bool := 48 ≤ byte && byte ≤ 57

/-- What a hexadecimal digit stands for. -/
def hexValue (byte : UInt8) : Option Nat :=
  if 48 ≤ byte ∧ byte ≤ 57 then some (byte.toNat - 48)
  else if 97 ≤ byte ∧ byte ≤ 102 then some (byte.toNat - 87)
  else if 65 ≤ byte ∧ byte ≤ 70 then some (byte.toNat - 55)
  else none

/-- What four hexadecimal digits stand for. -/
def hex4 (a b c d : UInt8) : Option Nat := do
  return (((← hexValue a) * 16 + (← hexValue b)) * 16 + (← hexValue c)) * 16 + (← hexValue d)

/-- The escapes of two characters, and the byte each stands for. -/
def simpleEscape (letter : UInt8) : Option UInt8 :=
  if letter = 34 then some 34
  else if letter = 92 then some 92
  else if letter = 47 then some 47
  else if letter = 98 then some 8
  else if letter = 102 then some 12
  else if letter = 110 then some 10
  else if letter = 114 then some 13
  else if letter = 116 then some 9
  else none

/-- Put bytes in front of a token that was read. -/
def extend (front : Bytes) (read : Option (Bytes × Bytes)) : Option (Bytes × Bytes) :=
  read.map fun (token, rest) => (front ++ token, rest)

/-- Read the token of a text up to its closing quote. -/
def stringToken : Bytes → Option (Bytes × Bytes)
  | [] => none
  | byte :: rest =>
    if byte = 34 then some ([], rest)
    else if byte = 92 then
      match rest with
      | [] => none
      | letter :: rest =>
        if letter = 117 then
          match rest with
          | a :: b :: c :: d :: rest =>
            if (hex4 a b c d).isSome then extend [92, 117, a, b, c, d] (stringToken rest)
            else none
          | _ => none
        else if (simpleEscape letter).isSome then extend [92, letter] (stringToken rest)
        else none
    -- Control characters have to be escaped.
    else if byte < 32 then none
    else extend [byte] (stringToken rest)

/-- One or more digits. -/
def digits (bytes : Bytes) : Option (Bytes × Bytes) :=
  if bytes.takeWhile isDigit = [] then none
  else some (bytes.takeWhile isDigit, bytes.dropWhile isDigit)

/-- The digits before the point: a zero alone, or digits that do not start with it. -/
def integerPart : Bytes → Option (Bytes × Bytes)
  | [] => none
  | byte :: rest => if byte = 48 then some ([48], rest) else digits (byte :: rest)

/-- The digits after the point, if there is one. -/
def fraction : Bytes → Option (Bytes × Bytes)
  | [] => some ([], [])
  | byte :: rest => if byte = 46 then extend [46] (digits rest) else some ([], byte :: rest)

/-- The exponent, if there is one. -/
def exponent : Bytes → Option (Bytes × Bytes)
  | [] => some ([], [])
  | byte :: rest =>
    if byte = 101 ∨ byte = 69 then
      match rest with
      | [] => none
      | sign :: rest' =>
        if sign = 43 ∨ sign = 45 then extend [byte, sign] (digits rest')
        else extend [byte] (digits rest)
    else some ([], byte :: rest)

/-- Read a number without its sign. -/
def unsignedToken (bytes : Bytes) : Option (Bytes × Bytes) := do
  let (whole, rest) ← integerPart bytes
  let (fractional, rest) ← fraction rest
  let (scale, rest) ← exponent rest
  return (whole ++ fractional ++ scale, rest)

/-- Read a number. -/
def numberToken : Bytes → Option (Bytes × Bytes)
  | [] => none
  | byte :: rest =>
    if byte = 45 then extend [45] (unsignedToken rest) else unsignedToken (byte :: rest)

/-- Read a given word. -/
def expect (word : Bytes) (bytes : Bytes) : Option Bytes :=
  if word.isPrefixOf bytes then some (bytes.drop word.length) else none

/-! ## Values -/

section Lists

variable {α : Type} (close : UInt8) (one : Bytes → Option (α × Bytes))

/-- One or more items with commas between them, up to the closing bracket. -/
def readItems : Nat → Bytes → Option (List α × Bytes)
  | 0, _ => none
  | count + 1, bytes => do
      let (item, rest) ← one bytes
      match skip rest with
      | [] => none
      | byte :: rest =>
        if byte = 44 then
          (readItems count rest).map fun (items, rest) => (item :: items, rest)
        else if byte = close then some ([item], rest)
        else none

/-- Items up to the closing bracket. -/
def readList (bytes : Bytes) : Option (List α × Bytes) :=
  match skip bytes with
  | [] => none
  | byte :: rest =>
    if byte = close then some ([], rest)
    else readItems close one (byte :: rest).length (byte :: rest)

end Lists

/-- A member of an object: a text, a colon and a value. -/
def readMember (value : Bytes → Option (Tree × Bytes)) (bytes : Bytes) :
    Option ((Bytes × Tree) × Bytes) :=
  match skip bytes with
  | [] => none
  | byte :: rest =>
    if byte = 34 then do
      let (key, rest) ← stringToken rest
      match skip rest with
      | [] => none
      | byte :: rest =>
        if byte = 58 then (value rest).map fun (tree, rest) => ((key, tree), rest)
        else none
    else none

/-- Read one value after whitespace; `fuel` bounds how deep it nests. -/
def readValue : Nat → Bytes → Option (Tree × Bytes)
  | 0, _ => none
  | fuel + 1, bytes =>
    match skip bytes with
    | [] => none
    | byte :: rest =>
      if byte = 34 then (stringToken rest).map fun (token, rest) => (.string token, rest)
      else if byte = 91 then
        (readList 93 (readValue fuel) rest).map fun (items, rest) => (.array items, rest)
      else if byte = 123 then
        (readList 125 (readMember (readValue fuel)) rest).map
          fun (members, rest) => (.object members, rest)
      else if byte = 110 then (expect [117, 108, 108] rest).map fun rest => (.null, rest)
      else if byte = 116 then
        (expect [114, 117, 101] rest).map fun rest => (.bool true, rest)
      else if byte = 102 then
        (expect [97, 108, 115, 101] rest).map fun rest => (.bool false, rest)
      else
        (numberToken (byte :: rest)).map fun (token, rest) => (.number token, rest)

/-- Read a whole text: one value, with whitespace around it. -/
def parse (bytes : Bytes) : Option Tree := do
  let (tree, rest) ← readValue (bytes.length + 1) bytes
  if skip rest = [] then some tree else none

/-! ## The shortest text of a tree -/

/-- `true` or `false`. -/
def boolean : Bool → Bytes
  | true => [116, 114, 117, 101]
  | false => [102, 97, 108, 115, 101]

mutual

/-- The tokens with nothing but punctuation between them. -/
def Tree.text : Tree → Bytes
  | .null => null
  | .bool b => boolean b
  | .number token => token
  | .string token => 34 :: (token ++ [34])
  | .array items => array (itemTexts items)
  | .object members => 123 :: (commas (memberTexts members) ++ [125])

/-- The texts of the items of an array. -/
def itemTexts : List Tree → List Bytes
  | [] => []
  | item :: rest => item.text :: itemTexts rest

/-- The texts of the members of an object. -/
def memberTexts : List (Bytes × Tree) → List Bytes
  | [] => []
  | (key, value) :: rest => (34 :: (key ++ 34 :: 58 :: value.text)) :: memberTexts rest

end

theorem itemTexts_eq_map (items : List Tree) : itemTexts items = items.map Tree.text := by
  induction items with
  | nil => rfl
  | cons _ _ ih => rw [itemTexts, ih, map_cons]

/-- The text of one member. -/
def memberText (member : Bytes × Tree) : Bytes :=
  34 :: (member.1 ++ 34 :: 58 :: member.2.text)

theorem memberTexts_eq_map (members : List (Bytes × Tree)) :
    memberTexts members = members.map memberText := by
  induction members with
  | nil => rfl
  | cons member rest ih =>
    obtain ⟨key, value⟩ := member
    rw [memberTexts, ih, map_cons, memberText]

/-! ## A text is no shorter than its tree -/

theorem length_skip_le (bytes : Bytes) : (skip bytes).length ≤ bytes.length :=
  (dropWhile_suffix _).length_le

/-- A token was cut off the front of the bytes, and `gap` after it. -/
def Splits (gap : Bytes) (read : Option (Bytes × Bytes)) (bytes : Bytes) : Prop :=
  ∀ token rest, read = some (token, rest) → bytes = token ++ (gap ++ rest)

namespace Splits

variable {gap front bytes : Bytes} {read : Option (Bytes × Bytes)}

theorem none : Splits gap none bytes := fun _ _ h => nomatch h

theorem some {token rest : Bytes} : Splits gap (some (token, rest)) (token ++ (gap ++ rest)) := by
  intro t r h
  cases h
  rfl

theorem extend (h : Splits gap read bytes) : Splits gap (extend front read) (front ++ bytes) := by
  intro token rest hread
  obtain ⟨⟨t, r⟩, hsome, heq⟩ := map_eq_some_iff.mp hread
  obtain ⟨rfl, rfl⟩ := Prod.mk.inj heq
  rw [h t r hsome, append_assoc]

end Splits

/-- The token of a text is what was read, without the closing quote. -/
theorem stringToken_splits (bytes : Bytes) : Splits [34] (stringToken bytes) bytes := by
  fun_induction stringToken bytes with
  | case2 => exact Splits.some
  | case4 _ _ _ _ _ _ _ ih | case7 _ _ _ _ _ ih | case10 _ _ _ _ _ ih =>
    exact ih.extend
  | _ => exact Splits.none

theorem digits_splits (bytes : Bytes) : Splits [] (digits bytes) bytes := by
  intro token rest h
  unfold digits at h
  split_ifs at h
  cases h
  exact (takeWhile_append_dropWhile ..).symm

theorem integerPart_splits (bytes : Bytes) : Splits [] (integerPart bytes) bytes := by
  fun_cases integerPart bytes with
  | case1 => exact Splits.none
  | case2 => exact Splits.some
  | case3 => exact digits_splits _

theorem fraction_splits (bytes : Bytes) : Splits [] (fraction bytes) bytes := by
  fun_cases fraction bytes with
  | case1 | case3 => exact Splits.some
  | case2 rest => exact (digits_splits rest).extend

theorem exponent_splits (bytes : Bytes) : Splits [] (exponent bytes) bytes := by
  fun_cases exponent bytes with
  | case1 | case5 => exact Splits.some
  | case2 => exact Splits.none
  | case3 _ _ _ rest => exact (digits_splits rest).extend
  | case4 => exact (digits_splits _).extend

theorem unsignedToken_splits (bytes : Bytes) : Splits [] (unsignedToken bytes) bytes := by
  intro token rest h
  obtain ⟨⟨whole, rest₁⟩, hwhole, h⟩ := bind_eq_some_iff.mp h
  obtain ⟨⟨fractional, rest₂⟩, hfraction, h⟩ := bind_eq_some_iff.mp h
  obtain ⟨⟨scale, rest₃⟩, hscale, h⟩ := bind_eq_some_iff.mp h
  cases h
  rw [integerPart_splits _ _ _ hwhole, nil_append, fraction_splits _ _ _ hfraction,
    nil_append, exponent_splits _ _ _ hscale]
  simp only [append_assoc, nil_append]

theorem numberToken_splits (bytes : Bytes) : Splits [] (numberToken bytes) bytes := by
  fun_cases numberToken bytes with
  | case1 => exact Splits.none
  | case2 rest => exact (unsignedToken_splits rest).extend
  | case3 => exact unsignedToken_splits _

variable {rest : Bytes} {byte : UInt8} {n : Nat}

theorem length_of_expect {word bytes : Bytes} (h : expect word bytes = some rest) :
    word.length + rest.length = bytes.length := by
  unfold expect at h
  split_ifs at h with hword
  cases h
  have hle := (List.isPrefixOf_iff_prefix.mp hword).length_le
  rw [length_drop]
  omega

section Lists

variable {α : Type} {close : UInt8} {one : Bytes → Option (α × Bytes)} {cost : α → Nat}

variable {bytes rest : Bytes}

theorem ne_nil_of_readItems {count : Nat} {items : List α}
    (h : readItems close one count bytes = some (items, rest)) : items ≠ [] := by
  cases count with
  | zero => cases h
  | succ =>
    obtain ⟨⟨item, rest₁⟩, -, h⟩ := bind_eq_some_iff.mp h
    dsimp only at h
    split at h
    · cases h
    · split_ifs at h
      · obtain ⟨pair, -, heq⟩ := map_eq_some_iff.mp h
        cases heq
        exact cons_ne_nil _ _
      · cases h
        exact cons_ne_nil _ _

/-- Items that are no shorter than their cost, and a comma or a bracket after each. -/
theorem cost_le_of_readItems
    (hone : ∀ bytes item rest, one bytes = some (item, rest) →
      cost item + rest.length ≤ bytes.length) {count : Nat} {items : List α}
    (h : readItems close one count bytes = some (items, rest)) :
    (items.map fun item => cost item + 1).sum + rest.length ≤ bytes.length := by
  induction count generalizing bytes items with
  | zero => cases h
  | succ _ ih =>
    obtain ⟨⟨item, rest₁⟩, hitem, h⟩ := bind_eq_some_iff.mp h
    have hcost := hone _ _ _ hitem
    have hskip := length_skip_le rest₁
    dsimp only at h
    cases hrest : skip rest₁ with
    | nil =>
      rw [hrest] at h
      cases h
    | cons =>
      rw [hrest, length_cons] at hskip
      rw [hrest] at h
      dsimp only at h
      split_ifs at h
      · obtain ⟨⟨items', rest₃⟩, hitems, heq⟩ := map_eq_some_iff.mp h
        cases heq
        have hsum := ih hitems
        rw [map_cons, sum_cons]
        dsimp only at hsum ⊢
        omega
      · cases h
        rw [map_singleton, sum_singleton]
        omega

theorem cost_le_of_readList
    (hone : ∀ bytes item rest, one bytes = some (item, rest) →
      cost item + rest.length ≤ bytes.length) {items : List α}
    (h : readList close one bytes = some (items, rest)) :
    (items.map cost).sum + (items.length - 1) + 1 + rest.length ≤ bytes.length := by
  have hskip := length_skip_le bytes
  unfold readList at h
  cases hrest : skip bytes with
  | nil =>
    rw [hrest] at h
    cases h
  | cons =>
    rw [hrest] at hskip h
    dsimp only at h
    split_ifs at h
    · cases h
      rw [length_cons] at hskip
      rw [map_nil, sum_nil, length_nil]
      omega
    · have hsum := cost_le_of_readItems hone h
      rw [sum_map_add, map_const', sum_replicate, smul_eq_mul, Nat.mul_one] at hsum
      have hpos := length_pos_of_ne_nil (ne_nil_of_readItems h)
      omega

end Lists

theorem length_of_readMember {value : Bytes → Option (Tree × Bytes)}
    (hvalue : ∀ bytes tree rest, value bytes = some (tree, rest) →
      tree.text.length + rest.length ≤ bytes.length)
    (bytes : Bytes) (member : Bytes × Tree) (rest : Bytes)
    (h : readMember value bytes = some (member, rest)) :
    (memberText member).length + rest.length ≤ bytes.length := by
  have hskip := length_skip_le bytes
  unfold readMember at h
  cases hrest : skip bytes with
  | nil =>
    rw [hrest] at h
    cases h
  | cons =>
    rw [hrest, length_cons] at hskip
    rw [hrest] at h
    dsimp only at h
    split_ifs at h
    obtain ⟨⟨key, rest₂⟩, hkey, h⟩ := bind_eq_some_iff.mp h
    have hsplit := congrArg List.length (stringToken_splits _ _ _ hkey)
    have hskip₂ := length_skip_le rest₂
    dsimp only at h
    cases hcolon : skip rest₂ with
    | nil =>
      rw [hcolon] at h
      cases h
    | cons =>
      rw [hcolon, length_cons] at hskip₂
      rw [hcolon] at h
      dsimp only at h
      split_ifs at h
      obtain ⟨⟨tree, rest₄⟩, htree, heq⟩ := map_eq_some_iff.mp h
      obtain ⟨rfl, rfl⟩ := Prod.mk.inj heq
      have hlength := hvalue _ _ _ htree
      simp only [memberText, length_append, length_cons, length_nil] at hsplit ⊢
      omega

/-- **What was read is no longer than the text.** -/
theorem length_of_readValue {fuel : Nat} (bytes : Bytes) (tree : Tree) (rest : Bytes)
    (h : readValue fuel bytes = some (tree, rest)) :
    tree.text.length + rest.length ≤ bytes.length := by
  induction fuel generalizing bytes tree rest with
  | zero => cases h
  | succ fuel ih =>
    have hskip := length_skip_le bytes
    unfold readValue at h
    cases hrest : skip bytes with
    | nil =>
      rw [hrest] at h
      cases h
    | cons =>
      rw [hrest, length_cons] at hskip
      rw [hrest] at h
      dsimp only at h
      split_ifs at h <;>
        obtain ⟨read, hread, heq⟩ := map_eq_some_iff.mp h <;>
        obtain ⟨rfl, rfl⟩ := Prod.mk.inj heq
      · have hsplit := congrArg List.length (stringToken_splits _ _ _ hread)
        simp only [Tree.text, length_append, length_cons, length_nil] at hsplit ⊢
        omega
      · have hcost := cost_le_of_readList ih hread
        have hcommas := length_commas (itemTexts read.1)
        rw [itemTexts_eq_map, List.map_map, length_map] at hcommas
        simp only [Tree.text, array, length_append, length_cons, length_nil,
          itemTexts_eq_map, hcommas, Function.comp_def]
        omega
      · have hcost := cost_le_of_readList (length_of_readMember ih) hread
        have hcommas := length_commas (memberTexts read.1)
        rw [memberTexts_eq_map, List.map_map, length_map] at hcommas
        simp only [Tree.text, length_append, length_cons, length_nil,
          memberTexts_eq_map, hcommas, Function.comp_def]
        omega
      · have hlength := length_of_expect hread
        simp only [Tree.text, null, length_cons, length_nil] at hlength ⊢
        omega
      · have hlength := length_of_expect hread
        simp only [Tree.text, boolean, length_cons, length_nil] at hlength ⊢
        omega
      · have hlength := length_of_expect hread
        simp only [Tree.text, boolean, length_cons, length_nil] at hlength ⊢
        omega
      · have hsplit := congrArg List.length (numberToken_splits _ _ _ hread)
        simp only [Tree.text, length_append, length_cons, length_nil] at hsplit ⊢
        omega

/-- **A text is at least as long as the shortest text of its tree.** -/
theorem length_text_le_of_parse {bytes : Bytes} {tree : Tree} (h : parse bytes = some tree) :
    tree.text.length ≤ bytes.length := by
  obtain ⟨⟨read, rest⟩, hread, h⟩ := bind_eq_some_iff.mp h
  dsimp only at h
  split_ifs at h
  cases h
  exact (Nat.le_add_right _ _).trans (length_of_readValue _ _ _ hread)

/-! ## Compact tokens are read back -/

theorem skip_cons (h : isSpace byte = false) (rest : Bytes) :
    skip (byte :: rest) = byte :: rest :=
  dropWhile_cons_of_neg (by rw [h]; exact Bool.false_ne_true)

theorem hex4_control (h : byte < 32) :
    hex4 48 48 (hexDigit (byte / 16)) (hexDigit (byte % 16)) = some byte.toNat := by
  have hall : ∀ n : Fin 32, hex4 48 48 (hexDigit (UInt8.ofNat n / 16))
      (hexDigit (UInt8.ofNat n % 16)) = some (UInt8.ofNat n).toNat := by
    decide +kernel
  have hbyte := hall ⟨byte.toNat, h⟩
  rwa [UInt8.ofNat_toNat] at hbyte

theorem stringToken_simple {letter : UInt8} (hu : letter ≠ 117)
    (h : (simpleEscape letter).isSome = true) (rest : Bytes) :
    stringToken ([92, letter] ++ rest) = extend [92, letter] (stringToken rest) := by
  rw [cons_append, stringToken.eq_def]
  simp [hu, h]

theorem stringToken_escape (byte : UInt8) (rest : Bytes) :
    stringToken (escape byte ++ rest) = extend (escape byte) (stringToken rest) := by
  unfold escape
  split_ifs with h34 h92 h8 h9 h10 h12 h13 hcontrol
  iterate 7 exact stringToken_simple (by decide) (by decide) rest
  · rw [cons_append, stringToken.eq_def]
    simp [hex4_control hcontrol]
  · rw [singleton_append, stringToken.eq_def]
    dsimp only
    rw [if_neg h34, if_neg h92, if_neg hcontrol]

/-- The token of an escaped text is read up to its end. -/
theorem stringToken_escaped (bytes rest : Bytes) :
    stringToken (bytes.flatMap escape ++ 34 :: rest) = some (bytes.flatMap escape, rest) := by
  induction bytes with
  | nil =>
    rw [flatMap_nil, nil_append, stringToken.eq_def]
    rfl
  | cons _ _ ih =>
    rw [flatMap_cons, append_assoc, stringToken_escape, ih]
    rfl

/-! Numbers in decimal are tokens of their own. -/

/-- Nothing follows that could belong to a number. -/
def Stops (bytes : Bytes) : Prop :=
  ∀ byte ∈ bytes.head?, isDigit byte = false ∧ byte ≠ 46 ∧ byte ≠ 101 ∧ byte ≠ 69

theorem digitByte_digitChar (h : n < 10) :
    digitByte (Nat.digitChar n) = UInt8.ofNat (48 + n) := by
  have hall : ∀ n : Fin 10, digitByte (Nat.digitChar n) = UInt8.ofNat (48 + n) := by decide
  exact hall ⟨n, h⟩

/-- The digits of a number, the last one apart. -/
theorem number_eq_if (n : Nat) :
    number n = if n < 10 then [UInt8.ofNat (48 + n)]
      else number (n / 10) ++ [UInt8.ofNat (48 + n % 10)] := by
  rw [number_eq_map, Nat.toDigits_eq_if (by decide)]
  split_ifs with h
  · rw [map_singleton, digitByte_digitChar h]
  · rw [map_append, map_singleton, ← number_eq_map,
      digitByte_digitChar (Nat.mod_lt n (by decide))]

theorem isDigit_ofNat (h : n < 10) : isDigit (UInt8.ofNat (48 + n)) = true := by
  have hall : ∀ n : Fin 10, isDigit (UInt8.ofNat (48 + n)) = true := by decide
  exact hall ⟨n, h⟩

theorem isDigit_of_mem_number (h : byte ∈ number n) :
    isDigit byte = true := by
  induction n using Nat.strong_induction_on generalizing byte with
  | h n ih =>
    rw [number_eq_if] at h
    split_ifs at h with hlt
    · rw [mem_singleton.mp h]
      exact isDigit_ofNat hlt
    · rcases mem_append.mp h with h | h
      · exact ih (n / 10) (by omega) h
      · rw [mem_singleton.mp h]
        exact isDigit_ofNat (Nat.mod_lt n (by decide))

/-- Only zero starts with a zero. -/
theorem number_head (hpos : 0 < n) :
    ∃ byte rest, number n = byte :: rest ∧ byte ≠ 48 := by
  induction n using Nat.strong_induction_on with
  | h n ih =>
    rw [number_eq_if]
    split_ifs with hlt
    · have hall : ∀ n : Fin 10, 0 < n.val → UInt8.ofNat (48 + n) ≠ 48 := by decide
      exact ⟨_, [], rfl, hall ⟨n, hlt⟩ hpos⟩
    · obtain ⟨byte, rest, hnumber, hne⟩ := ih (n / 10) (by omega) (by omega)
      rw [hnumber]
      exact ⟨byte, _, rfl, hne⟩

theorem number_ne_nil (n : Nat) : number n ≠ [] := by
  rw [number_eq_if]
  split_ifs
  · exact cons_ne_nil _ _
  · exact append_ne_nil_of_right_ne_nil _ (cons_ne_nil _ _)

theorem digits_append {token : Bytes} (hne : token ≠ [])
    (htoken : ∀ byte ∈ token, isDigit byte = true)
    (hrest : ∀ byte ∈ rest.head?, isDigit byte = false) :
    digits (token ++ rest) = some (token, rest) := by
  have htake : (token ++ rest).takeWhile isDigit = token := by
    rw [takeWhile_append_of_pos htoken]
    cases rest with
    | nil => rw [takeWhile_nil, append_nil]
    | cons byte =>
      rw [takeWhile_cons_of_neg (by rw [hrest byte rfl]; exact Bool.false_ne_true), append_nil]
  have hdrop : (token ++ rest).dropWhile isDigit = rest := by
    rw [dropWhile_append_of_pos htoken]
    cases rest with
    | nil => rfl
    | cons byte =>
      exact dropWhile_cons_of_neg (by rw [hrest byte rfl]; exact Bool.false_ne_true)
  rw [digits, htake, hdrop, if_neg hne]

theorem fraction_of_stops (h : Stops rest) : fraction rest = some ([], rest) := by
  cases rest with
  | nil => rfl
  | cons byte => exact if_neg (h byte rfl).2.1

theorem exponent_of_stops (h : Stops rest) : exponent rest = some ([], rest) := by
  cases rest with
  | nil => rfl
  | cons byte =>
    obtain ⟨-, -, hlower, hupper⟩ := h byte rfl
    exact if_neg (not_or.mpr ⟨hlower, hupper⟩)

theorem integerPart_number (n : Nat) (h : Stops rest) :
    integerPart (number n ++ rest) = some (number n, rest) := by
  rcases Nat.eq_zero_or_pos n with rfl | hpos
  · rw [number_eq_if, if_pos (by decide)]
    rfl
  · obtain ⟨byte, digits', hnumber, hne⟩ := number_head hpos
    have hdigits : digits (number n ++ rest) = some (number n, rest) :=
      digits_append (number_ne_nil n) (fun _ => isDigit_of_mem_number) fun byte hbyte =>
        (h byte hbyte).1
    rw [hnumber] at hdigits ⊢
    rw [cons_append] at hdigits ⊢
    rw [integerPart, if_neg hne, hdigits]

theorem unsignedToken_number (n : Nat) (h : Stops rest) :
    unsignedToken (number n ++ rest) = some (number n, rest) := by
  rw [unsignedToken, integerPart_number n h]
  show (fraction rest).bind _ = _
  rw [fraction_of_stops h]
  show (exponent rest).bind _ = _
  rw [exponent_of_stops h]
  simp

/-- A number in decimal is read up to its end. -/
theorem numberToken_number (n : Nat) (h : Stops rest) :
    numberToken (number n ++ rest) = some (number n, rest) := by
  cases hnumber : number n with
  | nil => exact absurd hnumber (number_ne_nil n)
  | cons byte =>
    have hdigit : isDigit byte = true :=
      isDigit_of_mem_number (hnumber ▸ mem_cons_self)
    have hsign : byte ≠ 45 := by
      rintro rfl
      exact absurd hdigit (by decide)
    rw [← hnumber, ← unsignedToken_number n h, hnumber, cons_append, numberToken, if_neg hsign]

theorem commas_cons_cons (item next : Bytes) (rest : List Bytes) :
    commas (item :: next :: rest) = item ++ 44 :: commas (next :: rest) := rfl

section Lists

variable {α : Type} (close : UInt8) (one : Bytes → Option (α × Bytes)) (text : α → Bytes)

/-- Items of a compact list are read one by one. -/
theorem readItems_commas (hspace : isSpace close = false) (hclose : close ≠ 44)
    {items : List α} (hne : items ≠ [])
    (hone : ∀ item ∈ items, ∀ rest : Bytes, rest.head? = some 44 ∨ rest.head? = some close →
      one (text item ++ rest) = some (item, rest))
    {count : Nat} (hcount : items.length ≤ count) (rest : Bytes) :
    readItems close one count (commas (items.map text) ++ close :: rest) = some (items, rest) := by
  induction items generalizing count with
  | nil => exact absurd rfl hne
  | cons item items ih =>
    cases count with
    | zero => exact absurd hcount (by simp)
    | succ =>
      cases items with
      | nil =>
        have hitem := hone item mem_cons_self (close :: rest) (Or.inr rfl)
        rw [map_singleton, commas, readItems, hitem]
        simp [skip_cons hspace, hclose]
      | cons next items =>
        have hitem := hone item mem_cons_self
          (44 :: (commas ((next :: items).map text) ++ close :: rest)) (Or.inl rfl)
        have hrest := ih (cons_ne_nil _ _)
          (fun item hmem => hone item (mem_cons_of_mem _ hmem))
          (Nat.le_of_succ_le_succ hcount)
        rw [map_cons, map_cons, commas_cons_cons, append_assoc, readItems,
          ← map_cons, cons_append, hitem]
        simp only [bind_eq_bind, bind_some, skip_cons (show isSpace 44 = false from rfl), if_pos]
        rw [hrest]
        rfl

/-- A compact list is read up to its bracket. -/
theorem readList_commas (hspace : isSpace close = false) (hclose : close ≠ 44) {items : List α}
    (htext : ∀ item ∈ items, ∃ byte rest, text item = byte :: rest ∧ isSpace byte = false ∧
      byte ≠ close)
    (hone : ∀ item ∈ items, ∀ rest : Bytes, rest.head? = some 44 ∨ rest.head? = some close →
      one (text item ++ rest) = some (item, rest)) (rest : Bytes) :
    readList close one (commas (items.map text) ++ close :: rest) = some (items, rest) := by
  cases items with
  | nil =>
    show (match skip (close :: rest) with | [] => none | byte :: rest => _) = _
    rw [skip_cons hspace]
    exact if_pos rfl
  | cons item items =>
    have hcount : (item :: items).length ≤
        (commas ((item :: items).map text) ++ close :: rest).length := by
      have hsum := length_le_sum_of_one_le (((item :: items).map text).map List.length)
        (fun n hn => by
          obtain ⟨bytes, hbytes, rfl⟩ := List.mem_map.mp hn
          obtain ⟨one, hone, rfl⟩ := List.mem_map.mp hbytes
          obtain ⟨byte, rest, heq, -⟩ := htext one hone
          rw [heq]
          exact Nat.succ_pos _)
      rw [length_map, length_map] at hsum
      rw [length_append, length_commas]
      omega
    have hread := readItems_commas close one text hspace hclose (cons_ne_nil item items) hone
      hcount rest
    -- The text of the first item tells that the list is not empty.
    obtain ⟨byte, tail, hitem, hbyte, hne⟩ := htext item mem_cons_self
    have hhead : ∃ tail, commas ((item :: items).map text) ++ close :: rest = byte :: tail := by
      cases items with
      | nil => exact ⟨_, by rw [map_singleton, commas, hitem]; rfl⟩
      | cons =>
        exact ⟨_, by rw [map_cons, map_cons, commas_cons_cons, hitem]; rfl⟩
    obtain ⟨tail, hhead⟩ := hhead
    rw [hhead] at hread ⊢
    rw [readList, skip_cons hbyte]
    dsimp only
    rw [if_neg hne, hread]

end Lists

end Json
