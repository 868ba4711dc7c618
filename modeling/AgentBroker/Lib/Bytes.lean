import Mathlib.Data.Nat.Basic
import Mathlib.Tactic.Ring

/-!
# Byte strings

Fixed-width big-endian integers, slices that may be out of range, and codecs: a
serialiser together with a deserialiser that reads back what was written.

## Main results

* `Bytes.toNatBE_ofNatBE` — an integer survives its big-endian bytes.
* `Bytes.lines_flatten_append` — complete lines are cut apart again.
* `Bytes.take_drop_middle` — the slices of a concatenation are its parts.
-/

universe u

/-- A string of bytes. -/
abbrev Bytes := List UInt8

open List

namespace Bytes

/-! ## Big-endian integers -/

/-- The `width` lowest bytes of `n`, the highest first. -/
def ofNatBE : Nat → Nat → Bytes
  | 0, _ => []
  | width + 1, n => UInt8.ofNat (n / 256 ^ width) :: ofNatBE width n

/-- The number that big-endian bytes stand for. -/
def toNatBE (bytes : Bytes) : Nat :=
  bytes.foldl (fun acc byte => acc * 256 + byte.toNat) 0

@[simp] theorem length_ofNatBE (width n : Nat) : (ofNatBE width n).length = width := by
  induction width with
  | zero => rfl
  | succ _ ih => simp [ofNatBE, ih]

/-- Reading `width` bytes shifts what was read before. -/
theorem foldl_ofNatBE (width n acc : Nat) :
    (ofNatBE width n).foldl (fun acc byte => acc * 256 + byte.toNat) acc =
      acc * 256 ^ width + n % 256 ^ width := by
  induction width generalizing acc with
  | zero => simp [ofNatBE, Nat.mod_one]
  | succ width ih =>
    have hdigit : n % 256 ^ (width + 1) =
        n % 256 ^ width + 256 ^ width * (n / 256 ^ width % 256) := by
      rw [pow_succ, Nat.mod_mul]
    rw [ofNatBE, foldl_cons, ih, hdigit, UInt8.toNat_ofNat']
    ring

/-- **An integer survives its bytes.** -/
theorem toNatBE_ofNatBE {width n : Nat} (h : n < 256 ^ width) :
    toNatBE (ofNatBE width n) = n := by
  rw [toNatBE, foldl_ofNatBE, Nat.mod_eq_of_lt h, Nat.zero_mul, Nat.zero_add]

/-! ## Slices -/

/-- The bytes from `start` up to `stop`, if the range is inside. -/
def slice (bytes : Bytes) (start stop : Nat) : Option Bytes :=
  if start ≤ stop ∧ stop ≤ bytes.length then some ((bytes.drop start).take (stop - start))
  else none

theorem slice_of_le {bytes : Bytes} {start stop : Nat} (hstart : start ≤ stop)
    (hstop : stop ≤ bytes.length) :
    bytes.slice start stop = some ((bytes.drop start).take (stop - start)) :=
  if_pos ⟨hstart, hstop⟩

/-- The middle part of a concatenation. -/
theorem take_drop_middle {front middle back : Bytes} {start width : Nat}
    (hstart : front.length = start) (hwidth : middle.length = width) :
    ((front ++ (middle ++ back)).drop start).take width = middle := by
  subst hstart hwidth
  rw [drop_left, take_left]

end Bytes

/-! ## Codecs -/

/-- A serialiser with a deserialiser that reads back what it wrote. -/
structure Codec (α : Type u) where
  toVec : α → Bytes
  fromSlice : Bytes → Except String α
  fromSlice_toVec : ∀ a, fromSlice (toVec a) = .ok a

/-- The byte that ends a line. -/
def newline : UInt8 := 10

namespace Bytes

/-! ## Lines -/

/-- Bytes cut after every line break.  The last piece may lack its break. -/
def lines : Bytes → List Bytes
  | [] => []
  | byte :: rest =>
    if byte = newline then [byte] :: lines rest
    else
      match lines rest with
      | [] => [[byte]]
      | line :: others => (byte :: line) :: others

/-- A piece that ends in the only line break it has. -/
def IsLine (line : Bytes) : Prop := ∃ body, newline ∉ body ∧ line = body ++ [newline]

theorem IsLine.getLast? {line : Bytes} (h : IsLine line) : line.getLast? = some newline := by
  obtain ⟨body, -, rfl⟩ := h
  rw [List.getLast?_append, List.getLast?_singleton, Option.some_or]

theorem lines_of_not_mem {torn : Bytes} (h : newline ∉ torn) (hne : torn ≠ []) :
    lines torn = [torn] := by
  induction torn with
  | nil => exact absurd rfl hne
  | cons byte rest ih =>
    rw [mem_cons, not_or] at h
    rw [lines, if_neg fun heq => h.1 heq.symm]
    cases rest with
    | nil => rfl
    | cons next others => rw [ih h.2 (cons_ne_nil next others)]

theorem lines_line_append {line : Bytes} (h : IsLine line) (rest : Bytes) :
    lines (line ++ rest) = line :: lines rest := by
  obtain ⟨body, hbody, rfl⟩ := h
  induction body with
  | nil =>
    show lines (newline :: rest) = _
    rw [lines, if_pos rfl]
    rfl
  | cons byte others ih =>
    rw [mem_cons, not_or] at hbody
    show lines (byte :: (others ++ [newline] ++ rest)) = _
    rw [lines, if_neg fun heq => hbody.1 heq.symm, ih hbody.2]
    rfl

/-- **Complete lines are cut apart again**, and what follows them is cut by itself. -/
theorem lines_flatten_append {pieces : List Bytes} (h : ∀ line ∈ pieces, IsLine line)
    (rest : Bytes) : lines (pieces.flatten ++ rest) = pieces ++ lines rest := by
  induction pieces with
  | nil => rfl
  | cons line _ ih =>
    rw [flatten_cons, append_assoc, lines_line_append (h line mem_cons_self),
      ih fun other hother => h other (mem_cons_of_mem _ hother)]
    rfl

/-- What is left of a line that was cut short has no line break. -/
theorem newline_not_mem_take {line : Bytes} (h : IsLine line) {n : Nat} (hn : n < line.length) :
    newline ∉ line.take n := by
  obtain ⟨body, hbody, rfl⟩ := h
  rw [length_append, length_singleton] at hn
  rw [take_append_of_le_length (Nat.le_of_lt_succ hn)]
  exact fun hmem => hbody (mem_of_mem_take hmem)

end Bytes

/-- A codec for one record on a line.  What is written has no line break, and it reads back
with the line break that ends it.  `isValue` tells, of any line, whether it is well formed
before its type is looked at. -/
structure LineCodec (α : Type u) extends Codec α where
  isValue : Bytes → Bool
  newline_not_mem : ∀ a, newline ∉ toVec a
  fromSlice_line : ∀ a, fromSlice (toVec a ++ [newline]) = .ok a
  isValue_line : ∀ a, isValue (toVec a ++ [newline]) = true
