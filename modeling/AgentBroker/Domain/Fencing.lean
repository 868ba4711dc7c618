import Mathlib.Algebra.Group.Nat.Defs
import Mathlib.Data.Nat.Basic
import Mathlib.Order.Lattice
import Mathlib.Tactic.SplitIfs

/-!
# Fencing values

The monotonic counters of the broker (`fencing.rs`) and its explicit timestamps
(`task.rs`).  Every one of them is a `u64`; the bound is a field, so a counter
past `u64::MAX` cannot be built, and `next` refuses to wrap.

`define_counter!` stamps out one type per counter; here it is `Counter`, indexed
by which counter it is, with the text the overflow error names.
-/

namespace AgentBroker

/-- The number of values of a `u64`. -/
abbrev u64Size : Nat := 2 ^ 64

/-- A raw `u64`.  `usize` is the same type on the 64-bit platforms the broker runs
on. -/
structure U64 where
  get : Nat
  isLt : get < u64Size
  deriving DecidableEq, Repr

abbrev Usize := U64

/-- Literals are taken modulo the word size. -/
instance (n : Nat) : OfNat U64 n := ⟨⟨n % u64Size, Nat.mod_lt n (by decide)⟩⟩

/-- `usize::saturating_add`. -/
def saturatingAdd (a b : Nat) : Nat := min (a + b) (u64Size - 1)

/-- Why a monotonic counter could not be built or advanced. -/
inductive FencingValueError where
  | zeroTerm
  | overflow (counter : String)
  deriving DecidableEq, Repr

/-- `Display` of a fencing error. -/
def FencingValueError.display : FencingValueError → String
  | .zeroTerm => "broker term must be at least 1"
  | .overflow counter =>
    counter ++ " overflowed and cannot advance without violating monotonic fencing"

/-- The counters that `define_counter!` declares. -/
inductive CounterKind where
  | generation
  | leaseEpoch
  | revision
  deriving DecidableEq, Repr

/-- The counter's name in overflow errors. -/
def CounterKind.label : CounterKind → String
  | .generation => "generation"
  | .leaseEpoch => "lease_epoch"
  | .revision => "revision"

/-- A monotonic counter. -/
structure Counter (kind : CounterKind) where
  get : Nat
  isLt : get < u64Size
  deriving Repr

/-- Consumer Group membership generation. -/
abbrev Generation := Counter .generation
/-- Task lease epoch. -/
abbrev LeaseEpoch := Counter .leaseEpoch
/-- Entity or Broker state revision. -/
abbrev Revision := Counter .revision

namespace Counter

variable {kind : CounterKind}

theorem get_injective : Function.Injective (fun c : Counter kind => c.get) := by
  rintro ⟨a, ha⟩ ⟨b, hb⟩ h
  cases h
  rfl

instance : LinearOrder (Counter kind) :=
  LinearOrder.lift' (fun c => c.get) get_injective

theorem lt_def {a b : Counter kind} : a < b ↔ a.get < b.get := Iff.rfl

theorem ext_get {a b : Counter kind} (h : a.get = b.get) : a = b := get_injective h

instance (n : Nat) : OfNat (Counter kind) n := ⟨⟨n % u64Size, Nat.mod_lt n (by decide)⟩⟩

/-- The counter at zero. -/
def zero : Counter kind := ⟨0, by decide⟩

/-- The counter at one. -/
def one : Counter kind := ⟨1, by decide⟩

/-- Build a counter from a raw `u64`. -/
def new (value : U64) : Counter kind := ⟨value.get, value.isLt⟩

/-- The raw value, for protocol and persistence boundaries. -/
def toU64 (c : Counter kind) : U64 := ⟨c.get, c.isLt⟩

theorem toU64_inj {a b : Counter kind} : a.toU64 = b.toU64 ↔ a = b := by
  cases a
  cases b
  simp [toU64]

/-- Advance by one, or report the overflow. -/
def next (c : Counter kind) : Except FencingValueError (Counter kind) :=
  if h : c.get + 1 < u64Size then .ok ⟨c.get + 1, h⟩
  else .error (.overflow kind.label)

theorem next_eq_ok_iff {c d : Counter kind} : c.next = .ok d ↔ d.get = c.get + 1 := by
  unfold next
  split_ifs with h
  · constructor
    · intro hd
      cases hd
      rfl
    · intro hd
      exact congrArg Except.ok (ext_get hd.symm)
  · constructor
    · intro hd
      cases hd
    · intro hd
      exact absurd (hd ▸ d.isLt) h

theorem next_get {c d : Counter kind} (h : c.next = .ok d) : d.get = c.get + 1 :=
  next_eq_ok_iff.mp h

theorem lt_next {c d : Counter kind} (h : c.next = .ok d) : c < d :=
  lt_def.mpr (by rw [next_get h]; exact Nat.lt_succ_self _)

theorem pos_of_next {c d : Counter kind} (h : c.next = .ok d) : 0 < d.get := by
  rw [next_get h]
  exact Nat.succ_pos _

/-- `next` fails exactly at `u64::MAX`. -/
theorem next_isOk_iff {c : Counter kind} :
    (∃ d, c.next = .ok d) ↔ c.get + 1 < u64Size := by
  constructor
  · rintro ⟨d, hd⟩
    rw [← next_get hd]
    exact d.isLt
  · intro h
    exact ⟨⟨c.get + 1, h⟩, next_eq_ok_iff.mpr rfl⟩

end Counter

/-- The Broker term, at least one. -/
structure Term where
  get : Nat
  pos : 0 < get
  isLt : get < u64Size
  deriving Repr

namespace Term

theorem get_injective : Function.Injective Term.get := by
  rintro ⟨a, ha, ha'⟩ ⟨b, hb, hb'⟩ h
  cases h
  rfl

instance : LinearOrder Term := LinearOrder.lift' Term.get get_injective

/-- `Term::INITIAL`. -/
def initial : Term := ⟨1, Nat.one_pos, by decide⟩

instance (n : Nat) : OfNat Term (n + 1) :=
  ⟨⟨n % (u64Size - 1) + 1, Nat.succ_pos _, Nat.succ_lt_succ (Nat.mod_lt n (by decide))⟩⟩

/-- Build a term from a raw `u64`, rejecting zero. -/
def new (value : U64) : Except FencingValueError Term :=
  if h : 0 < value.get then .ok ⟨value.get, h, value.isLt⟩ else .error .zeroTerm

/-- The raw value, for protocol and persistence boundaries. -/
def toU64 (t : Term) : U64 := ⟨t.get, t.isLt⟩

theorem new_toU64 (t : Term) : new t.toU64 = .ok t := by
  rw [new, dif_pos (show 0 < t.toU64.get from t.pos)]
  rfl

theorem toU64_inj {t u : Term} : t.toU64 = u.toU64 ↔ t = u := by
  cases t
  cases u
  simp [toU64]

end Term

/-- Milliseconds on the Broker's explicit command timeline. -/
structure TimestampMs where
  get : Nat
  isLt : get < u64Size
  deriving Repr

namespace TimestampMs

theorem get_injective : Function.Injective TimestampMs.get := by
  rintro ⟨a, ha⟩ ⟨b, hb⟩ h
  cases h
  rfl

instance : LinearOrder TimestampMs := LinearOrder.lift' TimestampMs.get get_injective

instance (n : Nat) : OfNat TimestampMs n := ⟨⟨n % u64Size, Nat.mod_lt n (by decide)⟩⟩

/-- Build a timestamp from a raw `u64`. -/
def new (value : U64) : TimestampMs := ⟨value.get, value.isLt⟩

/-- The raw value, for protocol and persistence boundaries. -/
def toU64 (t : TimestampMs) : U64 := ⟨t.get, t.isLt⟩

/-- `now_ms.get().checked_add(duration_ms)`. -/
def checkedAdd (now : TimestampMs) (duration : U64) : Option TimestampMs :=
  if h : now.get + duration.get < u64Size then some ⟨now.get + duration.get, h⟩ else none

theorem checkedAdd_eq_some_iff {now t : TimestampMs} {duration : U64} :
    now.checkedAdd duration = some t ↔ t.get = now.get + duration.get := by
  unfold checkedAdd
  split_ifs with h
  · constructor
    · intro ht
      cases ht
      rfl
    · intro ht
      exact congrArg some (get_injective ht.symm)
  · constructor
    · intro ht
      cases ht
    · intro ht
      exact absurd (ht ▸ t.isLt) h

end TimestampMs

end AgentBroker
