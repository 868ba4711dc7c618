import Mathlib.Data.String.Basic
import Mathlib.Order.Basic

/-!
# Validated identifiers and texts

Broker identifiers (`identifiers.rs`) are short ASCII strings: a letter or digit,
then letters, digits and `_ . : -`.  Task objectives and results (`task.rs`) are
arbitrary UTF-8 texts that are not blank and not too long.  In both cases the
validity of the string is a field of the type, so only validated values exist.

A Rust `String` is compared byte by byte and a Lean `String` character by
character; on UTF-8 the two orders agree.
-/

namespace AgentBroker

/-! ## Identifiers -/

/-- The texts a validator reports for the four ways a string is no identifier. -/
structure IdentifierTexts where
  empty : String
  tooLong : String
  badStart : String
  badBody : String

/-- Characters an identifier may contain after the first. -/
def identifierBodyChar (c : Char) : Bool :=
  c.isAlphanum || c == '_' || c == '.' || c == ':' || c == '-'

/-- The first rule a string breaks, as the text that reports it.  Identifiers,
capabilities and command-session ids are checked by this rule with their own
limit and texts. -/
def identifierFault (maxBytes : Nat) (texts : IdentifierTexts) (value : String) :
    Option String :=
  match value.toList with
  | [] => some texts.empty
  | first :: rest =>
    if value.utf8ByteSize > maxBytes then some texts.tooLong
    else if !first.isAlphanum then some texts.badStart
    else if !rest.all identifierBodyChar then some texts.badBody
    else none

/-- The identifiers `define_identifier!` declares. -/
inductive IdentifierKind where
  | namespaceId
  | taskId
  | groupId
  | memberId
  | leaseId
  deriving DecidableEq, Repr

/-- The name of the identifier in validation errors. -/
def IdentifierKind.label : IdentifierKind → String
  | .namespaceId => "namespace_id"
  | .taskId => "task_id"
  | .groupId => "group_id"
  | .memberId => "member_id"
  | .leaseId => "lease_id"

/-- `MAX_IDENTIFIER_BYTES`. -/
def maxIdentifierBytes : Nat := 128

/-- The reasons `validate_identifier` gives. -/
def identifierTexts : IdentifierTexts where
  empty := "must not be empty"
  tooLong := "must be at most 128 ASCII bytes"
  badStart := "must start with an ASCII alphanumeric character"
  badBody := "contains unsupported characters"

/-- A rejected identifier: which one, and why. -/
structure IdentifierError where
  kind : String
  reason : String
  deriving DecidableEq, Repr

/-- `Display` of an identifier error. -/
def IdentifierError.display (e : IdentifierError) : String :=
  "invalid " ++ e.kind ++ ": " ++ e.reason

/-- A validated Broker identifier. -/
structure Identifier (kind : IdentifierKind) where
  asStr : String
  valid : identifierFault maxIdentifierBytes identifierTexts asStr = none
  deriving Repr

abbrev NamespaceId := Identifier .namespaceId
abbrev TaskId := Identifier .taskId
abbrev ConsumerGroupId := Identifier .groupId
/-- The wire name of a logical Consumer's identity is `member_id`. -/
abbrev ConsumerId := Identifier .memberId
abbrev LeaseId := Identifier .leaseId

namespace Identifier

variable {kind : IdentifierKind}

theorem asStr_injective : Function.Injective (fun i : Identifier kind => i.asStr) := by
  rintro ⟨a, ha⟩ ⟨b, hb⟩ h
  cases h
  rfl

instance : LinearOrder (Identifier kind) :=
  LinearOrder.lift' (fun i => i.asStr) asStr_injective

theorem asStr_inj {i j : Identifier kind} : i.asStr = j.asStr ↔ i = j := asStr_injective.eq_iff

instance : LawfulBEq (Identifier kind) := inferInstance

/-- Validate a string as an identifier. -/
def new (value : String) : Except IdentifierError (Identifier kind) :=
  match h : identifierFault maxIdentifierBytes identifierTexts value with
  | none => .ok ⟨value, h⟩
  | some reason => .error ⟨kind.label, reason⟩

/-- The text of an identifier validates back to it. -/
theorem new_asStr (i : Identifier kind) : new i.asStr = .ok i := by
  unfold new
  split
  · rfl
  · rename_i reason h
    rw [i.valid] at h
    cases h

end Identifier

/-! ## Task texts -/

/-- `char::is_whitespace`: the Unicode `White_Space` characters. -/
def isRustWhitespace (c : Char) : Bool :=
  (9 ≤ c.toNat && c.toNat ≤ 13) || c.toNat == 0x20 || c.toNat == 0x85 ||
  c.toNat == 0xA0 || c.toNat == 0x1680 || (0x2000 ≤ c.toNat && c.toNat ≤ 0x200A) ||
  c.toNat == 0x2028 || c.toNat == 0x2029 || c.toNat == 0x202F || c.toNat == 0x205F ||
  c.toNat == 0x3000

/-- Why a task text was rejected. -/
inductive TaskTextError where
  | empty (field : String)
  | tooLarge (field : String) (maxBytes : Nat)
  deriving DecidableEq, Repr

/-- `Display` of a task-text error. -/
def TaskTextError.display : TaskTextError → String
  | .empty field => field ++ " must be a non-empty string"
  | .tooLarge field maxBytes =>
    field ++ " exceeds the " ++ toString maxBytes ++ "-byte limit"

/-- The two task texts. -/
inductive TaskTextKind where
  | objective
  | result
  deriving DecidableEq, Repr

/-- The field a text error names. -/
def TaskTextKind.field : TaskTextKind → String
  | .objective => "objective"
  | .result => "result"

/-- `MAX_OBJECTIVE_BYTES` and `MAX_RESULT_BYTES`. -/
def TaskTextKind.maxBytes : TaskTextKind → Nat
  | .objective => 16 * 1024
  | .result => 64 * 1024

/-- The first rule a text breaks: blank after trimming, then too long. -/
def taskTextFault (kind : TaskTextKind) (value : String) : Option TaskTextError :=
  if value.toList.all isRustWhitespace then some (.empty kind.field)
  else if value.utf8ByteSize > kind.maxBytes then some (.tooLarge kind.field kind.maxBytes)
  else none

/-- A validated task text, kept as it was given. -/
structure TaskText (kind : TaskTextKind) where
  asStr : String
  valid : taskTextFault kind asStr = none
  deriving DecidableEq, Repr

abbrev TaskObjective := TaskText .objective
abbrev TaskResult := TaskText .result

namespace TaskText

variable {kind : TaskTextKind}

/-- Validate a task text. -/
def new (value : String) : Except TaskTextError (TaskText kind) :=
  match h : taskTextFault kind value with
  | none => .ok ⟨value, h⟩
  | some error => .error error

theorem new_asStr (t : TaskText kind) : new t.asStr = .ok t := by
  unfold new
  split
  · rfl
  · rename_i error h
    rw [t.valid] at h
    cases h

theorem asStr_inj {t u : TaskText kind} : t.asStr = u.asStr ↔ t = u := by
  cases t
  cases u
  simp

end TaskText

end AgentBroker
