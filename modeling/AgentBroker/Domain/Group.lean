import AgentBroker.Lib.Registry
import AgentBroker.Domain.Fencing
import AgentBroker.Domain.Identifiers
import Mathlib.Data.Prod.Lex

/-!
# Consumer Groups

The membership state of one Consumer Group (`group.rs`) and the coordinator that
selects a group from the Broker-wide registry (`group/coordinator.rs`).

A membership change (a new member, a leave, a reap) advances the group's
generation; a heartbeat or a repeated join advances only revisions.  No
transition mutates on failure.

## Main results

* `ConsumerGroup.join_eq_ok_iff` and its siblings — what a successful transition
  did to the group.
* `ConsumerGroup.Moves` — the three ways in which a transition changes a group; what all
  transitions have in common goes by cases over it.
* `ConsumerGroup.Moves.advances` — every transition keeps identity, namespace and positive
  revisions, with a generation that never goes back.
* `GroupCoordinator.requireMember_eq_ok_iff` — the membership guard of the lease
  commands.
-/

namespace AgentBroker

open Except hiding error
open Registry OrdSet List Counter

/-! ## Capabilities -/

/-- `MAX_CAPABILITIES`. -/
def maxCapabilities : Nat := 64

/-- `MAX_CAPABILITY_BYTES`. -/
def maxCapabilityBytes : Nat := 64

/-- The reasons `Capability::new` gives. -/
def capabilityTexts : IdentifierTexts where
  empty := "capability must not be empty"
  tooLong := "capability must be at most 64 ASCII bytes"
  badStart := "capability must start with an ASCII alphanumeric character"
  badBody := "capability contains unsupported characters"

/-- Capability validation failure. -/
inductive CapabilitiesError where
  | tooMany (max : Nat)
  | invalidCapability (reason : String)
  deriving DecidableEq, Repr

/-- `Display` of a capability error. -/
def CapabilitiesError.display : CapabilitiesError → String
  | .tooMany max => "capabilities supports at most " ++ toString max ++ " values"
  | .invalidCapability reason => reason

/-- A validated worker capability. -/
structure Capability where
  asStr : String
  valid : identifierFault maxCapabilityBytes capabilityTexts asStr = none
  deriving Repr

namespace Capability

theorem asStr_injective : Function.Injective Capability.asStr := by
  rintro ⟨a, ha⟩ ⟨b, hb⟩ h
  cases h
  rfl

instance : LinearOrder Capability := LinearOrder.lift' Capability.asStr asStr_injective

/-- Validate a capability. -/
def new (value : String) : Except CapabilitiesError Capability :=
  match h : identifierFault maxCapabilityBytes capabilityTexts value with
  | none => .ok ⟨value, h⟩
  | some reason => .error (.invalidCapability reason)

theorem new_asStr (c : Capability) : new c.asStr = .ok c := by
  unfold new
  split
  · rfl
  · rename_i reason h
    rw [c.valid] at h
    cases h

theorem asStr_of_new {value : String} {c : Capability} (h : new value = .ok c) :
    c.asStr = value := by
  unfold new at h
  split at h
  · cases h
    rfl
  · cases h

end Capability

/-- A sorted, deduplicated set of at most 64 capabilities. -/
structure Capabilities where
  set : OrdSet Capability
  bounded : set.size ≤ maxCapabilities
  deriving DecidableEq

namespace Capabilities

theorem bounded_empty : (∅ : OrdSet Capability).size ≤ maxCapabilities := by decide

/-- The capabilities in order. -/
def asSlice (c : Capabilities) : List Capability := OrdSet.toList c.set

/-- The set a list of capabilities normalises to. -/
def normalize (l : List Capability) : OrdSet Capability := OrdSet.ofList l

theorem size_normalize_le (l : List Capability) : (normalize l).size ≤ l.length :=
  size_ofList_le l

/-- Validate, sort and deduplicate. -/
def new (values : List String) : Except CapabilitiesError Capabilities :=
  if hlen : values.length ≤ maxCapabilities then
    match hvalues : values.mapM Capability.new with
    | .ok l => .ok ⟨normalize l, by
        rw [← length_of_mapM_eq_ok hvalues] at hlen
        exact (size_normalize_le l).trans hlen⟩
    | .error e => .error e
  else .error (.tooMany maxCapabilities)

/-- The texts of a capability set validate back to it. -/
theorem new_asSlice (c : Capabilities) : new (c.asSlice.map Capability.asStr) = .ok c := by
  have hmap : (c.asSlice.map Capability.asStr).mapM Capability.new = .ok c.asSlice :=
    mapM_map_eq_ok fun a _ => Capability.new_asStr a
  have hlen : (c.asSlice.map Capability.asStr).length ≤ maxCapabilities := by
    rw [length_map]
    exact (length_map _).trans_le c.bounded
  rw [new, dif_pos hlen]
  split
  · rename_i l hl
    rw [hmap] at hl
    cases hl
    congr 1
    cases c
    simp only [normalize, asSlice, ofList_toList]
  · rename_i e he
    rw [hmap] at he
    cases he

variable {values : List String}

/-- Not too many valid values are accepted. -/
theorem exists_new_eq_ok (hlen : values.length ≤ maxCapabilities)
    (hvalid : ∀ value ∈ values, (Capability.new value).isOk = true) :
    ∃ c, new values = .ok c := by
  have hnew : ∀ value ∈ values, ∃ c, Capability.new value = .ok c := by
    intro value hvalue
    have hok := hvalid value hvalue
    cases hc : Capability.new value with
    | ok c => exact ⟨c, rfl⟩
    | error e =>
      rw [hc] at hok
      cases hok
  obtain ⟨l, hl⟩ := exists_mapM_eq_ok hnew
  rw [new, dif_pos hlen]
  split
  · exact ⟨_, rfl⟩
  · rename_i e he
    rw [hl] at he
    cases he

/-- An accepted list is kept as a set. -/
theorem mem_asSlice_of_new {c : Capabilities} (h : new values = .ok c) (value : String) :
    value ∈ c.asSlice.map Capability.asStr ↔ value ∈ values := by
  unfold new at h
  split at h
  · split at h
    · rename_i l hl
      cases h
      simp only [asSlice, normalize, List.mem_map, OrdSet.mem_toList, mem_ofList,
        mem_of_mapM_eq_ok hl]
      constructor
      · rintro ⟨a, ⟨value', hvalue', ha⟩, rfl⟩
        rwa [Capability.asStr_of_new ha]
      · intro hvalue
        -- every element of an accepted list was validated
        obtain ⟨a, ha⟩ := exists_of_mapM_eq_ok hl hvalue
        exact ⟨a, ⟨value, hvalue, ha⟩, Capability.asStr_of_new ha⟩
    · cases h
  · cases h

/-- **Normalisation forgets order and duplicates, and nothing else.** -/
theorem asSlice_eq_iff_of_new {values' : List String} {c c' : Capabilities} (h : new values = .ok c)
    (h' : new values' = .ok c') :
    c.asSlice.map Capability.asStr = c'.asSlice.map Capability.asStr ↔
      ∀ value, value ∈ values ↔ value ∈ values' := by
  simp only [← mem_asSlice_of_new h, ← mem_asSlice_of_new h']
  constructor
  · intro heq value
    rw [heq]
  · intro hmem
    have hsets : c.set = c'.set := by
      refine ext_mem fun a => ?_
      have ha := hmem a.asStr
      simpa only [List.mem_map_of_injective Capability.asStr_injective, asSlice,
        OrdSet.mem_toList] using ha
    rw [asSlice, asSlice, hsets]

end Capabilities

/-! ## Members -/

/-- A logical Consumer of one group. -/
structure Consumer where
  id : ConsumerId
  capabilities : Capabilities
  joinedAtMs : TimestampMs
  lastHeartbeatAtMs : TimestampMs
  revision : Revision
  deriving DecidableEq

/-- A newly joined Consumer. -/
def Consumer.new (id : ConsumerId) (capabilities : Capabilities) (nowMs : TimestampMs) :
    Consumer where
  id := id
  capabilities := capabilities
  joinedAtMs := nowMs
  lastHeartbeatAtMs := nowMs
  revision := .one

/-- Outcome of a join. -/
inductive JoinOutcome where
  | added
  | refreshed
  | unchanged
  deriving DecidableEq, Repr

/-- Outcome of a heartbeat. -/
inductive HeartbeatOutcome where
  | updated
  | unchanged
  deriving DecidableEq, Repr

/-- Consumer Group transition failure. -/
inductive ConsumerGroupError where
  | staleGeneration (expected actual : Generation)
  | memberNotFound (memberId : ConsumerId)
  | capabilityConflict (memberId : ConsumerId)
  | memberCapacityReached (maxMembers : Usize)
  | invalidMemberCapacity
  | fencingValue (error : FencingValueError)
  deriving DecidableEq, Repr

/-- `Display` of a group error. -/
def ConsumerGroupError.display : ConsumerGroupError → String
  | .staleGeneration expected actual =>
    "Consumer Group generation is stale: expected " ++ toString expected.get ++
      ", actual " ++ toString actual.get
  | .memberNotFound memberId => "member " ++ memberId.asStr ++ " does not exist"
  | .capabilityConflict memberId =>
    "member " ++ memberId.asStr ++ " rejoined with different capabilities"
  | .memberCapacityReached maxMembers =>
    "Consumer Group member capacity reached (" ++ toString maxMembers.get ++ ")"
  | .invalidMemberCapacity => "max_group_members must be positive"
  | .fencingValue error => error.display

/-- The order in which stale members of one group are reaped: oldest heartbeat
first, then by id. -/
structure StaleMember where
  lastHeartbeatAtMs : TimestampMs
  memberId : ConsumerId
  deriving Repr

namespace StaleMember

theorem toLex_injective :
    Function.Injective fun s : StaleMember => toLex (s.lastHeartbeatAtMs, s.memberId) := by
  refine toLex_pair_injective ?_
  rintro ⟨_, _⟩ ⟨_, _⟩ rfl rfl
  rfl

instance : LinearOrder StaleMember :=
  LinearOrder.lift' (fun s => toLex (s.lastHeartbeatAtMs, s.memberId)) toLex_injective

end StaleMember

/-- Reap key of a member. -/
def Consumer.stale (member : Consumer) : StaleMember :=
  ⟨member.lastHeartbeatAtMs, member.id⟩

/-! ## Groups -/

/-- The members of a group under their ids. -/
abbrev Consumers := Registry ConsumerId Consumer Consumer.id

/-- Membership state of a Consumer Group. -/
structure ConsumerGroup where
  id : ConsumerGroupId
  namespaceId : NamespaceId
  generation : Generation
  revision : Revision
  consumers : Consumers
  deriving DecidableEq

namespace ConsumerGroup

/-- An empty group. -/
def new (id : ConsumerGroupId) (namespaceId : NamespaceId) : ConsumerGroup where
  id := id
  namespaceId := namespaceId
  generation := .zero
  revision := .one
  consumers := ∅

/-- The number of members. -/
def consumerCount (group : ConsumerGroup) : Nat := group.consumers.size

/-- The member with an id. -/
def consumer (group : ConsumerGroup) (memberId : ConsumerId) : Option Consumer :=
  group.consumers.get memberId

/-- The caller must have observed the current generation. -/
def requireGeneration (group : ConsumerGroup) (expected : Generation) :
    Except ConsumerGroupError Unit :=
  .require (group.generation = expected) (.staleGeneration expected group.generation)

/-- Record a newer heartbeat of a member: its revision and the group's advance. -/
def refresh (group : ConsumerGroup) (member : Consumer) (nowMs : TimestampMs) :
    Except ConsumerGroupError ConsumerGroup := do
  let nextMemberRevision ← member.revision.next.mapError .fencingValue
  let nextGroupRevision ← group.revision.next.mapError .fencingValue
  return { group with
    consumers := group.consumers.put
      { member with lastHeartbeatAtMs := nowMs, revision := nextMemberRevision }
    revision := nextGroupRevision }

/-- Admit a new member, or refresh a member that repeats its join. -/
def join (group : ConsumerGroup) (memberId : ConsumerId) (capabilities : Capabilities)
    (nowMs : TimestampMs) (maxMembers : Usize) :
    Except ConsumerGroupError (JoinOutcome × ConsumerGroup) :=
  match group.consumers.get memberId with
  | some member => do
      -- Joining again is a heartbeat: the capacity and the generation are not looked at.
      .require (member.capabilities = capabilities) (.capabilityConflict memberId)
      if nowMs ≤ member.lastHeartbeatAtMs then
        return (.unchanged, group)
      else
        let group' ← group.refresh member nowMs
        return (.refreshed, group')
  | none => do
      .require (maxMembers.get ≠ 0) .invalidMemberCapacity
      .require (group.consumers.size < maxMembers.get) (.memberCapacityReached maxMembers)
      let nextGeneration ← group.generation.next.mapError .fencingValue
      let nextGroupRevision ← group.revision.next.mapError .fencingValue
      return (.added, { group with
        consumers := group.consumers.put (.new memberId capabilities nowMs)
        generation := nextGeneration
        revision := nextGroupRevision })

/-- Record a heartbeat of a current member. -/
def heartbeat (group : ConsumerGroup) (memberId : ConsumerId)
    (expectedGeneration : Generation) (nowMs : TimestampMs) :
    Except ConsumerGroupError (HeartbeatOutcome × ConsumerGroup) := do
  group.requireGeneration expectedGeneration
  let member ← .ofOption (.memberNotFound memberId) (group.consumers.get memberId)
  if nowMs ≤ member.lastHeartbeatAtMs then
    return (.unchanged, group)
  else
    let group' ← group.refresh member nowMs
    return (.updated, group')

/-- Remove a member of the current generation. -/
def leave (group : ConsumerGroup) (memberId : ConsumerId)
    (expectedGeneration : Generation) :
    Except ConsumerGroupError (Consumer × ConsumerGroup) := do
  group.requireGeneration expectedGeneration
  .require (group.consumers.get memberId ≠ none) (.memberNotFound memberId)
  let nextGeneration ← group.generation.next.mapError .fencingValue
  let nextRevision ← group.revision.next.mapError .fencingValue
  let member ← .ofOption (.memberNotFound memberId) (group.consumers.get memberId)
  return (member, { group with
    consumers := group.consumers.erase memberId
    generation := nextGeneration
    revision := nextRevision })

/-- The members due for reaping, stalest first. -/
def staleMembers (group : ConsumerGroup) (staleBeforeMs : TimestampMs) : List StaleMember :=
  OrdSet.toList <| OrdSet.ofList <|
    (group.consumers.values.filter (·.lastHeartbeatAtMs ≤ staleBeforeMs)).map Consumer.stale

/-- Remove members one by one and list those that were present. -/
def removeMembers : List ConsumerId → Consumers → List Consumer × Consumers
  | [], consumers => ([], consumers)
  | memberId :: rest, consumers =>
    match consumers.get memberId with
    | some member =>
      let (removed, left) := removeMembers rest (consumers.erase memberId)
      (member :: removed, left)
    | none => removeMembers rest consumers

/-- Remove up to `maxMembers` stale members; generation and revision advance once. -/
def reapStaleMembers (group : ConsumerGroup) (staleBeforeMs : TimestampMs)
    (maxMembers : Nat) : Except ConsumerGroupError (List Consumer × ConsumerGroup) := do
  .require (maxMembers ≠ 0) .invalidMemberCapacity
  let staleIds := ((group.staleMembers staleBeforeMs).take maxMembers).map StaleMember.memberId
  if staleIds = [] then
    return ([], group)
  else
    let nextGeneration ← group.generation.next.mapError .fencingValue
    let nextRevision ← group.revision.next.mapError .fencingValue
    -- One generation for all of them, however many are removed.
    let (removed, left) := removeMembers staleIds group.consumers
    return (removed, { group with
      consumers := left
      generation := nextGeneration
      revision := nextRevision })

/-! ## What a transition keeps -/

/-- Positive revisions, of the group and of its members. -/
structure WellFormed (group : ConsumerGroup) : Prop where
  revision_pos : 0 < group.revision.get
  member_pos : ∀ {c member}, group.consumers.get c = some member → 0 < member.revision.get

/-- What every transition keeps of a group. -/
structure Advances (group group' : ConsumerGroup) : Prop where
  id : group'.id = group.id
  namespaceId : group'.namespaceId = group.namespaceId
  generation_le : group.generation ≤ group'.generation
  revision_le : group.revision ≤ group'.revision
  wellFormed : group.WellFormed → group'.WellFormed

theorem Advances.refl (group : ConsumerGroup) : group.Advances group :=
  ⟨rfl, rfl, le_rfl, le_rfl, fun h => h⟩

theorem new_wellFormed (id : ConsumerGroupId) (namespaceId : NamespaceId) :
    (new id namespaceId).WellFormed where
  revision_pos := Nat.one_pos
  member_pos h := by simp [new] at h

variable {group group' : ConsumerGroup} {expected : Generation} {member : Consumer}
  {nowMs staleBeforeMs : TimestampMs} {memberId : ConsumerId}

theorem requireGeneration_eq_ok_iff {u : Unit} :
    group.requireGeneration expected = .ok u ↔ group.generation = expected :=
  require_eq_ok_iff

theorem refresh_eq_ok_iff :
    group.refresh member nowMs = .ok group' ↔
      ∃ memberRevision groupRevision, member.revision.next = .ok memberRevision ∧
        group.revision.next = .ok groupRevision ∧
        group' = { group with
          consumers := group.consumers.put
            { member with lastHeartbeatAtMs := nowMs, revision := memberRevision }
          revision := groupRevision } := by
  simp only [refresh, bind_eq_ok_iff, mapError_eq_ok_iff, pure, Except.pure, Except.ok.injEq]
  constructor
  · rintro ⟨memberRevision, hmember, groupRevision, hgroup, rfl⟩
    exact ⟨memberRevision, groupRevision, hmember, hgroup, rfl⟩
  · rintro ⟨memberRevision, groupRevision, hmember, hgroup, rfl⟩
    exact ⟨memberRevision, hmember, groupRevision, hgroup, rfl⟩

/-- A join admits a new member, refreshes a known one, or changes nothing. -/
theorem join_eq_ok_iff {capabilities : Capabilities} {maxMembers : Usize} {outcome : JoinOutcome} :
    group.join memberId capabilities nowMs maxMembers = .ok (outcome, group') ↔
      (∃ member, group.consumers.get memberId = some member ∧
        member.capabilities = capabilities ∧
        ((nowMs ≤ member.lastHeartbeatAtMs ∧ outcome = .unchanged ∧ group' = group) ∨
          (member.lastHeartbeatAtMs < nowMs ∧ outcome = .refreshed ∧
            group.refresh member nowMs = .ok group'))) ∨
      (group.consumers.get memberId = none ∧ maxMembers.get ≠ 0 ∧
        group.consumers.size < maxMembers.get ∧ outcome = .added ∧
        ∃ generation revision, group.generation.next = .ok generation ∧
          group.revision.next = .ok revision ∧
          group' = { group with
            consumers := group.consumers.put (.new memberId capabilities nowMs)
            generation := generation
            revision := revision }) := by
  unfold join
  cases hmember : group.consumers.get memberId with
  | some member =>
    simp only [bind_eq_ok_iff, require_eq_ok_iff, Option.some.injEq,
      reduceCtorEq, false_and, or_false, exists_const]
    constructor
    · rintro ⟨hcaps, h⟩
      refine ⟨member, rfl, hcaps, ?_⟩
      split_ifs at h with hnow
      · cases h
        exact Or.inl ⟨hnow, rfl, rfl⟩
      · obtain ⟨refreshed, hrefresh, h⟩ := bind_eq_ok_iff.mp h
        cases h
        exact Or.inr ⟨not_le.mp hnow, rfl, hrefresh⟩
    · rintro ⟨_, rfl, hcaps, ⟨hnow, rfl, rfl⟩ | ⟨hnow, rfl, hrefresh⟩⟩
      · exact ⟨hcaps, by rw [if_pos hnow]; rfl⟩
      · exact ⟨hcaps, by rw [if_neg (not_le.mpr hnow), hrefresh]; rfl⟩
  | none =>
    simp only [bind_eq_ok_iff, require_eq_ok_iff, mapError_eq_ok_iff,
      pure, Except.pure, Except.ok.injEq, Prod.mk.injEq, reduceCtorEq, false_and,
      exists_false, false_or, exists_const, true_and]
    constructor
    · rintro ⟨hmax, hsize, generation, hgeneration, revision, hrevision, rfl, rfl⟩
      exact ⟨hmax, hsize, rfl, generation, revision, hgeneration, hrevision, rfl⟩
    · rintro ⟨hmax, hsize, rfl, generation, revision, hgeneration, hrevision, rfl⟩
      exact ⟨hmax, hsize, generation, hgeneration, revision, hrevision, rfl, rfl⟩

theorem heartbeat_eq_ok_iff {outcome : HeartbeatOutcome} :
    group.heartbeat memberId expected nowMs = .ok (outcome, group') ↔
      group.generation = expected ∧ ∃ member, group.consumers.get memberId = some member ∧
        ((nowMs ≤ member.lastHeartbeatAtMs ∧ outcome = .unchanged ∧ group' = group) ∨
          (member.lastHeartbeatAtMs < nowMs ∧ outcome = .updated ∧
            group.refresh member nowMs = .ok group')) := by
  simp only [heartbeat, bind_eq_ok_iff, requireGeneration_eq_ok_iff,
    ofOption_eq_ok_iff, exists_const]
  refine and_congr_right fun _ => exists_congr fun member => and_congr_right fun _ => ?_
  by_cases hnow : nowMs ≤ member.lastHeartbeatAtMs
  · simp [hnow, not_lt.mpr hnow, pure, Except.pure, eq_comm]
  · simp only [hnow, not_le.mp hnow, if_false, bind_eq_ok_iff, pure, Except.pure,
      Except.ok.injEq, Prod.mk.injEq, false_and, false_or, true_and]
    constructor
    · rintro ⟨refreshed, hrefresh, rfl, rfl⟩
      exact ⟨rfl, hrefresh⟩
    · rintro ⟨rfl, hrefresh⟩
      exact ⟨group', hrefresh, rfl, rfl⟩

theorem leave_eq_ok_iff :
    group.leave memberId expected = .ok (member, group') ↔
      group.generation = expected ∧ group.consumers.get memberId = some member ∧
        ∃ generation revision, group.generation.next = .ok generation ∧
          group.revision.next = .ok revision ∧
          group' = { group with
            consumers := group.consumers.erase memberId
            generation := generation
            revision := revision } := by
  simp only [leave, bind_eq_ok_iff, requireGeneration_eq_ok_iff,
    require_eq_ok_iff, mapError_eq_ok_iff, ofOption_eq_ok_iff, pure,
    Except.pure, Except.ok.injEq, Prod.mk.injEq, exists_const]
  constructor
  · rintro ⟨hgen, -, generation, hgeneration, revision, hrevision, _, hmember, rfl, rfl⟩
    exact ⟨hgen, hmember, generation, revision, hgeneration, hrevision, rfl⟩
  · rintro ⟨hgen, hmember, generation, revision, hgeneration, hrevision, rfl⟩
    exact ⟨hgen, by simp [hmember], generation, hgeneration, revision, hrevision, member,
      hmember, rfl, rfl⟩

theorem get_removeMembers {ids : List ConsumerId} {consumers : Consumers} {c : ConsumerId} :
    (removeMembers ids consumers).2.get c = if c ∈ ids then none else consumers.get c := by
  induction ids generalizing consumers with
  | nil => simp [removeMembers]
  | cons memberId rest ih =>
    rw [removeMembers]
    cases hmember : consumers.get memberId with
    | some =>
      simp only [ih, Registry.get_erase, mem_cons]
      split_ifs <;> simp_all
    | none =>
      simp only [ih, mem_cons]
      split_ifs <;> simp_all

/-- Removing distinct present members lists exactly these. -/
theorem removed_ids {ids : List ConsumerId} {consumers : Consumers} (hnodup : ids.Nodup)
    (hpresent : ∀ c ∈ ids, consumers.get c ≠ none) :
    (removeMembers ids consumers).1.map Consumer.id = ids := by
  induction ids generalizing consumers with
  | nil => rfl
  | cons memberId rest ih =>
    obtain ⟨hfresh, hrest⟩ := nodup_cons.mp hnodup
    rw [removeMembers]
    cases hmember : consumers.get memberId with
    | none => exact absurd hmember (hpresent memberId mem_cons_self)
    | some =>
      have hleft : ∀ c ∈ rest, (consumers.erase memberId).get c ≠ none := by
        intro c hc
        have hne : c ≠ memberId := fun h => hfresh (h ▸ hc)
        rw [Registry.get_erase, if_neg hne]
        exact hpresent c (mem_cons_of_mem _ hc)
      simp only [map_cons, ih hrest hleft, key_of_get hmember]

theorem mem_staleMembers {s : StaleMember} :
    s ∈ group.staleMembers staleBeforeMs ↔
      s.lastHeartbeatAtMs ≤ staleBeforeMs ∧
        ∃ member, group.consumers.get s.memberId = some member ∧ member.stale = s := by
  simp only [staleMembers, OrdSet.mem_toList, mem_ofList, List.mem_map,
    mem_filter, decide_eq_true_eq]
  constructor
  · rintro ⟨member, ⟨hmem, hstale⟩, rfl⟩
    exact ⟨hstale, member, Registry.mem_values.mp hmem, rfl⟩
  · rintro ⟨hstale, member, hget, rfl⟩
    exact ⟨member, ⟨Registry.mem_values.mpr hget, hstale⟩, rfl⟩

theorem staleMembers_sorted (group : ConsumerGroup) (staleBeforeMs : TimestampMs) :
    (group.staleMembers staleBeforeMs).Pairwise (· < ·) :=
  toList_sorted _

/-- Two stale members of one group with the same id are the same. -/
theorem staleMember_ext {s t : StaleMember} (hs : s ∈ group.staleMembers staleBeforeMs)
    (ht : t ∈ group.staleMembers staleBeforeMs) (h : s.memberId = t.memberId) : s = t := by
  obtain ⟨-, member, hget, rfl⟩ := mem_staleMembers.mp hs
  obtain ⟨-, member', hget', rfl⟩ := mem_staleMembers.mp ht
  rw [h, hget'] at hget
  cases hget
  rfl

theorem staleIds_nodup (group : ConsumerGroup) (staleBeforeMs : TimestampMs) (n : Nat) :
    (((group.staleMembers staleBeforeMs).take n).map StaleMember.memberId).Nodup := by
  have hsorted : ((group.staleMembers staleBeforeMs).take n).Pairwise (· < ·) :=
    (group.staleMembers_sorted staleBeforeMs).sublist (take_sublist n _)
  refine pairwise_map.mpr (hsorted.imp_of_mem ?_)
  intro s t hs ht hlt hid
  exact (ne_of_lt hlt) (staleMember_ext (mem_of_mem_take hs) (mem_of_mem_take ht) hid)

theorem staleIds_present (group : ConsumerGroup) (staleBeforeMs : TimestampMs) (n : Nat) :
    ∀ id ∈ ((group.staleMembers staleBeforeMs).take n).map StaleMember.memberId,
      group.consumers.get id ≠ none := by
  intro id hid
  obtain ⟨stale, hstale, rfl⟩ := List.mem_map.mp hid
  obtain ⟨-, member, hmember, -⟩ := mem_staleMembers.mp (mem_of_mem_take hstale)
  rw [hmember]
  exact Option.some_ne_none member

/-- The stalest members are removed, and no others. -/
theorem removed_staleIds (group : ConsumerGroup) (staleBeforeMs : TimestampMs) (n : Nat) :
    (removeMembers (((group.staleMembers staleBeforeMs).take n).map StaleMember.memberId)
      group.consumers).1.map Consumer.id =
        ((group.staleMembers staleBeforeMs).take n).map StaleMember.memberId :=
  removed_ids (group.staleIds_nodup staleBeforeMs n) (group.staleIds_present staleBeforeMs n)

/-- A reap removes the stalest members and advances the group once. -/
theorem reapStaleMembers_eq_ok_iff {maxMembers : Nat} {removed : List Consumer} :
    group.reapStaleMembers staleBeforeMs maxMembers = .ok (removed, group') ↔
      maxMembers ≠ 0 ∧
        ((group.staleMembers staleBeforeMs = [] ∧ removed = [] ∧ group' = group) ∨
          (group.staleMembers staleBeforeMs ≠ [] ∧
            ∃ generation revision, group.generation.next = .ok generation ∧
              group.revision.next = .ok revision ∧
              removed = (removeMembers (((group.staleMembers staleBeforeMs).take
                maxMembers).map StaleMember.memberId) group.consumers).1 ∧
              group' = { group with
                consumers := (removeMembers (((group.staleMembers staleBeforeMs).take
                  maxMembers).map StaleMember.memberId) group.consumers).2
                generation := generation
                revision := revision })) := by
  simp only [reapStaleMembers, bind_eq_ok_iff, require_eq_ok_iff, exists_const]
  refine and_congr_right fun hmax => ?_
  by_cases hstale : group.staleMembers staleBeforeMs = []
  · simp [hstale, pure, Except.pure, eq_comm]
  · have hids : ((group.staleMembers staleBeforeMs).take maxMembers).map
        StaleMember.memberId ≠ [] := by
      simp [hstale, hmax]
    simp only [hids, hstale, if_false, false_and, false_or, not_false_eq_true, true_and,
      ne_eq, bind_eq_ok_iff, mapError_eq_ok_iff, pure, Except.pure,
      Except.ok.injEq, Prod.mk.injEq]
    constructor
    · rintro ⟨generation, hgeneration, revision, hrevision, rfl, rfl⟩
      exact ⟨generation, revision, hgeneration, hrevision, rfl, rfl⟩
    · rintro ⟨generation, revision, hgeneration, hrevision, rfl, rfl⟩
      exact ⟨generation, hgeneration, revision, hrevision, rfl, rfl⟩

/-- A refreshed member has the new heartbeat and its old capabilities. -/
theorem get_of_refresh {member : Consumer} (hget : group.consumers.get memberId = some member)
    (h : group.refresh member nowMs = .ok group') :
    ∃ refreshed, group'.consumers.get memberId = some refreshed ∧
      refreshed.capabilities = member.capabilities ∧ refreshed.lastHeartbeatAtMs = nowMs := by
  obtain ⟨memberRevision, groupRevision, -, -, rfl⟩ := refresh_eq_ok_iff.mp h
  refine ⟨{ member with lastHeartbeatAtMs := nowMs, revision := memberRevision }, ?_, rfl, rfl⟩
  rw [← key_of_get hget]
  exact get_put_self _ _

/-- After a join the member is there, with its capabilities and a heartbeat that is not
older than the join. -/
theorem get_of_join {capabilities : Capabilities} {maxMembers : Usize} {outcome : JoinOutcome}
    (h : group.join memberId capabilities nowMs maxMembers = .ok (outcome, group')) :
    ∃ member, group'.consumers.get memberId = some member ∧
      member.capabilities = capabilities ∧ nowMs ≤ member.lastHeartbeatAtMs := by
  rcases join_eq_ok_iff.mp h with ⟨member, hget, hcaps, ⟨hnow, -, rfl⟩ | ⟨-, -, hrefresh⟩⟩ |
    ⟨-, -, -, -, generation, revision, -, -, rfl⟩
  · exact ⟨member, hget, hcaps, hnow⟩
  · obtain ⟨refreshed, hrefreshed, hsame, hheartbeat⟩ := get_of_refresh hget hrefresh
    exact ⟨refreshed, hrefreshed, hsame.trans hcaps, hheartbeat.ge⟩
  · exact ⟨.new memberId capabilities nowMs, get_put_self _ _, rfl, le_rfl⟩

/-- After a heartbeat the member is there with a heartbeat that is not older, and the
generation is the one the member showed. -/
theorem get_of_heartbeat {expected : Generation} {outcome : HeartbeatOutcome}
    (h : group.heartbeat memberId expected nowMs = .ok (outcome, group')) :
    group'.generation = expected ∧ ∃ member, group'.consumers.get memberId = some member ∧
      nowMs ≤ member.lastHeartbeatAtMs := by
  obtain ⟨hgeneration, member, hget, ⟨hnow, -, rfl⟩ | ⟨-, -, hrefresh⟩⟩ :=
    heartbeat_eq_ok_iff.mp h
  · exact ⟨hgeneration, member, hget, hnow⟩
  · obtain ⟨refreshed, hrefreshed, -, hheartbeat⟩ := get_of_refresh hget hrefresh
    obtain ⟨memberRevision, groupRevision, -, -, rfl⟩ := refresh_eq_ok_iff.mp hrefresh
    exact ⟨hgeneration, refreshed, hrefreshed, hheartbeat.ge⟩

/-! ## What a transition makes of a group -/

/-- What a transition that changes a group makes of it: a member shows that it is alive,
a member is added below the limit, or members are lost. -/
inductive Moves (group : ConsumerGroup) (limit : Nat) : ConsumerGroup → Prop
  | refreshed {member : Consumer} (nowMs : TimestampMs) {memberRevision revision : Revision}
      (get : group.consumers.get member.id = some member)
      (memberNext : member.revision.next = .ok memberRevision)
      (next : group.revision.next = .ok revision) :
      Moves group limit { group with
        consumers := group.consumers.put
          { member with lastHeartbeatAtMs := nowMs, revision := memberRevision }
        revision := revision }
  | joined (memberId : ConsumerId) (capabilities : Capabilities) (nowMs : TimestampMs)
      {generation : Generation} {revision : Revision} (room : group.consumers.size < limit)
      (generationNext : group.generation.next = .ok generation)
      (next : group.revision.next = .ok revision) :
      Moves group limit { group with
        consumers := group.consumers.put (.new memberId capabilities nowMs)
        generation := generation
        revision := revision }
  | shrunk {left : Consumers} {generation : Generation} {revision : Revision}
      (kept : ∀ {id member}, left.get id = some member → group.consumers.get id = some member)
      (generationNext : group.generation.next = .ok generation)
      (next : group.revision.next = .ok revision) :
      Moves group limit { group with
        consumers := left, generation := generation, revision := revision }

variable {limit : Nat}

theorem refresh_moves (hget : group.consumers.get memberId = some member)
    (h : group.refresh member nowMs = .ok group') : group.Moves limit group' := by
  obtain ⟨memberRevision, groupRevision, hmember, hgroup, rfl⟩ := refresh_eq_ok_iff.mp h
  exact .refreshed nowMs (by rw [key_of_get hget, hget]) hmember hgroup

theorem join_moves {capabilities : Capabilities} {maxMembers : Usize} {outcome : JoinOutcome}
    (h : group.join memberId capabilities nowMs maxMembers = .ok (outcome, group')) :
    (outcome = .unchanged ∧ group' = group) ∨
      (outcome ≠ .unchanged ∧ group.Moves maxMembers.get group') := by
  rcases join_eq_ok_iff.mp h with
    ⟨member, hget, -, ⟨-, rfl, rfl⟩ | ⟨-, rfl, hrefresh⟩⟩ |
    ⟨-, -, hroom, rfl, generation, revision, hgeneration, hrevision, rfl⟩
  · exact Or.inl ⟨rfl, rfl⟩
  · exact Or.inr ⟨nofun, refresh_moves hget hrefresh⟩
  · exact Or.inr ⟨nofun, .joined memberId capabilities nowMs hroom hgeneration hrevision⟩

theorem heartbeat_moves {outcome : HeartbeatOutcome}
    (h : group.heartbeat memberId expected nowMs = .ok (outcome, group')) :
    (outcome = .unchanged ∧ group' = group) ∨
      (outcome = .updated ∧ group.Moves limit group') := by
  obtain ⟨-, member, hget, ⟨-, rfl, rfl⟩ | ⟨-, rfl, hrefresh⟩⟩ := heartbeat_eq_ok_iff.mp h
  · exact Or.inl ⟨rfl, rfl⟩
  · exact Or.inr ⟨rfl, refresh_moves hget hrefresh⟩

theorem leave_moves (h : group.leave memberId expected = .ok (member, group')) :
    group.Moves limit group' := by
  obtain ⟨-, -, generation, revision, hgeneration, hrevision, rfl⟩ := leave_eq_ok_iff.mp h
  refine .shrunk (fun hget => ?_) hgeneration hrevision
  rw [Registry.get_erase] at hget
  split_ifs at hget
  exact hget

/-- A bulk removal leaves members as they were. -/
theorem kept_of_reap {maxMembers : Nat} {removed : List Consumer} {id : ConsumerId}
    (h : group.reapStaleMembers staleBeforeMs maxMembers = .ok (removed, group'))
    (hget : group'.consumers.get id = some member) : group.consumers.get id = some member := by
  obtain ⟨-, ⟨-, -, rfl⟩ | ⟨-, generation, revision, -, -, -, rfl⟩⟩ :=
    reapStaleMembers_eq_ok_iff.mp h
  · exact hget
  · rw [get_removeMembers] at hget
    split_ifs at hget
    exact hget

/-- A bulk removal that is asked for the members it removes removes at least one. -/
theorem reap_moves {removed : List Consumer} {memberIds : List ConsumerId}
    (h : group.reapStaleMembers staleBeforeMs memberIds.length = .ok (removed, group'))
    (hremoved : removed.map Consumer.id = memberIds) : group.Moves limit group' := by
  obtain ⟨hlength, ⟨-, hnone, -⟩ | ⟨-, generation, revision, hgeneration, hrevision, -, rfl⟩⟩ :=
    reapStaleMembers_eq_ok_iff.mp h
  · rw [← hremoved, hnone] at hlength
    exact absurd rfl hlength
  · exact .shrunk (kept_of_reap h) hgeneration hrevision

theorem Moves.revision_lt (h : group.Moves limit group') : group.revision < group'.revision := by
  cases h with
  | refreshed _ _ _ next | joined _ _ _ _ _ next | shrunk _ _ next => exact lt_next next

theorem Moves.advances (h : group.Moves limit group') : group.Advances group' := by
  cases h with
  | refreshed nowMs get memberNext next =>
    refine ⟨rfl, rfl, le_rfl, (lt_next next).le, fun hwf => ⟨pos_of_next next, fun hget => ?_⟩⟩
    rw [get_put] at hget
    split_ifs at hget
    · cases hget
      exact pos_of_next memberNext
    · exact hwf.member_pos hget
  | joined memberId capabilities nowMs room generationNext next =>
    refine ⟨rfl, rfl, (lt_next generationNext).le, (lt_next next).le,
      fun hwf => ⟨pos_of_next next, fun hget => ?_⟩⟩
    rw [get_put] at hget
    split_ifs at hget
    · cases hget
      exact Nat.one_pos
    · exact hwf.member_pos hget
  | shrunk kept generationNext next =>
    exact ⟨rfl, rfl, (lt_next generationNext).le, (lt_next next).le,
      fun hwf => ⟨pos_of_next next, fun hget => hwf.member_pos (kept hget)⟩⟩

/-- A transition adds no member beyond the limit. -/
theorem Moves.size_le (h : group.Moves limit group') :
    group'.consumers.size ≤ max group.consumers.size limit := by
  cases h with
  | @refreshed member _ _ _ get =>
    refine le_max_of_le_left (size_le_of_keys fun other habsent => ?_)
    have hne : other ≠ member.id := fun heq => by
      rw [heq, get] at habsent
      cases habsent
    exact (get_put _ _ _).trans ((if_neg hne).trans habsent)
  | joined _ _ _ room =>
    exact le_max_of_le_right ((OrdMap.size_insert_le _ _ _).trans room)
  | @shrunk left _ _ kept =>
    refine le_max_of_le_left (size_le_of_keys fun other habsent => ?_)
    cases hget : left.get other with
    | none => rfl
    | some member => cases habsent.symm.trans (kept hget)

/-- A group keeps its members, or it goes on to a greater generation. -/
theorem Moves.regenerates (h : group.Moves limit group') :
    (∀ id, group'.consumers.get id = none ↔ group.consumers.get id = none) ∨
      group.generation < group'.generation := by
  cases h with
  | @refreshed member nowMs _ _ get =>
    refine Or.inl fun id => ?_
    rw [get_put]
    split_ifs with hid
    · have hpresent : group.consumers.get id = some member := by rw [hid, ← get]
      simp [hpresent]
    · exact Iff.rfl
  | joined _ _ _ _ generationNext | shrunk _ generationNext =>
    exact Or.inr (lt_next generationNext)

end ConsumerGroup

/-! ## The coordinator -/

/-- The Broker-wide group registry. -/
abbrev ConsumerGroups := Registry ConsumerGroupId ConsumerGroup ConsumerGroup.id

/-- Failure while coordinating one group of the registry. -/
inductive GroupCoordinatorError where
  | groupNotFound (groupId : ConsumerGroupId)
  | transition (error : ConsumerGroupError)
  deriving DecidableEq, Repr

namespace GroupCoordinator

/-- Run a transition on the selected group and file the result. -/
def withGroup {α : Type} (groups : ConsumerGroups) (groupId : ConsumerGroupId)
    (transition : ConsumerGroup → Except ConsumerGroupError (α × ConsumerGroup)) :
    Except GroupCoordinatorError (α × ConsumerGroups) := do
  let group ← .ofOption (.groupNotFound groupId) (groups.get groupId)
  let (outcome, group') ← (transition group).mapError .transition
  return (outcome, groups.put group')

/-- Join through the registry. -/
def join (groups : ConsumerGroups) (groupId : ConsumerGroupId) (memberId : ConsumerId)
    (capabilities : Capabilities) (nowMs : TimestampMs) (maxMembers : Usize) :
    Except GroupCoordinatorError (JoinOutcome × ConsumerGroups) :=
  withGroup groups groupId (·.join memberId capabilities nowMs maxMembers)

/-- Heartbeat through the registry. -/
def heartbeat (groups : ConsumerGroups) (groupId : ConsumerGroupId) (memberId : ConsumerId)
    (expectedGeneration : Generation) (nowMs : TimestampMs) :
    Except GroupCoordinatorError (HeartbeatOutcome × ConsumerGroups) :=
  withGroup groups groupId (·.heartbeat memberId expectedGeneration nowMs)

/-- Leave through the registry. -/
def leave (groups : ConsumerGroups) (groupId : ConsumerGroupId) (memberId : ConsumerId)
    (expectedGeneration : Generation) :
    Except GroupCoordinatorError (Consumer × ConsumerGroups) :=
  withGroup groups groupId (·.leave memberId expectedGeneration)

/-- Reap through the registry. -/
def reapStaleMembers (groups : ConsumerGroups) (groupId : ConsumerGroupId)
    (staleBeforeMs : TimestampMs) (maxMembers : Nat) :
    Except GroupCoordinatorError (List Consumer × ConsumerGroups) :=
  withGroup groups groupId (·.reapStaleMembers staleBeforeMs maxMembers)

/-- The namespace and generation of a group the member currently belongs to. -/
def requireMember (groups : ConsumerGroups) (groupId : ConsumerGroupId)
    (memberId : ConsumerId) (expectedGeneration : Generation) :
    Except GroupCoordinatorError (NamespaceId × Generation) := do
  let group ← .ofOption (.groupNotFound groupId) (groups.get groupId)
  (group.requireGeneration expectedGeneration).mapError .transition
  .require (group.consumer memberId ≠ none) (.transition (.memberNotFound memberId))
  return (group.namespaceId, group.generation)

variable {groups : ConsumerGroups} {groupId : ConsumerGroupId}

theorem withGroup_eq_ok_iff {α : Type} {groups' : ConsumerGroups}
    {transition : ConsumerGroup → Except ConsumerGroupError (α × ConsumerGroup)} {outcome : α} :
    withGroup groups groupId transition = .ok (outcome, groups') ↔
      ∃ group group', groups.get groupId = some group ∧
        transition group = .ok (outcome, group') ∧ groups' = groups.put group' := by
  simp only [withGroup, bind_eq_ok_iff, ofOption_eq_ok_iff,
    mapError_eq_ok_iff, pure, Except.pure, Except.ok.injEq, Prod.mk.injEq,
    Prod.exists]
  constructor
  · rintro ⟨group, hgroup, _, group', htransition, rfl, rfl⟩
    exact ⟨group, group', hgroup, htransition, rfl⟩
  · rintro ⟨group, group', hgroup, htransition, rfl⟩
    exact ⟨group, hgroup, outcome, group', htransition, rfl, rfl⟩

/-- A transition that leaves its group as it is leaves the groups as they are. -/
theorem withGroup_unchanged {α : Type}
    {transition : ConsumerGroup → Except ConsumerGroupError (α × ConsumerGroup)}
    {group : ConsumerGroup} {outcome : α} (hget : groups.get groupId = some group)
    (htransition : transition group = .ok (outcome, group)) :
    withGroup groups groupId transition = .ok (outcome, groups) := by
  refine withGroup_eq_ok_iff.mpr ⟨group, group, hget, htransition, ?_⟩
  rw [put_get_self hget]

theorem requireMember_eq_ok_iff {memberId : ConsumerId} {expected generation : Generation}
    {namespaceId : NamespaceId} :
    requireMember groups groupId memberId expected = .ok (namespaceId, generation) ↔
      ∃ group member, groups.get groupId = some group ∧ group.generation = expected ∧
        group.consumer memberId = some member ∧ group.namespaceId = namespaceId ∧
        group.generation = generation := by
  simp only [requireMember, bind_eq_ok_iff, ofOption_eq_ok_iff,
    mapError_eq_ok_iff, ConsumerGroup.requireGeneration_eq_ok_iff,
    require_eq_ok_iff, pure, Except.pure, Except.ok.injEq, Prod.mk.injEq, exists_const,
    ne_eq, Option.ne_none_iff_exists']
  constructor
  · rintro ⟨group, hgroup, hgen, ⟨member, hmember⟩, hns, hgeneration⟩
    exact ⟨group, member, hgroup, hgen, hmember, hns, hgeneration⟩
  · rintro ⟨group, member, hgroup, hgen, hmember, hns, hgeneration⟩
    exact ⟨group, hgroup, hgen, ⟨member, hmember⟩, hns, hgeneration⟩

end GroupCoordinator

end AgentBroker
