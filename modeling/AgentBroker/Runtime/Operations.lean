import AgentBroker.Application.Service
import AgentBroker.Consensus.Capacities
import AgentBroker.Protocol.FrameSize
import AgentBroker.Runtime.LineReaders
import AgentBroker.Storage.RecordSize

/-!
# The operations server

The read-only server for operators (`operations.rs`): one request of a line, one answer of a
line.  Consumer Groups are listed in pages; a page names the group to continue after.

A client that lists all groups follows these names.  It is modelled on the frames it sends and
receives.

## Main results

* `answer_listGroups` — what a page holds, for every cursor, and that it fits its frame.
* `group_listing_complete` — following the pages lists every group once, in order.
-/

namespace AgentBroker

open Except hiding error
open List Option Json
open Json (Value textBytes digitCount arrayBytes objectBytes)

/-- `RuntimeError`, with the texts of what an operation of the system failed with. -/
inductive RuntimeError where
  | invalidConfiguration (message : String)
  | stateAlreadyOwned
  | io (operation source : String)
  | stateOwnerSaturated
  | stateOwnerStopped
  | stateOwnerReplyDropped
  | clockBeforeUnixEpoch
  | protocol (error : ProtocolCodecError)
  deriving DecidableEq, Repr

namespace Operations

/-- `DEFAULT_MAX_FRAME_BYTES`. -/
def defaultMaxFrameBytes : Nat := 4 * 1024

/-- `MAX_GROUP_PAGE_LIMIT`. -/
def maxGroupPageLimit : Nat := 8

/-- The limit of a page. -/
abbrev PageLimit := Ranged 1 maxGroupPageLimit

/-- `DEFAULT_GROUP_PAGE_LIMIT`. -/
def defaultGroupPageLimit : U64 := 8

/-- `OPERATIONS_SCHEMA_VERSION`. -/
def operationsSchemaVersion : U64 := 1

/-! ## Requests -/

/-- `OperationsRequest`. -/
inductive OperationsRequest where
  | liveness
  | readiness
  | status
  | describeGroup (groupId : ConsumerGroupId)
  | listGroups (afterGroupId : Option ConsumerGroupId) (limit : PageLimit)

section Requests

variable (object : List (String × Value))

/-- `parse_exact_status_request`. -/
def parseExactStatusRequest (request : OperationsRequest) : Except String OperationsRequest := do
  Except.require (object.length = 2) "unexpected_fields"
  return request

/-- `parse_describe_group_request`. -/
def parseDescribeGroupRequest : Except String OperationsRequest := do
  Except.require (object.length = 3) "unexpected_fields"
  let groupId ← Except.ofOption "group_id_required"
    ((OrdMap.lookup "group_id" object).bind Value.asString)
  let groupId ← (Identifier.new groupId).mapError fun _ => "invalid_group_id"
  return .describeGroup groupId

/-- `parse_list_groups_request`. -/
def parseListGroupsRequest : Except String OperationsRequest := do
  Except.require (object.length ≤ 4) "unexpected_fields"
  Except.require (∀ field ∈ object,
    field.1 ∈ ["schema_version", "operation", "limit", "after_group_id"]) "unexpected_fields"
  let limit ← match OrdMap.lookup "limit" object with
    | none => pure defaultGroupPageLimit
    | some value => Except.ofOption "invalid_limit" (asU64 value)
  let limit ← Ranged.new "invalid_limit" limit
  let afterGroupId ← match OrdMap.lookup "after_group_id" object with
    | none => pure none
    | some .null => pure none
    | some value => do
        let text ← Except.ofOption "invalid_after_group_id" value.asString
        let groupId ← (Identifier.new text).mapError fun _ => "invalid_after_group_id"
        pure (some groupId)
  return .listGroups afterGroupId limit

end Requests

/-- The fields of an object. -/
def asObject : Value → Option (List (String × Value))
  | .object fields => some fields
  | _ => none

/-- `serde_json::from_slice` to a value. -/
def readFrame (serde : Serde) (frame : Bytes) : Option Value :=
  (Json.parse frame).bind serde.readValue

/-- `parse_request`. -/
def parseRequest (serde : Serde) (frame : Bytes) : Except String OperationsRequest := do
  let value ← Except.ofOption "invalid_json" (readFrame serde frame)
  let object ← Except.ofOption "request_must_be_object" (asObject value)
  Except.require ((OrdMap.lookup "schema_version" object).bind asU64 =
    some operationsSchemaVersion) "unsupported_schema_version"
  match (OrdMap.lookup "operation" object).bind Value.asString with
  | some "liveness" => parseExactStatusRequest object .liveness
  | some "readiness" => parseExactStatusRequest object .readiness
  | some "status" => parseExactStatusRequest object .status
  | some "describe_group" => parseDescribeGroupRequest object
  | some "list_groups" => parseListGroupsRequest object
  | _ => .error "unsupported_operation"

/-! ## Answers -/

/-- What the server observes: whether the Broker serves, the snapshot of a cluster as it is
written for an operation, and the answer of the state owner to a read of the groups. -/
structure OperationsObserver where
  liveness : Bool
  snapshot : Option (String → Value)
  groupDirectory : Except RuntimeError (Except BrokerError ConsumerGroupDirectory)

/-- `operations_error_json`. -/
def operationsErrorJson (code : String) : Value :=
  .ofEntries [
    ("code", .string code),
    ("schema_version", ofU64 operationsSchemaVersion),
    ("status", .string "error")]

/-- `group_summary_json`. -/
def groupSummaryJson (group : ConsumerGroupSummary) : Value :=
  .ofEntries [
    ("consumer_count", ofCount group.consumerCount),
    ("generation", ofU64 group.generation.toU64),
    ("group_id", .string group.groupId.asStr),
    ("group_revision", ofU64 group.revision.toU64),
    ("namespace_id", .string group.namespaceId.asStr)]

/-- `group_page_json`. -/
def groupPageJson (directory : ConsumerGroupDirectory) (afterGroupId : Option ConsumerGroupId)
    (limit : PageLimit) : Value :=
  let groups := directory.groups
  let start := afterGroupId.elim 0 fun groupId =>
    groups.partitionPoint fun group => group.groupId ≤ groupId
  let stop := min (saturatingAdd start limit.get.get) groups.length
  let page := (groups.take stop).drop start
  let nextAfterGroupId := if stop < groups.length then
    page.getLast?.map ConsumerGroupSummary.groupId else none
  .ofEntries [
    ("broker_revision", ofU64 directory.revision.toU64),
    ("broker_term", ofU64 directory.term.toU64),
    ("groups", .array (page.map groupSummaryJson)),
    ("next_after_group_id", nextAfterGroupId.elim .null fun groupId => .string groupId.asStr),
    ("operation", .string "list_groups"),
    ("schema_version", ofU64 operationsSchemaVersion),
    ("status", .string "ok")]

/-- The answer to a request for one group. -/
def describeGroupJson (directory : ConsumerGroupDirectory) (groupId : ConsumerGroupId) : Value :=
  match directory.group groupId with
  | some group => .ofEntries [
      ("broker_revision", ofU64 directory.revision.toU64),
      ("broker_term", ofU64 directory.term.toU64),
      ("group", groupSummaryJson group),
      ("operation", .string "describe_group"),
      ("schema_version", ofU64 operationsSchemaVersion),
      ("status", .string "ok")]
  | none => operationsErrorJson "group_not_found"

/-- `group_directory_value`. -/
def groupDirectoryValue (observer : OperationsObserver) (build : ConsumerGroupDirectory → Value) :
    Value :=
  match observer.groupDirectory with
  | .ok (.ok directory) => build directory
  | .ok (.error error) => operationsErrorJson <|
      match error.code with
      | .transportError => "read_authority_unavailable"
      | .persistenceError => "broker_fail_stopped"
      | _ => "broker_read_failed"
  | .error .stateOwnerSaturated => operationsErrorJson "state_owner_saturated"
  | .error .stateOwnerStopped => operationsErrorJson "state_owner_unavailable"
  | .error .stateOwnerReplyDropped => operationsErrorJson "state_owner_unavailable"
  | .error _ => operationsErrorJson "broker_read_failed"

/-- `encode_bounded`. -/
def encodeBounded (value : Value) (maxFrameBytes : Nat) : Except RuntimeError Bytes := do
  let encoded := value.compact ++ [10]
  Except.require (encoded.length ≤ maxFrameBytes)
    (.invalidConfiguration "operations response exceeded configured max_frame_bytes")
  return encoded

/-- The answer about a cluster, where there is one. -/
def snapshotValue (observer : OperationsObserver) (operation : String) : Value :=
  match observer.snapshot with
  | some snapshot => snapshot operation
  | none => operationsErrorJson "unsupported_operation_for_topology"

/-- `encode_response`. -/
def encodeResponse (request : OperationsRequest) (observer : OperationsObserver)
    (maxFrameBytes : Nat) : Except RuntimeError Bytes :=
  let value := match request with
    | .liveness => .ofEntries [
        ("live", .bool observer.liveness),
        ("operation", .string "liveness"),
        ("schema_version", ofU64 operationsSchemaVersion)]
    | .readiness => snapshotValue observer "readiness"
    | .status => snapshotValue observer "status"
    | .describeGroup groupId =>
      groupDirectoryValue observer fun directory => describeGroupJson directory groupId
    | .listGroups afterGroupId limit =>
      groupDirectoryValue observer fun directory => groupPageJson directory afterGroupId limit
  encodeBounded value maxFrameBytes

/-- `handle_operations_connection`, from what was read to what is written. -/
def answer (serde : Serde) (observer : OperationsObserver) (maxFrameBytes : Nat) :
    FrameRead → Except RuntimeError (Option Bytes)
  | .eof => .ok none
  | .tooLarge => some <$> encodeBounded (operationsErrorJson "frame_too_large") maxFrameBytes
  | .frame frame =>
    match parseRequest serde frame with
    | .ok request => some <$> encodeResponse request observer maxFrameBytes
    | .error code => some <$> encodeBounded (operationsErrorJson code) maxFrameBytes

/-! ## Clients -/

/-- A request for a page, as clients write it. -/
def listGroupsRequest (limit : PageLimit) : Option String → Value
  | none => .ofEntries [
      ("limit", ofU64 limit.get),
      ("operation", .string "list_groups"),
      ("schema_version", ofU64 operationsSchemaVersion)]
  | some afterGroupId => .ofEntries [
      ("after_group_id", .string afterGroupId),
      ("limit", ofU64 limit.get),
      ("operation", .string "list_groups"),
      ("schema_version", ofU64 operationsSchemaVersion)]

/-- A group as a client reads it. -/
structure ListedGroup where
  groupId : String
  namespaceId : String
  generation : U64
  groupRevision : U64
  consumerCount : U64
  deriving DecidableEq, Repr

/-- A page as a client reads it. -/
structure GroupPage where
  groups : List ListedGroup
  nextAfterGroupId : Option String
  deriving DecidableEq, Repr

def ListedGroup.read (value : Value) : Option ListedGroup := do
  let [groupId, namespaceId, generation, groupRevision, consumerCount] ←
    value.fields ["group_id", "namespace_id", "generation", "group_revision",
      "consumer_count"] | none
  return {
    groupId := ← Json.required Value.asString groupId
    namespaceId := ← Json.required Value.asString namespaceId
    generation := ← Json.required asU64 generation
    groupRevision := ← Json.required asU64 groupRevision
    consumerCount := ← Json.required asU64 consumerCount }

/-- Read a page; anything but the page of a list is refused. -/
def GroupPage.read (serde : Serde) (frame : Bytes) : Option GroupPage := do
  let value ← readFrame serde frame
  let [schemaVersion, operation, status, _, _, groups, nextAfterGroupId] ←
    value.fields ["schema_version", "operation", "status", "broker_term", "broker_revision",
      "groups", "next_after_group_id"] | none
  guard (Json.required asU64 schemaVersion = some operationsSchemaVersion ∧
    Json.required Value.asString operation = some "list_groups" ∧
    Json.required Value.asString status = some "ok")
  return {
    groups := ← Json.required (Value.asArray ListedGroup.read) groups
    nextAfterGroupId := ← Json.required (Value.asOption Value.asString) nextAfterGroupId }

/-- Ask for a page after the group, and read it. -/
def requestPage (serde : Serde) (observer : OperationsObserver) (limit : PageLimit)
    (afterGroupId : Option String) : Option GroupPage := do
  let some frame ← (answer serde observer defaultMaxFrameBytes
    (.frame ((listGroupsRequest limit afterGroupId).compact ++ [10]))).toOption | none
  GroupPage.read serde frame

/-- Follow the pages from a group on, up to a number of them; `none` if more are left. -/
def followPages (serde : Serde) (observer : OperationsObserver) (limit : PageLimit) :
    Nat → Option String → Option (List GroupPage)
  | 0, _ => none
  | count + 1, afterGroupId => do
      let page ← requestPage serde observer limit afterGroupId
      match page.nextAfterGroupId with
      | none => return [page]
      | some next => return page :: (← followPages serde observer limit count (some next))

/-! ## Pages -/

/-- The groups that come after a cursor. -/
def remaining (directory : ConsumerGroupDirectory) (afterGroupId : Option ConsumerGroupId) :
    List ConsumerGroupSummary :=
  directory.groups.filter fun group => afterGroupId.all (· < group.groupId)

/-- A group as it is read back. -/
def listed (group : ConsumerGroupSummary) : ListedGroup where
  groupId := group.groupId.asStr
  namespaceId := group.namespaceId.asStr
  generation := group.generation.toU64
  groupRevision := group.revision.toU64
  consumerCount := ⟨group.consumerCount % u64Size, Nat.mod_lt _ (Nat.two_pow_pos 64)⟩

/-- The cursor of a page of the groups `rest`. -/
def pageEnd (rest : List ConsumerGroupSummary) (limit : PageLimit) : Option ConsumerGroupId :=
  if limit.get.get < rest.length then
    (rest.take limit.get.get).getLast?.map ConsumerGroupSummary.groupId else none

/-- The page that is written for the groups `rest`. -/
def pageJson (directory : ConsumerGroupDirectory) (rest : List ConsumerGroupSummary)
    (limit : PageLimit) : Value :=
  .ofEntries [
    ("broker_revision", ofU64 directory.revision.toU64),
    ("broker_term", ofU64 directory.term.toU64),
    ("groups", .array ((rest.take limit.get.get).map groupSummaryJson)),
    ("next_after_group_id", (pageEnd rest limit).elim .null fun groupId => .string groupId.asStr),
    ("operation", .string "list_groups"),
    ("schema_version", ofU64 operationsSchemaVersion),
    ("status", .string "ok")]

section Pages

variable {state : BrokerState} {limit : PageLimit}

theorem drop_start (state : BrokerState) (afterGroupId : Option ConsumerGroupId) :
    state.groupDirectory.groups.drop (afterGroupId.elim 0 fun groupId =>
      state.groupDirectory.groups.partitionPoint fun group => group.groupId ≤ groupId) =
      remaining state.groupDirectory afterGroupId := by
  cases afterGroupId with
  | none => exact (filter_eq_self.mpr fun _ _ => rfl).symm
  | some groupId => exact drop_partitionPoint (groupDirectory_sorted state) groupId

/-- A page is cut from the groups that come after its cursor. -/
theorem groupPageJson_eq (hlength : state.groups.size < u64Size)
    (afterGroupId : Option ConsumerGroupId) (limit : PageLimit) :
    groupPageJson state.groupDirectory afterGroupId limit =
      pageJson state.groupDirectory (remaining state.groupDirectory afterGroupId) limit := by
  have hgroups : state.groupDirectory.groups.length < u64Size := by
    rw [BrokerState.groupDirectory, length_map, ← Registry.size_eq_length]
    exact hlength
  unfold groupPageJson pageJson pageEnd
  dsimp only
  rw [← drop_start state afterGroupId]
  generalize (afterGroupId.elim 0 fun groupId =>
    state.groupDirectory.groups.partitionPoint fun group => group.groupId ≤ groupId) = start
  generalize state.groupDirectory.groups = groups at hgroups ⊢
  have hstop : min (saturatingAdd start limit.get.get) groups.length =
      min (start + limit.get.get) groups.length := by
    unfold saturatingAdd
    omega
  have hpage : (groups.take (min (start + limit.get.get) groups.length)).drop start =
      (groups.drop start).take limit.get.get := by
    rw [drop_take, take_eq_take_iff, length_drop]
    omega
  have hmore : min (start + limit.get.get) groups.length < groups.length ↔
      limit.get.get < (groups.drop start).length := by
    rw [length_drop]
    omega
  rw [hstop, hpage]
  simp only [hmore]

/-! ### Reading what was written -/

theorem readFrame_compact (serde : Serde) {value : Value} (h : value.Regular maxValueDepth) :
    readFrame serde (value.compact ++ [10]) = some value := by
  rw [readFrame, parse_compact h.whole isSpace_newline, bind_some]
  exact toValue_tree serde.numberText h

theorem regular_listGroupsRequest (limit : PageLimit) (afterGroupId : Option String) :
    (listGroupsRequest limit afterGroupId).Regular maxValueDepth := by
  cases afterGroupId with
  | none | some => exact regular_ofEntries (by simp)

theorem parseListGroupsRequest_first (limit : PageLimit) :
    parseListGroupsRequest [
      ("limit", ofU64 limit.get),
      ("operation", .string "list_groups"),
      ("schema_version", ofU64 operationsSchemaVersion)] = .ok (.listGroups none limit) := by
  rw [parseListGroupsRequest, require_pos (by simp), ok_bind, require_pos (by simp), ok_bind]
  show (Ranged.new "invalid_limit" limit.get >>= fun limit =>
    pure (OperationsRequest.listGroups none limit)) = _
  rw [Ranged.new_get]
  rfl

theorem parseListGroupsRequest_next (limit : PageLimit) (groupId : ConsumerGroupId) :
    parseListGroupsRequest [
      ("after_group_id", .string groupId.asStr),
      ("limit", ofU64 limit.get),
      ("operation", .string "list_groups"),
      ("schema_version", ofU64 operationsSchemaVersion)] =
        .ok (.listGroups (some groupId) limit) := by
  rw [parseListGroupsRequest, require_pos (by simp), ok_bind, require_pos (by simp), ok_bind]
  show (Ranged.new "invalid_limit" limit.get >>= fun limit => do
    let groupId ← (Identifier.new groupId.asStr).mapError fun _ => "invalid_after_group_id"
    pure (OperationsRequest.listGroups (some groupId) limit)) = _
  rw [Ranged.new_get, Identifier.new_asStr]
  rfl

/-- A request for a page is understood. -/
theorem parseRequest_listGroups (serde : Serde) (limit : PageLimit)
    (afterGroupId : Option ConsumerGroupId) :
    parseRequest serde ((listGroupsRequest limit (afterGroupId.map Identifier.asStr)).compact ++
      [10]) = .ok (.listGroups afterGroupId limit) := by
  rw [parseRequest, readFrame_compact serde (regular_listGroupsRequest limit _)]
  cases afterGroupId with
  | none =>
    rw [map_none, listGroupsRequest, ofEntries_eq (by simp only [List.map]; decide)]
    exact parseListGroupsRequest_first limit
  | some groupId =>
    rw [map_some, listGroupsRequest, ofEntries_eq (by simp only [List.map]; decide)]
    exact parseListGroupsRequest_next limit groupId

theorem read_groupSummaryJson (group : ConsumerGroupSummary) :
    ListedGroup.read (groupSummaryJson group) = some (listed group) := by
  rw [ListedGroup.read, groupSummaryJson, fields_ofEntries (by simp only [List.map]; decide)]
  rfl

theorem regular_groupSummaryJson (group : ConsumerGroupSummary) (depth : Nat) :
    (groupSummaryJson group).Regular (depth + 1) :=
  regular_ofEntries (by simp)

theorem regular_pageJson (directory : ConsumerGroupDirectory) (rest : List ConsumerGroupSummary)
    (limit : PageLimit) : (pageJson directory rest limit).Regular maxValueDepth := by
  have hgroups : (Value.array ((rest.take limit.get.get).map groupSummaryJson)).Regular 126 := by
    intro value hvalue
    obtain ⟨group, -, rfl⟩ := List.mem_map.mp hvalue
    exact regular_groupSummaryJson group 124
  have hnext : ((pageEnd rest limit).elim Value.null fun groupId => .string groupId.asStr).Regular
      126 := by
    cases pageEnd rest limit with
    | none => exact regular_null _
    | some => exact regular_string _ _
  refine regular_ofEntries ?_
  simp only [forall_mem_cons, not_mem_nil, false_implies, implies_true, regular_ofU64,
    regular_string, hgroups, hnext, and_self]

/-- A page is read back. -/
theorem read_pageJson (serde : Serde) (directory : ConsumerGroupDirectory)
    (rest : List ConsumerGroupSummary) (limit : PageLimit) :
    GroupPage.read serde ((pageJson directory rest limit).compact ++ [10]) =
      some ⟨(rest.take limit.get.get).map listed, (pageEnd rest limit).map Identifier.asStr⟩ := by
  have hgroups : Value.asArray ListedGroup.read
      (.array ((rest.take limit.get.get).map groupSummaryJson)) =
      some ((rest.take limit.get.get).map listed) :=
    mapM_map_eq fun group _ => read_groupSummaryJson group
  have hnext : Value.asOption Value.asString
      ((pageEnd rest limit).elim .null fun groupId => .string groupId.asStr) =
      some ((pageEnd rest limit).map Identifier.asStr) := by
    cases pageEnd rest limit <;> rfl
  rw [GroupPage.read, readFrame_compact serde (regular_pageJson directory rest limit),
    bind_eq_bind, bind_some, pageJson, fields_ofEntries (by simp only [List.map]; decide)]
  refine bind_eq_some_iff.mpr ⟨_, rfl, ?_⟩
  refine bind_eq_some_iff.mpr ⟨(), if_pos ⟨rfl, rfl, rfl⟩, ?_⟩
  refine bind_eq_some_iff.mpr ⟨_, hgroups, ?_⟩
  exact bind_eq_some_iff.mpr ⟨_, hnext, rfl⟩

/-! ### Sizes -/

theorem length_ofU64_le (n : U64) : (ofU64 n).compact.length ≤ 20 := by
  rw [length_compact_ofU64]
  exact n.digitCount_le

theorem length_ofCount_le (n : Nat) : (ofCount n).compact.length ≤ 20 :=
  length_ofU64_le ⟨n % u64Size, Nat.mod_lt n (Nat.two_pow_pos 64)⟩

theorem length_identifier_le {kind : IdentifierKind} (i : Identifier kind) :
    (Value.string i.asStr).compact.length ≤ 130 := by
  rw [length_compact_text]
  exact i.textBytes_le

theorem length_groupSummaryJson_le (group : ConsumerGroupSummary) :
    (groupSummaryJson group).compact.length ≤ 399 :=
  (length_compact_ofEntries_le
    [("consumer_count", 20), ("generation", 20), ("group_id", 130), ("group_revision", 20),
      ("namespace_id", 130)] rfl (by decide +kernel)
    (.cons (length_ofCount_le _) <| .cons (length_ofU64_le _) <|
      .cons (length_identifier_le _) <| .cons (length_ofU64_le _) <|
      .cons (length_identifier_le _) .nil)).trans (by decide)

/-- **A page fits its frame.** -/
theorem length_pageJson_le (directory : ConsumerGroupDirectory)
    (rest : List ConsumerGroupSummary) (limit : PageLimit) :
    (pageJson directory rest limit).compact.length ≤ 3498 := by
  have hgroups : (Value.array ((rest.take limit.get.get).map groupSummaryJson)).compact.length ≤
      8 * 399 + (8 - 1) + 2 := by
    refine length_compact_array_le ?_ fun value hvalue => ?_
    · rw [length_map]
      exact (length_take_le _ _).trans limit.le_hi
    · obtain ⟨group, -, rfl⟩ := List.mem_map.mp hvalue
      exact length_groupSummaryJson_le group
  have hnext : ((pageEnd rest limit).elim Value.null fun groupId =>
      .string groupId.asStr).compact.length ≤ 130 := by
    cases pageEnd rest limit with
    | none => decide
    | some groupId => exact length_identifier_le groupId
  exact (length_compact_ofEntries_le
    [("broker_revision", 20), ("broker_term", 20), ("groups", 8 * 399 + (8 - 1) + 2),
      ("next_after_group_id", 130), ("operation", 13), ("schema_version", 1), ("status", 4)] rfl
    (by decide +kernel)
    (.cons (length_ofU64_le _) <| .cons (length_ofU64_le _) <| .cons hgroups <| .cons hnext <|
      .cons (by decide) <| .cons (by decide) <|
      .cons (by decide) .nil)).trans (by decide)

/-! ### Following the pages -/

/-- What is answered to a request for a page. -/
theorem answer_listGroups (serde : Serde) (live : Bool) (snapshot : Option (String → Value))
    (hlength : state.groups.size < u64Size) (afterGroupId : Option ConsumerGroupId)
    (limit : PageLimit) :
    ∃ frame, answer serde ⟨live, snapshot, .ok (.ok state.groupDirectory)⟩ defaultMaxFrameBytes
        (.frame ((listGroupsRequest limit (afterGroupId.map Identifier.asStr)).compact ++ [10])) =
          .ok (some frame) ∧
      frame.length ≤ defaultMaxFrameBytes ∧
      GroupPage.read serde frame =
        some ⟨((remaining state.groupDirectory afterGroupId).take limit.get.get).map listed,
          (pageEnd (remaining state.groupDirectory afterGroupId) limit).map Identifier.asStr⟩ := by
  have hsize : ((pageJson state.groupDirectory
      (remaining state.groupDirectory afterGroupId) limit).compact ++ [10]).length ≤
        defaultMaxFrameBytes := by
    have hpage := length_pageJson_le state.groupDirectory
      (remaining state.groupDirectory afterGroupId) limit
    have hmax : 3499 ≤ defaultMaxFrameBytes := by decide
    rw [length_append, length_singleton]
    omega
  refine ⟨_, ?_, hsize, read_pageJson serde _ _ limit⟩
  rw [answer, parseRequest_listGroups]
  show some <$> encodeBounded (groupPageJson state.groupDirectory afterGroupId limit) _ = _
  rw [groupPageJson_eq hlength, encodeBounded, require_pos hsize]
  rfl

/-- The groups up to a cursor, and those after it. -/
theorem exists_append_remaining (state : BrokerState) (afterGroupId : Option ConsumerGroupId) :
    ∃ front, front ++ remaining state.groupDirectory afterGroupId =
      state.groupDirectory.groups := by
  rw [← drop_start]
  exact ⟨_, take_append_drop _ _⟩

/-- The next page begins where a page ends. -/
theorem remaining_pageEnd {afterGroupId : Option ConsumerGroupId} {next : ConsumerGroupId}
    (h : pageEnd (remaining state.groupDirectory afterGroupId) limit = some next) :
    remaining state.groupDirectory (some next) =
      (remaining state.groupDirectory afterGroupId).drop limit.get.get := by
  obtain ⟨front, hfront⟩ := exists_append_remaining state afterGroupId
  generalize remaining state.groupDirectory afterGroupId = rest at h hfront ⊢
  unfold pageEnd at h
  split_ifs at h
  obtain ⟨last, hlast, rfl⟩ := map_eq_some_iff.mp h
  have hsplit : (front ++ rest.take limit.get.get) ++ rest.drop limit.get.get =
      state.groupDirectory.groups := by
    rw [append_assoc, take_append_drop, hfront]
  have hsorted := groupDirectory_sorted state
  rw [← hsplit] at hsorted
  have hend : (front ++ rest.take limit.get.get).getLast? = some last := by
    rw [List.getLast?_append, hlast, some_or]
  have hrest := List.filter_gt_of_getLast? hsorted hend
  rw [hsplit] at hrest
  exact hrest

theorem remaining_of_pageEnd_none {rest : List ConsumerGroupSummary}
    (h : pageEnd rest limit = none) : rest.take limit.get.get = rest := by
  unfold pageEnd at h
  split_ifs at h with hmore
  · -- The page is not empty, so it has a last group.
    have hempty := List.getLast?_eq_none_iff.mp (map_eq_none_iff.mp h)
    have hpos := limit.lo_le
    have hlength := congrArg List.length hempty
    rw [length_take, length_nil] at hlength
    omega
  · exact take_of_length_le (not_lt.mp hmore)

/-- **Following the pages from a cursor lists what comes after it.** -/
theorem followPages_lists (serde : Serde) (live : Bool) (snapshot : Option (String → Value))
    (hlength : state.groups.size < u64Size) (limit : PageLimit) {count : Nat}
    {afterGroupId : Option ConsumerGroupId}
    (hcount : (remaining state.groupDirectory afterGroupId).length < count) :
    ∃ pages, followPages serde ⟨live, snapshot, .ok (.ok state.groupDirectory)⟩ limit count
        (afterGroupId.map Identifier.asStr) = some pages ∧
      pages.flatMap GroupPage.groups =
        (remaining state.groupDirectory afterGroupId).map listed := by
  induction count generalizing afterGroupId with
  | zero => exact absurd hcount (Nat.not_lt_zero _)
  | succ count ih =>
    obtain ⟨frame, hanswer, -, hread⟩ :=
      answer_listGroups serde live snapshot hlength afterGroupId limit
    rw [followPages, requestPage, hanswer]
    show ∃ pages, (GroupPage.read serde frame >>= _) = some pages ∧ _
    rw [hread]
    cases hend : pageEnd (remaining state.groupDirectory afterGroupId) limit with
    | none =>
      refine ⟨_, rfl, ?_⟩
      rw [flatMap_singleton, remaining_of_pageEnd_none hend]
    | some next =>
      have hrest := remaining_pageEnd hend
      have hmore : limit.get.get < (remaining state.groupDirectory afterGroupId).length := by
        by_contra hlast
        rw [pageEnd, if_neg hlast] at hend
        cases hend
      have hpos := limit.lo_le
      have hcount' : (remaining state.groupDirectory (some next)).length < count := by
        rw [hrest, length_drop]
        omega
      obtain ⟨pages, hpages, hlists⟩ := ih hcount'
      refine ⟨⟨((remaining state.groupDirectory afterGroupId).take limit.get.get).map listed,
        some next.asStr⟩ :: pages, ?_, ?_⟩
      · rw [bind_eq_bind, bind_some]
        exact bind_eq_some_iff.mpr ⟨pages, hpages, rfl⟩
      · rw [flatMap_cons, hlists, hrest, ← map_append, take_append_drop]

end Pages

/-- A group is listed as it is. -/
structure Lists (entry : ListedGroup) (group : ConsumerGroup) : Prop where
  groupId : entry.groupId = group.id.asStr
  namespaceId : entry.namespaceId = group.namespaceId.asStr
  generation : entry.generation.get = group.generation.get
  groupRevision : entry.groupRevision.get = group.revision.get
  consumerCount : entry.consumerCount.get = group.consumers.size

open BrokerStateMachine

/-- What is listed of groups whose sizes are counted. -/
theorem forall₂_lists {groups : List ConsumerGroup}
    (h : ∀ group ∈ groups, group.consumers.size < u64Size) :
    List.Forall₂ Lists ((groups.map ConsumerGroup.summary).map listed) groups := by
  rw [List.map_map, forall₂_map_left_iff]
  exact forall₂_same.mpr fun group hgroup =>
    ⟨rfl, rfl, rfl, rfl, Nat.mod_eq_of_lt (h group hgroup)⟩

/-- **The listing of the groups is complete and fits.**  Every request for a page is answered
within the default frame with the groups that come after its cursor, whether that names a
group or not; and following the pages from the first one comes to an end and lists every group
once, in the order of the ids. -/
theorem group_listing_complete (serde : Serde) (live : Bool)
    (snapshot : Option (String → Value)) (commands : List BrokerCommand) (limit : PageLimit) :
    let state := (run initial commands).state
    let observer : OperationsObserver := ⟨live, snapshot, .ok (.ok state.groupDirectory)⟩
    (∀ afterGroupId : Option ConsumerGroupId, ∃ frame page,
      answer serde observer defaultMaxFrameBytes (.frame
        ((listGroupsRequest limit (afterGroupId.map Identifier.asStr)).compact ++ [10])) =
          .ok (some frame) ∧
      frame.length ≤ defaultMaxFrameBytes ∧ GroupPage.read serde frame = some page ∧
      List.Forall₂ Lists page.groups ((state.groups.values.filter fun group =>
        afterGroupId.all (· < group.id)).take limit.get.get)) ∧
    (∃ pages, followPages serde observer limit (state.groups.values.length + 1) none =
        some pages ∧
      List.Forall₂ Lists (pages.flatMap GroupPage.groups) state.groups.values) ∧
    state.groups.values.Pairwise (fun a b => a.id < b.id) := by
  intro state observer
  have hcounts := run_countsFit commands
  have hlength : state.groups.size < u64Size :=
    hcounts.groups.trans_lt state.revision.isLt
  have hmembers : ∀ group ∈ state.groups.values, group.consumers.size < u64Size :=
    fun group hgroup => hcounts.members _ group (Registry.mem_values.mp hgroup)
  refine ⟨fun afterGroupId => ?_, ?_, state.groups.values_sorted⟩
  · obtain ⟨frame, hanswer, hfits, hread⟩ :=
      answer_listGroups serde live snapshot hlength afterGroupId limit
    refine ⟨frame, _, hanswer, hfits, hread, ?_⟩
    have hremaining : remaining state.groupDirectory afterGroupId =
        (state.groups.values.filter fun group => afterGroupId.all (· < group.id)).map
          ConsumerGroup.summary := List.filter_map
    rw [hremaining, ← map_take]
    exact forall₂_lists fun group hgroup =>
      hmembers group (mem_of_mem_filter (mem_of_mem_take hgroup))
  · have hall : remaining state.groupDirectory none = state.groupDirectory.groups :=
      filter_eq_self.mpr fun _ _ => rfl
    have hcount : (remaining state.groupDirectory none).length <
        state.groups.values.length + 1 := by
      rw [hall, BrokerState.groupDirectory, length_map]
      exact Nat.lt_succ_self _
    obtain ⟨pages, hpages, hlists⟩ := followPages_lists serde live snapshot hlength limit hcount
    refine ⟨pages, hpages, ?_⟩
    rw [hlists, hall]
    exact forall₂_lists hmembers

end Operations

end AgentBroker
