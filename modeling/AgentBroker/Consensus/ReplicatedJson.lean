import AgentBroker.Consensus.RaftStateMachine
import AgentBroker.Storage.WireJson

/-!
# The JSON of replicated records

What `serde_json` writes for the records that replicas exchange and keep: commands and their
answers (`replicated_command.rs`, `replicated_response.rs`), proposals and log entries
(`replicated_proposal.rs`, `openraft::Entry`), and the session table of a snapshot
(`raft_state_machine.rs`).

## The design decisions

* **The tags are part of the record.**  A command is an object whose first field names its
  operation, an answer has its status and its payload side by side, a result names its type
  among its fields; the names are those that `rename_all` makes of the variants.
* **Absent fields are left out or `null`, as the attribute says.**  The owner instance and
  the outcome of a session, and the identity of a proposal, are skipped where there is none;
  the fields of a claim's result are written as `null`.
* **Counts are not bounded here.**  The model counts members and tasks with natural numbers
  where the source converts a `usize`; a count is written with its digits whatever it is, so
  that no two results share a text.

The addresses of the cluster's nodes are no part of the model, so a membership entry shows
its voters only.

## Main results

* `ReplicatedBrokerCommandV1.write_injective`, `ReplicatedBrokerResponseV1.write_injective` —
  no two commands, and no two answers, share a text.
* `CommandSessionsSnapshotV1.serdeJson`, `Entry.serdeJson`, `LogId.serdeJson` — the codecs.
-/

namespace AgentBroker

open Json

/-! ## Commands -/

def ReplicatedBrokerCommandV1.write : ReplicatedBrokerCommandV1 → Value
  | .ensureNamespace namespaceId maxNamespaces => .object [
      ("operation", .string "ensure_namespace"),
      ("namespace_id", .string namespaceId),
      ("max_namespaces", maxNamespaces.write)]
  | .publishTask namespaceId taskId objective createdAtMs maxNamespaceTasks => .object [
      ("operation", .string "publish_task"),
      ("namespace_id", .string namespaceId),
      ("task_id", .string taskId),
      ("objective", .string objective),
      ("created_at_ms", createdAtMs.write),
      ("max_namespace_tasks", maxNamespaceTasks.write)]
  | .ensureConsumerGroup namespaceId groupId maxNamespaceGroups => .object [
      ("operation", .string "ensure_consumer_group"),
      ("namespace_id", .string namespaceId),
      ("group_id", .string groupId),
      ("max_namespace_groups", maxNamespaceGroups.write)]
  | .joinConsumerGroup groupId memberId capabilities nowMs maxGroupMembers => .object [
      ("operation", .string "join_consumer_group"),
      ("group_id", .string groupId),
      ("member_id", .string memberId),
      ("capabilities", .array (capabilities.map .string)),
      ("now_ms", nowMs.write),
      ("max_group_members", maxGroupMembers.write)]
  | .heartbeat groupId memberId expectedGeneration nowMs => .object [
      ("operation", .string "heartbeat"),
      ("group_id", .string groupId),
      ("member_id", .string memberId),
      ("expected_generation", expectedGeneration.write),
      ("now_ms", nowMs.write)]
  | .leaveConsumerGroup groupId memberId expectedGeneration => .object [
      ("operation", .string "leave_consumer_group"),
      ("group_id", .string groupId),
      ("member_id", .string memberId),
      ("expected_generation", expectedGeneration.write)]
  | .reapStaleMembers staleBeforeMs maxMembers => .object [
      ("operation", .string "reap_stale_members"),
      ("stale_before_ms", staleBeforeMs.write),
      ("max_members", maxMembers.write)]
  | .claimTask groupId memberId expectedTerm expectedGeneration leaseId nowMs leaseDurationMs =>
    .object [
      ("operation", .string "claim_task"),
      ("group_id", .string groupId),
      ("member_id", .string memberId),
      ("expected_term", expectedTerm.write),
      ("expected_generation", expectedGeneration.write),
      ("lease_id", .string leaseId),
      ("now_ms", nowMs.write),
      ("lease_duration_ms", leaseDurationMs.write)]
  | .renewTaskLease taskId groupId memberId expectedTerm expectedGeneration expectedLeaseEpoch
      leaseId nowMs leaseDurationMs => .object [
      ("operation", .string "renew_task_lease"),
      ("task_id", .string taskId),
      ("group_id", .string groupId),
      ("member_id", .string memberId),
      ("expected_term", expectedTerm.write),
      ("expected_generation", expectedGeneration.write),
      ("expected_lease_epoch", expectedLeaseEpoch.write),
      ("lease_id", .string leaseId),
      ("now_ms", nowMs.write),
      ("lease_duration_ms", leaseDurationMs.write)]
  | .completeTask taskId groupId memberId expectedTerm expectedGeneration expectedLeaseEpoch
      leaseId result completedAtMs => .object [
      ("operation", .string "complete_task"),
      ("task_id", .string taskId),
      ("group_id", .string groupId),
      ("member_id", .string memberId),
      ("expected_term", expectedTerm.write),
      ("expected_generation", expectedGeneration.write),
      ("expected_lease_epoch", expectedLeaseEpoch.write),
      ("lease_id", .string leaseId),
      ("result", .string result),
      ("completed_at_ms", completedAtMs.write)]
  | .pruneCompletedTasks completedBeforeMs maxTasks => .object [
      ("operation", .string "prune_completed_tasks"),
      ("completed_before_ms", completedBeforeMs.write),
      ("max_tasks", maxTasks.write)]
  | .advanceTerm expectedTerm newTerm => .object [
      ("operation", .string "advance_term"),
      ("expected_term", expectedTerm.write),
      ("new_term", newTerm.write)]
  | .acquireCommandSessionOwner sessionId expectedOwnerEpoch ownerInstanceId => .object [
      ("operation", .string "acquire_command_session_owner"),
      ("session_id", .string sessionId),
      ("expected_owner_epoch", expectedOwnerEpoch.write),
      ("owner_instance_id", .string ownerInstanceId)]

/-! ## Answers -/

/-- `BrokerErrorCode::as_str`. -/
def BrokerErrorCode.asStr : BrokerErrorCode → String
  | .invalidRequest => "INVALID_REQUEST"
  | .notFound => "NOT_FOUND"
  | .conflict => "CONFLICT"
  | .capacityExceeded => "CAPACITY_EXCEEDED"
  | .staleFence => "STALE_FENCE"
  | .persistenceError => "PERSISTENCE_ERROR"
  | .transportError => "TRANSPORT_ERROR"
  | .commitOutcomeUnknown => "COMMIT_OUTCOME_UNKNOWN"
  | .internalError => "INTERNAL_ERROR"

/-- `BrokerErrorDisposition::as_str`. -/
def BrokerErrorDisposition.asStr : BrokerErrorDisposition → String
  | .committed => "COMMITTED"
  | .rejected => "REJECTED"
  | .unknown => "UNKNOWN"

def BrokerError.write (error : BrokerError) : Value :=
  .object [
    ("code", .string error.code.asStr),
    ("message", .string error.message),
    ("disposition", .string error.disposition.asStr)]

def ReplicatedMutationMetadataV1.write (metadata : ReplicatedMutationMetadataV1) : Value :=
  .object [
    ("term", metadata.term.write),
    ("revision", metadata.revision.write)]

/-- `ReplicatedTaskStatusV1`. -/
def TaskStatus.asStr : TaskStatus → String
  | .queued => "queued"
  | .leased => "leased"
  | .completed => "completed"

def ReplicatedBrokerMutationResultV1.write : ReplicatedBrokerMutationResultV1 → Value
  | .namespaceEnsured metadata namespaceId namespaceRevision => .object [
      ("result_type", .string "namespace"),
      ("metadata", metadata.write),
      ("namespace_id", .string namespaceId),
      ("namespace_revision", namespaceRevision.write)]
  | .taskPublished metadata taskId taskRevision status => .object [
      ("result_type", .string "task_published"),
      ("metadata", metadata.write),
      ("task_id", .string taskId),
      ("task_revision", taskRevision.write),
      ("status", .string status.asStr)]
  | .consumerGroup metadata groupId generation groupRevision memberCount => .object [
      ("result_type", .string "consumer_group"),
      ("metadata", metadata.write),
      ("group_id", .string groupId),
      ("generation", generation.write),
      ("group_revision", groupRevision.write),
      ("member_count", ofNat memberCount)]
  | .heartbeat metadata groupId memberId generation memberRevision => .object [
      ("result_type", .string "heartbeat"),
      ("metadata", metadata.write),
      ("group_id", .string groupId),
      ("member_id", .string memberId),
      ("generation", generation.write),
      ("member_revision", memberRevision.write)]
  | .staleMembersReaped metadata reapedCount affectedGroupCount => .object [
      ("result_type", .string "stale_members_reaped"),
      ("metadata", metadata.write),
      ("reaped_count", ofNat reapedCount),
      ("affected_group_count", ofNat affectedGroupCount)]
  | .taskClaim metadata taskId objective taskRevision leaseId leaseEpoch leaseExpiresAtMs
      generation => .object [
      ("result_type", .string "task_claim"),
      ("metadata", metadata.write),
      ("task_id", optional .string taskId),
      ("objective", optional .string objective),
      ("task_revision", optional U64.write taskRevision),
      ("lease_id", optional .string leaseId),
      ("lease_epoch", optional U64.write leaseEpoch),
      ("lease_expires_at_ms", optional U64.write leaseExpiresAtMs),
      ("generation", generation.write)]
  | .taskLeaseRenewed metadata taskId taskRevision leaseId leaseEpoch leaseExpiresAtMs
      generation => .object [
      ("result_type", .string "task_lease_renewed"),
      ("metadata", metadata.write),
      ("task_id", .string taskId),
      ("task_revision", taskRevision.write),
      ("lease_id", .string leaseId),
      ("lease_epoch", leaseEpoch.write),
      ("lease_expires_at_ms", leaseExpiresAtMs.write),
      ("generation", generation.write)]
  | .taskCompleted metadata taskId taskRevision status => .object [
      ("result_type", .string "task_completed"),
      ("metadata", metadata.write),
      ("task_id", .string taskId),
      ("task_revision", taskRevision.write),
      ("status", .string status.asStr)]
  | .completedTasksPruned metadata prunedCount => .object [
      ("result_type", .string "completed_tasks_pruned"),
      ("metadata", metadata.write),
      ("pruned_count", ofNat prunedCount)]
  | .termAdvanced metadata => .object [
      ("result_type", .string "term_advanced"),
      ("metadata", metadata.write)]

def ReplicatedBrokerResponseV1.write : ReplicatedBrokerResponseV1 → Value
  | .raftControl => .object [("status", .string "raft_control")]
  | .sessionOwnerAcquired ownerEpoch => .object [
      ("status", .string "session_owner_acquired"),
      ("payload", .object [("owner_epoch", ownerEpoch.write)])]
  | .success result => .object [
      ("status", .string "success"),
      ("payload", result.write)]
  | .applicationError error => .object [
      ("status", .string "application_error"),
      ("payload", error.write)]

/-! ## The session table -/

/-- The fields of a session; those without a value are not written. -/
def CommandSessionSnapshotRecordV1.fields (record : CommandSessionSnapshotRecordV1) :
    List (String × Option Value) := [
  ("session_id", some (.string record.sessionId)),
  ("owner_epoch", some record.ownerEpoch.write),
  ("owner_instance_id", record.ownerInstanceId.map .string),
  ("sequence", record.sequence.map U64.write),
  ("command", record.command.map ReplicatedBrokerCommandV1.write),
  ("response", record.response.map ReplicatedBrokerResponseV1.write)]

def CommandSessionSnapshotRecordV1.write (record : CommandSessionSnapshotRecordV1) : Value :=
  .object (present record.fields)

def CommandSessionsSnapshotV1.write (sidecar : CommandSessionsSnapshotV1) : Value :=
  .object [
    ("version", ofNat sidecar.version.toNat),
    ("records", .array (sidecar.records.map CommandSessionSnapshotRecordV1.write))]

/-! ## Log entries -/

def ReplicatedCommandIdentityV1.fields (identity : ReplicatedCommandIdentityV1) :
    List (String × Option Value) := [
  ("session_id", some (.string identity.sessionId)),
  ("owner_epoch", some identity.ownerEpoch.write),
  ("owner_instance_id", identity.ownerInstanceId.map .string),
  ("sequence", some identity.sequence.write)]

def ReplicatedCommandIdentityV1.write (identity : ReplicatedCommandIdentityV1) : Value :=
  .object (present identity.fields)

def ReplicatedBrokerProposalV1.fields (proposal : ReplicatedBrokerProposalV1) :
    List (String × Option Value) := [
  ("identity", proposal.identity.map ReplicatedCommandIdentityV1.write),
  ("command", some proposal.command.write)]

def ReplicatedBrokerProposalV1.write (proposal : ReplicatedBrokerProposalV1) : Value :=
  .object (present proposal.fields)

def LogId.write (logId : LogId) : Value :=
  .object [
    ("leader_id", ofNat logId.term),
    ("index", ofNat logId.index)]

def EntryPayload.write : EntryPayload → Value
  | .blank => .string "Blank"
  | .membership voters => .object [
      ("Membership", .object [("configs", .array [.array (voters.map ofNat)])])]
  | .normal proposal => .object [("Normal", proposal.write)]

def Entry.write (entry : Entry) : Value :=
  .object [
    ("log_id", entry.logId.write),
    ("payload", entry.payload.write)]

/-! ## No two records share a text -/

/-- Records with one text have one tag. -/
theorem tag_eq_of_object_eq {key tag tag' : String} {rest rest' : List (String × Value)}
    (h : Value.object ((key, .string tag) :: rest) = .object ((key, .string tag') :: rest')) :
    tag = tag' := by
  injection h with h
  injection h with h
  injection h with _ h
  injection h

theorem ReplicatedBrokerCommandV1.write_injective :
    Function.Injective ReplicatedBrokerCommandV1.write := by
  intro a b h
  -- Two commands of different operations differ in their first field.
  cases a <;> cases b <;> first
    | exact absurd (tag_eq_of_object_eq h) (by decide)
    | simp_all [write, (List.map_injective_iff.mpr string_injective).eq_iff]

@[simp] theorem BrokerErrorCode.asStr_inj {a b : BrokerErrorCode} :
    a.asStr = b.asStr ↔ a = b := by
  cases a <;> cases b <;> decide

@[simp] theorem BrokerErrorDisposition.asStr_inj {a b : BrokerErrorDisposition} :
    a.asStr = b.asStr ↔ a = b := by
  cases a <;> cases b <;> decide

@[simp] theorem TaskStatus.asStr_inj {a b : TaskStatus} : a.asStr = b.asStr ↔ a = b := by
  cases a <;> cases b <;> decide

@[simp] theorem BrokerError.write_inj {a b : BrokerError} : a.write = b.write ↔ a = b := by
  cases a
  cases b
  simp [write]

@[simp] theorem ReplicatedMutationMetadataV1.write_inj {a b : ReplicatedMutationMetadataV1} :
    a.write = b.write ↔ a = b := by
  cases a
  cases b
  simp [write]

theorem ReplicatedBrokerMutationResultV1.write_injective :
    Function.Injective ReplicatedBrokerMutationResultV1.write := by
  intro a b h
  cases a <;> cases b <;> first
    | exact absurd (tag_eq_of_object_eq h) (by decide)
    | simp_all [write]

theorem ReplicatedBrokerResponseV1.write_injective :
    Function.Injective ReplicatedBrokerResponseV1.write := by
  intro a b h
  have hresult := ReplicatedBrokerMutationResultV1.write_injective
  cases a <;> cases b <;> simp_all [write, hresult.eq_iff]

theorem CommandSessionSnapshotRecordV1.write_injective :
    Function.Injective CommandSessionSnapshotRecordV1.write := by
  intro a b h
  have hfields : a.fields = b.fields := present_injective
    ["session_id", "owner_epoch", "owner_instance_id", "sequence", "command", "response"]
    rfl rfl (by simp) (Value.object.inj h)
  cases a
  cases b
  simpa [fields, (Option.map_injective string_injective).eq_iff,
    (Option.map_injective U64.write_injective).eq_iff,
    (Option.map_injective ReplicatedBrokerCommandV1.write_injective).eq_iff,
    (Option.map_injective ReplicatedBrokerResponseV1.write_injective).eq_iff] using hfields

theorem CommandSessionsSnapshotV1.write_injective :
    Function.Injective CommandSessionsSnapshotV1.write := by
  rintro ⟨⟩ ⟨⟩ h
  simpa [write, UInt32.toNat_inj,
    (List.map_injective_iff.mpr CommandSessionSnapshotRecordV1.write_injective).eq_iff] using h

theorem ReplicatedCommandIdentityV1.write_injective :
    Function.Injective ReplicatedCommandIdentityV1.write := by
  intro a b h
  have hfields : a.fields = b.fields := present_injective
    ["session_id", "owner_epoch", "owner_instance_id", "sequence"]
    rfl rfl (by simp) (Value.object.inj h)
  cases a
  cases b
  simpa [fields, (Option.map_injective string_injective).eq_iff] using hfields

theorem ReplicatedBrokerProposalV1.write_injective :
    Function.Injective ReplicatedBrokerProposalV1.write := by
  intro a b h
  have hfields : a.fields = b.fields := present_injective ["identity", "command"]
    rfl rfl (by simp) (Value.object.inj h)
  have hcommand := ReplicatedBrokerCommandV1.write_injective
  cases a
  cases b
  simpa [fields, (Option.map_injective ReplicatedCommandIdentityV1.write_injective).eq_iff,
    hcommand.eq_iff] using hfields

@[simp] theorem LogId.write_inj {a b : LogId} : a.write = b.write ↔ a = b := by
  cases a
  cases b
  simp [write]

theorem Entry.write_injective : Function.Injective Entry.write := by
  have hvoters : Function.Injective (List.map ofNat) :=
    List.map_injective_iff.mpr fun _ _ => ofNat_inj.mp
  have hproposal := ReplicatedBrokerProposalV1.write_injective
  have hpayload : Function.Injective EntryPayload.write := by
    intro a b h
    cases a <;> cases b <;> simp_all [EntryPayload.write, hvoters.eq_iff, hproposal.eq_iff]
  rintro ⟨⟩ ⟨⟩ h
  simpa [write, hpayload.eq_iff] using h

/-! ## All numbers are natural -/

theorem ReplicatedBrokerCommandV1.whole_write (command : ReplicatedBrokerCommandV1) :
    command.write.Whole := by
  cases command <;>
    exact .object (by simp [Value.Whole.string, whole_map_array Value.Whole.string])

theorem ReplicatedMutationMetadataV1.whole_write (metadata : ReplicatedMutationMetadataV1) :
    metadata.write.Whole :=
  .object (by simp)

theorem ReplicatedBrokerMutationResultV1.whole_write
    (result : ReplicatedBrokerMutationResultV1) : result.write.Whole := by
  cases result <;>
    exact .object (by simp [Value.Whole.string, ReplicatedMutationMetadataV1.whole_write,
      whole_optional Value.Whole.string, whole_optional U64.whole_write])

theorem ReplicatedBrokerResponseV1.whole_write (response : ReplicatedBrokerResponseV1) :
    response.write.Whole := by
  have hepoch : ∀ epoch : U64, (Value.object [("owner_epoch", epoch.write)]).Whole :=
    fun _ => .object (by simp)
  have herror : ∀ error : BrokerError, error.write.Whole :=
    fun _ => .object (by simp [Value.Whole.string])
  cases response <;>
    exact .object (by simp [Value.Whole.string, hepoch, herror,
      ReplicatedBrokerMutationResultV1.whole_write])

theorem CommandSessionSnapshotRecordV1.whole_write (record : CommandSessionSnapshotRecordV1) :
    record.write.Whole :=
  whole_present (by
    simp [fields, Value.Whole.string, ReplicatedBrokerCommandV1.whole_write,
      ReplicatedBrokerResponseV1.whole_write])

theorem CommandSessionsSnapshotV1.whole_write (sidecar : CommandSessionsSnapshotV1) :
    sidecar.write.Whole :=
  .object (by simp [whole_map_array CommandSessionSnapshotRecordV1.whole_write])

theorem ReplicatedBrokerProposalV1.whole_write (proposal : ReplicatedBrokerProposalV1) :
    proposal.write.Whole := by
  have hidentity : ∀ identity : ReplicatedCommandIdentityV1, identity.write.Whole := fun _ =>
    whole_present (by simp [ReplicatedCommandIdentityV1.fields, Value.Whole.string])
  exact whole_present (by
    simp [fields, hidentity, ReplicatedBrokerCommandV1.whole_write])

theorem LogId.whole_write (logId : LogId) : logId.write.Whole := .object (by simp)

theorem Entry.whole_write (entry : Entry) : entry.write.Whole := by
  have hpayload : ∀ payload : EntryPayload, payload.write.Whole := by
    intro payload
    cases payload with
    | blank => exact .string _
    | membership voters =>
      have hconfigs : (Value.array [.array (voters.map ofNat)]).Whole :=
        .array (by simp [whole_map_array whole_ofNat])
      have hmembership : (Value.object [("configs", .array [.array (voters.map ofNat)])]).Whole :=
        .object (by simp [hconfigs])
      exact .object (by simp [hmembership])
    | normal => exact .object (by simp [ReplicatedBrokerProposalV1.whole_write])
  exact .object (by simp [LogId.whole_write, hpayload])

/-! ## Codecs -/

/-- **The session table is written as its JSON text** and read back from it. -/
noncomputable def CommandSessionsSnapshotV1.serdeJson : Codec CommandSessionsSnapshotV1 :=
  Writer.codec ⟨write, whole_write, write_injective⟩

/-- **A log entry is written as its JSON text** and read back from it. -/
noncomputable def Entry.serdeJson : Codec Entry :=
  Writer.codec ⟨write, whole_write, write_injective⟩

/-- A log id on its own. -/
noncomputable def LogId.serdeJson : Codec LogId :=
  Writer.codec ⟨write, whole_write, fun _ _ => write_inj.mp⟩

end AgentBroker
