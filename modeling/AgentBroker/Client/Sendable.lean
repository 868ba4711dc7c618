import AgentBroker.Client.DurableSession
import AgentBroker.Client.SessionWorld
import AgentBroker.Storage.RecordSize

/-!
# Commands that cannot be sent

`reserve_command` encodes a command as a frame of the first version before it is written to
the file; `execute_owned` sends it as a frame of the third, which names the session besides.
Both are under the same limit, so that the first frame may keep it where the second does
not.  Such a command is in flight for good: it is never sent, and nothing else can be
reserved.

## Main results

* `reserved_sendable_iff` — which reserved commands can be sent.
* `reserved_unsendable` — one that cannot.
-/

namespace AgentBroker

open Except hiding error
open List
open Json (textBytes digitCount objectBytes)
open BrokerStateMachine (groupG leaseL taskT)

/-- **Which reserved commands can be sent**: those whose frame of the third version keeps the
limit that was checked for the first. -/
theorem reserved_sendable_iff (serde : Serde) (handle : SessionHandle)
    (owner : DurableSessionOwner) (sequence : CommandSequence) (request : BrokerRequest)
    (next : StoredSessionState) (reserved : ReservedCommand)
    (howner : handle.owner = .ok (some owner))
    (hsequence : handle.state.nextSequence = sequence.toU64)
    (hreserve : handle.reserveCommand serde request = .ok (next, reserved)) :
    (∃ owned frame, OwnerIdentifiedBrokerRequestV3.new reserved.identity reserved.request =
        .ok owned ∧
      encodeOwnerMutationRequestWithLimit serde owned defaultMaxFrameBytes = .ok frame) ↔
    request.ownedFrameBytes handle.sessionId owner.ownerEpoch owner.ownerInstanceId sequence ≤
      defaultMaxFrameBytes := by
  obtain ⟨owner', sequence', _, howner', hsequence', hhealth, -, rfl⟩ :=
    SessionHandle.reserveCommand_ok hreserve
  cases howner.symm.trans howner'
  cases SessionCounter.toU64_injective (hsequence.symm.trans hsequence')
  let reserved : ReservedCommand :=
    ⟨⟨handle.sessionId, owner.ownerEpoch, some owner.ownerInstanceId, sequence⟩, request⟩
  have hwritten : (∃ frame, reserved.ownedFrame serde defaultMaxFrameBytes = .ok frame) ↔ _ :=
    reserved.exists_ownedFrame_iff serde rfl hhealth
  rw [← hwritten]
  constructor
  · rintro ⟨owned, frame, howned, hframe⟩
    exact ⟨frame, bind_eq_ok_iff.mpr ⟨owned, howned, hframe⟩⟩
  · rintro ⟨frame, hframe⟩
    obtain ⟨owned, howned, hframe⟩ := bind_eq_ok_iff.mp hframe
    exact ⟨owned, frame, howned, hframe⟩

/-- The first command of the sample session can be sent. -/
theorem ensure_sendable : ∃ next reserved owned frame,
    ownedHandle.reserveCommand default ensureRequest = .ok (next, reserved) ∧
    OwnerIdentifiedBrokerRequestV3.new reserved.identity reserved.request = .ok owned ∧
    encodeOwnerMutationRequestWithLimit default owned defaultMaxFrameBytes = .ok frame := by
  have hframe : encodeRequest ensureRequest = .ok _ :=
    encodeBounded_eq_ok_iff.mpr ⟨rfl, by decide⟩
  obtain ⟨next, hreserve⟩ := reads_ownedHandle.exists_reserveCommand
    (show ownedStore.state.owner = some _ from rfl) rfl rfl
    (show ensureRequest.isHealth = false from rfl) (by decide) hframe
  obtain ⟨owned, frame, hnew, hencode⟩ :=
    (reserved_sendable_iff default ownedHandle _ .initial ensureRequest next _ rfl rfl
      hreserve).mpr (by decide)
  exact ⟨next, _, owned, frame, hreserve, hnew, hencode⟩

/-! ## A command that cannot be sent -/

theorem textBytes_controls (n : Nat) : textBytes (controls n) = 6 * n + 2 := by
  rw [← Json.length_string_eq, length_string_controls]

/-- The completion of a task. -/
def completionWith (result : TaskResult) : BrokerRequest :=
  .completeTask requestR1 taskT groupG ⟨"m", by decide⟩ 1 1 1 leaseL result

theorem frameBytes_completionWith (result : TaskResult) :
    (completionWith result).frameBytes = textBytes result.asStr + 210 := by
  have htexts : textBytes "task.complete" = 15 ∧ textBytes "r-1" = 5 ∧ textBytes "t" = 3 ∧
      textBytes "g" = 3 ∧ textBytes "m" = 3 ∧ textBytes "l" = 3 ∧ digitCount 1 = 1 := by
    decide
  have hnames : "operation".utf8ByteSize = 9 ∧ "payload".utf8ByteSize = 7 ∧
      "request_id".utf8ByteSize = 10 ∧ "version".utf8ByteSize = 7 ∧
      "expected_generation".utf8ByteSize = 19 ∧ "expected_lease_epoch".utf8ByteSize = 20 ∧
      "expected_term".utf8ByteSize = 13 ∧ "group_id".utf8ByteSize = 8 ∧
      "lease_id".utf8ByteSize = 8 ∧ "member_id".utf8ByteSize = 9 ∧ "result".utf8ByteSize = 6 ∧
      "task_id".utf8ByteSize = 7 := by decide
  change objectBytes [("operation", textBytes "task.complete"),
    ("payload", objectBytes [("expected_generation", digitCount 1),
      ("expected_lease_epoch", digitCount 1), ("expected_term", digitCount 1),
      ("group_id", textBytes "g"), ("lease_id", textBytes "l"), ("member_id", textBytes "m"),
      ("result", textBytes result.asStr), ("task_id", textBytes "t")]),
    ("request_id", textBytes "r-1"), ("version", 1)] + 1 = _
  simp only [objectBytes, map_cons, map_nil, sum_cons, sum_nil,
    length_cons, length_nil, htexts, hnames]
  omega

/-- A result of control characters, which take six bytes each. -/
def controlResult (n : Nat) (hpos : n ≠ 0) (hmax : n ≤ TaskTextKind.result.maxBytes) :
    TaskResult :=
  ⟨controls n, taskTextFault_controls hpos hmax⟩

/-- A task is completed with 21 810 control characters. -/
def longResult : TaskResult := controlResult 21810 (by decide) (by decide)

theorem frameBytes_controlResult {n : Nat} (hpos : n ≠ 0)
    (hmax : n ≤ TaskTextKind.result.maxBytes) :
    (completionWith (controlResult n hpos hmax)).frameBytes = 6 * n + 212 := by
  rw [frameBytes_completionWith, controlResult, textBytes_controls]

/-- The frame of the first version is as long as a frame may be. -/
theorem frameBytes_longResult : (completionWith longResult).frameBytes = defaultMaxFrameBytes :=
  (frameBytes_controlResult _ _).trans (by decide)

/-- **A command that is reserved and cannot be sent.**  A process that owns a session reserves
the completion; the frame to send it would be too long. -/
theorem reserved_unsendable : ∃ next reserved owned,
    (SessionWorld.run (.serdeJson fun _ => "") default ownedEvents).handle = some ownedHandle ∧
    ownedHandle.reserveCommand default (completionWith longResult) = .ok (next, reserved) ∧
    OwnerIdentifiedBrokerRequestV3.new reserved.identity reserved.request = .ok owned ∧
    ∀ frame, encodeOwnerMutationRequestWithLimit default owned defaultMaxFrameBytes ≠
      .ok frame := by
  obtain ⟨frame, hframe⟩ := exists_encodeRequest_iff.mpr frameBytes_longResult.le
  obtain ⟨next, hreserve⟩ := reads_ownedHandle.exists_reserveCommand
    (show ownedStore.state.owner = some _ from rfl) rfl rfl
    (show (completionWith longResult).isHealth = false from rfl) (by decide) hframe
  refine ⟨next, _, ⟨_, completionWith longResult, Option.some_ne_none _, fun h => nomatch h⟩, rfl,
    hreserve,
    rfl, fun frame hencode => ?_⟩
  have hlimit := (exists_encodeOwnerMutation_iff default rfl).mp ⟨frame, hencode⟩
  have hlonger := (completionWith longResult).frameBytes_lt_ownedFrameBytes
    ownedHandle.sessionId .initial
    processA .initial
  rw [frameBytes_longResult] at hlonger
  exact absurd hlimit (not_le.mpr hlonger)

end AgentBroker
