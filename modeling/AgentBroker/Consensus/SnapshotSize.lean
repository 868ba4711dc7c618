import AgentBroker.Consensus.ReplicatedJson

/-!
# The size of a snapshot

What the JSON of a consensus snapshot takes, from the texts and the numbers that the state
and the session table hold: a text takes its quotes and escapes (`textBytes`), a number its
digits (`digitCount`), an absent value four bytes, and a record the names of its fields.

A session costs what its last command and answer cost.  The table keeps the whole command and
the whole answer of every session, and an answer to a claim holds an objective; nothing of this
is bounded by the capacities of the Broker.

## Main results

* `BrokerState.length_snapshot` — the size of a Broker snapshot.
* `length_sessionTable` — the size of a session table.
-/

namespace AgentBroker

open List Json
open Json (textBytes digitCount arrayBytes objectBytes)

/-- What a Broker snapshot takes. -/
def BrokerState.snapshotBytes (state : BrokerState) : Nat :=
  objectBytes [
    ("groups", arrayBytes (state.groups.values.map ConsumerGroup.snapshotBytes)),
    ("namespaces", arrayBytes (state.namespaces.values.map Namespace.snapshotBytes)),
    ("revision", digitCount state.revision.get),
    ("schema_version", digitCount schemaVersion.get),
    ("tasks", arrayBytes (state.tasks.values.map Task.snapshotBytes)),
    ("term", digitCount state.term.get)]

/-- What a session takes: the texts and numbers of its id, its owner, its last command and the
answer to it. -/
def sessionBytes (entry : CommandSessionId × CommandSessionRecord) : Nat :=
  (encodeCommandSessionRecord entry).write.bytes

/-- What a session table takes. -/
def sessionTableBytes (sessions : OrdMap CommandSessionId CommandSessionRecord) : Nat :=
  objectBytes [
    ("version", digitCount consensusSnapshotVersion.toNat),
    ("records", arrayBytes (sessions.entries.map sessionBytes))]

/-- **The size of a Broker snapshot.** -/
theorem BrokerState.length_snapshot (state : BrokerState) :
    (encodeSnapshot SnapshotWire.serdeJson state.checkpoint).length = state.snapshotBytes := by
  change (checkpointToWire state.checkpoint).write.compact.length = state.snapshotBytes
  have hgroups := length_array_sortByKey GroupWire.groupId
    ConsumerGroup.length_snapshot state.groups.values
  have hnamespaces := length_array_sortByKey NamespaceWire.namespaceId
    Namespace.length_snapshot state.namespaces.values
  have htasks := length_array_sortByKey TaskWire.taskId
    Task.length_snapshot state.tasks.values
  rw [SnapshotWire.write, length_compact_fields (by simp only [List.map]; decide +kernel)]
  simp only [map_cons, map_nil, U64.length_write]
  rw [BrokerState.snapshotBytes, ← hgroups, ← hnamespaces, ← htasks]
  rfl

end AgentBroker
