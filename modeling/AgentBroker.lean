import AgentBroker.Domain.ClaimOrder
import AgentBroker.Consensus.TermSync
import AgentBroker.Consensus.Standalone
import AgentBroker.Domain.Finality
import AgentBroker.Storage.JournalTransaction
import AgentBroker.Protocol.Spellings
import AgentBroker.Client.Sendable
import AgentBroker.Runtime.Maintenance
import AgentBroker.Runtime.Operations
import AgentBroker.Consensus.ObservationRace
import AgentBroker.Runtime.LineReaders
import AgentBroker.Storage.CheckpointAdmission
import AgentBroker.Consensus.SnapshotTransfer
import AgentBroker.Consensus.RaftLogStorage
import AgentBroker.Consensus.ReplicaAgreement
import AgentBroker.Client.OwnershipView
import AgentBroker.Client.RejectedOutcome
import AgentBroker.Protocol.RetryMatching
