import Confluence.Json.Bytes
import Confluence.Main
import Confluence.Proofs.Cluster.Addressing
import Confluence.Proofs.Cluster.Application
import Confluence.Proofs.Cluster.CatchUp
import Confluence.Proofs.Cluster.Causality
import Confluence.Proofs.Cluster.Clock
import Confluence.Proofs.Cluster.Coherence
import Confluence.Proofs.Cluster.Collection
import Confluence.Proofs.Cluster.Ledger
import Confluence.Proofs.Cluster.Links
import Confluence.Proofs.Cluster.Moments
import Confluence.Proofs.Cluster.Outcome
import Confluence.Proofs.Cluster.Overflow
import Confluence.Proofs.Cluster.Pending
import Confluence.Proofs.Cluster.Policies
import Confluence.Proofs.Cluster.Quiescence
import Confluence.Proofs.Cluster.Reachability
import Confluence.Proofs.Cluster.Resolution
import Confluence.Proofs.Cluster.Unresolved
import Confluence.Proofs.Consensus.Agreement
import Confluence.Proofs.Consensus.Budget
import Confluence.Proofs.Consensus.Patience
import Confluence.Proofs.Consensus.Presentation
import Confluence.Proofs.Decomposition
import Confluence.Proofs.Escalation
import Confluence.Proofs.History.Ancestry
import Confluence.Proofs.History.Recording
import Confluence.Proofs.History.Tracking
import Confluence.Proofs.Json.Document
import Confluence.Proofs.Json.Number
import Confluence.Proofs.Json.Record
import Confluence.Proofs.Json.Token
import Confluence.Proofs.Lattice
import Confluence.Proofs.Network.Clock
import Confluence.Proofs.Network.Conservation
import Confluence.Proofs.Network.Order
import Confluence.Proofs.Node.Frontier
import Confluence.Proofs.Node.Hold
import Confluence.Proofs.Node.Listening
import Confluence.Proofs.Node.OwnCounter
import Confluence.Proofs.Node.Progress
import Confluence.Proofs.Node.Redelivery
import Confluence.Proofs.Node.Retention
import Confluence.Proofs.Node.Run
import Confluence.Proofs.Node.Submission
import Confluence.Proofs.Registration
import Confluence.Proofs.Replica.Bookkeeping
import Confluence.Proofs.Replica.Journal
import Confluence.Proofs.State.Absorption
import Confluence.Proofs.State.Delivery
import Confluence.Proofs.State.Digest
import Confluence.Proofs.Wire.Message
import Confluence.Proofs.Wire.Update
import Confluence.Proofs.Workload.Comparison
import Confluence.Proofs.Workload.Generate
import Confluence.Proofs.Workload.Run
import Confluence.Wire.Message
import Confluence.Wire.Outcome
import Confluence.Wire.State
