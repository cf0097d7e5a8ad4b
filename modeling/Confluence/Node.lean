import Confluence.Consensus.DecisionLog
import Confluence.Consensus.Drive
import Confluence.Decomposition
import Confluence.History
import Confluence.Message
import Confluence.Replica
import Confluence.State

namespace Confluence

/-- How far conflicts spread, and the budget of coordinated work. -/
structure NodeConfig where
  escalation : EscalationPolicy
  retry : RetryConfig
  deriving BEq

def NodeConfig.default : NodeConfig := ⟨.keyWide, .default⟩

/-- A proposal that has not been resolved, its classified operations, and the update that the same
submission committed. -/
structure PendingProposal where
  proposal : Proposal
  classified : List ClassifiedOperation
  retainedLocal : Option UpdateId
  deriving DecidableEq

/-- A node talks to nobody itself: the update and the proposal of a submission are for its owner to pass
on, and the outcome of a proposal is for its owner to report. -/
structure Node where
  config : NodeConfig
  classifier : Classifier
  replica : Replica
  stability : StabilityMonitor
  pending : OrderedMap ProposalId PendingProposal
  decisions : DecisionLog

inductive CommitScope
  | localOnly
  | withConsensus (slot : UInt64)
  deriving DecidableEq

/-- The final outcome of a transaction. After a failure the lifted part stays committed. -/
inductive CommitResult
  | committed (scope : CommitScope)
  | failed (reason : NodeError) (retainedLocal : Option UpdateId)
  deriving DecidableEq

def CommitResult.isCommitted : CommitResult → Bool
  | .committed _ => true
  | .failed _ _ => false

/-- What a submission did: the split of the transaction, the update to gossip and the proposal to
drive. -/
structure Submission where
  decomposition : Decomposition
  update : Option Update
  proposal : Option Proposal

/-- What is known of a transaction right after its submission: all of it is committed, or the rest
waits for the outcome of a proposal. -/
inductive SubmitAck
  | localAck
  | pending (proposal : ProposalId)
  deriving DecidableEq

def Submission.ack (s : Submission) : SubmitAck :=
  match s.proposal with
  | none => .localAck
  | some p => .pending p.id

/-- The final result, if nothing has to be coordinated. -/
def Submission.localResult (s : Submission) : Option CommitResult :=
  match s.ack with
  | .localAck => some (.committed .localOnly)
  | .pending _ => none

inductive ReceiveOutcome
  | merged (report : MergeReport)
  | duplicate
  | decisionApplied (count : Nat)
  | decisionReplayed
  | decisionBuffered
  | decisionDuplicate
  | peerJoined (node : NodeId)
  | frontierUpdated
  deriving DecidableEq

namespace Node

def new (id : NodeId) (classifier : Classifier) (config : NodeConfig) : Node :=
  ⟨config, classifier, .new id, .new id, .empty, .empty⟩

def id (n : Node) : NodeId := n.replica.id

def clock (n : Node) : VectorClock := n.replica.clock

def state (n : Node) : ReplicaState := n.replica.state

def digest (n : Node) : StateDigest := n.state.digest

def history (n : Node) : CausalHistory := n.replica.history

/-- Tracks a peer, and makes an entry for it in the clock. -/
def registerPeer (n : Node) (peer : NodeId) : Node :=
  { n with
    replica := n.replica.observeNode peer
    stability := n.stability.registerPeer peer }

/-- The operations of all unresolved proposals, by proposal. -/
def pendingIndex (n : Node) : PendingIndex :=
  n.pending.entries.foldl (fun index e => index.add e.1 e.2.classified) .empty

def decompose (n : Node) (transaction : Transaction) : Decomposition :=
  n.classifier.decompose n.config.escalation n.pendingIndex transaction

/-- Takes the delivery frontier of the history over into the stability monitor. -/
def refreshFrontier (n : Node) : Node :=
  { n with stability := n.stability.updateLocal n.history.delivered.contiguous }

/-- Commits the liftable part of a decomposition. -/
def commitLocal (n : Node) (d : Decomposition) (ids : IdSupply) :
    Except Fault (Option Update × Node × IdSupply) :=
  (n.replica.commit n.classifier d ids).map fun (u, replica, ids) =>
    let n := { n with replica }
    (u, if u.isSome then n.refreshFrontier else n, ids)

def propose (n : Node) (d : Decomposition) (u : Option Update) (ids : IdSupply) :
    Option Proposal × Node × IdSupply :=
  if d.coordinated.isEmpty then (none, n, ids)
  else
    let (id, ids) := ids.draw
    let p : Proposal := ⟨id, n.id, d.coordinated.map (·.operation), n.clock⟩
    let entry : PendingProposal := ⟨p, d.coordinated, u.map (·.id)⟩
    (some p, { n with pending := n.pending.insert id entry }, ids)

/-- Commits the liftable part of a transaction and proposes the rest. -/
def submit (n : Node) (transaction : Transaction) (ids : IdSupply) :
    Except Fault (Submission × Node × IdSupply) := do
  let d := n.decompose transaction
  let (u, n, ids) ← n.commitLocal d ids
  let (p, n, ids) := n.propose d u ids
  pure (⟨d, u, p⟩, n, ids)

/-- Hands a decision to the log and applies the decisions that become ready. -/
def acceptDecision (n : Node) (d : Decision) : DecisionStatus × Node :=
  let (status, decisions) := n.decisions.accept d
  let n := { n with decisions }
  match status with
  | .ready ready =>
    (status, { n with
      replica := ready.foldl (fun r d => r.applyDecided d.proposal.operations) n.replica })
  | _ => (status, n)

def receive (n : Node) : Message → ReceiveOutcome × Node
  | .update u =>
    let (delivery, replica) := n.replica.integrate n.classifier u
    let n := { n with replica, stability := n.stability.registerPeer u.origin }
    match delivery with
    | .merged report => (.merged report, n.refreshFrontier)
    | .duplicate => (.duplicate, n)
  | .decided d =>
    let (status, n) := n.acceptDecision d
    match status with
    | .ready ready => (.decisionApplied ready.length, n)
    | .replayed => (.decisionReplayed, n)
    | .buffered => (.decisionBuffered, n)
    | .duplicate => (.decisionDuplicate, n)
  | .join node => (.peerJoined node, n.registerPeer node)
  | .frontier node delivered =>
    (.frontierUpdated, { n with
      replica := n.replica.observeNode node
      stability := n.stability.updatePeer node delivered })

/-- Reports the outcome of a proposal. A decision is applied once its slot is reached. -/
def complete (n : Node) (id : ProposalId) (outcome : Except NodeError Decision) :
    Except NodeError (CommitResult × Node) :=
  match n.pending.find? id with
  | none => .error (.unknownProposal id)
  | some p =>
    let n := { n with pending := n.pending.erase id }
    match outcome with
    | .ok d => .ok (.committed (.withConsensus d.slot), (n.acceptDecision d).2)
    | .error reason => .ok (.failed reason p.retainedLocal, n)

def joinAnnouncement (n : Node) : Message := .join n.id

def frontierAnnouncement (n : Node) : Message := .frontier n.id n.history.delivered.contiguous

/-- The updates still retained, to be sent again. -/
def retainedUpdates (n : Node) : List Update := n.history.retained

/-- Drops the retained updates that are stable and tells how many there were. -/
def collectGarbage (n : Node) : Nat × Node :=
  let (removed, replica) := n.replica.prune n.stability.stableFrontier
  (removed, { n with replica })

end Node
end Confluence
