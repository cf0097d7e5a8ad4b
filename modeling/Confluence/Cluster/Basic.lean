import Confluence.Consensus.Sequencer
import Confluence.Decomposition
import Confluence.Network.Basic
import Confluence.Node

namespace Confluence

/-- How many nodes there are, the faults of the network between them, the configuration of all
nodes, the most deliveries of one run, and the ticks that a timed-out attempt takes. -/
structure ClusterConfig where
  nodes : Nat
  seed : UInt64
  network : NetworkConfig
  node : NodeConfig
  maxSteps : Nat
  timeoutTicks : UInt64

def ClusterConfig.default : ClusterConfig := ⟨3, 42, .reliable, .default, 100000, 1⟩

structure ClusterStats where
  transactions : Nat
  operations : Nat
  lifted : Nat
  proposals : Nat
  committed : Nat
  failed : Nat
  deriving DecidableEq

namespace ClusterStats

def empty : ClusterStats := ⟨0, 0, 0, 0, 0, 0⟩

/-- The part of all operations that committed without agreement. -/
def liftingFraction (s : ClusterStats) : Float := fraction s.lifted s.operations

def addSubmission (s : ClusterStats) (operations lifted : Nat) (proposed : Bool) : ClusterStats :=
  { s with
    transactions := s.transactions + 1
    operations := s.operations + operations
    lifted := s.lifted + lifted
    proposals := s.proposals + if proposed then 1 else 0 }

def addResult (s : ClusterStats) (isCommitted : Bool) : ClusterStats :=
  if isCommitted then { s with committed := s.committed + 1 } else { s with failed := s.failed + 1 }

end ClusterStats

/-- How many messages a run delivered and how many of them were duplicates, when it stopped, and
whether nothing was left on its way. -/
structure RunReport where
  steps : Nat
  duplicates : Nat
  time : UInt64
  isQuiescent : Bool
  deriving DecidableEq

/-- A proposal that has not been driven yet, and the position of the node that made it. -/
structure QueuedProposal where
  origin : Nat
  proposal : Proposal
  deriving DecidableEq

/-- The nodes, the network between them, the sequencer, the proposals to be driven and the results
of those that were, and the identifiers still to be drawn. -/
structure Cluster where
  config : ClusterConfig
  classifier : Classifier
  nodes : List Node
  network : Network Message
  sequencer : Sequencer
  queued : List QueuedProposal
  results : OrderedMap ProposalId CommitResult
  stats : ClusterStats
  ids : IdSupply

namespace Cluster

def nodeName (index : Nat) : NodeId := "node-" ++ toString index

def makeNode (id : NodeId) (classifier : Classifier) (config : NodeConfig) (peers : List NodeId) :
    Node :=
  peers.foldl Node.registerPeer (.new id classifier config)

/-- A cluster of at least one node, in which everyone tracks everyone else. The first node leads. -/
def new (config : ClusterConfig) (classifier : Classifier) (ids : IdSupply) : Cluster :=
  let names := (List.range (max config.nodes 1)).map nodeName
  { config
    classifier
    nodes := names.map fun id => makeNode id classifier config.node (names.filter (· ≠ id))
    network := .new config.network config.seed
    sequencer := { Sequencer.new (nodeName 0) with timeoutTicks := config.timeoutTicks }
    queued := []
    results := .empty
    stats := .empty
    ids }

def size (c : Cluster) : Nat := c.nodes.length

def node (c : Cluster) (index : Nat) : Except Fault Node :=
  match c.nodes[index]? with
  | some n => .ok n
  | none => .error (.noSuchIndex c.nodes.length index)

def indexOf? (c : Cluster) (id : NodeId) : Option Nat := c.nodes.findIdx? fun n => n.id = id

def setNode (c : Cluster) (index : Nat) (n : Node) : Cluster :=
  { c with nodes := c.nodes.set index n }

def result? (c : Cluster) (id : ProposalId) : Option CommitResult := c.results.find? id

/-- Tells the sequencer how the links of all nodes to its leader are. -/
def refreshLinks (c : Cluster) : Cluster :=
  let links := c.nodes.map fun n => (n.id, c.network.linkState n.id c.sequencer.leader)
  { c with sequencer := c.sequencer.setLinks links }

def send (c : Cluster) (source target : NodeId) (m : Message) : Except Fault Cluster :=
  (c.network.send source target m).map fun network => { c with network }

def broadcast (c : Cluster) (source : Nat) (m : Message) : Except Fault Cluster := do
  let sender ← c.node source
  let others := (c.nodes.map Node.id).filter (· ≠ sender.id)
  others.foldlM (fun c target => c.send sender.id target m) c

/-- Submits a transaction to the node at a position: its update is gossiped and its proposal
queued. -/
def submit (c : Cluster) (index : Nat) (transaction : Transaction) :
    Except Fault (Submission × Cluster) := do
  let n ← c.node index
  let (s, n, ids) ← n.submit transaction c.ids
  let lifted := (s.update.map fun u => u.operations.length).getD 0
  let stats := c.stats.addSubmission transaction.length lifted s.proposal.isSome
  let c := { c.setNode index n with ids, stats }
  let c ← match s.update with
    | some u => c.broadcast index (.update u)
    | none => .ok c
  let queued := s.proposal.toList.map (⟨index, ·⟩)
  pure (s, { c with queued := c.queued ++ queued })

/-- Cuts the nodes at some positions off from all others, for a number of ticks or for good. -/
def cutOff (c : Cluster) (indices : List Nat) (duration : Option UInt64) : Except Fault Cluster := do
  let side ← indices.mapM fun i => (c.node i).map Node.id
  let network ← c.network.cutOff side duration
  pure { c with network }.refreshLinks

def heal (c : Cluster) : Except Fault Cluster :=
  c.network.healAll.map fun network => { c with network }.refreshLinks

def setLinkDelay (c : Cluster) (source target : NodeId) (delay : UInt64) : Cluster :=
  { c with network := c.network.setLinkDelay source target delay }

/-- Lets time pass in the network; the sequencer does not notice until the next event. -/
def advance (c : Cluster) (ticks : UInt64) : Except Fault Cluster :=
  (c.network.advance ticks).map fun network => { c with network }

def setLeader (c : Cluster) (leader : NodeId) : Cluster :=
  { c with sequencer := c.sequencer.setLeader leader }

def injectTimeouts (c : Cluster) (count : UInt32) : Except Fault Cluster :=
  (c.sequencer.injectTimeouts count).map fun sequencer => { c with sequencer }

def digests (c : Cluster) : List (NodeId × StateDigest) := c.nodes.map fun n => (n.id, n.digest)

/-- Whether all nodes have states of one digest and have consumed the same slots. -/
def isConverged (c : Cluster) : Bool :=
  match c.nodes with
  | [] => true
  | first :: rest =>
    let digest := first.digest
    rest.all fun n => n.digest = digest && n.decisions.nextSlot = first.decisions.nextSlot

/-- Faults with a line for every node unless the cluster has converged. -/
def assertConverged (c : Cluster) : Except Fault Unit :=
  if c.isConverged then .ok ()
  else .error (.diverged (c.nodes.map fun n =>
    ⟨n.id, n.digest.short, n.decisions.nextSlot, n.history.updates.size⟩))

end Cluster
end Confluence
