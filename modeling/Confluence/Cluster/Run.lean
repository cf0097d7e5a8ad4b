import Confluence.Cluster.Basic
import Confluence.Network.Delivery

namespace Confluence.Cluster

def catchUp (c : Cluster) : Except Fault Cluster :=
  if c.network.now < c.sequencer.now then
    (c.advance (c.sequencer.now - c.network.now)).map refreshLinks
  else .ok c

/-- Reports the outcome of a proposal to the node that made it, and broadcasts the decision if there
is one. Nothing happens if the node does not know the proposal. -/
def complete (c : Cluster) (q : QueuedProposal) (outcome : Except NodeError Decision) :
    Except Fault (Option CommitResult × Cluster) := do
  let n ← c.node q.origin
  match n.complete q.proposal.id outcome with
  | .error _ => pure (none, c)
  | .ok (result, n) =>
    let c := { c.setNode q.origin n with
      stats := c.stats.addResult result.isCommitted
      results := c.results.insert q.proposal.id result }
    match outcome with
    | .ok d => (c.broadcast q.origin (.decided d)).map (some result, ·)
    | .error _ => pure (some result, c)

def completeAll (c : Cluster) : List (QueuedProposal × Except NodeError Decision) →
    Except Fault (List (ProposalId × CommitResult) × Cluster)
  | [] => .ok ([], c)
  | (q, outcome) :: rest => do
    let (result, c) ← c.complete q outcome
    let (results, c) ← completeAll c rest
    pure (result.toList.map (q.proposal.id, ·) ++ results, c)

/-- Drives all queued proposals, and lets the network catch up. Gives each with its outcome. -/
def drive (c : Cluster) :
    Except Fault (List (QueuedProposal × Except NodeError Decision) × Cluster) := do
  let c := { c with sequencer := c.sequencer.syncTime c.network.now }.refreshLinks
  let batch := c.queued
  let (outcomes, sequencer) ← driveAll c.config.node.retry Sequencer.coordinator c.sequencer
    (batch.map (·.proposal))
  let c ← { c with sequencer, queued := [] }.catchUp
  pure (batch.zip outcomes, c)

/-- Drives all queued proposals and completes them at the nodes that made them. -/
def resolve (c : Cluster) : Except Fault (List (ProposalId × CommitResult) × Cluster) := do
  let (outcomes, c) ← c.drive
  c.completeAll outcomes

/-- Delivers the next message, if one can be delivered to a node. -/
def step (c : Cluster) : Except Fault (Option ReceiveOutcome × Cluster) := do
  match ← c.network.nextDelivery with
  | (none, network) => pure (none, { c with network })
  | (some e, network) =>
    let c := { c with network }.refreshLinks
    match c.indexOf? e.target with
    | none => pure (none, c)
    | some i =>
      let n ← c.node i
      let (outcome, n) := n.receive e.message
      pure (some outcome, c.setNode i n)

/-- Delivers up to `budget` messages and counts them and the duplicates among them. -/
def deliver (c : Cluster) (budget : Nat) (steps duplicates : Nat) :
    Except Fault (Nat × Nat × Cluster) :=
  match budget with
  | 0 => .ok (steps, duplicates, c)
  | budget + 1 => do
    match ← c.step with
    | (none, c) => pure (steps, duplicates, c)
    | (some outcome, c) =>
      c.deliver budget (steps + 1) (if outcome = .duplicate then duplicates + 1 else duplicates)

/-- Delivers messages until none can be delivered or the budget is spent. -/
def runUntilQuiescent (c : Cluster) : Except Fault (RunReport × Cluster) :=
  (c.deliver c.config.maxSteps 0 0).map fun (steps, duplicates, c) =>
    (⟨steps, duplicates, c.network.now, c.network.isQuiescent⟩, c)

/-- Resolves the queued proposals and runs. Deliveries queue no proposals, so nothing is queued
afterwards. -/
def settle (c : Cluster) : Except Fault (RunReport × Cluster) := do
  let (_, c) ← c.resolve
  c.runUntilQuiescent

/-- The updates retained by each of some nodes, with the name of the node. -/
def retained (nodes : List Node) : List (NodeId × Update) :=
  nodes.flatMap fun n => n.retainedUpdates.map (n.id, ·)

/-- Adds a node. It announces itself, and is sent the retained history of every other node and
every decision so far. -/
def addNode (c : Cluster) : Except Fault (Nat × Cluster) := do
  let index := c.nodes.length
  let id := nodeName index
  let n := makeNode id c.classifier c.config.node (c.nodes.map Node.id)
  let history := retained c.nodes
  let c ← { c with nodes := c.nodes ++ [n] }.broadcast index n.joinAnnouncement
  let c ← history.foldlM (fun c (source, u) => c.send source id (.update u)) c
  let c ← c.sequencer.log.foldlM (fun c d => c.send c.sequencer.leader id (.decided d)) c
  pure (index, c)

def antiEntropy (c : Cluster) : Except Fault Cluster :=
  c.nodes.zipIdx.foldlM (fun c (n, i) =>
    n.retainedUpdates.foldlM (fun c u => c.broadcast i (.update u)) c) c

def announceFrontiers (c : Cluster) : Except Fault Cluster :=
  c.nodes.zipIdx.foldlM (fun c (n, i) => c.broadcast i n.frontierAnnouncement) c

/-- Every node drops what is stable; tells how many updates were dropped in total. -/
def collectGarbage (c : Cluster) : Nat × Cluster :=
  let collected := c.nodes.map Node.collectGarbage
  (collected.foldl (fun n c => n + c.1) 0, { c with nodes := collected.map (·.2) })

end Confluence.Cluster
