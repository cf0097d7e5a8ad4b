import Confluence.Cluster.Run
import Confluence.Network.Basic
import Confluence.Operation
import Confluence.Random

namespace Confluence

/-- How much is submitted, how often operations are overwrites, how many keys they are drawn from,
and after how many submissions the cluster settles. -/
structure WorkloadConfig where
  nodes : Nat
  transactions : Nat
  maxOperations : Nat
  genericRate : Float
  keys : Nat
  batch : Nat
  seed : UInt64
  network : NetworkConfig

def WorkloadConfig.default : WorkloadConfig := ⟨5, 500, 4, 0.1, 16, 20, 7, .chaotic⟩

end Confluence

namespace Confluence.Workload

def drawMany {α : Type} (draw : Generator → α × Generator) : Nat → Generator → List α × Generator
  | 0, g => ([], g)
  | count + 1, g =>
    let (x, g) := draw g
    let (rest, g) := drawMany draw count g
    (x :: rest, g)

/-- Draws an operation. All algebraic operations on a key have one shape, so only overwrites are in
conflict with them. -/
def drawOperation (w : WorkloadConfig) (g : Generator) : Operation × Generator :=
  let (index, g) := g.below64 (max w.keys 1)
  let key := "k" ++ toString index
  let (u, g) := g.unit
  if u < w.genericRate then
    let (n, g) := g.below32 100
    (.overwrite key ("v" ++ toString n), g)
  else if index % 3 = 0 then
    let (n, g) := g.below64 11
    (.increment key (Int64.ofInt (n - 5)), g)
  else if index % 3 = 1 then
    let (n, g) := g.below32 8
    (.insert key ("m" ++ toString n), g)
  else
    let (n, g) := g.below64 1000
    (.maximum key (Int64.ofNat n), g)

def drawTransaction (w : WorkloadConfig) (g : Generator) : Transaction × Generator :=
  let (n, g) := g.below64 (max w.maxOperations 1)
  drawMany (drawOperation w) (n + 1) g

def drawSubmission (w : WorkloadConfig) (g : Generator) : (Nat × Transaction) × Generator :=
  let (origin, g) := g.below64 (max w.nodes 1)
  let (transaction, g) := drawTransaction w g
  ((origin, transaction), g)

def submissions (w : WorkloadConfig) : List (Nat × Transaction) :=
  (drawMany (drawSubmission w) w.transactions (.ofSeed w.seed)).1

end Confluence.Workload

namespace Confluence

structure WorkloadStats where
  policy : EscalationPolicy
  nodes : Nat
  transactions : Nat
  operations : Nat
  liftingFraction : Float
  proposals : Nat
  failed : Nat
  deliveries : Nat
  duplicates : Nat
  collected : Nat
  isConverged : Bool

namespace Workload

/-- The retry budget of a workload has short pauses. -/
def retry : RetryConfig :=
  { RetryConfig.default with initialBackoff := .ofMillis 1, maxBackoff := .ofMillis 20 }

def clusterConfig (w : WorkloadConfig) (policy : EscalationPolicy) : ClusterConfig :=
  { ClusterConfig.default with
    nodes := w.nodes
    seed := w.seed
    network := w.network
    node := ⟨policy, retry⟩ }

/-- Makes one submission, and lets the cluster settle if it ends a batch; `done` counts the
submissions before it. Gives the number of duplicates that arrived. -/
def submit (batch : Nat) (c : Cluster) (origin : Nat) (transaction : Transaction) (done : Nat) :
    Except Fault (Nat × Cluster) := do
  let (_, c) ← c.submit origin transaction
  if (done + 1) % max batch 1 = 0 then
    let (report, c) ← c.settle
    pure (report.duplicates, c)
  else pure (0, c)

def submitAll (batch : Nat) (c : Cluster) (submissions : List (Nat × Transaction)) :
    Except Fault (Nat × Cluster) :=
  submissions.zipIdx.foldlM (fun (duplicates, c) ((origin, transaction), done) =>
    (submit batch c origin transaction done).map fun (more, c) => (duplicates + more, c)) (0, c)

def run (w : WorkloadConfig) (policy : EscalationPolicy) (ids : IdSupply) :
    Except Fault (WorkloadStats × IdSupply) := do
  let c := Cluster.new (clusterConfig w policy) .standard ids
  let (duplicates, c) ← submitAll w.batch c (submissions w)
  let (report, c) ← c.settle
  let c ← c.announceFrontiers
  let (_, c) ← c.runUntilQuiescent
  let (collected, c) := c.collectGarbage
  let stats : WorkloadStats :=
    { policy
      nodes := c.size
      transactions := c.stats.transactions
      operations := c.stats.operations
      liftingFraction := c.stats.liftingFraction
      proposals := c.stats.proposals
      failed := c.stats.failed
      deliveries := c.network.stats.delivered
      duplicates := duplicates + report.duplicates
      collected
      isConverged := c.isConverged }
  pure (stats, c.ids)

end Workload
end Confluence
