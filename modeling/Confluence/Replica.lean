import Confluence.Decomposition
import Confluence.History
import Confluence.Random
import Confluence.State
import Confluence.Uuid

namespace Confluence

/-- A supply of fresh identifiers: all that are to come, and how many have been drawn. -/
structure IdSupply where
  stream : Nat → Uuid
  drawn : Nat

namespace IdSupply

def ofStream (stream : Nat → Uuid) : IdSupply := ⟨stream, 0⟩

/-- Random identifiers, each from a block of its own under one key. -/
def ofSeed (seed : UInt64) : IdSupply :=
  let key := (Generator.ofSeed seed).key
  .ofStream fun k =>
    let words := (ChaCha.block key k.toUInt64).toList.take 4
    .version4 (.ofNat 128 (words.foldl (fun n w => n <<< 32 ||| w.toNat) 0))

def draw (s : IdSupply) : Uuid × IdSupply := (s.stream s.drawn, { s with drawn := s.drawn + 1 })

end IdSupply

inductive Delivery
  | merged (report : MergeReport)
  | duplicate
  deriving DecidableEq

/-- The state of a node, its clock, the updates it has applied and those it retains. -/
structure Replica where
  id : NodeId
  clock : VectorClock
  state : ReplicaState
  applied : OrderedSet UpdateId
  history : CausalHistory
  deriving DecidableEq

namespace Replica

def new (id : NodeId) : Replica := ⟨id, VectorClock.empty.observe id, .empty, .empty, .empty⟩

def hasApplied (r : Replica) (id : UpdateId) : Bool := r.applied.contains id

/-- Merges an update into the state and records it. -/
def absorb (r : Replica) (c : Classifier) (u : Update) : MergeReport × Replica :=
  let (state, report) := r.state.merge c .deduplicated u
  (report, { r with
    state
    applied := r.applied.insert u.id
    history := (r.history.insert u).2 })

/-- Commits the liftable part of a decomposition and gives the update to gossip. Without liftable
operations there is no update and the clock stands still. -/
def commit (r : Replica) (c : Classifier) (d : Decomposition) (ids : IdSupply) :
    Except Fault (Option Update × Replica × IdSupply) :=
  if d.liftable.isEmpty then .ok (none, r, ids)
  else do
    let clock ← r.clock.tick r.id
    let (id, ids) := ids.draw
    let u : Update := ⟨id, r.id, clock, d.liftable.map (·.operation)⟩
    pure (some u, ({ r with clock }.absorb c u).2, ids)

/-- Merges an update from elsewhere, unless it has been applied before. -/
def integrate (r : Replica) (c : Classifier) (u : Update) : Delivery × Replica :=
  if r.hasApplied u.id then (.duplicate, r)
  else
    let (report, r) := r.absorb c u
    (.merged report, { r with clock := r.clock.merge u.clock })

def applyDecided (r : Replica) (operations : List Operation) : Replica :=
  { r with state := r.state.applyDecided operations }

/-- Adds a zero clock entry for a node that joined. -/
def observeNode (r : Replica) (node : NodeId) : Replica := { r with clock := r.clock.observe node }

/-- Drops the retained updates that a frontier covers. Their ids stay known, so a late copy is
still recognised. -/
def prune (r : Replica) (stable : VectorClock) : Nat × Replica :=
  let (removed, history) := r.history.prune stable
  (removed, { r with history })

end Replica
end Confluence
