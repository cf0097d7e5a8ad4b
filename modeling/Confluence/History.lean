import Confluence.Message
import Confluence.Ordered
import Confluence.VectorClock

namespace Confluence

/-- The updates of an origin are numbered from one: the largest number up to which all have arrived, and
the numbers that arrived ahead of a gap. -/
structure DeliveryFrontier where
  contiguous : VectorClock
  ahead : OrderedMap NodeId (OrderedSet UInt64)
  deriving DecidableEq

namespace DeliveryFrontier

def empty : DeliveryFrontier := ⟨.empty, .empty⟩

/-- Follows a run of consecutive numbers after `last` at the start of an increasing list: the end
of the run and what is left of the list. -/
def absorb (last : UInt64) : List UInt64 → UInt64 × List UInt64
  | [] => (last, [])
  | n :: rest => if n = last + 1 then absorb n rest else (last, n :: rest)

/-- The numbers of an origin that wait for a gap to be filled. -/
def waiting (f : DeliveryFrontier) (origin : NodeId) : OrderedSet UInt64 :=
  (f.ahead.find? origin).getD .empty

/-- Replaces the waiting numbers of an origin; an origin without any has no entry. -/
def setWaiting (f : DeliveryFrontier) (origin : NodeId) (numbers : OrderedSet UInt64) :
    DeliveryFrontier :=
  { f with
    ahead := if numbers.isEmpty then f.ahead.erase origin else f.ahead.insert origin numbers }

/-- Records the arrival of an update and tells whether it is new. -/
def record (f : DeliveryFrontier) (origin : NodeId) (sequence : UInt64) : Bool × DeliveryFrontier :=
  let current := f.contiguous.get origin
  if sequence ≤ current then (false, f)
  else if sequence = current + 1 then
    let (last, rest) := absorb sequence (f.waiting origin).toList
    (true, { f.setWaiting origin (.ofList rest) with contiguous := f.contiguous.advance origin last })
  else
    (!(f.waiting origin).contains sequence,
      f.setWaiting origin ((f.waiting origin).insert sequence))

def hasDelivered (f : DeliveryFrontier) (origin : NodeId) (sequence : UInt64) : Bool :=
  f.contiguous.covers origin sequence || (f.waiting origin).contains sequence

/-- The number of updates that arrived ahead of a gap. -/
def gapCount (f : DeliveryFrontier) : Nat :=
  f.ahead.values.foldl (fun n s => n + s.size) 0

/-- Whether two frontiers agree, zero entries of the clocks aside. -/
def agrees (f g : DeliveryFrontier) : Bool :=
  f.contiguous.agrees g.contiguous && f.ahead == g.ahead

end DeliveryFrontier

/-- The updates that have arrived and are not known to have arrived everywhere, the delivery frontier, and
how many updates were pruned. -/
structure CausalHistory where
  updates : OrderedMap UpdateId Update
  delivered : DeliveryFrontier
  pruned : Nat
  deriving DecidableEq

namespace CausalHistory

def empty : CausalHistory := ⟨.empty, .empty, 0⟩

def retained (h : CausalHistory) : List Update := h.updates.values

def contains (h : CausalHistory) (id : UpdateId) : Bool := h.updates.contains id

def get? (h : CausalHistory) (id : UpdateId) : Option Update := h.updates.find? id

/-- Records the arrival of an update and retains it unless its id is retained already. -/
def insert (h : CausalHistory) (u : Update) : Bool × CausalHistory :=
  let h := { h with delivered := (h.delivered.record u.origin u.sequence).2 }
  if h.contains u.id then (false, h) else (true, { h with updates := h.updates.insert u.id u })

/-- The retained updates that happened before no other. -/
def heads (h : CausalHistory) : List Update :=
  h.retained.filter fun u => !h.retained.any fun v => u.clock.happenedBefore v.clock

def predecessors (h : CausalHistory) (id : UpdateId) : List Update :=
  match h.get? id with
  | some u => h.retained.filter fun v => v.clock.happenedBefore u.clock
  | none => []

def concurrentWith (h : CausalHistory) (id : UpdateId) : List Update :=
  match h.get? id with
  | some u => h.retained.filter fun v => v.clock.isConcurrentWith u.clock
  | none => []

/-- The retained updates by the number of events they cover, then by id. What happened before
covers strictly fewer events, so it comes first. A single update is not counted. -/
def causalOrder (h : CausalHistory) : Except Fault (List Update) :=
  if h.retained.length ≤ 1 then .ok h.retained
  else do
    let counted ← h.retained.mapM fun u => u.clock.totalEvents.map (·, u)
    pure ((counted.mergeSort fun x y => x.1 ≤ y.1).map (·.2))

/-- Drops the updates that a frontier covers and tells how many there were. -/
def prune (h : CausalHistory) (stable : VectorClock) : Nat × CausalHistory :=
  let kept := h.updates.filter fun _ u => !stable.covers u.origin u.sequence
  let removed := h.updates.size - kept.size
  (removed, { h with updates := kept, pruned := h.pruned + removed })

end CausalHistory

inductive StabilityState
  | pending
  | partly (deliveredTo pendingFor : OrderedSet NodeId)
  | stable
  deriving DecidableEq

/-- The frontier of a node itself, those that its peers have announced, and their minimum: what every
tracked node has received is stable and need not be retained. -/
structure StabilityMonitor where
  node : NodeId
  localFrontier : VectorClock
  peers : OrderedMap NodeId VectorClock
  stableFrontier : VectorClock
  deriving DecidableEq

namespace StabilityMonitor

def new (node : NodeId) : StabilityMonitor := ⟨node, .empty, .empty, .empty⟩

/-- What every tracked node has received: the pointwise minimum of all frontiers. -/
def leastFrontier (m : StabilityMonitor) : VectorClock :=
  m.peers.values.foldl VectorClock.minWith m.localFrontier

def recompute (m : StabilityMonitor) : StabilityMonitor :=
  { m with stableFrontier := m.leastFrontier }

/-- Tracks a peer, from an empty frontier if it is unknown. The node itself is no peer. -/
def registerPeer (m : StabilityMonitor) (peer : NodeId) : StabilityMonitor :=
  if peer = m.node then m else recompute { m with peers := m.peers.modify peer .empty fun f => f }

def updateLocal (m : StabilityMonitor) (frontier : VectorClock) : StabilityMonitor :=
  recompute { m with localFrontier := frontier }

/-- Merges an announced frontier into what is known of a peer, so a late announcement takes
nothing back. -/
def updatePeer (m : StabilityMonitor) (peer : NodeId) (frontier : VectorClock) : StabilityMonitor :=
  if peer = m.node then m
  else recompute { m with peers := m.peers.modify peer .empty (·.merge frontier) }

def removePeer (m : StabilityMonitor) (peer : NodeId) : StabilityMonitor :=
  recompute { m with peers := m.peers.erase peer }

def peerFrontier? (m : StabilityMonitor) (peer : NodeId) : Option VectorClock := m.peers.find? peer

def isStable (m : StabilityMonitor) (origin : NodeId) (sequence : UInt64) : Bool :=
  m.stableFrontier.covers origin sequence

def frontiers (m : StabilityMonitor) : List (NodeId × VectorClock) :=
  (m.node, m.localFrontier) :: m.peers.entries

/-- How far update number `sequence` of an origin has spread. -/
def state (m : StabilityMonitor) (origin : NodeId) (sequence : UInt64) : StabilityState :=
  if m.isStable origin sequence then .stable
  else
    let (reached, missing) := m.frontiers.partition fun e => e.2.covers origin sequence
    if reached.isEmpty then .pending
    else .partly (.ofList (reached.map (·.1))) (.ofList (missing.map (·.1)))

end StabilityMonitor
end Confluence
