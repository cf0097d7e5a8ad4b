import Confluence.Fault
import Confluence.Lattice
import Confluence.Ordered

namespace Confluence

abbrev NodeId := String

/-- How one clock stands to another. -/
inductive CausalOrder
  | before
  | after
  | concurrent
  | equal
  deriving DecidableEq

/-- A counter for every node; nodes without an entry count zero, so clocks that differ in zero entries
alone agree, yet a zero entry that was once made stays visible. -/
structure VectorClock where
  entries : OrderedMap NodeId UInt64
  deriving DecidableEq

namespace VectorClock

def empty : VectorClock := ⟨.empty⟩

instance : Inhabited VectorClock := ⟨empty⟩

def ofList (entries : List (NodeId × UInt64)) : VectorClock := ⟨.ofList entries⟩

def nodes (c : VectorClock) : List NodeId := c.entries.keys

def get (c : VectorClock) (node : NodeId) : UInt64 := (c.entries.find? node).getD 0

/-- Counts one more event of a node. -/
def tick (c : VectorClock) (node : NodeId) : Except Fault VectorClock :=
  (checkedAdd (c.get node) 1).map fun count => ⟨c.entries.insert node count⟩

/-- Raises one entry to a counter, unless it is there already; the entry exists afterwards. -/
def advance (c : VectorClock) (node : NodeId) (count : UInt64) : VectorClock :=
  ⟨c.entries.modify node 0 fun current => if current ≤ count then count else current⟩

/-- Makes sure that a node has an entry. -/
def observe (c : VectorClock) (node : NodeId) : VectorClock := c.advance node 0

/-- The pointwise maximum, with an entry for every node of either clock. -/
def merge (a b : VectorClock) : VectorClock :=
  b.entries.entries.foldl (fun c e => c.advance e.1 e.2) a

/-- The pointwise minimum, without zero entries. -/
def minWith (a b : VectorClock) : VectorClock :=
  ⟨a.entries.filterMap fun node count =>
    let least := if count ≤ b.get node then count else b.get node
    if 0 < least then some least else none⟩

/-- Whether some entry of `a` is below that of `b`. -/
def hasBelow (a b : VectorClock) : Bool := b.nodes.any fun node => a.get node < b.get node

/-- The place of one clock relative to another in the pointwise order. -/
def relation (a b : VectorClock) : CausalOrder :=
  match a.hasBelow b, b.hasBelow a with
  | false, false => .equal
  | true, false => .before
  | false, true => .after
  | true, true => .concurrent

/-- Whether two clocks have the same counters, zero entries or not. -/
def agrees (a b : VectorClock) : Bool := a.relation b = .equal

def dominates (a b : VectorClock) : Bool := a.relation b = .after || a.relation b = .equal

def happenedBefore (a b : VectorClock) : Bool := a.relation b = .before

def isConcurrentWith (a b : VectorClock) : Bool := a.relation b = .concurrent

/-- Whether event number `sequence` of a node is covered. -/
def covers (c : VectorClock) (node : NodeId) (sequence : UInt64) : Bool := sequence ≤ c.get node

/-- The number of events covered, which has to be a counter too. -/
def totalEvents (c : VectorClock) : Except Fault UInt64 :=
  c.entries.values.foldlM checkedAdd 0

/-- The entries in braces, in the order of the nodes. -/
def describe (c : VectorClock) : String :=
  "\x7b" ++ ", ".intercalate (c.entries.entries.map fun e => e.1 ++ ": " ++ toString e.2) ++ "\x7d"

instance : JoinLattice VectorClock where
  bottom := empty
  join := merge
  agree := agrees

end VectorClock
end Confluence
