import Confluence.Classifier
import Confluence.Lattice
import Confluence.Message
import Confluence.Sha256
import Confluence.Text

namespace Confluence

/-- One component for every shape of payload, so operations of different shapes never touch the same
component, and the ids of the updates whose deltas the counter holds. -/
structure KeyState where
  counter : Option Int64
  maximum : Maximum
  members : Members
  register : Option String
  applied : OrderedSet UpdateId
  deriving DecidableEq

namespace KeyState

def empty : KeyState := ⟨none, .empty, .empty, none, .empty⟩

/-- The effect of a payload. Counters wrap around, maxima and sets join, a register is replaced. -/
def apply (s : KeyState) : Payload → KeyState
  | .delta amount => { s with counter := some (s.counter.getD 0 + amount) }
  | .maximum candidate => { s with maximum := s.maximum.join (.of candidate) }
  | .insert member => { s with members := s.members.insert member }
  | .assign value => { s with register := some value }

/-- Records that the key holds the deltas of an update. -/
def stamp (s : KeyState) (id : UpdateId) : KeyState := { s with applied := s.applied.insert id }

end KeyState

/-- Whether the operations of an update that a key has seen before are dropped. -/
inductive MergeMode
  | deduplicated
  | unchecked
  deriving DecidableEq

/-- How many operations joined, took effect once, were dropped as seen before, and were generic
although they came in an update. -/
structure MergeReport where
  applied : Nat
  joined : Nat
  deduplicated : Nat
  unexpectedGeneric : Nat
  deriving DecidableEq

namespace MergeReport

def empty : MergeReport := ⟨0, 0, 0, 0⟩

def add (a b : MergeReport) : MergeReport :=
  ⟨a.applied + b.applied, a.joined + b.joined, a.deduplicated + b.deduplicated,
    a.unexpectedGeneric + b.unexpectedGeneric⟩

/-- Whether the update had been seen before: something was dropped and nothing took effect. -/
def isRedelivery (r : MergeReport) : Bool := r.applied = 0 && 0 < r.deduplicated

end MergeReport

/-- The state of every key that an operation has addressed. -/
structure ReplicaState where
  keys : OrderedMap Key KeyState
  deriving DecidableEq

/-- A state in the course of merging one update: the report so far and the keys on which an
operation took effect. -/
structure MergeProgress where
  state : ReplicaState
  report : MergeReport
  counted : OrderedSet Key

namespace ReplicaState

def empty : ReplicaState := ⟨.empty⟩

instance : Inhabited ReplicaState := ⟨empty⟩

def get? (s : ReplicaState) (key : Key) : Option KeyState := s.keys.find? key

/-- The state of a key, which is empty as long as nothing has addressed it. -/
def get (s : ReplicaState) (key : Key) : KeyState := (s.get? key).getD .empty

def modify (s : ReplicaState) (key : Key) (f : KeyState → KeyState) : ReplicaState :=
  ⟨s.keys.modify key .empty f⟩

def apply (s : ReplicaState) (op : Operation) : ReplicaState := s.modify op.key (·.apply op.payload)

/-- The effect of the operations of a decision, in their order. -/
def applyDecided (s : ReplicaState) (operations : List Operation) : ReplicaState :=
  operations.foldl apply s

end ReplicaState

/-- Merges one operation of the update `id`. The key gets a state even if the operation is
dropped. -/
def MergeProgress.step (id : UpdateId) (mode : MergeMode) (p : MergeProgress)
    (c : ClassifiedOperation) : MergeProgress :=
  let op := c.operation
  if c.signature = .semilattice then
    { p with state := p.state.apply op, report := p.report.add ⟨0, 1, 0, 0⟩ }
  else
    let generic := if c.signature = .generic then 1 else 0
    if mode = .deduplicated ∧ (p.state.get op.key).applied.contains id then
      { p with state := p.state.modify op.key fun s => s, report := p.report.add ⟨0, 0, 1, generic⟩ }
    else
      { state := p.state.apply op
        report := p.report.add ⟨1, 0, 0, generic⟩
        counted := p.counted.insert op.key }

namespace ReplicaState

/-- Merges one update. All operations of an update on one key take effect, for the key is stamped
with the update's id after the last of them. -/
def merge (c : Classifier) (mode : MergeMode) (s : ReplicaState) (u : Update) :
    ReplicaState × MergeReport :=
  let p := (u.operations.map c.annotate).foldl (MergeProgress.step u.id mode) ⟨s, .empty, .empty⟩
  (p.counted.toList.foldl (fun s key => s.modify key (·.stamp u.id)) p.state, p.report)

def mergeAll (c : Classifier) (mode : MergeMode) (s : ReplicaState) (updates : List Update) :
    ReplicaState × MergeReport :=
  updates.foldl (fun (s, report) u =>
    let (s, more) := s.merge c mode u
    (s, report.add more)) (s, .empty)

end ReplicaState

/-- The hash of the layout of a state. -/
structure StateDigest where
  bytes : Vector UInt8 32
  deriving DecidableEq

namespace StateDigest

def hex (d : StateDigest) : String := Hex.ofBytes d.bytes.toList

/-- The first eight hexadecimal digits. -/
def short (d : StateDigest) : String := String.ofList (d.hex.toList.take 8)

def describe (d : StateDigest) : String := "StateDigest(" ++ d.short ++ "...)"

end StateDigest

namespace Layout

def word (n : UInt64) : List UInt8 := Sha256.bytesOfUInt64 n

def integer (n : Int64) : List UInt8 := word n.toUInt64

def length (n : Nat) : List UInt8 := word n.toUInt64

/-- A sequence of bytes after its length. -/
def bytes (bs : List UInt8) : List UInt8 := length bs.length ++ bs

def text (s : String) : List UInt8 := bytes s.toUTF8.toList

end Layout

/-- The bytes that stand for the state of a key: every field has its tag and every variable part its
length. -/
def KeyState.layout (s : KeyState) : List UInt8 :=
  (match s.counter with
    | some n => 1 :: Layout.integer n
    | none => []) ++
  (match s.maximum.value with
    | some n => 2 :: Layout.integer n
    | none => []) ++
  3 :: Layout.length s.members.size ++ s.members.toList.flatMap Layout.text ++
  (match s.register with
    | some value => 4 :: Layout.text value
    | none => []) ++
  5 :: Layout.length s.applied.size ++ s.applied.toList.flatMap fun id => Layout.bytes id.bytes

def ReplicaState.layout (s : ReplicaState) : List UInt8 :=
  Layout.length s.keys.size ++
    s.keys.entries.flatMap fun e => 0 :: Layout.text e.1 ++ e.2.layout

def ReplicaState.digest (s : ReplicaState) : StateDigest := ⟨Sha256.hash s.layout⟩

end Confluence
