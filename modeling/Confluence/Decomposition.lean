import Confluence.Classifier
import Confluence.Message

namespace Confluence

/-- How far a conflict spreads over the operations on a key. -/
inductive EscalationPolicy
  /-- A generic operation on a key, in the transaction or pending, coordinates all others. -/
  | keyWide
  /-- A generic operation is coordinated alone; algebraic ones only if their signatures differ. -/
  | conflictingPairs
  deriving DecidableEq

inductive EscalationReason
  | generic
  | mixedSignatures (other : Signature)
  | pendingGeneric (proposal : ProposalId)
  | pendingConflict (proposal : ProposalId) (other : Signature)
  deriving DecidableEq

structure PendingEntry where
  proposal : ProposalId
  key : Key
  signature : Signature
  deriving DecidableEq

/-- The operations of unresolved proposals, in the order in which they were added. -/
structure PendingIndex where
  entries : List PendingEntry
  deriving DecidableEq

namespace PendingIndex

def empty : PendingIndex := ⟨[]⟩

def add (index : PendingIndex) (proposal : ProposalId) (operations : List ClassifiedOperation) :
    PendingIndex :=
  ⟨index.entries ++ operations.map fun c => ⟨proposal, c.key, c.signature⟩⟩

def onKey (index : PendingIndex) (key : Key) : List PendingEntry :=
  index.entries.filter fun e => e.key = key

def isEmpty (index : PendingIndex) : Bool := index.entries.isEmpty

end PendingIndex

/-- The way of one operation: coordinated for a reason, or lifted for want of one. -/
structure Route where
  operation : ClassifiedOperation
  reason : Option EscalationReason
  deriving DecidableEq

/-- A coordinated operation, its position in the transaction and the reason. -/
structure Escalation where
  index : Nat
  operation : Operation
  reason : EscalationReason
  deriving DecidableEq

/-- Every operation of a transaction goes one of two ways: it is lifted, and commits at once, or it is
coordinated, and waits for agreement. -/
structure Decomposition where
  routes : List Route
  deriving DecidableEq

namespace Decomposition

def liftable (d : Decomposition) : List ClassifiedOperation :=
  (d.routes.filter fun r => r.reason.isNone).map (·.operation)

def coordinated (d : Decomposition) : List ClassifiedOperation :=
  (d.routes.filter fun r => r.reason.isSome).map (·.operation)

def escalations (d : Decomposition) : List Escalation :=
  d.routes.zipIdx.filterMap fun (r, i) => r.reason.map (⟨i, r.operation.operation, ·⟩)

def total (d : Decomposition) : Nat := d.routes.length

def isFullyLiftable (d : Decomposition) : Bool := d.coordinated.isEmpty

end Decomposition

/-- The part of a whole that a count is; all of it if there is none. -/
def fraction (part whole : Nat) : Float := if whole = 0 then 1 else part.toFloat / whole.toFloat

def Decomposition.liftingFraction (d : Decomposition) : Float := fraction d.liftable.length d.total

/-- The first pending algebraic operation that need not commute with a signature. -/
def pendingConflict? (s : Signature) (pending : List PendingEntry) : Option EscalationReason :=
  (pending.find? fun e => e.signature.isLiftable && !s.commutesWith e.signature).map fun e =>
    .pendingConflict e.proposal e.signature

/-- Why an operation has to be coordinated, given the signatures of all operations of the
transaction on its key and the pending operations on that key. -/
def EscalationPolicy.reason? (policy : EscalationPolicy) (s : Signature) (together : List Signature)
    (pending : List PendingEntry) : Option EscalationReason :=
  if s = .generic then some .generic
  else
    match policy with
    | .keyWide =>
      ((pending.find? fun e => e.signature = .generic).map fun e => .pendingGeneric e.proposal)
        <|> ((together.find? fun other => !s.commutesWith other).map .mixedSignatures)
        <|> pendingConflict? s pending
    | .conflictingPairs =>
      ((together.find? fun other => other.isLiftable && !s.commutesWith other).map .mixedSignatures)
        <|> pendingConflict? s pending

def Classifier.decompose (c : Classifier) (policy : EscalationPolicy) (pending : PendingIndex)
    (transaction : Transaction) : Decomposition :=
  let classified := transaction.map c.annotate
  ⟨classified.map fun op =>
    let together := (classified.filter fun other => other.key = op.key).map (·.signature)
    ⟨op, policy.reason? op.signature together (pending.onKey op.key)⟩⟩

end Confluence
