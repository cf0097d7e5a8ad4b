import Confluence.Message
import Confluence.Ordered

namespace Confluence

inductive DecisionStatus
  | ready (decisions : List Decision)
  | replayed
  | buffered
  | duplicate
  deriving DecidableEq

/-- Decisions may arrive in any order and more than once and are handed out in slot order, each proposal
once: the number of consumed slots, the decisions that wait behind a gap, the proposals applied, and
the number of slots that repeated one of them. -/
structure DecisionLog where
  consumed : Nat
  waiting : OrderedMap UInt64 Decision
  applied : OrderedSet ProposalId
  replayed : Nat
  deriving DecidableEq

namespace DecisionLog

def empty : DecisionLog := ⟨0, .empty, .empty, 0⟩

/-- The slot that the log waits for. -/
def nextSlot (log : DecisionLog) : UInt64 := log.consumed.toUInt64

/-- Consumes the next slot: its decision is ready unless its proposal was applied before. -/
def consume (log : DecisionLog) (d : Decision) : List Decision × DecisionLog :=
  if log.applied.contains d.proposal.id then
    ([], { log with consumed := log.consumed + 1, replayed := log.replayed + 1 })
  else
    ([d], { log with consumed := log.consumed + 1, applied := log.applied.insert d.proposal.id })

/-- Consumes as many waiting decisions as fill the next slots without a gap. -/
def drain (log : DecisionLog) : List (UInt64 × Decision) → List Decision × DecisionLog
  | [] => ([], log)
  | (slot, d) :: rest =>
    if slot.toNat = log.consumed then
      let (ready, log) := ({ log with waiting := log.waiting.erase slot }).consume d
      let (more, log) := drain log rest
      (ready ++ more, log)
    else ([], log)

def accept (log : DecisionLog) (d : Decision) : DecisionStatus × DecisionLog :=
  if d.slot.toNat < log.consumed || log.waiting.contains d.slot then (.duplicate, log)
  else if log.consumed < d.slot.toNat then
    (.buffered, { log with waiting := log.waiting.insert d.slot d })
  else
    let (first, log) := log.consume d
    let (more, log) := log.drain log.waiting.entries
    match first ++ more with
    | [] => (.replayed, log)
    | ready => (.ready ready, log)

def isApplied (log : DecisionLog) (slot : UInt64) : Bool := slot.toNat < log.consumed

def isProposalApplied (log : DecisionLog) (id : ProposalId) : Bool := log.applied.contains id

end DecisionLog
end Confluence
