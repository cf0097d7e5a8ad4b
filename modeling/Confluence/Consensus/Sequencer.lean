import Confluence.Consensus.Drive
import Confluence.Network.Basic

namespace Confluence

/-- One node leads and appends proposals to a single log; other nodes point to it, and a proposal from or
through a node that is cut off from it times out, which takes time. Beside the log stand the slots of
the proposals in it, the links to the leader that are not open, and the time in ticks. -/
structure Sequencer where
  leader : NodeId
  log : List Decision
  slots : OrderedMap ProposalId UInt64
  links : OrderedMap NodeId LinkState
  now : UInt64
  timeoutTicks : UInt64
  injectedTimeouts : UInt32
  attempts : Nat
  deriving DecidableEq

namespace Sequencer

def new (leader : NodeId) : Sequencer := ⟨leader, [], .empty, .empty, 0, 1, 0, 0⟩

def setLeader (s : Sequencer) (leader : NodeId) : Sequencer := { s with leader }

/-- Sets how long a timeout takes. -/
def setTimeoutTicks (s : Sequencer) (ticks : UInt64) : Sequencer := { s with timeoutTicks := ticks }

def setLinks (s : Sequencer) (links : List (NodeId × LinkState)) : Sequencer :=
  { s with links := .ofList (links.filter fun l => l.2 ≠ .opened) }

/-- Cuts exactly the given nodes off, until further notice. -/
def setUnreachable (s : Sequencer) (nodes : List NodeId) : Sequencer :=
  s.setLinks (nodes.map (·, .cut))

/-- Whether a node is cut off now. -/
def isCut (s : Sequencer) (node : NodeId) : Bool :=
  ((s.links.find? node).getD .opened).isCutAt s.now

def unreachable (s : Sequencer) : List NodeId := s.links.keys.filter s.isCut

/-- Moves the clock up to a tick, never back. -/
def syncTime (s : Sequencer) (now : UInt64) : Sequencer :=
  { s with now := if s.now ≤ now then now else s.now }

/-- Lets further attempts time out whatever the links. -/
def injectTimeouts (s : Sequencer) (count : UInt32) : Except Fault Sequencer :=
  if s.injectedTimeouts.toNat + count.toNat < UInt32.size then
    .ok { s with injectedTimeouts := s.injectedTimeouts + count }
  else .error .overflow

def timeOut (s : Sequencer) : Except Fault (ProposalOutcome × Sequencer) :=
  (checkedAdd s.now s.timeoutTicks).map fun now => (.timeout, { s with now })

/-- The entry of the log at the slot of a proposal. -/
def decision? (s : Sequencer) (id : ProposalId) : Option Decision :=
  (s.slots.find? id).bind fun slot => s.log[slot.toNat]?

/-- Appends a proposal to the log, whose length has to be a counter, and enters its slot. -/
def append (s : Sequencer) (p : Proposal) : Except Fault (Decision × Sequencer) :=
  if s.log.length + 1 < UInt64.size then
    let d : Decision := ⟨s.log.length.toUInt64, p⟩
    .ok (d, { s with log := s.log ++ [d], slots := s.slots.insert p.id d.slot })
  else .error .overflow

def propose (s : Sequencer) (via : NodeId) (p : Proposal) :
    Except Fault (ProposalOutcome × Sequencer) :=
  let s := { s with attempts := s.attempts + 1 }
  if 0 < s.injectedTimeouts then
    { s with injectedTimeouts := s.injectedTimeouts - 1 }.timeOut
  else if s.isCut p.origin || s.isCut via then s.timeOut
  else if via ≠ s.leader then .ok (.notLeader (some s.leader), s)
  else
    match s.decision? p.id with
    | some d => .ok (.decided d, s)
    | none => (s.append p).map fun (d, s) => (.decided d, s)

/-- The sequencer as a coordinator; its answers do not depend on the time of day. -/
def coordinator : Coordinator Sequencer := fun s _ via p => s.propose via p

end Sequencer
end Confluence
