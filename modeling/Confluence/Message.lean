import Confluence.Operation
import Confluence.Uuid
import Confluence.VectorClock

namespace Confluence

abbrev UpdateId := Uuid

/-- The operations that a node committed at once, and its clock right after. Updates are the unit of
gossip, and nobody changes one afterwards. -/
structure Update where
  id : UpdateId
  origin : NodeId
  clock : VectorClock
  operations : List Operation
  deriving DecidableEq

/-- The number of the update among those of its origin, counted from one. -/
def Update.sequence (u : Update) : UInt64 := u.clock.get u.origin

abbrev ProposalId := Uuid

/-- The coordinated part of a transaction, with its origin's clock when it was made. -/
structure Proposal where
  id : ProposalId
  origin : NodeId
  operations : List Operation
  clock : VectorClock
  deriving DecidableEq

/-- A proposal at its place in the total order. -/
structure Decision where
  slot : UInt64
  proposal : Proposal
  deriving DecidableEq

inductive Message
  | update (u : Update)
  | decided (d : Decision)
  | join (node : NodeId)
  | frontier (node : NodeId) (delivered : VectorClock)
  deriving DecidableEq

def Message.kind : Message → String
  | .update _ => "update"
  | .decided _ => "decided"
  | .join _ => "join"
  | .frontier _ _ => "frontier"

end Confluence
