import Confluence.Wire.State
import Confluence.Workload.Run

namespace Confluence

/-- The bits of a floating-point number in hexadecimal. -/
def Json.ofFloat (x : Float) : Json := .string (String.ofList (Hex.digits 16 x.toBits.toNat))

def Json.ofList {α : Type} (f : α → Json) (l : List α) : Json := .array (l.map f)

def ClassifierError.name : ClassifierError → String
  | .inadmissible .. => "InadmissibleSignature"
  | .conflicting .. => "ConflictingRegistration"

def ClassifierError.toJson (e : ClassifierError) : Json :=
  .object [("error", .string e.name), ("message", .string e.message)]

def NodeError.name : NodeError → String
  | .unavailable .. => "Unavailable"
  | .unknownProposal .. => "UnknownProposal"
  | .classifier .. => "Classifier"
  | .encoding .. => "Encoding"

def NodeError.toJson (e : NodeError) : Json :=
  .object [("error", .string e.name), ("message", .string e.message)]

def MergeReport.toJson (r : MergeReport) : Json :=
  .object [("applied", .ofNat r.applied), ("deduplicated", .ofNat r.deduplicated),
    ("joined", .ofNat r.joined), ("redelivery", .bool r.isRedelivery),
    ("unexpected_generic", .ofNat r.unexpectedGeneric)]

def Escalation.toJson (e : Escalation) : Json :=
  .object [("index", .ofNat e.index), ("op", .string e.operation.describe),
    ("reason", e.reason.toJson)]

/-- An operation as it is shown, and its signature. -/
def ClassifiedOperation.summary (c : ClassifiedOperation) : Json :=
  .array [.string c.operation.describe, c.signature.toJson]

def Decomposition.fields (d : Decomposition) : List (String × Json) :=
  [("coordinated", Json.ofList ClassifiedOperation.summary d.coordinated),
    ("escalations", Json.ofList Escalation.toJson d.escalations),
    ("fraction", Json.ofFloat d.liftingFraction), ("fully_liftable", .bool d.isFullyLiftable),
    ("liftable", Json.ofList ClassifiedOperation.summary d.liftable), ("total", .ofNat d.total)]

def CommitResult.toJson : CommitResult → Json
  | .committed .localOnly => .object [("committed", .bool true), ("scope", .string "local")]
  | .committed (.withConsensus slot) =>
    .object [("committed", .bool true), ("scope", .string "consensus"),
      ("slot", .ofNat slot.toNat)]
  | .failed reason retainedLocal =>
    .object [("committed", .bool false), ("failed", reason.toJson),
      ("retained_local", Json.ofOption Uuid.toJson retainedLocal)]

def SubmitAck.toJson : SubmitAck → Json
  | .localAck => .string "local"
  | .pending proposal => .object [("pending", proposal.toJson)]

def Submission.acknowledgement (s : Submission) : Json := s.ack.toJson

def ReceiveOutcome.toJson : ReceiveOutcome → Json
  | .merged report => .object [("merged", report.toJson)]
  | .duplicate => .string "duplicate"
  | .decisionApplied count => .object [("decision_applied", .ofNat count)]
  | .decisionReplayed => .string "decision_replayed"
  | .decisionBuffered => .string "decision_buffered"
  | .decisionDuplicate => .string "decision_duplicate"
  | .peerJoined node => .object [("peer_joined", .string node)]
  | .frontierUpdated => .string "frontier_updated"

def StabilityState.toJson : StabilityState → Json
  | .pending => .string "pending"
  | .stable => .string "stable"
  | .partly deliveredTo pendingFor =>
    .object [("delivered_to", Json.ofStrings deliveredTo.toList),
      ("pending_for", Json.ofStrings pendingFor.toList)]

def LinkState.toJson : LinkState → Json
  | .opened => .string "open"
  | .cutUntil tick => .object [("until", .ofNat tick.toNat)]
  | .cut => .string "cut"

def NetworkStats.toJson (s : NetworkStats) : Json :=
  .object [("delivered", .ofNat s.delivered), ("duplicated", .ofNat s.duplicated),
    ("parked", .ofNat s.parked), ("reordered", .ofNat s.reordered), ("sent", .ofNat s.sent)]

def ClusterStats.toJson (s : ClusterStats) : Json :=
  .object [("committed", .ofNat s.committed), ("failed", .ofNat s.failed),
    ("fraction", Json.ofFloat s.liftingFraction), ("lifted", .ofNat s.lifted),
    ("operations", .ofNat s.operations), ("proposals", .ofNat s.proposals),
    ("transactions", .ofNat s.transactions)]

def Node.summary (n : Node) : Json :=
  .object [("clock", n.clock.toJson), ("digest", .string n.digest.short),
    ("next_slot", .ofNat n.decisions.nextSlot.toNat), ("pending", .ofNat n.pending.size),
    ("retained", .ofNat n.history.updates.size), ("stable", n.stability.stableFrontier.toJson)]

def idsToJson (updates : List Update) : Json := Json.ofList (fun u => u.id.toJson) updates

/-- A node in full, with its retained updates in causal order. -/
def Node.details (n : Node) : Except Fault Json := do
  let order ← n.history.causalOrder
  pure (.object [("buffered", .ofNat n.decisions.waiting.size),
    ("delivered", n.history.delivered.contiguous.toJson), ("digest", .string n.digest.hex),
    ("gaps", .ofNat n.history.delivered.gapCount), ("heads", idsToJson n.history.heads),
    ("order", idsToJson order), ("peers", Json.ofStrings n.stability.peers.keys),
    ("pruned", .ofNat n.history.pruned), ("replayed", .ofNat n.decisions.replayed),
    ("state", n.state.toJson), ("view", n.summary)])

def RunReport.toJson (r : RunReport) : Json :=
  .object [("duplicates", .ofNat r.duplicates), ("quiescent", .bool r.isQuiescent),
    ("steps", .ofNat r.steps), ("time", .ofNat r.time.toNat)]

def WorkloadStats.fields (s : WorkloadStats) : List (String × Json) :=
  [("collected", .ofNat s.collected), ("converged", .bool s.isConverged),
    ("deliveries", .ofNat s.deliveries), ("duplicates", .ofNat s.duplicates),
    ("failed", .ofNat s.failed), ("fraction", Json.ofFloat s.liftingFraction),
    ("nodes", .ofNat s.nodes), ("operations", .ofNat s.operations), ("policy", s.policy.toJson),
    ("proposals", .ofNat s.proposals), ("transactions", .ofNat s.transactions)]

end Confluence
