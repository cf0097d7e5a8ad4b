import Mathlib.Algebra.GroupWithZero.Nat
import Mathlib.Logic.Relation
import Confluence.Proofs.Cluster.Chronicle
import Confluence.Proofs.Consensus.Sequencer
import Confluence.Proofs.Network.Transit
import Confluence.Proofs.Node.Basic

namespace Confluence

/-- What has happened: all submissions, the changes of the states of nodes, with the positions of the
nodes, the number of updates dropped, and whether a node joined after some were. -/
structure Trace where
  submissions : List Submitted
  changes : List (Nat × Change)
  collected : Nat
  late : Prop

def Trace.empty : Trace := ⟨[], [], 0, False⟩

/-- Nodes, messages, and proposals: those that are queued, and those with an outcome that is still
to be reported. -/
structure World extends Trace where
  classifier : Classifier
  config : NodeConfig
  nodes : List Node
  transit : List (Envelope Message)
  log : List Decision
  queued : List QueuedProposal
  outcomes : List (QueuedProposal × Except NodeError Decision)
  results : OrderedMap ProposalId CommitResult
  stats : ClusterStats

/-- A node that knows no more than its name and its classifier. -/
structure Node.IsNew (n : Node) (id : NodeId) (classifier : Classifier) : Prop where
  id : n.id = id
  classifier : n.classifier = classifier
  pending : n.pending = .empty
  decisions : n.decisions = .empty
  state : n.state = .empty
  applied : n.replica.applied = .empty
  history : n.history = .empty

theorem Cluster.makeNode_isNew (id : NodeId) (classifier : Classifier) (config : NodeConfig)
    (peers : List NodeId) : (makeNode id classifier config peers).IsNew id classifier := by
  obtain ⟨hid, _, hclassifier, hpending, hdecisions, hstate, happlied, hhistory⟩ :=
    Node.foldl_registerPeer (.new id classifier config) peers
  exact ⟨hid, hclassifier, hpending, hdecisions, hstate, happlied, hhistory⟩

namespace World

def toOthers (w : World) (n : Node) (m : Message) : List (Envelope Message) :=
  ((w.nodes.map Node.id).filter (· ≠ n.id)).map (⟨n.id, ·, m⟩)

/-- A message that someone may send without anything new having happened. -/
def MaySend (w : World) (e : Envelope Message) : Prop :=
  (∃ n ∈ w.nodes, n.id = e.target) ∧
    match e.message with
    | .update u => ∃ n ∈ w.nodes, u ∈ n.retainedUpdates
    | .decided d => d ∈ w.log
    | .join x => ∃ n ∈ w.nodes, n.id = x
    | .frontier x f => ∃ n ∈ w.nodes, n.frontierAnnouncement = .frontier x f

/-- What is sent when an outcome is reported. -/
def report (w : World) (n : Node) : Except NodeError Decision → List (Envelope Message)
  | .ok d => w.toOthers n (.decided d)
  | .error _ => []

/-- What a node is sent when it joins, and what it sends. -/
def welcome (w : World) (leader : NodeId) (n : Node) : List (Envelope Message) :=
  w.toOthers n n.joinAnnouncement ++
    (Cluster.retained w.nodes).map (fun r => ⟨r.1, n.id, .update r.2⟩) ++
    w.log.map (fun d => ⟨leader, n.id, .decided d⟩)

def newcomer (w : World) : Node :=
  Cluster.makeNode (Cluster.nodeName w.nodes.length) w.classifier w.config (w.nodes.map Node.id)

/-- Every queued proposal has got a result, and the log has grown by the decisions among them. -/
structure Decides (w : World) (log : List Decision) (results : List (Except NodeError Decision)) :
    Prop where
  length : results.length = w.queued.length
  isLog : Decision.IsLog log
  grows : w.log <+: log
  decided : ∀ (i : Nat) (q : QueuedProposal) (d : Decision), w.queued[i]? = some q →
    results[i]? = some (.ok d) → d ∈ log ∧ d.proposal.id = q.proposal.id
  new : ∀ d ∈ log, d ∉ w.log → ∃ (i : Nat) (q : QueuedProposal), w.queued[i]? = some q ∧
    q.proposal = d.proposal ∧ results[i]? = some (.ok d)

theorem newcomer_isNew (w : World) :
    w.newcomer.IsNew (Cluster.nodeName w.nodes.length) w.classifier :=
  Cluster.makeNode_isNew ..

/-- The messages on their way are those in `new` and those in `old`. -/
def Carries (t new old : List (Envelope Message)) : Prop := ∀ e, e ∈ t ↔ e ∈ new ∨ e ∈ old

inductive Step : World → World → Prop
  | send {w : World} {new t : List (Envelope Message)} :
    (∀ e ∈ new, w.MaySend e) → Carries t new w.transit → Step w { w with transit := t }
  | discard {w : World} {e : Envelope Message} {t : List (Envelope Message)} :
    (∀ n ∈ w.nodes, n.id ≠ e.target) → Carries w.transit [e] t → Step w { w with transit := t }
  | deliver {w : World} {i : Nat} {n : Node} {e : Envelope Message}
      {t : List (Envelope Message)} :
    w.nodes[i]? = some n → n.id = e.target → Carries w.transit [e] t →
    Step w { w with
      nodes := w.nodes.set i (n.receive e.message).2
      transit := t
      changes := w.changes ++ (n.changes e.message).map (i, ·) }
  | submit {w : World} {i : Nat} {n n' : Node} {x : Transaction} {s : Submission}
      {ids ids' : IdSupply} {t : List (Envelope Message)} :
    w.nodes[i]? = some n → n.submit x ids = .ok (s, n', ids') →
    Carries t (s.update.toList.flatMap fun u => w.toOthers n (.update u)) w.transit →
    Step w { w with
      nodes := w.nodes.set i n'
      transit := t
      queued := w.queued ++ s.proposal.toList.map (⟨i, ·⟩)
      stats := w.stats.addSubmission x.length
        ((s.update.map fun u => u.operations.length).getD 0) s.proposal.isSome
      submissions := w.submissions ++ [⟨x, s⟩]
      changes := w.changes ++ (s.update.toList.map .merge).map (i, ·) }
  | decide {w : World} {log : List Decision} {results : List (Except NodeError Decision)} :
    w.outcomes = [] → w.Decides log results →
    Step w { w with log, queued := [], outcomes := w.queued.zip results }
  | complete {w : World} {q : QueuedProposal} {outcome : Except NodeError Decision}
      {rest : List (QueuedProposal × Except NodeError Decision)} {n n' : Node}
      {result : CommitResult} {t : List (Envelope Message)} :
    w.outcomes = (q, outcome) :: rest → w.nodes[q.origin]? = some n →
    n.complete q.proposal.id outcome = .ok (result, n') → Carries t (w.report n outcome) w.transit →
    Step w { w with
      nodes := w.nodes.set q.origin n'
      transit := t
      outcomes := rest
      results := w.results.insert q.proposal.id result
      stats := w.stats.addResult result.isCommitted
      changes := w.changes ++
        (outcome.toOption.toList.flatMap fun d => n.changes (.decided d)).map (q.origin, ·) }
  | ignore {w : World} {q : QueuedProposal} {outcome : Except NodeError Decision}
      {rest : List (QueuedProposal × Except NodeError Decision)} {n : Node} {e : NodeError} :
    w.outcomes = (q, outcome) :: rest → w.nodes[q.origin]? = some n →
    n.complete q.proposal.id outcome = .error e → Step w { w with outcomes := rest }
  | collect {w : World} :
    Step w { w with
      nodes := w.nodes.map fun n => n.collectGarbage.2
      collected := w.collected + (w.nodes.map fun n => n.collectGarbage.1).sum }
  | join {w : World} {leader : NodeId} {t : List (Envelope Message)} :
    Carries t (w.welcome leader w.newcomer) w.transit →
    Step w { w with
      nodes := w.nodes ++ [w.newcomer]
      transit := t
      late := w.late ∨ 0 < w.collected }

/-- Nothing has happened yet. -/
structure IsNew (w : World) : Prop where
  nodes : ∀ (i : Nat) (n : Node), w.nodes[i]? = some n → n.IsNew (Cluster.nodeName i) w.classifier
  transit : w.transit = []
  log : w.log = []
  queued : w.queued = []
  outcomes : w.outcomes = []
  submissions : w.submissions = []
  changes : w.changes = []
  results : w.results = .empty
  stats : w.stats = .empty

abbrev Steps : World → World → Prop := Relation.ReflTransGen Step

end World
end Confluence
