import Confluence.Cluster.Run
import Confluence.Proofs.Node.Past

namespace Confluence

namespace Cluster

inductive Command
  | submit (index : Nat) (transaction : Transaction)
  | step
  | run
  | resolve
  | settle
  | cutOff (indices : List Nat) (duration : Option UInt64)
  | heal
  | advance (ticks : UInt64)
  | setLinkDelay (source target : NodeId) (delay : UInt64)
  | antiEntropy
  | announceFrontiers
  | collectGarbage
  | setLeader (leader : NodeId)
  | injectTimeouts (count : UInt32)
  | addNode
  deriving DecidableEq

inductive Reply
  | submitted (s : Submission)
  | delivered (outcome : Option ReceiveOutcome)
  | ran (report : RunReport)
  | resolved (results : List (ProposalId × CommitResult))
  | collected (count : Nat)
  | joined (index : Nat)
  | done

def Command.perform (c : Cluster) : Command → Except Fault (Reply × Cluster)
  | submit i t => (c.submit i t).map fun (s, c) => (.submitted s, c)
  | step => c.step.map fun (outcome, c) => (.delivered outcome, c)
  | run => c.runUntilQuiescent.map fun (report, c) => (.ran report, c)
  | resolve => c.resolve.map fun (results, c) => (.resolved results, c)
  | settle => c.settle.map fun (report, c) => (.ran report, c)
  | cutOff indices duration => (c.cutOff indices duration).map (.done, ·)
  | heal => c.heal.map (.done, ·)
  | advance ticks => (c.advance ticks).map (.done, ·)
  | setLinkDelay source target delay => .ok (.done, c.setLinkDelay source target delay)
  | antiEntropy => c.antiEntropy.map (.done, ·)
  | announceFrontiers => c.announceFrontiers.map (.done, ·)
  | collectGarbage => .ok (.collected c.collectGarbage.1, c.collectGarbage.2)
  | setLeader leader => .ok (.done, c.setLeader leader)
  | injectTimeouts count => (c.injectTimeouts count).map (.done, ·)
  | addNode => c.addNode.map fun (index, c) => (.joined index, c)

/-- The changes that a message makes to the node at a position, with the position. -/
def changesAt (c : Cluster) (index : Nat) (m : Message) : List (Nat × Change) :=
  (c.nodes[index]?.toList.flatMap (·.changes m)).map (index, ·)

def stepChanges (c : Cluster) : List (Nat × Change) :=
  match c.network.nextDelivery with
  | .ok (some e, _) =>
    match c.indexOf? e.target with
    | some i => c.changesAt i e.message
    | none => []
  | _ => []

def deliveryChanges (c : Cluster) : Nat → List (Nat × Change)
  | 0 => []
  | budget + 1 =>
    c.stepChanges ++
      match c.step with
      | .ok (some _, c') => c'.deliveryChanges budget
      | _ => []

/-- The changes when the outcome of a proposal is reported. -/
def completeChanges (c : Cluster) (q : QueuedProposal) (outcome : Except NodeError Decision) :
    List (Nat × Change) :=
  match c.nodes[q.origin]?, outcome with
  | some n, .ok d =>
    if n.pending.contains q.proposal.id then c.changesAt q.origin (.decided d) else []
  | _, _ => []

def completeAllChanges (c : Cluster) :
    List (QueuedProposal × Except NodeError Decision) → List (Nat × Change)
  | [] => []
  | (q, outcome) :: rest =>
    c.completeChanges q outcome ++
      match c.complete q outcome with
      | .ok (_, c') => c'.completeAllChanges rest
      | .error _ => []

def resolveChanges (c : Cluster) : List (Nat × Change) :=
  match c.drive with
  | .ok (outcomes, c') => c'.completeAllChanges outcomes
  | .error _ => []

def submitChanges (c : Cluster) (index : Nat) (t : Transaction) : List (Nat × Change) :=
  match c.submit index t with
  | .ok (s, _) => (s.update.toList.map .merge).map (index, ·)
  | .error _ => []

/-- The changes that a command makes to the states of nodes, each with the position of the node, in
order. -/
def Command.changes (c : Cluster) : Command → List (Nat × Change)
  | submit index t => c.submitChanges index t
  | step => c.stepChanges
  | run => c.deliveryChanges c.config.maxSteps
  | resolve => c.resolveChanges
  | settle =>
    c.resolveChanges ++
      match c.resolve with
      | .ok (_, c') => c'.deliveryChanges c'.config.maxSteps
      | .error _ => []
  | _ => []

/-- A command that was performed, the cluster before it, and the answer. -/
structure Record where
  before : Cluster
  command : Command
  reply : Reply

end Cluster

/-- A transaction that was submitted, and what became of it at once. -/
structure Submitted where
  transaction : Transaction
  submission : Submission

def Submitted.ids (s : Submitted) : List Uuid :=
  (s.submission.update.map (·.id)).toList ++ (s.submission.proposal.map (·.id)).toList

def Cluster.Record.submitted? (r : Cluster.Record) : Option Submitted :=
  match r.command, r.reply with
  | .submit _ t, .submitted s => some ⟨t, s⟩
  | _, _ => none

def Cluster.Record.removed (r : Cluster.Record) : Nat :=
  match r.reply with
  | .collected count => count
  | _ => 0

/-- A cluster and all commands that it has performed, the first one first. -/
structure Chronicle where
  cluster : Cluster
  past : List Cluster.Record

namespace Chronicle

/-- The chronicle of a cluster to which nothing has happened. -/
def new (config : ClusterConfig) (classifier : Classifier) (ids : IdSupply) : Chronicle :=
  ⟨.new config classifier ids, []⟩

def perform (h : Chronicle) (command : Cluster.Command) : Except Fault Chronicle :=
  (command.perform h.cluster).map fun (reply, cluster) =>
    ⟨cluster, h.past ++ [⟨h.cluster, command, reply⟩]⟩

/-- Performs commands in order, unless there is a fault. -/
def performAll (h : Chronicle) (commands : List Cluster.Command) : Except Fault Chronicle :=
  commands.foldlM perform h

def submissions (h : Chronicle) : List Submitted := h.past.filterMap (·.submitted?)

def ids (h : Chronicle) : List Uuid := h.submissions.flatMap (·.ids)

/-- The changes of the state of the node at a position, in order. -/
def changes (h : Chronicle) (index : Nat) : List Change :=
  ((h.past.flatMap fun r => r.command.changes r.before).filter fun e => e.1 = index).map (·.2)

/-- No node has joined after updates were dropped. -/
def JoinsInTime (h : Chronicle) : Prop :=
  h.past.Pairwise fun r r' => r.removed = 0 ∨ r'.command ≠ .addNode

instance (h : Chronicle) : Decidable h.JoinsInTime :=
  inferInstanceAs (Decidable (h.past.Pairwise _))

end Chronicle
end Confluence
