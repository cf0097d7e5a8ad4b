import Confluence.Node
import Confluence.Proofs.Consensus.DecisionLog
import Confluence.Proofs.Fault
import Confluence.Proofs.Ordered
import Confluence.Proofs.Replica.Basic

namespace Confluence

/-- There is an update of what can be lifted, if anything can, and a proposal of the rest, if any. -/
structure Submission.IsSplit (s : Submission) : Prop where
  update : s.update.map (·.operations) =
    if s.decomposition.liftable = [] then none
    else some (s.decomposition.liftable.map (·.operation))
  proposal : s.proposal.map (·.operations) =
    if s.decomposition.coordinated = [] then none
    else some (s.decomposition.coordinated.map (·.operation))

/-- What a node keeps of a submission until the outcome of its proposal is reported. -/
def Submission.pendingEntry (s : Submission) (p : Proposal) : PendingProposal :=
  ⟨p, s.decomposition.coordinated, s.update.map (·.id)⟩

namespace Node

theorem foldl_applyDecided (ds : List Decision) (r : Replica) :
    ds.foldl (fun r d => r.applyDecided d.proposal.operations) r =
      { r with
        state := ds.foldl (fun s d => s.applyDecided d.proposal.operations) r.state } := by
  induction ds generalizing r with
  | nil => rfl
  | cons d ds ih =>
    rw [List.foldl_cons, ih]
    rfl

/-- A decision goes to the log, and what the log hands out is applied. -/
theorem acceptDecision_snd (n : Node) (d : Decision) :
    (n.acceptDecision d).2 =
      { n with
        decisions := (n.decisions.accept d).2
        replica := { n.replica with
          state := (n.decisions.accept d).1.ready?.foldl
            (fun s d => s.applyDecided d.proposal.operations) n.replica.state } } := by
  unfold acceptDecision
  dsimp only
  split
  · next ready h =>
    rw [h, foldl_applyDecided]
    rfl
  · next h =>
    have hr : (n.decisions.accept d).1.ready? = [] := by
      cases hs : (n.decisions.accept d).1 <;> first | rfl | exact absurd hs (h _)
    rw [hr]
    rfl

theorem receive_decided_snd (n : Node) (d : Decision) :
    (n.receive (.decided d)).2 = (n.acceptDecision d).2 := by
  unfold receive
  dsimp only
  split <;> rfl

theorem receive_update_snd (n : Node) (u : Update) :
    (n.receive (.update u)).2.replica = (n.replica.integrate n.classifier u).2 := by
  unfold receive
  dsimp only
  split <;> rfl

/-- What a message does to anything but the replica and the log. -/
theorem receive_rest (n : Node) (m : Message) :
    (n.receive m).2.id = n.id ∧ (n.receive m).2.config = n.config ∧
      (n.receive m).2.classifier = n.classifier ∧ (n.receive m).2.pending = n.pending := by
  cases m with
  | update u =>
    unfold receive
    dsimp only
    by_cases ha : n.replica.hasApplied u.id = true
    · rw [Replica.integrate_of_applied ha]
      exact ⟨rfl, rfl, rfl, rfl⟩
    · rw [Replica.integrate_of_new ha]
      exact ⟨rfl, rfl, rfl, rfl⟩
  | decided d =>
    rw [receive_decided_snd, acceptDecision_snd]
    exact ⟨rfl, rfl, rfl, rfl⟩
  | join x => exact ⟨rfl, rfl, rfl, rfl⟩
  | frontier x f => exact ⟨rfl, rfl, rfl, rfl⟩

theorem receive_decisions (n : Node) (m : Message) :
    (n.receive m).2.decisions =
      match m with
      | .decided d => (n.decisions.accept d).2
      | _ => n.decisions := by
  cases m with
  | update u =>
    unfold receive
    dsimp only
    split <;> rfl
  | decided d => rw [receive_decided_snd, acceptDecision_snd]
  | join x => rfl
  | frontier x f => rfl

/-- All that a submission does to a node. -/
structure Submits (n : Node) (t : Transaction) (s : Submission) (n' : Node) : Prop where
  decomposition : s.decomposition = n.decompose t
  kept : n'.id = n.id ∧ n'.config = n.config ∧ n'.classifier = n.classifier ∧
    n'.decisions = n.decisions
  /-- An update has the liftable operations, and is absorbed like any other. -/
  update : ∀ u, s.update = some u →
    u.operations = s.decomposition.liftable.map (·.operation) ∧ u.origin = n.id ∧
      n.clock.tick n.id = .ok u.clock ∧
      n'.replica = ({ n.replica with clock := u.clock }.absorb n.classifier u).2
  noUpdate : s.update = none → s.decomposition.liftable = [] ∧ n'.replica = n.replica
  /-- A proposal has the coordinated operations, and is pending from now on. -/
  proposal : ∀ p, s.proposal = some p →
    p.operations = s.decomposition.coordinated.map (·.operation) ∧ p.origin = n.id ∧
      n'.pending =
        n.pending.insert p.id ⟨p, s.decomposition.coordinated, s.update.map (·.id)⟩
  noProposal : s.proposal = none → s.decomposition.coordinated = [] ∧ n'.pending = n.pending
  /-- With an update the node takes its own frontier over. -/
  stability : n'.stability = if s.update.isSome then
      n.stability.updateLocal n'.history.delivered.contiguous
    else n.stability

theorem commitLocal_eq_ok {n n' : Node} {d : Decomposition} {ids ids' : IdSupply}
    {u : Option Update} (h : n.commitLocal d ids = .ok (u, n', ids')) :
    n'.id = n.id ∧ n'.config = n.config ∧ n'.classifier = n.classifier ∧
      n'.decisions = n.decisions ∧ n'.pending = n.pending ∧
      (∀ v, u = some v → v.operations = d.liftable.map (·.operation) ∧ v.origin = n.id ∧
        n.clock.tick n.id = .ok v.clock ∧
        n'.replica = ({ n.replica with clock := v.clock }.absorb n.classifier v).2) ∧
      (u = none → d.liftable = [] ∧ n'.replica = n.replica) ∧
      n'.stability = if u.isSome then n.stability.updateLocal n'.history.delivered.contiguous
        else n.stability := by
  unfold commitLocal at h
  obtain ⟨⟨v, r, rest⟩, hc, he⟩ := map_eq_ok h
  cases he
  rcases Replica.commit_eq_ok hc with
    ⟨hl, rfl, rfl, _⟩ | ⟨v, _, ht, _, ho, hops, rfl, rfl, _⟩
  · exact ⟨rfl, rfl, rfl, rfl, rfl, by simp, fun _ => ⟨hl, rfl⟩, rfl⟩
  · refine ⟨rfl, rfl, rfl, rfl, rfl, ?_, by simp, rfl⟩
    intro w hw
    cases hw
    exact ⟨hops, ho, ht, rfl⟩

theorem submit_eq_ok {n n' : Node} {t : Transaction} {ids ids' : IdSupply} {s : Submission}
    (h : n.submit t ids = .ok (s, n', ids')) : n.Submits t s n' := by
  unfold submit at h
  obtain ⟨⟨u, m, rest⟩, hc, h⟩ := bind_eq_ok h
  obtain ⟨hid, hconfig, hclassifier, hdecisions, hpending, hsome, hnone, hstability⟩ :=
    commitLocal_eq_ok hc
  dsimp only at h
  unfold propose at h
  split at h
  · next hl =>
    cases h
    exact ⟨rfl, ⟨hid, hconfig, hclassifier, hdecisions⟩, hsome, hnone, by simp,
      fun _ => ⟨List.isEmpty_iff.1 hl, hpending⟩, hstability⟩
  · cases h
    refine ⟨rfl, ⟨hid, hconfig, hclassifier, hdecisions⟩, hsome, hnone, ?_, by simp, hstability⟩
    intro p hp
    cases hp
    exact ⟨rfl, hid, congrArg (OrderedMap.insert · _ _) hpending⟩

theorem submit_isSplit {n n' : Node} {t : Transaction} {ids ids' : IdSupply} {s : Submission}
    (h : n.submit t ids = .ok (s, n', ids')) : s.IsSplit := by
  have hs := submit_eq_ok h
  unfold submit at h
  obtain ⟨⟨u, m, rest⟩, hc, h⟩ := bind_eq_ok h
  obtain ⟨⟨v, r, _⟩, hr, he⟩ := map_eq_ok hc
  cases he
  constructor
  · have hu : s.update = u := by
      dsimp only at h
      cases h
      rfl
    rw [hu, hs.decomposition]
    rcases Replica.commit_eq_ok hr with
      ⟨hl, rfl, _⟩ | ⟨v, hl, _, _, _, hops, rfl, _⟩
    · rw [if_pos hl]
      rfl
    · rw [if_neg hl, Option.map_some, hops]
  · dsimp only at h
    unfold propose at h
    rw [hs.decomposition]
    split at h
    · next hl =>
      cases h
      rw [if_pos (List.isEmpty_iff.1 hl)]
      rfl
    · next hl =>
      cases h
      rw [if_neg (mt List.isEmpty_iff.2 hl)]
      rfl

theorem Submits.find?_pending {n n' : Node} {x : Transaction} {s : Submission}
    {id : ProposalId} {e : PendingProposal} (h : n.Submits x s n') (he : n'.pending.find? id = some e) :
    n.pending.find? id = some e ∨
      ∃ p, s.proposal = some p ∧ p.id = id ∧ e = s.pendingEntry p := by
  cases hp : s.proposal with
  | none =>
    rw [(h.noProposal hp).2] at he
    exact .inl he
  | some p =>
    rw [(h.proposal p hp).2.2, OrderedMap.find?_insert] at he
    split at he
    · next hid => exact .inr ⟨p, rfl, hid.symm, (Option.some.inj he).symm⟩
    · exact .inl he

/-- All that the report of an outcome does to a node that knows the proposal. -/
theorem complete_eq_ok {n n' : Node} {id : ProposalId} {outcome : Except NodeError Decision}
    {result : CommitResult} (h : n.complete id outcome = .ok (result, n')) :
    (∃ p, n.pending.find? id = some p) ∧
      match outcome with
      | .ok d => result = .committed (.withConsensus d.slot) ∧
          n' = (acceptDecision { n with pending := n.pending.erase id } d).2
      | .error reason => (∃ retained, result = .failed reason retained) ∧
          n' = { n with pending := n.pending.erase id } := by
  unfold complete at h
  split at h
  · cases h
  · next p hp =>
    refine ⟨⟨p, hp⟩, ?_⟩
    cases outcome with
    | ok d =>
      cases h
      exact ⟨rfl, rfl⟩
    | error reason =>
      cases h
      exact ⟨⟨_, rfl⟩, rfl⟩

theorem complete_retained {n n' : Node} {id : ProposalId} {outcome : Except NodeError Decision}
    {reason : NodeError} {retained : Option UpdateId} {p : PendingProposal}
    (hp : n.pending.find? id = some p)
    (h : n.complete id outcome = .ok (.failed reason retained, n')) :
    retained = p.retainedLocal := by
  unfold complete at h
  rw [hp] at h
  cases outcome with
  | ok d => cases h
  | error e =>
    cases h
    rfl

theorem complete_rest {n n' : Node} {id : ProposalId} {outcome : Except NodeError Decision}
    {result : CommitResult} (h : n.complete id outcome = .ok (result, n')) :
    n'.id = n.id ∧ n'.classifier = n.classifier ∧ n'.pending = n.pending.erase id ∧
      n'.replica.applied = n.replica.applied ∧ n'.history = n.history := by
  have hcase := (complete_eq_ok h).2
  cases outcome with
  | ok d =>
    rw [hcase.2, acceptDecision_snd]
    exact ⟨rfl, rfl, rfl, rfl, rfl⟩
  | error reason =>
    rw [hcase.2]
    exact ⟨rfl, rfl, rfl, rfl, rfl⟩

theorem complete_config {n n' : Node} {id : ProposalId} {outcome : Except NodeError Decision}
    {result : CommitResult} (h : n.complete id outcome = .ok (result, n')) :
    n'.config = n.config := by
  have hcase := (complete_eq_ok h).2
  cases outcome with
  | ok d => rw [hcase.2, acceptDecision_snd]
  | error reason => rw [hcase.2]

theorem complete_decisions {n n' : Node} {id : ProposalId} {outcome : Except NodeError Decision}
    {result : CommitResult} (h : n.complete id outcome = .ok (result, n')) :
    n'.decisions = outcome.toOption.elim n.decisions fun d => (n.decisions.accept d).2 := by
  have hcase := (complete_eq_ok h).2
  cases outcome with
  | ok d =>
    rw [hcase.2, acceptDecision_snd]
    rfl
  | error reason =>
    rw [hcase.2]
    rfl

theorem complete_eq_error {n : Node} {id : ProposalId} {outcome : Except NodeError Decision}
    {e : NodeError} (h : n.complete id outcome = .error e) : n.pending.find? id = none := by
  unfold complete at h
  split at h
  · assumption
  · cases outcome <;> cases h

theorem foldl_registerPeer (n : Node) (peers : List NodeId) :
    let m := peers.foldl registerPeer n
    m.id = n.id ∧ m.config = n.config ∧ m.classifier = n.classifier ∧ m.pending = n.pending ∧
      m.decisions = n.decisions ∧ m.state = n.state ∧ m.replica.applied = n.replica.applied ∧
      m.history = n.history := by
  induction peers generalizing n with
  | nil => exact ⟨rfl, rfl, rfl, rfl, rfl, rfl, rfl, rfl⟩
  | cons p peers ih => exact ih (n.registerPeer p)

end Node
end Confluence
