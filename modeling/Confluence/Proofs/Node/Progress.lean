import Confluence.Proofs.Consensus.Follow
import Confluence.Proofs.Node.Frontier

namespace Confluence

namespace StabilityMonitor

/-- How far the node of that name has got is known: it is the node itself, or a peer with credit. -/
def Heeds (m : StabilityMonitor) (x : NodeId) (f : VectorClock) : Prop := x = m.node ∨ m.Credits x f

theorem heeds_updatePeer (m : StabilityMonitor) (x : NodeId) (f : VectorClock) :
    (m.updatePeer x f).Heeds x f := by
  by_cases hx : x = m.node
  · exact .inl (hx.trans (m.node_updatePeer x f).symm)
  · exact .inr (m.credits_updatePeer f hx)

theorem Credits.heed {m : StabilityMonitor} {x : NodeId} {f : VectorClock} (h : m.Credits x f)
    (message : Message) : (m.heed message).Credits x f := by
  unfold StabilityMonitor.heed
  split
  · exact h.updatePeer _ _
  · exact h

end StabilityMonitor

namespace Node

/-- The node has taken in what a message carries. -/
def Has (n : Node) : Message → Prop
  | .update u => n.replica.hasApplied u.id = true
  | .decided d => n.decisions.Knows d.slot
  | .join x => n.stability.Heeds x .empty
  | .frontier x f => n.stability.Heeds x f

/-- A node has become another one without losing anything that it had taken in. -/
structure Keeps (n n' : Node) : Prop where
  id : n'.id = n.id
  monitor : n'.stability.node = n.stability.node
  applied : ∀ id, n.replica.hasApplied id = true → n'.replica.hasApplied id = true
  knows : ∀ k, n.decisions.Knows k → n'.decisions.Knows k
  credits : ∀ x f, n.stability.Credits x f → n'.stability.Credits x f
  delivered : n.history.delivered.contiguous ≤ n'.history.delivered.contiguous

variable {n n' : Node} {m : Message} {log : List Decision}

theorem Has.mono (h : n.Has m) (hk : n.Keeps n') : n'.Has m := by
  have heeds {x : NodeId} {f : VectorClock} (hx : n.stability.Heeds x f) :
      n'.stability.Heeds x f := hx.imp (·.trans hk.monitor.symm) (hk.credits x f)
  cases m with
  | update u => exact hk.applied _ h
  | decided d => exact hk.knows _ h
  | join x => exact heeds h
  | frontier x f => exact heeds h

theorem hasApplied_receive (n : Node) (m : Message) (id : UpdateId) :
    (n.receive m).2.replica.hasApplied id = true ↔
      n.replica.hasApplied id = true ∨ ∃ u, m = .update u ∧ id = u.id := by
  cases m with
  | update u =>
    rw [receive_update_snd]
    simp only [Message.update.injEq, exists_eq_left']
    by_cases ha : n.replica.hasApplied u.id = true
    · rw [Replica.integrate_of_applied ha]
      refine ⟨.inl, ?_⟩
      rintro (h | rfl)
      · exact h
      · exact ha
    · rw [Replica.integrate_of_new ha, or_comm]
      exact Replica.hasApplied_absorb n.replica n.classifier u id
  | decided d =>
    rw [receive_decided_snd, acceptDecision_snd]
    simp [Replica.hasApplied]
  | join x => simp [receive, registerPeer, Replica.hasApplied, Replica.observeNode]
  | frontier x f => simp [receive, Replica.hasApplied, Replica.observeNode]

theorem knows_receive (hf : n.decisions.Follows log) (hlog : Decision.IsLog log)
    (hm : ∀ d, m = .decided d → d ∈ log) (k : UInt64) :
    (n.receive m).2.decisions.Knows k ↔
      n.decisions.Knows k ∨ ∃ d, m = .decided d ∧ d.slot = k := by
  rw [receive_decisions]
  cases m with
  | decided d =>
    dsimp only
    rw [(hf.accept hlog (hm d rfl)).2.2, or_comm]
    simp
  | _ => simp

theorem le_receive (n : Node) (m : Message) :
    n.history.delivered.contiguous ≤ (n.receive m).2.history.delivered.contiguous := by
  cases m with
  | update u =>
    unfold history
    rw [receive_update_snd]
    by_cases ha : n.replica.hasApplied u.id = true
    · rw [Replica.integrate_of_applied ha]
    · rw [Replica.integrate_of_new ha]
      exact n.replica.history.le_insert u
  | decided d =>
    rw [receive_decided_snd, acceptDecision_snd]
    exact VectorClock.le_refl _
  | join x => exact VectorClock.le_refl _
  | frontier x f => exact VectorClock.le_refl _

theorem keeps_receive (hf : n.decisions.Follows log) (hlog : Decision.IsLog log)
    (hm : ∀ d, m = .decided d → d ∈ log) : n.Keeps (n.receive m).2 where
  id := (n.receive_rest m).1
  monitor := n.node_receive m
  applied id ha := (n.hasApplied_receive m id).2 (.inl ha)
  knows k hk := (knows_receive hf hlog hm k).2 (.inl hk)
  credits x f hc := by
    obtain ⟨g, hg, hle⟩ := hc.heed m
    exact ⟨g, (n.peerFrontier?_receive m x).trans hg, hle⟩
  delivered := n.le_receive m

theorem has_receive (hf : n.decisions.Follows log) (hlog : Decision.IsLog log)
    (hm : ∀ d, m = .decided d → d ∈ log) : (n.receive m).2.Has m := by
  cases m with
  | update u => exact (hasApplied_receive n _ u.id).2 (.inr ⟨u, rfl, rfl⟩)
  | decided d => exact (knows_receive hf hlog hm d.slot).2 (.inr ⟨d, rfl, rfl⟩)
  | join x => exact n.stability.heeds_updatePeer x .empty
  | frontier x f => exact n.stability.heeds_updatePeer x f

theorem Submits.hasApplied {t : Transaction} {s : Submission} (hs : n.Submits t s n')
    (id : UpdateId) :
    n'.replica.hasApplied id = true ↔
      n.replica.hasApplied id = true ∨ ∃ u, s.update = some u ∧ id = u.id := by
  cases hu : s.update with
  | none =>
    rw [(hs.noUpdate hu).2]
    simp
  | some u =>
    obtain ⟨_, _, _, hr⟩ := hs.update u hu
    rw [hr, Replica.hasApplied_absorb, or_comm]
    simp [Replica.hasApplied]

theorem Submits.peerFrontier? {t : Transaction} {s : Submission} (hs : n.Submits t s n')
    (x : NodeId) : n'.stability.peerFrontier? x = n.stability.peerFrontier? x := by
  rw [hs.stability]
  split <;> rfl

theorem Submits.keeps {t : Transaction} {s : Submission} (hs : n.Submits t s n') :
    n.Keeps n' where
  id := hs.kept.1
  monitor := by
    rw [hs.stability]
    split <;> rfl
  applied id ha := (hs.hasApplied id).2 (.inl ha)
  knows k hk := hs.kept.2.2.2 ▸ hk
  credits x f hc := by
    obtain ⟨g, hg, hle⟩ := hc
    exact ⟨g, (hs.peerFrontier? x).trans hg, hle⟩
  delivered := by
    unfold history
    cases hu : s.update with
    | none =>
      rw [(hs.noUpdate hu).2]
    | some u =>
      obtain ⟨_, _, _, hr⟩ := hs.update u hu
      rw [hr]
      exact n.replica.history.le_insert u

theorem keeps_complete {id : ProposalId} {outcome : Except NodeError Decision}
    {result : CommitResult} (hf : n.decisions.Follows log) (hlog : Decision.IsLog log)
    (hd : ∀ d, outcome = .ok d → d ∈ log) (hc : n.complete id outcome = .ok (result, n')) :
    n.Keeps n' := by
  obtain ⟨hid, _, _, happlied, hhistory⟩ := complete_rest hc
  obtain ⟨_, hstability⟩ := complete_clock hc
  refine ⟨hid, by rw [hstability], fun k hk => ?_, fun k hk => ?_, fun x f hx => ?_, ?_⟩
  · unfold Replica.hasApplied
    rw [happlied]
    exact hk
  · rw [complete_decisions hc]
    cases outcome with
    | ok d => exact ((hf.accept hlog (hd d rfl)).2.2 k).2 (.inr hk)
    | error reason => exact hk
  · rw [hstability]
    exact hx
  · rw [hhistory]

theorem keeps_collectGarbage (n : Node) : n.Keeps n.collectGarbage.2 :=
  ⟨rfl, rfl, fun _ ha => ha, fun _ hk => hk, fun _ _ hc => hc, VectorClock.le_refl _⟩

theorem Keeps.refl (n : Node) : n.Keeps n :=
  ⟨rfl, rfl, fun _ ha => ha, fun _ hk => hk, fun _ _ hc => hc, VectorClock.le_refl _⟩

end Node
end Confluence
