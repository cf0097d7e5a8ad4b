import Confluence.History
import Confluence.Proofs.VectorClock

namespace Confluence.StabilityMonitor
variable {m : StabilityMonitor} {x peer : NodeId} {f : VectorClock}

/-- The stable frontier is up to date. -/
def IsExact (m : StabilityMonitor) : Prop := m.stableFrontier = m.leastFrontier

theorem isExact_new (x : NodeId) : (new x).IsExact := rfl

theorem isExact_recompute (m : StabilityMonitor) : m.recompute.IsExact := rfl

theorem IsExact.recompute_eq (h : m.IsExact) : m.recompute = m := by
  rw [recompute, ← h]

theorem IsExact.updatePeer (h : m.IsExact) (peer : NodeId) (f : VectorClock) :
    (m.updatePeer peer f).IsExact := by
  rw [StabilityMonitor.updatePeer]
  split
  · exact h
  · exact isExact_recompute _

theorem node_updatePeer (m : StabilityMonitor) (peer : NodeId) (f : VectorClock) :
    (m.updatePeer peer f).node = m.node := by
  unfold updatePeer
  split <;> rfl

theorem localFrontier_updatePeer (m : StabilityMonitor) (peer : NodeId) (f : VectorClock) :
    (m.updatePeer peer f).localFrontier = m.localFrontier := by
  unfold updatePeer
  split <;> rfl

theorem peerFrontier?_updatePeer (m : StabilityMonitor) (peer x : NodeId) (f : VectorClock) :
    (m.updatePeer peer f).peerFrontier? x =
      if x = peer ∧ peer ≠ m.node then some (((m.peerFrontier? x).getD .empty).merge f)
      else m.peerFrontier? x := by
  unfold updatePeer
  split
  · next hp => rw [if_neg fun h => h.2 hp]
  · next hp =>
    change (m.peers.modify peer .empty (·.merge f)).find? x = _
    rw [OrderedMap.find?_modify, peerFrontier?]
    by_cases hx : x = peer
    · rw [if_pos hx, if_pos ⟨hx, hp⟩, hx]
    · rw [if_neg hx, if_neg fun h => hx h.1]

/-- A peer is known to have got as far as a frontier. -/
def Credits (m : StabilityMonitor) (peer : NodeId) (f : VectorClock) : Prop :=
  ∃ g, m.peerFrontier? peer = some g ∧ f ≤ g

theorem Credits.updatePeer (h : m.Credits x f) (peer : NodeId) (g : VectorClock) :
    (m.updatePeer peer g).Credits x f := by
  obtain ⟨k, hk, hle⟩ := h
  unfold Credits
  rw [peerFrontier?_updatePeer, hk]
  split
  · exact ⟨_, rfl, VectorClock.le_trans hle (k.le_merge_left g)⟩
  · exact ⟨k, rfl, hle⟩

theorem credits_updatePeer (m : StabilityMonitor) (f : VectorClock) (hp : peer ≠ m.node) :
    (m.updatePeer peer f).Credits peer f := by
  unfold Credits
  rw [peerFrontier?_updatePeer, if_pos ⟨rfl, hp⟩]
  exact ⟨_, rfl, VectorClock.le_merge_right _ f⟩

/-- It is on record that a node has got as far as a frontier, each entry of which is there. The
monitor keeps no record of its own node. -/
def Records (m : StabilityMonitor) (peer : NodeId) (f : VectorClock) : Prop :=
  peer = m.node ∨ ∃ g, m.peerFrontier? peer = some g ∧ g.Holds f

theorem Records.updatePeer (h : m.Records x f) (peer : NodeId) (g : VectorClock) :
    (m.updatePeer peer g).Records x f := by
  rw [Records, node_updatePeer, peerFrontier?_updatePeer]
  rcases h with h | ⟨k, hk, hf⟩
  · exact .inl h
  · apply Or.inr
    rw [hk]
    split
    · exact ⟨_, rfl, (k.holds_merge_left g).trans hf⟩
    · exact ⟨k, rfl, hf⟩

theorem records_updatePeer (m : StabilityMonitor) (peer : NodeId) (f : VectorClock) :
    (m.updatePeer peer f).Records peer f := by
  rw [Records, node_updatePeer, peerFrontier?_updatePeer]
  by_cases hp : peer = m.node
  · exact .inl hp
  · apply Or.inr
    rw [if_pos ⟨rfl, hp⟩]
    exact ⟨_, rfl, VectorClock.holds_merge_right _ f⟩

theorem Records.updatePeer_eq (h : m.Records peer f) (he : m.IsExact) :
    m.updatePeer peer f = m := by
  rw [StabilityMonitor.updatePeer]
  split
  · rfl
  · next hp =>
    obtain ⟨g, hg, hf⟩ := h.resolve_left hp
    have hpeers : m.peers.modify peer .empty (·.merge f) = m.peers := by
      apply OrderedMap.ext_find?
      intro x
      rw [OrderedMap.find?_modify]
      split
      · next hx =>
        rw [peerFrontier?] at hg
        rw [hx, hg, Option.getD_some, hf.merge_eq]
      · rfl
    rw [hpeers]
    exact he.recompute_eq

/-- The monitor of a node that has received just so much: the node itself is no peer. -/
structure Watches (m : StabilityMonitor) (x : NodeId) (f : VectorClock) : Prop where
  node : m.node = x
  exact : m.IsExact
  localFrontier : m.localFrontier = f
  others : m.peerFrontier? x = none

theorem watches_new (x : NodeId) : (new x).Watches x .empty := ⟨rfl, isExact_new x, rfl, rfl⟩

theorem Watches.updatePeer (h : m.Watches x f) (peer : NodeId) (g : VectorClock) :
    (m.updatePeer peer g).Watches x f where
  node := (m.node_updatePeer peer g).trans h.node
  exact := h.exact.updatePeer peer g
  localFrontier := (m.localFrontier_updatePeer peer g).trans h.localFrontier
  others := by
    rw [peerFrontier?_updatePeer, if_neg, h.others]
    rintro ⟨rfl, hp⟩
    exact hp h.node.symm

theorem Watches.updateLocal (h : m.Watches x f) (g : VectorClock) : (m.updateLocal g).Watches x g :=
  ⟨h.node, isExact_recompute _, rfl, h.others⟩

/-- What is stable is what the node itself and every peer, as far as is known, have received. -/
theorem IsExact.isStable_iff (h : m.IsExact) {origin : NodeId} {sequence : UInt64} :
    m.isStable origin sequence = true ↔ sequence ≤ m.localFrontier.get origin ∧
      ∀ x f, m.peerFrontier? x = some f → sequence ≤ f.get origin := by
  have key : ∀ (l : List VectorClock) (c : VectorClock),
      sequence ≤ (l.foldl VectorClock.minWith c).get origin ↔
        sequence ≤ c.get origin ∧ ∀ f ∈ l, sequence ≤ f.get origin := by
    intro l
    induction l with
    | nil => simp
    | cons f l ih =>
      intro c
      have hmin : sequence ≤ (c.minWith f).get origin ↔
          sequence ≤ c.get origin ∧ sequence ≤ f.get origin := by
        rw [UInt64.le_iff_toNat_le, UInt64.le_iff_toNat_le, UInt64.le_iff_toNat_le,
          VectorClock.toNat_get_minWith]
        exact Nat.le_min
      rw [List.foldl_cons, ih, hmin, List.forall_mem_cons, and_assoc]
  rw [isStable, h, leastFrontier, VectorClock.covers, decide_eq_true_iff, key]
  refine and_congr_right fun _ => ⟨fun h x f hf => ?_, fun h f hf => ?_⟩
  · exact h f (OrderedMap.mem_values.2 ⟨x, hf⟩)
  · obtain ⟨x, hx⟩ := OrderedMap.mem_values.1 hf
    exact h x f hx

end Confluence.StabilityMonitor
