import Confluence.Proofs.Cluster.Clock
import Confluence.Proofs.Consensus.Patience

namespace Confluence

theorem Sequencer.link_setLinks (s : Sequencer) (names : List NodeId) (f : NodeId → LinkState)
    (node : NodeId) : (s.setLinks (names.map fun a => (a, f a))).link node =
      if node ∈ names then f node else .opened := by
  have hmem : node ∈ (((names.map fun a => (a, f a)).filter fun l => l.2 ≠ .opened).map Prod.fst) ↔
      node ∈ names ∧ f node ≠ .opened := by
    simp [and_comm]
  have hvalue : ∀ e ∈ (names.map fun a => (a, f a)).filter fun l => l.2 ≠ .opened, e.2 = f e.1 := by
    intro e he
    obtain ⟨a, _, rfl⟩ := List.mem_map.1 (List.mem_filter.1 he).1
    rfl
  have hfind := OrderedMap.find?_foldl_insert (m := .empty) hvalue node
  unfold link setLinks OrderedMap.ofList
  rw [hfind]
  by_cases hn : node ∈ names
  · by_cases ho : f node = .opened
    · rw [if_neg (fun h => (hmem.1 h).2 ho), if_pos hn, ho]
      rfl
    · rw [if_pos (hmem.2 ⟨hn, ho⟩), if_pos hn]
      rfl
  · rw [if_neg (fun h => hn (hmem.1 h).1), if_neg hn]
    rfl

theorem Partition.linkState_self (p : Partition) (a : NodeId) : p.linkState a a = .opened := by
  unfold linkState cuts
  rw [bne_self_eq_false]
  rfl

theorem LinkState.eq_or_of_meet {s t : LinkState} {tick : UInt64} (h : s.meet t = .cutUntil tick) :
    s = .cutUntil tick ∨ t = .cutUntil tick := by
  cases s with
  | opened => exact .inr h
  | cut => cases t <;> cases h
  | cutUntil a =>
    cases t with
    | opened => exact .inl h
    | cut => cases h
    | cutUntil b =>
      have h : LinkState.cutUntil (if a ≤ b then b else a) = .cutUntil tick := h
      split at h
      · exact .inr h
      · exact .inl h

namespace Network
variable {μ : Type} {net : Network μ} {a b : NodeId} {tick : UInt64}

theorem linkState_self (net : Network μ) (a : NodeId) : net.linkState a a = .opened := by
  unfold linkState
  induction net.partitions with
  | nil => rfl
  | cons p l ih =>
    rw [List.foldl_cons, p.linkState_self]
    exact ih

theorem exists_of_linkState (h : net.linkState a b = .cutUntil tick) :
    ∃ p ∈ net.partitions, p.healsAt = some tick := by
  have key (l : List Partition) (s : LinkState)
      (h : l.foldl (fun s p => s.meet (p.linkState a b)) s = .cutUntil tick) :
      (∃ p ∈ l, p.healsAt = some tick) ∨ s = .cutUntil tick := by
    induction l generalizing s with
    | nil => exact .inr h
    | cons p l ih =>
      rcases ih _ h with ⟨q, hq, ht⟩ | hmeet
      · exact .inl ⟨q, List.mem_cons_of_mem _ hq, ht⟩
      · rcases LinkState.eq_or_of_meet hmeet with hs | hp
        · exact .inr hs
        · refine .inl ⟨p, List.mem_cons_self, ?_⟩
          unfold Partition.linkState at hp
          split at hp
          · split at hp
            · cases hp
              assumption
            · cases hp
          · cases hp
  exact (key _ _ h).resolve_right nofun

end Network

namespace Cluster
variable {c : Cluster} {config : ClusterConfig}

/-- The link between the origin of a proposal and the leader. -/
def linkOf (c : Cluster) (p : Proposal) : LinkState :=
  c.network.linkState p.origin c.sequencer.leader

theorem link_synced (c : Cluster) (node : NodeId) : c.synced.sequencer.link node =
    if node ∈ c.nodes.map Node.id then c.network.linkState node c.sequencer.leader else .opened := by
  have hmap : (c.nodes.map fun n => (n.id, c.network.linkState n.id c.sequencer.leader)) =
      (c.nodes.map Node.id).map fun a => (a, c.network.linkState a c.sequencer.leader) := by
    rw [List.map_map]
    rfl
  calc c.synced.sequencer.link node
    _ = ((c.sequencer.syncTime c.network.now).setLinks (c.nodes.map fun n =>
          (n.id, c.network.linkState n.id c.sequencer.leader))).link node := rfl
    _ = _ := by rw [hmap, Sequencer.link_setLinks]

theorem link_leader_synced (c : Cluster) :
    c.synced.sequencer.link c.synced.sequencer.leader = .opened := by
  rw [link_synced]
  split
  · exact c.network.linkState_self c.sequencer.leader
  · rfl

theorem Timely.now_synced (h : c.Timely config) : c.synced.sequencer.now = c.network.now :=
  if_pos h.now

theorem Timely.le_of_linkOf {p : Proposal} {tick : UInt64} (h : c.Timely config)
    (hlink : c.linkOf p = .cutUntil tick) : c.network.now ≤ tick := by
  obtain ⟨part, hp, ht⟩ := Network.exists_of_linkState hlink
  exact h.ahead part hp tick ht

end Cluster
end Confluence
