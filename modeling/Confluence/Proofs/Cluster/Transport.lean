import Confluence.Cluster.Run
import Confluence.Proofs.Cluster.World

namespace Confluence.Cluster

/-- The world of a cluster, with outcomes that are still to be reported and a trace of the past. -/
def world (c : Cluster) (outcomes : List (QueuedProposal × Except NodeError Decision))
    (trace : Trace) : World where
  toTrace := trace
  classifier := c.classifier
  config := c.config.node
  nodes := c.nodes
  transit := c.network.transit
  log := c.sequencer.log
  queued := c.queued
  outcomes := outcomes
  results := c.results
  stats := c.stats

/-- The messages `new` were put on their way, and nothing else has happened that a world knows. -/
structure Sends (c c' : Cluster) (new : List (Envelope Message)) : Prop where
  numbered : c'.network.Numbered
  config : c'.config = c.config
  classifier : c'.classifier = c.classifier
  nodes : c'.nodes = c.nodes
  leader : c'.sequencer.leader = c.sequencer.leader
  log : c'.sequencer.log = c.sequencer.log
  slots : c'.sequencer.slots = c.sequencer.slots
  queued : c'.queued = c.queued
  results : c'.results = c.results
  stats : c'.stats = c.stats
  transit : World.Carries c'.network.transit new c.network.transit

variable {c c' c'' : Cluster} {new new' : List (Envelope Message)} {α : Type}

theorem Sends.world (h : c.Sends c' new)
    (outcomes : List (QueuedProposal × Except NodeError Decision)) (trace : Trace) :
    c'.world outcomes trace = { c.world outcomes trace with transit := c'.network.transit } := by
  unfold Cluster.world
  rw [h.config, h.classifier, h.nodes, h.log, h.queued, h.results, h.stats]

theorem Sends.trans (h : c.Sends c' new) (h' : c'.Sends c'' new') : c.Sends c'' (new ++ new') where
  numbered := h'.numbered
  config := h'.config.trans h.config
  classifier := h'.classifier.trans h.classifier
  nodes := h'.nodes.trans h.nodes
  leader := h'.leader.trans h.leader
  log := h'.log.trans h.log
  slots := h'.slots.trans h.slots
  queued := h'.queued.trans h.queued
  results := h'.results.trans h.results
  stats := h'.stats.trans h.stats
  transit e := by
    rw [h'.transit, h.transit, List.mem_append, or_left_comm, or_assoc]

theorem sends_of_rearranges {network : Network Message} (h : c.network.Rearranges network) :
    c.Sends { c with network } [] where
  numbered := h.numbered
  config := rfl
  classifier := rfl
  nodes := rfl
  leader := rfl
  log := rfl
  slots := rfl
  queued := rfl
  results := rfl
  stats := rfl
  transit e := by simp [h.transit.mem_iff]

theorem sends_of_log {sequencer : Sequencer} (hn : c.network.Numbered)
    (hleader : sequencer.leader = c.sequencer.leader) (hlog : sequencer.log = c.sequencer.log)
    (hslots : sequencer.slots = c.sequencer.slots) :
    c.Sends { c with sequencer } [] where
  numbered := hn
  config := rfl
  classifier := rfl
  nodes := rfl
  leader := hleader
  log := hlog
  slots := hslots
  queued := rfl
  results := rfl
  stats := rfl
  transit e := by simp

theorem refreshLinks_sends (hn : c.network.Numbered) : c.Sends c.refreshLinks [] :=
  sends_of_log hn rfl rfl rfl

theorem send_sends {source target : NodeId} {m : Message} (hn : c.network.Numbered)
    (h : c.send source target m = .ok c') : c.Sends c' [⟨source, target, m⟩] := by
  unfold send at h
  obtain ⟨network, hs, rfl⟩ := map_eq_ok h
  obtain ⟨hn', ht⟩ := Network.send_transit hn hs
  refine ⟨hn', rfl, rfl, rfl, rfl, rfl, rfl, rfl, rfl, rfl, ?_⟩
  intro e
  rcases ht with ht | ht
  · rw [ht.mem_iff, List.mem_cons, List.mem_singleton]
  · rw [ht.mem_iff, List.mem_cons, List.mem_cons, List.mem_singleton, ← or_assoc, or_self]

theorem Sends.refl (hn : c.network.Numbered) : c.Sends c [] :=
  ⟨hn, rfl, rfl, rfl, rfl, rfl, rfl, rfl, rfl, rfl, fun e => by simp⟩

theorem foldlM_sends {f : Cluster → α → Except Fault Cluster}
    {g : α → List (Envelope Message)} {l : List α}
    (hf : ∀ a ∈ l, ∀ (d d' : Cluster) (sent : List (Envelope Message)), c.Sends d sent →
      f d a = .ok d' → d.Sends d' (g a))
    (hn : c.network.Numbered) (h : l.foldlM f c = .ok c') : c.Sends c' (l.flatMap g) := by
  suffices key : ∀ (d : Cluster) (sent : List (Envelope Message)), c.Sends d sent →
      l.foldlM f d = .ok c' → d.Sends c' (l.flatMap g) from key c [] (.refl hn) h
  clear h
  induction l with
  | nil =>
    intro d sent hd h
    cases h
    exact .refl hd.numbered
  | cons a l ih =>
    intro d sent hd h
    rw [List.foldlM_cons] at h
    obtain ⟨d', ha, h⟩ := bind_eq_ok h
    have hd' := hf a List.mem_cons_self d d' sent hd ha
    rw [List.flatMap_cons]
    exact hd'.trans (ih (fun b hb => hf b (List.mem_cons_of_mem _ hb)) d' _ (hd.trans hd') h)

theorem node_eq_ok {i : Nat} {n : Node} (h : c.node i = .ok n) : c.nodes[i]? = some n := by
  unfold node at h
  split at h
  · cases h
    assumption
  · cases h

theorem broadcast_sends {i : Nat} {n : Node} {m : Message} (hn : c.network.Numbered)
    (hi : c.nodes[i]? = some n) (h : c.broadcast i m = .ok c') :
    c.Sends c' (((c.nodes.map Node.id).filter (· ≠ n.id)).map (⟨n.id, ·, m⟩)) := by
  unfold broadcast at h
  obtain ⟨n', hi', h⟩ := bind_eq_ok h
  rw [node_eq_ok hi'] at hi
  cases hi
  have hs := foldlM_sends (g := fun target => [⟨n.id, target, m⟩])
    (fun target _ d d' _ hd hs => send_sends hd.numbered hs) hn h
  rw [List.map_eq_flatMap]
  exact hs

theorem cutOff_sends {indices : List Nat} {duration : Option UInt64} (hn : c.network.Numbered)
    (h : c.cutOff indices duration = .ok c') : c.Sends c' [] := by
  unfold cutOff at h
  obtain ⟨side, _, h⟩ := bind_eq_ok h
  obtain ⟨network, hc, h⟩ := bind_eq_ok h
  cases h
  have hr := sends_of_rearranges (Network.cutOff_rearranges hn hc)
  exact hr.trans (refreshLinks_sends hr.numbered)

theorem heal_sends (hn : c.network.Numbered) (h : c.heal = .ok c') : c.Sends c' [] := by
  unfold heal at h
  obtain ⟨network, hc, rfl⟩ := map_eq_ok h
  have hr := sends_of_rearranges (Network.healAll_rearranges hn hc)
  exact hr.trans (refreshLinks_sends hr.numbered)

theorem advance_sends {ticks : UInt64} (hn : c.network.Numbered)
    (h : c.advance ticks = .ok c') : c.Sends c' [] := by
  unfold advance at h
  obtain ⟨network, hc, rfl⟩ := map_eq_ok h
  exact sends_of_rearranges (Network.advance_rearranges hn hc)

theorem setLinkDelay_sends (hn : c.network.Numbered) (source target : NodeId) (delay : UInt64) :
    c.Sends (c.setLinkDelay source target delay) [] :=
  ⟨hn, rfl, rfl, rfl, rfl, rfl, rfl, rfl, rfl, rfl, fun e => by
    simp [setLinkDelay, Network.setLinkDelay, Network.transit]⟩

theorem injectTimeouts_sends {count : UInt32} (hn : c.network.Numbered)
    (h : c.injectTimeouts count = .ok c') : c.Sends c' [] := by
  unfold injectTimeouts at h
  obtain ⟨sequencer, hs, rfl⟩ := map_eq_ok h
  unfold Sequencer.injectTimeouts at hs
  split at hs
  · cases hs
    exact sends_of_log hn rfl rfl rfl
  · cases hs

theorem catchUp_sends (hn : c.network.Numbered) (h : c.catchUp = .ok c') : c.Sends c' [] := by
  unfold catchUp at h
  split at h
  · obtain ⟨d, ha, rfl⟩ := map_eq_ok h
    have hs := advance_sends hn ha
    exact hs.trans (refreshLinks_sends hs.numbered)
  · cases h
    exact .refl hn

end Confluence.Cluster
