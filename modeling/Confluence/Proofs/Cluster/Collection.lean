import Confluence.Proofs.Cluster.Coherence
import Confluence.Proofs.Cluster.Convergence

namespace Confluence

namespace Node
variable {n : Node} {id : UpdateId} {u : Update}

theorem isStable_of_dropped (hg : n.history.get? id = some u)
    (hd : n.collectGarbage.2.history.get? id = none) :
    n.stability.isStable u.origin u.sequence = true := by
  have he := CausalHistory.get?_prune n.history n.stability.stableFrontier id
  rw [hg] at he
  by_contra hs
  have hkept : n.collectGarbage.2.history.get? id = some u :=
    he.trans (Option.filter_eq_some_iff.2 ⟨rfl, by simpa [StabilityMonitor.isStable] using hs⟩)
  rw [hd] at hkept
  cases hkept

theorem retained_collectGarbage
    (h : ∀ u ∈ n.retainedUpdates, n.stability.isStable u.origin u.sequence = true) :
    n.collectGarbage.2.retainedUpdates = [] := by
  refine List.eq_nil_iff_forall_not_mem.2 fun u hu => ?_
  obtain ⟨id, hg⟩ := CausalHistory.mem_retained.1 hu
  have he := CausalHistory.get?_prune n.history n.stability.stableFrontier id
  obtain ⟨hg', hc⟩ := Option.filter_eq_some_iff.1 (he.symm.trans hg)
  have hs := h u (CausalHistory.mem_retained.2 ⟨id, hg'⟩)
  unfold StabilityMonitor.isStable at hs
  rw [hs] at hc
  cases hc

end Node

namespace World
variable {w w' : World} {i : Nat} {n : Node} {u : Update}

theorem Coherent.applied_of_le (h : w.Coherent) (hi : w.nodes[i]? = some n) (hu : u ∈ w.updates)
    (hle : u.sequence ≤ n.history.delivered.contiguous.get u.origin) :
    n.replica.hasApplied u.id = true := by
  have hpos : 0 < u.sequence := UInt64.lt_iff_toNat_lt.2 (h.causal.sequence_bounds hu).1
  obtain ⟨v, hv, ho, hs⟩ := (h.charted i n hi).delivered.exists_of_le hpos hle
  obtain rfl := h.causal.eq_of_sequence (h.sourced.merged i v hv) hu ho hs
  exact (h.ordered.hasApplied hi v.id).2 ⟨v, hv, rfl⟩

theorem Coherent.applied_of_isStable (h : w.Coherent) (hn : n ∈ w.nodes) (hu : u ∈ w.updates)
    (hs : n.stability.isStable u.origin u.sequence = true) :
    n.replica.hasApplied u.id = true ∧
      ∀ x f, n.stability.peerFrontier? x = some f → ∀ m ∈ w.nodes, m.id = x →
        m.replica.hasApplied u.id = true := by
  obtain ⟨i, hi⟩ := List.getElem?_of_mem hn
  have hwatches := (h.charted i n hi).monitor
  obtain ⟨hown, hpeers⟩ := hwatches.exact.isStable_iff.1 hs
  rw [hwatches.localFrontier] at hown
  refine ⟨h.applied_of_le hi hu hown, fun x f hf m hm hid => ?_⟩
  obtain ⟨j, hj⟩ := List.getElem?_of_mem hm
  have hle := (h.attested.peers n hn x f hf).le h.sourced hm hid
  exact h.applied_of_le hj hu (UInt64.le_trans (hpeers x f hf) (hle u.origin))

theorem Steps.length_le (hs : Steps w w') (hw : w.Ordered) :
    w.nodes.length ≤ w'.nodes.length := by
  induction hs with
  | refl => exact Nat.le_refl _
  | @tail v v' hvs hstep ih =>
    refine Nat.le_trans ih (Nat.le_of_not_lt fun hlt => ?_)
    obtain ⟨n, hi, _⟩ := hstep.keeps (hw.steps hvs) (List.getElem?_eq_getElem hlt)
    exact Nat.lt_irrefl _ (List.getElem?_eq_some_iff.1 hi).1

theorem Covers.steps {m : Message} (h : w.Covers m) (hs : Steps w w') (hw : w.Coherent)
    (hids : w'.ids.Nodup) (hlen : w'.nodes.length = w.nodes.length) : w'.Covers m := by
  induction hs with
  | refl => exact h
  | @tail v v' hvs hstep ih =>
    have hv := Steps.coherent hvs hw (hstep.nodup_ids hids)
    have hle := Steps.length_le hvs hw.ordered
    have hle' := Steps.length_le (.single hstep) hv.ordered
    have hcovers := ih (hstep.nodup_ids hids) (by omega)
    exact hcovers.next hv.ordered hv.sourced hstep (by omega)

theorem Reached.steps {x : NodeId} {f : VectorClock} (h : w.Reached x f) (hs : Steps w w')
    (hw : w.Ordered) : w'.Reached x f := by
  induction hs with
  | refl => exact h
  | tail hvs hstep ih => exact ih.step (hw.steps hvs) hstep

/-- Every node has all updates, and has told the others of it, or is going to be heard. -/
def Announces (w : World) : Prop :=
  ∀ n ∈ w.nodes, ∃ f, (∀ u ∈ w.updates, u.sequence ≤ f.get u.origin) ∧ w.Reached n.id f ∧
    w.Covers (.frontier n.id f)

theorem Announces.steps (h : w.Announces) (hs : Steps w w') (hw : w.Coherent)
    (hids : w'.ids.Nodup) (hlen : w'.nodes.length = w.nodes.length)
    (hu : w'.updates = w.updates) : w'.Announces := by
  have hw' := hs.coherent hw hids
  intro n' hn'
  obtain ⟨i, hi'⟩ := List.getElem?_of_mem hn'
  obtain ⟨n, hi⟩ : ∃ n, w.nodes[i]? = some n :=
    ⟨_, List.getElem?_eq_getElem (hlen ▸ (List.getElem?_eq_some_iff.1 hi').1)⟩
  obtain ⟨f, hall, hreached, hcovers⟩ := h n (List.mem_of_getElem? hi)
  have hid : n'.id = n.id := (hw'.sourced.names i n' hi').trans (hw.sourced.names i n hi).symm
  rw [hu, hid]
  exact ⟨f, hall, hreached.steps hs hw.ordered, hcovers.steps hs hw hids hlen⟩

theorem Coherent.sequence_le (h : w.Coherent) (ht : w.transit = []) (hl : ¬ w.late)
    (hids : w.ids.Nodup) (hi : w.nodes[i]? = some n) (hu : u ∈ w.updates) :
    u.sequence ≤ n.history.delivered.contiguous.get u.origin := by
  have hmerged : ∀ v ∈ w.updates, v ∈ w.gossip.merged i := by
    intro v hv
    have ha : n.replica.hasApplied v.id = true := (h.gossiped.covered hl v hv).has ht hi
    obtain ⟨v', hv', he⟩ := (h.ordered.hasApplied hi v.id).1 ha
    exact Trace.eq_of_update_id hids (h.sourced.merged i v' hv') hv he ▸ hv'
  have hall : ∀ k, 0 < k → k ≤ (w.gossip.committedBy u.origin).length →
      ∃ v ∈ w.gossip.merged i, v.origin = u.origin ∧ v.sequence.toNat = k := by
    intro k hk hle
    obtain ⟨v, hv, ho, hs⟩ := h.causal.exists_of_sequence hk hle
    exact ⟨v, hmerged v hv, ho, hs⟩
  have hcount := (h.charted i n hi).delivered.le_of_forall hall
  exact UInt64.le_iff_toNat_le.2 (Nat.le_trans (h.causal.sequence_bounds hu).2 hcount)

/-- When nothing is on its way and all nodes have told of all updates, all updates are stable. -/
theorem Announces.isStable (h : w.Announces) (hw : w.Coherent) (ht : w.transit = [])
    (hi : w.nodes[i]? = some n) (hu : u ∈ w.updates) :
    n.stability.isStable u.origin u.sequence = true := by
  have hn := List.mem_of_getElem? hi
  have hwatches := (hw.charted i n hi).monitor
  refine hwatches.exact.isStable_iff.2 ⟨?_, fun x f hf => ?_⟩
  · obtain ⟨g, hall, hreached, _⟩ := h n hn
    rw [hwatches.localFrontier]
    exact UInt64.le_trans (hall u hu) (hreached.le hw.sourced hn rfl u.origin)
  · obtain ⟨m, hm, rfl, _⟩ := hw.attested.peers n hn x f hf
    obtain ⟨g, hall, _, hcovers⟩ := h m hm
    rcases hcovers.has ht hi with hself | ⟨f', hf', hle⟩
    · rw [hself, hwatches.node, hwatches.others] at hf
      cases hf
    · rw [hf] at hf'
      cases hf'
      exact UInt64.le_trans (hall u hu) (hle u.origin)

end World

namespace Chronicle
variable {config : ClusterConfig} {classifier : Classifier} {ids : IdSupply}
  {commands : List Cluster.Command} {h h' : Chronicle}

/-- Collection is safe. Every peer that a node tracks is a node, which has received at least what is
known of its frontier; what a node drops has been applied by the node and by all these peers; and a
frontier tells of updates that the node has applied. -/
theorem applied_of_dropped (hp : (new config classifier ids).performAll commands = .ok h)
    (hids : h.ids.Nodup) : ∀ n ∈ h.cluster.nodes,
      (∀ x f, n.stability.peerFrontier? x = some f → (∃ m ∈ h.cluster.nodes, m.id = x) ∧
        ∀ m ∈ h.cluster.nodes, m.id = x → f ≤ m.history.delivered.contiguous) ∧
      (∀ id u, n.history.get? id = some u → n.collectGarbage.2.history.get? id = none →
        n.replica.hasApplied u.id = true ∧
          ∀ x f, n.stability.peerFrontier? x = some f → ∀ m ∈ h.cluster.nodes, m.id = x →
            m.replica.hasApplied u.id = true) ∧
      ∀ x k, 0 < k → k ≤ n.history.delivered.contiguous.get x →
        (∃ u ∈ h.updates, u.origin = x ∧ u.sequence = k) ∧
          ∀ u ∈ h.updates, u.origin = x → u.sequence = k → n.replica.hasApplied u.id = true := by
  intro n hn
  have hw := coherent hp hids
  obtain ⟨i, hi⟩ := List.getElem?_of_mem hn
  refine ⟨fun x f hf => ?_, fun id u hg hd => ?_, fun x k hk hle => ⟨?_, ?_⟩⟩
  · have hreached := hw.attested.peers n hn x f hf
    refine ⟨?_, fun m hm hid => hreached.le hw.sourced hm hid⟩
    obtain ⟨m, hm, hid, _⟩ := hreached
    exact ⟨m, hm, hid⟩
  · obtain ⟨_, hu⟩ := hw.sourced.retained i n hi id u hg
    exact hw.applied_of_isStable hn hu (Node.isStable_of_dropped hg hd)
  · obtain ⟨u, hu, ho, hs⟩ := (hw.charted i n hi).delivered.exists_of_le hk hle
    exact ⟨u, hw.sourced.merged i u hu, ho, hs⟩
  · rintro u hu rfl rfl
    exact hw.applied_of_le hi hu hle

/-- An update has come to all nodes, and all have announced it; one announcement comes late. -/
theorem applied_of_dropped_late :
    ∃ h : Chronicle, (new .default .standard (.ofStream Uuid.ofNat)).performAll
        [.submit 0 [.increment "edits" 2], .run, .cutOff [2] none, .announceFrontiers, .run,
          .submit 1 [.increment "edits" 3], .heal, .run] = .ok h ∧ h.ids.Nodup ∧
      ∃ n ∈ h.cluster.nodes, ∃ u ∈ n.retainedUpdates, n.id = "node-1" ∧ u.origin = "node-0" ∧
        n.collectGarbage.2.history.get? u.id = none ∧
        ∀ m ∈ h.cluster.nodes, m.id = "node-2" → m.replica.hasApplied u.id = true := by
  obtain ⟨h, hp, ht⟩ := @exists_of_endsWith _ _ ((new .default .standard
      (.ofStream Uuid.ofNat)).performAll
        [.submit 0 [.increment "edits" 2], .run, .cutOff [2] none, .announceFrontiers, .run,
          .submit 1 [.increment "edits" 3], .heal, .run])
    (fun h => h.ids.Nodup ∧ ∃ n ∈ h.cluster.nodes, ∃ u ∈ n.retainedUpdates, n.id = "node-1" ∧
      u.origin = "node-0" ∧ n.history.get? u.id = some u ∧
      n.collectGarbage.2.history.get? u.id = none ∧
      (n.stability.peerFrontier? "node-2").isSome = true) (by decide +kernel)
  obtain ⟨hids, n, hn, u, hu, hid, ho, hg, hd, hpeer⟩ := of_decide_eq_true ht
  obtain ⟨f, hf⟩ := Option.isSome_iff_exists.1 hpeer
  refine ⟨h, hp, hids, n, hn, u, hu, hid, ho, hd, ?_⟩
  exact ((applied_of_dropped hp hids n hn).2.1 u.id u hg hd).2 "node-2" f hf

/-- When nothing is on its way and all announce their frontiers, all have told of all updates. -/
theorem announces_of_announceFrontiers (hw : h.world.Coherent) (hids : h.ids.Nodup)
    (hj : h.JoinsInTime) (hq : h.cluster.network.isQuiescent = true) (hc : h.cluster.Sound)
    (hp : h.perform .announceFrontiers = .ok h') : h'.world.Announces := by
  obtain ⟨reply, hrun, _⟩ := perform_eq_ok hp
  obtain ⟨c, hrun, he⟩ := map_eq_ok hrun
  cases he
  have hu : h'.world.updates = h.world.updates :=
    congrArg (List.filterMap _) (submissions_perform hp (by simp))
  have hs := @Cluster.announceFrontiers_sends _ _ h.trace [] hc hrun
  have ht : h.world.transit = [] := Network.transit_eq_nil_iff.2 hq
  have hnodes : h'.world.nodes = h.world.nodes := hs.nodes
  intro n hn
  rw [hnodes] at hn
  obtain ⟨i, hi⟩ := List.getElem?_of_mem hn
  refine ⟨n.history.delivered.contiguous, fun u hu' => ?_,
    ⟨n, hnodes ▸ hn, rfl, VectorClock.le_refl _⟩, fun j m hj => ?_⟩
  · rw [hu] at hu'
    exact hw.sequence_le ht (not_not_intro hj) hids hi hu'
  · -- A node knows its own frontier, and is sent those of all others.
    rw [hnodes] at hj
    by_cases hid : m.id = n.id
    · exact .inl (.inl (hid.symm.trans (hw.charted j m hj).monitor.node.symm))
    · refine .inr ⟨⟨n.id, m.id, n.frontierAnnouncement⟩, (hs.transit _).2 (.inl ?_), rfl, rfl⟩
      refine List.mem_flatMap.2 ⟨n, hn, ?_⟩
      rw [List.flatMap_singleton]
      exact World.mem_toOthers ⟨m, List.mem_of_getElem? hj, rfl⟩ hid

theorem announces_of_runs (hp : (new config classifier ids).performAll commands = .ok h)
    (hids : h.ids.Nodup) (hj : h.JoinsInTime) (hq : h.cluster.network.isQuiescent = true)
    {runs : Nat} (hp' : h.performAll (.announceFrontiers :: List.replicate runs .run) = .ok h') :
    h'.world.Coherent ∧ h'.world.Announces := by
  have hw := coherent hp hids
  obtain ⟨hc, _⟩ := performAll_steps (sound_new config classifier ids) hp
  obtain ⟨mid, hm, hruns⟩ := bind_eq_ok hp'
  obtain ⟨hmc, hsteps⟩ := perform_steps hc hm
  obtain ⟨_, hsteps'⟩ := performAll_steps hmc hruns
  obtain ⟨hlen, hsub⟩ := performAll_runs hruns
  have hidsmid : mid.ids.Nodup := ids_eq (submissions_perform hm (by simp)) ▸ hids
  have hids' : h'.ids.Nodup := ids_eq hsub ▸ hidsmid
  have hmid : mid.world.Coherent := hsteps.coherent hw hidsmid
  have hannounces := announces_of_announceFrontiers hw hids hj hq hc hm
  exact ⟨hsteps'.coherent hmid hids',
    hannounces.steps hsteps' hmid hids' hlen (congrArg (List.filterMap _) hsub)⟩

/-- Collection is complete. When nothing is on its way and all nodes announce their frontiers, as
soon as nothing is on its way again a collection drops all that is retained. -/
theorem collectGarbage_of_announced (hp : (new config classifier ids).performAll commands = .ok h)
    (hids : h.ids.Nodup) (hj : h.JoinsInTime) (hq : h.cluster.network.isQuiescent = true)
    {runs : Nat} (hp' : h.performAll (.announceFrontiers :: List.replicate runs .run) = .ok h')
    (hq' : h'.cluster.network.isQuiescent = true) :
    (∀ n ∈ h'.cluster.collectGarbage.2.nodes, n.retainedUpdates = []) ∧
      h'.cluster.collectGarbage.1 =
        (h'.cluster.nodes.map fun n => n.retainedUpdates.length).sum := by
  obtain ⟨hw, hannounces⟩ := announces_of_runs hp hids hj hq hp'
  have ht : h'.world.transit = [] := Network.transit_eq_nil_iff.2 hq'
  have hempty : ∀ n ∈ h'.cluster.nodes, n.collectGarbage.2.retainedUpdates = [] := by
    intro n hn
    obtain ⟨i, hi⟩ := List.getElem?_of_mem hn
    apply Node.retained_collectGarbage
    intro u hu
    exact hannounces.isStable hw ht hi (hw.sourced.mem_of_retained hn hu)
  rw [Cluster.nodes_collectGarbage, Cluster.collectGarbage_fst]
  constructor
  · intro n hn
    obtain ⟨m, hm, rfl⟩ := List.mem_map.1 hn
    exact hempty m hm
  · apply congrArg List.sum
    apply List.map_congr_left
    intro n hn
    exact CausalHistory.prune_eq_length (hempty n hn)

/-- Three updates are retained by each of four nodes, of which one joined in between. -/
theorem collectGarbage_of_announced_joined :
    ∃ h h' : Chronicle, (new .default .standard (.ofStream Uuid.ofNat)).performAll
        [.submit 0 [.increment "edits" 2], .submit 1 [.insert "tags" "new"], .addNode, .settle,
          .submit 3 [.increment "edits" 3, .overwrite "title" "draft"], .settle] = .ok h ∧
      h.performAll [.announceFrontiers, .run] = .ok h' ∧ h.ids.Nodup ∧ h.JoinsInTime ∧
      h.cluster.network.isQuiescent = true ∧ h'.cluster.network.isQuiescent = true ∧
      (∀ n ∈ h'.cluster.collectGarbage.2.nodes, n.retainedUpdates = []) ∧
      h'.cluster.collectGarbage.1 = 12 := by
  obtain ⟨h, h', hp, hp', ht⟩ := @exists_pair_of_endsWith _ _ _ ((new .default .standard
      (.ofStream Uuid.ofNat)).performAll
        [.submit 0 [.increment "edits" 2], .submit 1 [.insert "tags" "new"], .addNode, .settle,
          .submit 3 [.increment "edits" 3, .overwrite "title" "draft"], .settle])
    (·.performAll [.announceFrontiers, .run])
    (fun r => r.1.ids.Nodup ∧ r.1.JoinsInTime ∧ r.1.cluster.network.isQuiescent = true ∧
      r.2.cluster.network.isQuiescent = true ∧
      (r.2.cluster.nodes.map fun n => n.retainedUpdates.length) = [3, 3, 3, 3])
    (by decide +kernel)
  obtain ⟨hids, hj, hq, hq', hn⟩ := of_decide_eq_true ht
  have hruns : h.performAll (.announceFrontiers :: List.replicate 1 .run) = .ok h' := hp'
  have hmain := collectGarbage_of_announced hp hids hj hq hruns hq'
  rw [hn] at hmain
  exact ⟨h, h', hp, hp', hids, hj, hq, hq', hmain⟩

end Chronicle
end Confluence
