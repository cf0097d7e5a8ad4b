import Confluence.Proofs.Cluster.Spread

namespace Confluence

namespace World
variable {w w' : World} {i : Nat} {n : Node}

structure Invariant (w : World) : Prop where
  ordered : w.Ordered
  informed : w.Informed
  accounted : w.Accounted
  announced : w.Announced
  gossiped : w.Gossiped

theorem IsNew.invariant (h : w.IsNew) : w.Invariant where
  ordered := h.ordered
  informed := h.informed
  accounted := h.accounted
  announced d hd := by
    rw [h.log] at hd
    cases hd
  gossiped := h.gossiped

theorem Invariant.step (h : w.Invariant) (hc : w.classifier.Registered) (hs : Step w w')
    (hids : w'.ids.Nodup) : w'.Invariant where
  ordered := h.ordered.step hs
  informed := h.informed.step h.ordered hc hs hids
  accounted := h.accounted.step hs hids
  announced := h.announced.step h.ordered h.informed.toSourced h.accounted hs
  gossiped := h.gossiped.step h.ordered h.informed.toSourced hs hids

theorem Steps.invariant (hs : Steps w w') (hw : w.IsNew) (hc : w.classifier.Registered)
    (hids : w'.ids.Nodup) : w'.Invariant ∧ w'.classifier = w.classifier := by
  induction hs with
  | refl => exact ⟨hw.invariant, rfl⟩
  | tail _ hstep ih =>
    obtain ⟨h, he⟩ := ih (hstep.nodup_ids hids)
    exact ⟨h.step (he ▸ hc) hstep hids, hstep.classifier.trans he⟩

theorem Covers.has {m : Message} (h : w.Covers m) (ht : w.transit = [])
    (hi : w.nodes[i]? = some n) : n.Has m := by
  rcases h i n hi with hh | ⟨e, he, _⟩
  · exact hh
  · rw [ht] at he
    cases he

theorem Invariant.consumed (h : w.Invariant) (ht : w.transit = []) (ho : w.outcomes = [])
    (hi : w.nodes[i]? = some n) :
    n.decisions.consumed = w.log.length ∧ n.decisions.waiting = .empty := by
  refine (h.ordered.nodes i n hi).1.complete h.ordered.isLog fun d hd => ?_
  rcases h.announced d hd with hc | ⟨q, hq⟩
  · exact hc.has ht hi
  · rw [ho] at hq
    cases hq

theorem Invariant.merged (h : w.Invariant) (hids : w.ids.Nodup) (ht : w.transit = [])
    (hc : ∀ u ∈ w.updates, w.Covers (.update u)) (hi : w.nodes[i]? = some n) :
    (Change.updates (w.changesAt i)).Perm w.updates := by
  have hm := List.Nodup.of_map _ (h.informed.distinct i)
  have hu := List.Nodup.of_map _ (Trace.nodup_updates hids)
  refine (List.perm_ext_iff_of_nodup hm hu).2 fun u => ⟨h.informed.merged i u, fun hu' => ?_⟩
  have ha : n.replica.hasApplied u.id = true := (hc u hu').has ht hi
  obtain ⟨v, hv, he⟩ := (h.ordered.hasApplied hi u.id).1 ha
  rwa [← Trace.eq_of_update_id hids (h.informed.merged i v hv) hu' he]

theorem Invariant.state_of_covers (h : w.Invariant) (hids : w.ids.Nodup) (ht : w.transit = [])
    (ho : w.outcomes = []) (hc : ∀ u ∈ w.updates, w.Covers (.update u))
    (hi : w.nodes[i]? = some n) : n.state = .ofHistory w.classifier w.updates w.log := by
  rw [h.informed.state h.ordered hi, (h.consumed ht ho hi).1, List.take_length]
  exact ReplicaState.ofHistory_perm (h.merged hids ht hc hi)
    fun u hu => h.informed.free u (h.informed.merged i u hu)

theorem Invariant.state (h : w.Invariant) (hids : w.ids.Nodup) (ht : w.transit = [])
    (ho : w.outcomes = []) (hl : ¬ w.late) (hi : w.nodes[i]? = some n) :
    n.state = .ofHistory w.classifier w.updates w.log :=
  h.state_of_covers hids ht ho (h.gossiped.covered hl) hi

theorem Invariant.nextSlot (h : w.Invariant) (ht : w.transit = []) (ho : w.outcomes = [])
    (hi : w.nodes[i]? = some n) : n.decisions.nextSlot = w.log.length.toUInt64 := by
  have hf := (h.ordered.nodes i n hi).1
  rw [← (h.consumed ht ho hi).1, ← hf.toNat_nextSlot h.ordered.isLog]
  exact UInt64.ofNat_toNat.symm

end World

theorem Cluster.isConverged_of_agree {c : Cluster} (digest : StateDigest) (slot : UInt64)
    (h : ∀ n ∈ c.nodes, n.digest = digest ∧ n.decisions.nextSlot = slot) : c.isConverged = true := by
  unfold isConverged
  cases hn : c.nodes with
  | nil => rfl
  | cons first rest =>
    rw [hn] at h
    obtain ⟨hd, hs⟩ := h first List.mem_cons_self
    refine List.all_eq_true.2 fun n hn => ?_
    obtain ⟨hd', hs'⟩ := h n (List.mem_cons_of_mem _ hn)
    rw [hd, hs, hd', hs']
    simp

namespace Chronicle
variable {config : ClusterConfig} {classifier : Classifier} {ids : IdSupply}
  {commands : List Cluster.Command} {h : Chronicle}

theorem invariant (hc : classifier.Registered)
    (hp : (new config classifier ids).performAll commands = .ok h) (hids : h.ids.Nodup) :
    h.world.Invariant :=
  ((performAll_steps (sound_new config classifier ids) hp).2.invariant
    (world_new config classifier ids) hc hids).1

/-- Convergence at quiescence. Whatever was done in whatever order, once nothing is queued or parked
in the network all nodes are in one state and have consumed the whole log, unless a node joined
after updates were dropped. -/
theorem converged_of_isQuiescent (hc : classifier.Registered)
    (hp : (new config classifier ids).performAll commands = .ok h) (hids : h.ids.Nodup)
    (hj : h.JoinsInTime) (hq : h.cluster.network.isQuiescent = true) :
    (∀ m ∈ h.cluster.nodes, ∀ n ∈ h.cluster.nodes, m.state = n.state) ∧
      (∀ n ∈ h.cluster.nodes, n.decisions.waiting = .empty ∧
        n.decisions.nextSlot.toNat = h.cluster.sequencer.log.length) ∧
      h.cluster.isConverged = true := by
  have hw := invariant hc hp hids
  have ht : h.world.transit = [] := Network.transit_eq_nil_iff.2 hq
  have hl : ¬ h.world.late := not_not_intro hj
  have hstate : ∀ n ∈ h.cluster.nodes,
      n.state = .ofHistory h.world.classifier h.world.updates h.world.log := by
    intro n hn
    obtain ⟨i, hi⟩ := List.getElem?_of_mem hn
    exact hw.state hids ht rfl hl hi
  have hnext : ∀ n ∈ h.cluster.nodes,
      n.decisions.nextSlot.toNat = h.cluster.sequencer.log.length ∧
        n.decisions.waiting = .empty := by
    intro n hn
    obtain ⟨i, hi⟩ := List.getElem?_of_mem hn
    obtain ⟨hc, hwaiting⟩ := hw.consumed ht rfl hi
    have hf := (hw.ordered.nodes i n hi).1
    exact ⟨(hf.toNat_nextSlot hw.ordered.isLog).trans hc, hwaiting⟩
  refine ⟨fun m hm n hn => (hstate m hm).trans (hstate n hn).symm,
    fun n hn => (hnext n hn).symm, ?_⟩
  refine Cluster.isConverged_of_agree
    (ReplicaState.ofHistory h.world.classifier h.world.updates h.world.log).digest
    h.cluster.sequencer.log.length.toUInt64 ?_
  intro n hn
  refine ⟨congrArg ReplicaState.digest (hstate n hn), ?_⟩
  rw [← (hnext n hn).1]
  exact UInt64.ofNat_toNat.symm

/-- Two nodes work on while the third is cut off; a fourth joins, and then the partition heals. -/
theorem converged_of_isQuiescent_partition :
    ∃ h : Chronicle, (new .default .standard (.ofStream Uuid.ofNat)).performAll
        [.submit 0 [.increment "edits" 2, .overwrite "title" "draft"], .cutOff [2] none, .settle,
          .submit 1 [.insert "tags" "new", .overwrite "title" "final"], .addNode,
          .submit 2 [.increment "edits" 3], .settle, .heal, .run] = .ok h ∧
      h.ids.Nodup ∧ h.JoinsInTime ∧ h.cluster.network.isQuiescent = true ∧
      h.cluster.nodes.length = 4 ∧ h.cluster.sequencer.log.length = 2 ∧
      h.cluster.isConverged = true := by
  obtain ⟨h, hp, ht⟩ := @exists_of_endsWith _ _ ((new .default .standard
      (.ofStream Uuid.ofNat)).performAll
        [.submit 0 [.increment "edits" 2, .overwrite "title" "draft"], .cutOff [2] none, .settle,
          .submit 1 [.insert "tags" "new", .overwrite "title" "final"], .addNode,
          .submit 2 [.increment "edits" 3], .settle, .heal, .run])
    (fun h => h.ids.Nodup ∧ h.JoinsInTime ∧ h.cluster.network.isQuiescent = true ∧
      h.cluster.nodes.length = 4 ∧ h.cluster.sequencer.log.length = 2) (by decide +kernel)
  obtain ⟨hids, hj, hq, hn, hl⟩ := of_decide_eq_true ht
  exact ⟨h, hp, hids, hj, hq, hn, hl, (converged_of_isQuiescent .standard hp hids hj hq).2.2⟩

end Chronicle
end Confluence
