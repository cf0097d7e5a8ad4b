import Confluence.Proofs.Cluster.Coherence
import Confluence.Proofs.Cluster.Convergence

namespace Confluence.Chronicle
variable {config : ClusterConfig} {classifier : Classifier} {ids : IdSupply}
  {commands : List Cluster.Command} {h : Chronicle} {index : Nat} {n : Node}

/-- What the node at a position has applied of the log, and what it keeps for later. -/
structure FollowsLog (h : Chronicle) (index : Nat) (n : Node) : Prop where
  decisions : Change.decisions (h.changes index) =
    h.cluster.sequencer.log.take n.decisions.nextSlot.toNat
  bounded : n.decisions.nextSlot.toNat ≤ h.cluster.sequencer.log.length
  distinct : ((Change.decisions (h.changes index)).map (·.proposal.id)).Nodup
  waiting : ∀ (slot : UInt64) (d : Decision), n.decisions.waiting.find? slot = some d →
    n.decisions.nextSlot < slot ∧ d.slot = slot ∧ h.cluster.sequencer.log[slot.toNat]? = some d
  state : n.state = .replay n.classifier (h.changes index)

/-- What the changes of a node amount to. It merges no update twice, and every key is what the
operations of the updates merged and of the decisions applied make of it, each of them once. -/
structure Amounts (h : Chronicle) (index : Nat) (n : Node) : Prop where
  updates : ∀ u ∈ Change.updates (h.changes index), u ∈ h.updates
  distinct : ((Change.updates (h.changes index)).map (·.id)).Nodup
  keys (k : Key) : (n.state.get k).Reflects
    (Operation.payloadsOn k ((h.changes index).flatMap (·.operations)))

theorem followsLog (hp : (new config classifier ids).performAll commands = .ok h)
    (hi : h.cluster.nodes[index]? = some n) : h.FollowsLog index n := by
  have ho := ordered hp
  have hlog : Decision.IsLog h.cluster.sequencer.log := ho.isLog
  obtain ⟨hf, hl, hd⟩ := ho.nodes index n hi
  have hnext : n.decisions.nextSlot.toNat = n.decisions.consumed := hf.toNat_nextSlot hlog
  have hdecisions : Change.decisions (h.changes index) =
      h.cluster.sequencer.log.take n.decisions.nextSlot.toNat := hnext ▸ hd
  refine ⟨hdecisions, hnext ▸ hf.consumed_le, ?_, ?_, hl.state⟩
  · rw [hdecisions, List.map_take]
    exact hlog.ids.sublist (List.take_sublist _ _)
  · intro slot d hw
    obtain ⟨hs, hlt⟩ := hf.waits slot d hw
    refine ⟨UInt64.lt_iff_toNat_lt.2 (hnext.symm ▸ hlt), hs, ?_⟩
    rw [← hs]
    exact hlog.getElem?_slot (hf.waiting slot d hw)

theorem FollowsLog.amounts (hn : h.FollowsLog index n) (hw : h.world.Sourced) :
    h.Amounts index n where
  updates := hw.merged index
  distinct := hw.distinct index
  keys k := by
    rw [hn.state]
    exact ReplicaState.reflects_replay (hw.distinct index) k

theorem FollowsLog.register (hn : h.FollowsLog index n) (hw : h.world.Informed) (k : Key) :
    (n.state.get k).register =
      ((Operation.payloadsOn k ((h.cluster.sequencer.log.take n.decisions.nextSlot.toNat).flatMap
        (·.proposal.operations))).filterMap Payload.value?).getLast? := by
  rw [hn.state, ← hn.decisions]
  exact ReplicaState.register_replay (fun u hu => hw.free u (hw.merged index u hu))
    (hw.distinct index) k

/-- Agreement on one order, at every moment. What a node has applied is the prefix of the log up to
its next slot, no proposal twice, and what it keeps for later is what the log has at the slot, further
on. Every operation of what it has applied and merged takes effect once; a register has the value that
the prefix assigns to it last, if no update assigns one. -/
theorem applied_prefix_of_log (hp : (new config classifier ids).performAll commands = .ok h) :
    (∀ (i : Nat) (n : Node), h.cluster.nodes[i]? = some n → h.FollowsLog i n) ∧
    (h.ids.Nodup → ∀ (i : Nat) (n : Node), h.cluster.nodes[i]? = some n → h.Amounts i n ∧
      (classifier.Registered → ∀ k, (n.state.get k).register =
        ((Operation.payloadsOn k ((h.cluster.sequencer.log.take n.decisions.nextSlot.toNat).flatMap
          (·.proposal.operations))).filterMap Payload.value?).getLast?)) ∧
    ∀ (i j : Nat) (m n : Node), h.cluster.nodes[i]? = some m → h.cluster.nodes[j]? = some n →
      Change.decisions (h.changes i) <+: Change.decisions (h.changes j) ∨
        Change.decisions (h.changes j) <+: Change.decisions (h.changes i) := by
  refine ⟨fun i n hi => followsLog hp hi, fun hids i n hi => ?_, fun i j m n hi hj => ?_⟩
  · have hn := followsLog hp hi
    exact ⟨hn.amounts (coherent hp hids).sourced,
      fun hc k => hn.register (invariant hc hp hids).informed k⟩
  · rw [(followsLog hp hi).decisions, (followsLog hp hj).decisions]
    rcases Nat.le_total m.decisions.nextSlot.toNat n.decisions.nextSlot.toNat with hle | hle
    · exact .inl (List.take_prefix_take_left hle)
    · exact .inr (List.take_prefix_take_left hle)

/-- A slow link: the last node has the second decision, which it keeps, and not yet the first. The
first node has applied both, so the counter has the delta of the first one and the register the value
of the second one; the last node has an update alone. -/
theorem applied_prefix_of_log_slow_link :
    ∃ h : Chronicle, (new .default .standard (.ofStream Uuid.ofNat)).performAll
        [.setLinkDelay "node-0" "node-2" 9,
          .submit 0 [.increment "title" 4, .overwrite "title" "draft"],
          .submit 1 [.increment "edits" 1, .overwrite "title" "final"], .resolve,
          .step, .step, .step, .step, .step] = .ok h ∧ h.ids.Nodup ∧
      (∃ l m n, h.cluster.nodes = [l, m, n] ∧
        (l.decisions.nextSlot = 2 ∧ (l.state.get "title").counter = some 4 ∧
          (l.state.get "title").register = some "final" ∧
          (l.state.get "edits").counter = some 1) ∧
        (n.decisions.nextSlot = 0 ∧ n.decisions.waiting.size = 1 ∧
          (n.state.get "title").counter = none ∧ (n.state.get "title").register = none ∧
          (n.state.get "edits").counter = some 1)) ∧
      ∀ (i j : Nat) (m n : Node), h.cluster.nodes[i]? = some m → h.cluster.nodes[j]? = some n →
        Change.decisions (h.changes i) <+: Change.decisions (h.changes j) ∨
          Change.decisions (h.changes j) <+: Change.decisions (h.changes i) := by
  obtain ⟨h, hp, ht⟩ := @exists_of_endsWith _ _ ((new .default .standard
      (.ofStream Uuid.ofNat)).performAll
        [.setLinkDelay "node-0" "node-2" 9,
          .submit 0 [.increment "title" 4, .overwrite "title" "draft"],
          .submit 1 [.increment "edits" 1, .overwrite "title" "final"], .resolve,
          .step, .step, .step, .step, .step])
    (fun h => h.ids.Nodup ∧
      h.cluster.nodes.map (fun n => (n.decisions.nextSlot, n.decisions.waiting.size)) =
        [(2, 0), (2, 0), (0, 1)] ∧
      (h.changes 0).flatMap (·.operations) = [.increment "title" 4, .overwrite "title" "draft",
        .increment "edits" 1, .overwrite "title" "final"] ∧
      (h.changes 2).flatMap (·.operations) = [.increment "edits" 1]) (by decide +kernel)
  obtain ⟨hids, hslots, hfirst, hlast⟩ := of_decide_eq_true ht
  obtain ⟨_, heffect, hprefix⟩ := applied_prefix_of_log hp
  obtain ⟨l, m, n, hnodes⟩ := List.length_eq_three.1 (by simpa using congrArg List.length hslots)
  have hl : h.cluster.nodes[0]? = some l := by rw [hnodes]; rfl
  have hn : h.cluster.nodes[2]? = some n := by rw [hnodes]; rfl
  simp only [hnodes, List.map_cons, List.map_nil, List.cons.injEq, Prod.mk.injEq] at hslots
  obtain ⟨⟨hlslot, _⟩, _, ⟨hnslot, hnwaiting⟩, _⟩ := hslots
  obtain ⟨hlkeys, _⟩ := heffect hids 0 l hl
  obtain ⟨hnkeys, hregister⟩ := heffect hids 2 n hn
  have hlkeys := hlkeys.keys
  have hnkeys := hnkeys.keys
  rw [hfirst] at hlkeys
  rw [hlast] at hnkeys
  refine ⟨h, hp, hids, ⟨l, m, n, hnodes, ⟨hlslot, (hlkeys "title").counter,
    (hlkeys "title").register, (hlkeys "edits").counter⟩, hnslot, hnwaiting,
    (hnkeys "title").counter, ?_, (hnkeys "edits").counter⟩, hprefix⟩
  rw [hregister .standard "title", hnslot]
  rfl

end Confluence.Chronicle
