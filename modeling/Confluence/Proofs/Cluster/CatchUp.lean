import Confluence.Proofs.Cluster.Collection

namespace Confluence

/-- The node at a position is in the same state and waits for the same slot as all others. -/
def Cluster.HasCaughtUp (c : Cluster) (index : Nat) : Prop :=
  ∃ m ∈ c.nodes[index]?, ∀ n ∈ c.nodes, n.state = m.state ∧
    n.decisions.nextSlot = m.decisions.nextSlot

instance (c : Cluster) (index : Nat) : Decidable (c.HasCaughtUp index) :=
  inferInstanceAs (Decidable (∃ m ∈ c.nodes[index]?, _))

namespace World
variable {w : World}

theorem Coherent.forget (h : w.Coherent) {collected : Nat}
    (hc : ∀ u ∈ w.updates, w.Covers (.update u))
    (hr : collected = 0 → ∀ u ∈ w.updates, ∃ n ∈ w.nodes, u ∈ n.retainedUpdates) :
    { w with collected, late := False }.Coherent where
  ordered := ⟨h.ordered.isLog, h.ordered.sent, h.ordered.decided, h.ordered.nodes,
    h.ordered.positions⟩
  sourced := ⟨h.sourced.names, h.sourced.classifiers, h.sourced.sent, h.sourced.retained,
    h.sourced.merged, h.sourced.distinct⟩
  charted := h.charted
  causal := h.causal
  attested := ⟨h.attested.peers, h.attested.sent⟩
  gossiped := by
    refine ⟨fun _ => hc, fun h0 u hu => ?_⟩
    obtain ⟨n, hn, hu'⟩ := hr h0 u hu
    obtain ⟨i, hi⟩ := List.getElem?_of_mem hn
    obtain ⟨id, hg⟩ := CausalHistory.mem_retained.1 hu'
    obtain ⟨rfl, _⟩ := h.sourced.retained i n hi id u hg
    exact ⟨i, n, hi, hg⟩

end World

namespace Chronicle
variable {config : ClusterConfig} {classifier : Classifier} {ids : IdSupply}
  {commands : List Cluster.Command} {command : Cluster.Command} {h h' : Chronicle}

/-- Every update is retained by some node. -/
def Retained (h : Chronicle) : Prop := ∀ u ∈ h.updates, ∃ n ∈ h.cluster.nodes, u ∈ n.retainedUpdates

instance (h : Chronicle) : Decidable h.Retained :=
  inferInstanceAs (Decidable (∀ u ∈ h.updates, ∃ n ∈ h.cluster.nodes, u ∈ n.retainedUpdates))

/-- Whenever a node joined, every update was retained by some node. -/
def RetainedAtJoins (h : Chronicle) : Prop :=
  ∀ (i : Nat) (hi : i < h.past.length), h.past[i].command = .addNode →
    (⟨h.past[i].before, h.past.take i⟩ : Chronicle).Retained

instance (h : Chronicle) : Decidable h.RetainedAtJoins :=
  inferInstanceAs (Decidable (∀ (i : Nat) (_ : i < h.past.length), _ → _))

theorem RetainedAtJoins.of_perform (hr : h'.RetainedAtJoins) (hp : h.perform command = .ok h') :
    h.RetainedAtJoins ∧ (command = .addNode → h.Retained) := by
  obtain ⟨reply, _, hpast⟩ := perform_eq_ok hp
  unfold RetainedAtJoins at hr
  rw [hpast] at hr
  constructor
  · intro i hi hc
    have := hr i (by rw [List.length_append]; omega)
    rw [List.getElem_append_left hi, List.take_append_of_le_length (Nat.le_of_lt hi)] at this
    exact this hc
  · intro hc
    have := hr h.past.length (by simp)
    simp only [List.getElem_concat_length, List.take_left] at this
    exact this hc

/-- The updates are bound for all nodes after a command if they were before it and, when a node
joins, all are retained. -/
theorem covers_perform (hw : h.world.Coherent) (hs : h.cluster.Sound)
    (hc : ∀ u ∈ h.world.updates, h.world.Covers (.update u))
    (hr : command = .addNode → h.Retained) (hp : h.perform command = .ok h')
    (hids : h'.ids.Nodup) : ∀ u ∈ h'.world.updates, h'.world.Covers (.update u) := by
  obtain ⟨reply, hrun, hpast⟩ := perform_eq_ok hp
  -- What was dropped matters when a node joins, and then nothing is missing.
  let t : Trace := { h.trace with
    collected := if command = .addNode then 0 else 1
    late := False }
  let t' := t.record ⟨h.cluster, command, reply⟩
  have hforget : (h.cluster.world [] t).Coherent := by
    apply hw.forget hc
    intro h0
    split at h0
    · next hj => exact hr hj
    · cases h0
  have hsteps : World.Steps (h.cluster.world [] t) (h'.cluster.world [] t') :=
    (record_steps hs hrun t).2
  have hsubmissions : t'.submissions = h'.submissions :=
    (congrArg Trace.submissions (trace_of_past hpast)).symm
  have hlate : ¬ t'.late := by
    rintro (hl | ⟨hj, hpos⟩)
    · exact hl
    · have hj : command = .addNode := hj
      simp [t, hj] at hpos
  have hcoherent : (h'.cluster.world [] t').Coherent := hsteps.coherent hforget (by
    change (t'.submissions.flatMap (·.ids)).Nodup
    rw [hsubmissions]
    exact hids)
  intro u hu
  refine hcoherent.gossiped.covered hlate u ?_
  change u ∈ t'.submissions.filterMap fun s => s.submission.update
  rw [hsubmissions]
  exact hu

theorem covers (hp : (new config classifier ids).performAll commands = .ok h)
    (hids : h.ids.Nodup) (hr : h.RetainedAtJoins) :
    ∀ u ∈ h.world.updates, h.world.Covers (.update u) := by
  induction commands using List.reverseRecOn generalizing h with
  | nil =>
    cases hp
    intro u hu
    cases hu
  | append_singleton commands command ih =>
    unfold performAll at hp
    rw [List.foldlM_append] at hp
    obtain ⟨mid, hm, hp⟩ := bind_eq_ok hp
    obtain ⟨h', hp, he⟩ := bind_eq_ok hp
    cases he
    obtain ⟨hs, _⟩ := performAll_steps (sound_new config classifier ids) hm
    obtain ⟨_, hsteps⟩ := perform_steps hs hp
    have hmid : mid.ids.Nodup := hsteps.nodup_ids hids
    obtain ⟨hr, hjoin⟩ := hr.of_perform hp
    exact covers_perform (coherent hm hmid) hs (ih hm hmid hr) hjoin hp hids

theorem performAll_addNode {runs : Nat}
    (hp : h.performAll (.addNode :: .heal :: List.replicate runs .run) = .ok h')
    (hn : h.cluster.network.Numbered) :
    h'.cluster.nodes.length = h.cluster.nodes.length + 1 := by
  obtain ⟨joined, hj, hp⟩ := bind_eq_ok hp
  obtain ⟨healed, hh, hp⟩ := bind_eq_ok hp
  obtain ⟨_, hj, _⟩ := perform_eq_ok hj
  obtain ⟨⟨index, c⟩, hj, he⟩ := map_eq_ok hj
  cases he
  obtain ⟨_, hh, _⟩ := perform_eq_ok hh
  obtain ⟨d, hh, he⟩ := map_eq_ok hh
  cases he
  have hs := @Cluster.addNode_sends _ _ h.trace [] index hn hj
  rw [(performAll_runs hp).1, (Cluster.heal_sends hs.numbered hh).nodes, hs.nodes]
  exact List.length_append

/-- A node that joins after some commands does not catch up with the others, though partitions are
healed and nothing is left on its way, and though `p` is the case. -/
def LeavesBehind (classifier : Classifier) (ids : IdSupply) (commands : List Cluster.Command)
    (p : Chronicle → Prop) : Prop :=
  ∃ h h' : Chronicle, (new .default classifier ids).performAll commands = .ok h ∧
    h.performAll [.addNode, .heal, .run] = .ok h' ∧ h'.cluster.network.isQuiescent = true ∧
    ¬ h'.cluster.HasCaughtUp h.cluster.nodes.length ∧ p h'

theorem leavesBehind_of_endsWith {p : Chronicle → Prop} [DecidablePred p]
    (hr : endsWith ((new .default classifier ids).performAll commands >>= fun h =>
      (h.performAll [.addNode, .heal, .run]).map (h, ·)) (fun r =>
        r.2.cluster.network.isQuiescent = true ∧
          ¬ r.2.cluster.HasCaughtUp r.1.cluster.nodes.length ∧ p r.2) = true) :
    LeavesBehind classifier ids commands p := by
  obtain ⟨h, h', hp, hp', ht⟩ := exists_pair_of_endsWith hr
  exact ⟨h, h', hp, hp', of_decide_eq_true ht⟩

/-- A newcomer misses an update that all nodes have dropped. It does not catch up either where the
others do not agree: when updates assign registers, or an identifier is given out twice. -/
theorem leavesBehind_dropped :
    LeavesBehind .standard (.ofStream Uuid.ofNat)
      [.submit 0 [.increment "edits" 1], .settle, .announceFrontiers, .run, .collectGarbage]
      (fun h => h.ids.Nodup) ∧
    LeavesBehind ⟨.ofList [("overwrite", ⟨.register, .semilattice⟩)]⟩ (.ofStream Uuid.ofNat)
      [.submit 0 [.overwrite "title" "draft"], .submit 1 [.overwrite "title" "final"], .run]
      (fun h => h.ids.Nodup ∧ h.RetainedAtJoins) ∧
    LeavesBehind .standard (.ofStream fun _ => Uuid.ofNat 1)
      [.submit 0 [.increment "edits" 1], .submit 1 [.increment "edits" 2], .run]
      (fun h => h.RetainedAtJoins) :=
  ⟨leavesBehind_of_endsWith (by decide +kernel), leavesBehind_of_endsWith (by decide +kernel),
    leavesBehind_of_endsWith (by decide +kernel)⟩

/-- A newcomer catches up if every update is retained by some node when it joins, as at all earlier
joins: once partitions are healed and nothing is left on its way, it is in the same state as all
others and waits for the same slot. -/
theorem hasCaughtUp_of_retained (hc : classifier.Registered)
    (hp : (new config classifier ids).performAll commands = .ok h) {runs : Nat}
    (hp' : h.performAll (.addNode :: .heal :: List.replicate runs .run) = .ok h')
    (hids : h'.ids.Nodup) (hr : h'.RetainedAtJoins)
    (hq : h'.cluster.network.isQuiescent = true) :
    h'.cluster.nodes.length = h.cluster.nodes.length + 1 ∧
      h'.cluster.HasCaughtUp h.cluster.nodes.length ∧ h'.cluster.isConverged = true := by
  have hall : (new config classifier ids).performAll
      (commands ++ .addNode :: .heal :: List.replicate runs .run) = .ok h' := by
    unfold performAll at hp hp' ⊢
    rw [List.foldlM_append, hp]
    exact hp'
  have hw := invariant hc hall hids
  have hcovers := covers hall hids hr
  have ht : h'.world.transit = [] := Network.transit_eq_nil_iff.2 hq
  have hsound := (performAll_steps (sound_new config classifier ids) hp).1
  have hlen := performAll_addNode hp' hsound.numbered
  have hagree : ∀ n ∈ h'.cluster.nodes,
      n.state = .ofHistory h'.world.classifier h'.world.updates h'.world.log ∧
        n.decisions.nextSlot = h'.world.log.length.toUInt64 := by
    intro n hn
    obtain ⟨i, hi⟩ := List.getElem?_of_mem hn
    exact ⟨hw.state_of_covers hids ht rfl hcovers hi, hw.nextSlot ht rfl hi⟩
  refine ⟨hlen, ?_, Cluster.isConverged_of_agree _ _ fun n hn =>
    ⟨congrArg ReplicaState.digest (hagree n hn).1, (hagree n hn).2⟩⟩
  obtain ⟨m, hm⟩ : ∃ m, h'.cluster.nodes[h.cluster.nodes.length]? = some m :=
    ⟨_, List.getElem?_eq_getElem (by omega)⟩
  refine ⟨m, hm, fun n hn => ?_⟩
  obtain ⟨hs, hd⟩ := hagree n hn
  obtain ⟨hs', hd'⟩ := hagree m (List.mem_of_getElem? hm)
  exact ⟨hs.trans hs'.symm, hd.trans hd'.symm⟩

/-- One of three nodes has dropped an update that the others still retain. -/
theorem hasCaughtUp_of_retained_elsewhere :
    ∃ h h' : Chronicle, (new .default .standard (.ofStream Uuid.ofNat)).performAll
        [.submit 0 [.increment "edits" 2, .overwrite "title" "draft"], .settle,
          .announceFrontiers, .step, .step, .step, .step, .collectGarbage] = .ok h ∧
      h.performAll [.addNode, .heal, .run] = .ok h' ∧ h'.ids.Nodup ∧ ¬ h'.JoinsInTime ∧
      h'.cluster.network.isQuiescent = true ∧ h'.cluster.nodes.length = 4 ∧
      h'.cluster.HasCaughtUp 3 ∧ h'.cluster.isConverged = true := by
  obtain ⟨h, h', hp, hp', ht⟩ := @exists_pair_of_endsWith _ _ _ ((new .default .standard
      (.ofStream Uuid.ofNat)).performAll
        [.submit 0 [.increment "edits" 2, .overwrite "title" "draft"], .settle,
          .announceFrontiers, .step, .step, .step, .step, .collectGarbage])
    (·.performAll [.addNode, .heal, .run])
    (fun r => r.2.ids.Nodup ∧ ¬ r.2.JoinsInTime ∧ r.2.RetainedAtJoins ∧
      r.2.cluster.network.isQuiescent = true ∧ r.1.cluster.nodes.length = 3)
    (by decide +kernel)
  obtain ⟨hids, hlate, hretained, hq, hn⟩ := of_decide_eq_true ht
  have hruns : h.performAll (.addNode :: .heal :: List.replicate 1 .run) = .ok h' := hp'
  have hmain := hasCaughtUp_of_retained .standard hp hruns hids hretained hq
  rw [hn] at hmain
  exact ⟨h, h', hp, hp', hids, hlate, hq, hmain⟩

end Chronicle
end Confluence
