import Confluence.Proofs.Cluster.Causality

namespace Confluence

namespace Cluster

theorem charts_makeNode (id : NodeId) (c : Classifier) (config : NodeConfig)
    (peers : List NodeId) : (makeNode id c config peers).Charts [] := by
  suffices key : ∀ n : Node, n.Charts [] → (peers.foldl Node.registerPeer n).Charts [] from
    key _ (Node.charts_new id c config)
  induction peers with
  | nil => exact fun _ h => h
  | cons p peers ih => exact fun n h => ih _ (h.registerPeer p)

/-- A new node tracks the peers that it is told of, and knows nothing of them. -/
theorem peerFrontier?_makeNode {id x : NodeId} {c : Classifier} {config : NodeConfig}
    {peers : List NodeId} {f : VectorClock}
    (hf : (makeNode id c config peers).stability.peerFrontier? x = some f) :
    x ∈ peers ∧ f ≤ .empty := by
  suffices key : ∀ n : Node,
      (∀ g, n.stability.peerFrontier? x = some g → x ∈ peers ∧ g ≤ .empty) →
      ∀ l : List NodeId, (∀ p ∈ l, p ∈ peers) →
      ∀ g, (l.foldl Node.registerPeer n).stability.peerFrontier? x = some g →
        x ∈ peers ∧ g ≤ .empty from
    key (.new id c config) (fun g hg => by cases hg) peers (fun _ hp => hp) f hf
  intro n hn l hl
  induction l generalizing n with
  | nil => exact hn
  | cons p l ih =>
    apply ih _ _ fun q hq => hl q (List.mem_cons_of_mem _ hq)
    intro g hg
    change (n.stability.updatePeer p .empty).peerFrontier? x = some g at hg
    rw [StabilityMonitor.peerFrontier?_updatePeer] at hg
    split at hg
    · next hx =>
      cases hg
      refine ⟨hx.1 ▸ hl p List.mem_cons_self, VectorClock.merge_le ?_ (VectorClock.le_refl _)⟩
      cases ho : n.stability.peerFrontier? x with
      | none => exact VectorClock.le_refl _
      | some g => exact (hn g ho).2
    · exact hn g hg

end Cluster

/-- Of all that has happened, the updates alone. -/
def Trace.gossip (t : Trace) : Gossip := ⟨t.updates, fun i => Change.updates (t.changesAt i)⟩

theorem Trace.gossip_change (t : Trace) (i : Nat) (es : List Change) :
    { t with changes := t.changes ++ es.map (i, ·) }.gossip =
      { t.gossip with
        merged := fun j => t.gossip.merged j ++ if i = j then Change.updates es else [] } := by
  unfold gossip
  refine congrArg (Gossip.mk _) (funext fun j => ?_)
  rw [World.changesAt_append, Change.updates_append]
  split <;> rfl

theorem Trace.gossip_same (t : Trace) {i : Nat} {es : List Change}
    (hes : Change.updates es = []) :
    { t with changes := t.changes ++ es.map (i, ·) }.gossip = t.gossip := by
  rw [gossip_change, hes]
  simp

namespace World
variable {w w' : World} {i : Nat} {n n' : Node} {x : NodeId} {f g : VectorClock}

/-- The clock and the frontier of every node are those of what it has merged. -/
def Charted (w : World) : Prop :=
  ∀ (i : Nat) (n : Node), w.nodes[i]? = some n → n.Charts (w.gossip.merged i)

theorem Charted.advance (h : w.Charted) (es : List Change) (hi : w.nodes[i]? = some n)
    (hn : n'.Charts (w.gossip.merged i ++ Change.updates es)) :
    { w with nodes := w.nodes.set i n', changes := w.changes ++ es.map (i, ·) }.Charted := by
  intro j m hj
  have hg := congrFun (congrArg Gossip.merged (w.toTrace.gossip_change i es)) j
  refine hg.symm ▸ ?_
  dsimp only
  rcases getElem?_set_node hi hj with ⟨rfl, rfl⟩ | ⟨hne, hj⟩
  · rw [if_pos rfl]
    exact hn
  · rw [if_neg (Ne.symm hne), List.append_nil]
    exact h j m hj

theorem Charted.step (h : w.Charted) (ho : w.Ordered) (hs : Step w w') : w'.Charted := by
  cases hs with
  | @deliver i n e _ hi _ _ => exact h.advance _ hi ((h i n hi).receive e.message)
  | @submit i n n' x s _ _ _ hi hsub _ =>
    apply h.advance (s.update.toList.map .merge) hi
    rw [Change.updates_map_merge]
    exact (h i n hi).submit (Node.submit_eq_ok hsub)
  | @complete q outcome _ n n' _ _ _ hi hc _ =>
    apply h.advance _ hi
    rw [Node.updates_changes_outcome, List.append_nil]
    exact (h q.origin n hi).complete hc
  | collect =>
    intro i n hi
    rw [List.getElem?_map] at hi
    obtain ⟨m, hm, rfl⟩ := Option.map_eq_some_iff.1 hi
    exact (h i m hm).collectGarbage
  | join _ =>
    intro i n hi
    rcases getElem?_concat_node hi with ⟨rfl, rfl⟩ | hi
    · change w.newcomer.Charts (Change.updates (w.changesAt w.nodes.length))
      rw [ho.changesAt_of_le (Nat.le_refl _)]
      exact Cluster.charts_makeNode ..
    · exact h i n hi
  | _ => exact h

/-- In a step a node merges an update, or commits one, or nothing happens to updates. -/
theorem Step.gossip (hs : Step w w') (ho : w.Ordered) (hw : w.Sourced) (hc : w.Charted) :
    w'.gossip = w.gossip ∨ Gossip.Step w.gossip w'.gossip := by
  cases hs with
  | @deliver i n e _ hi _ ht =>
    rcases updates_changes n e.message with hnil | ⟨u, hu, hone, ha⟩
    · exact .inl (w.toTrace.gossip_same hnil)
    · have hg := w.toTrace.gossip_change i (n.changes e.message)
      rw [hone] at hg
      have hsent := hw.sent e ((ht e).2 (.inl (List.mem_singleton_self e))) u hu
      refine .inr (hg.symm ▸ .merge hsent fun hm => ?_)
      exact ha ((ho.hasApplied hi u.id).2 ⟨u, hm, rfl⟩)
  | @submit i n n' x s _ _ _ hi hsub _ =>
    have hs := Node.submit_eq_ok hsub
    let t : Trace := { w.toTrace with submissions := w.submissions ++ [⟨x, s⟩] }
    have hg := t.gossip_change i (s.update.toList.map .merge)
    have ht : t.gossip = { w.gossip with committed := w.updates ++ s.update.toList } :=
      congrArg (Gossip.mk · _) (updates_concat w.toTrace ⟨x, s⟩)
    rw [Change.updates_map_merge, ht] at hg
    cases hu : s.update with
    | none =>
      rw [hu] at hg
      refine .inl (hg.trans ?_)
      simp [Trace.gossip]
    | some u =>
      rw [hu] at hg
      obtain ⟨_, horigin, htick, _⟩ := hs.update u hu
      have hname := horigin.trans (hw.names i n hi)
      refine .inr (hg.symm ▸ Gossip.Step.commit ⟨hname, fun y => ?_⟩)
      rw [VectorClock.toNat_get_tick htick, (hc i n hi).clock, horigin]
  | @complete q outcome _ n _ _ _ _ _ _ _ =>
    exact .inl (w.toTrace.gossip_same (n.updates_changes_outcome outcome))
  | _ => exact .inl rfl

/-- A node of that name has got as far. -/
def Reached (w : World) (x : NodeId) (f : VectorClock) : Prop :=
  ∃ n ∈ w.nodes, n.id = x ∧ f ≤ n.history.delivered.contiguous

theorem Reached.step (h : w.Reached x f) (ho : w.Ordered) (hs : Step w w') : w'.Reached x f := by
  obtain ⟨n, hn, hid, hle⟩ := h
  obtain ⟨i, hi⟩ := List.getElem?_of_mem hn
  obtain ⟨n', hi', hk⟩ := hs.keeps ho hi
  exact ⟨n', List.mem_of_getElem? hi', hk.id.trans hid, VectorClock.le_trans hle hk.delivered⟩

theorem Reached.mono (h : w.Reached x f) (hg : g ≤ f) : w.Reached x g := by
  obtain ⟨n, hn, hid, hle⟩ := h
  exact ⟨n, hn, hid, VectorClock.le_trans hg hle⟩

theorem Reached.le (h : w.Reached x f) (hw : w.Sourced) (hn : n ∈ w.nodes) (hid : n.id = x) :
    f ≤ n.history.delivered.contiguous := by
  obtain ⟨m, hm, hid', hle⟩ := h
  obtain ⟨i, hi⟩ := List.getElem?_of_mem hn
  obtain ⟨j, hj⟩ := List.getElem?_of_mem hm
  obtain rfl := hw.index_inj hi hj (hid.trans hid'.symm)
  rw [hi] at hj
  cases hj
  exact hle

theorem Reached.merge (h : w.Reached x f) (hw : w.Sourced) (hg : w.Reached x g) :
    w.Reached x (f.merge g) := by
  obtain ⟨n, hn, hid, hle⟩ := h
  exact ⟨n, hn, hid, VectorClock.merge_le hle (hg.le hw hn hid)⟩

theorem reached_empty (hn : n ∈ w.nodes) : w.Reached n.id .empty :=
  ⟨n, hn, rfl, VectorClock.empty_le _⟩

/-- No more is known or said of a node than it has got. -/
structure Attested (w : World) : Prop where
  peers : ∀ n ∈ w.nodes, ∀ x f, n.stability.peerFrontier? x = some f → w.Reached x f
  sent : ∀ e ∈ w.transit, ∀ x f, e.message.credit? = some (x, f) → w.Reached x f

theorem Ordered.reached_origin (ho : w.Ordered) (hw : w.Sourced) (hc : w.gossip.Causal)
    {u : Update} (hu : u ∈ w.updates) : w.Reached u.origin .empty := by
  obtain ⟨i, horigin, hm⟩ := hc.own u hu
  have hlt : i < w.nodes.length := by
    by_contra hge
    have hm : u ∈ Change.updates (w.changesAt i) := hm
    rw [ho.changesAt_of_le (Nat.le_of_not_lt hge)] at hm
    cases hm
  have hi := List.getElem?_eq_getElem hlt
  rw [horigin, ← hw.names i _ hi]
  exact reached_empty (List.mem_of_getElem? hi)

theorem MaySend.reached {e : Envelope Message} (h : w.MaySend e) (ho : w.Ordered)
    (hw : w.Sourced) (hc : w.gossip.Causal) (he : e.message.credit? = some (x, f)) :
    w.Reached x f := by
  have hmay := h.2
  cases hm : e.message with
  | update u =>
    rw [hm] at he hmay
    cases he
    obtain ⟨n, hn, hu⟩ := hmay
    exact ho.reached_origin hw hc (hw.mem_of_retained hn hu)
  | decided d =>
    rw [hm] at he
    cases he
  | join y =>
    rw [hm] at he hmay
    cases he
    obtain ⟨n, hn, rfl⟩ := hmay
    exact reached_empty hn
  | frontier y f' =>
    rw [hm] at he hmay
    cases he
    obtain ⟨n, hn, ha⟩ := hmay
    cases ha
    exact ⟨n, hn, rfl, VectorClock.le_refl _⟩

/-- What a node learns from a message is true if the message is. -/
theorem Attested.receive {m : Message} (h : w.Attested) (hw : w.Sourced) (hn : n ∈ w.nodes)
    (hm : ∀ x f, m.credit? = some (x, f) → w.Reached x f)
    (hf : (n.receive m).2.stability.peerFrontier? x = some f) : w.Reached x f := by
  rw [Node.peerFrontier?_receive] at hf
  unfold StabilityMonitor.heed at hf
  split at hf
  · next y g hcredit =>
    rw [StabilityMonitor.peerFrontier?_updatePeer] at hf
    split at hf
    · next hx =>
      cases hf
      obtain rfl := hx.1
      have hg := hm x g hcredit
      apply Reached.merge _ hw hg
      cases ho : n.stability.peerFrontier? x with
      | none => exact hg.mono (VectorClock.empty_le g)
      | some k => exact h.peers n hn x k ho
    · exact h.peers n hn x f hf
  · exact h.peers n hn x f hf

theorem Attested.peers_step (h : w.Attested) (hw : w.Sourced) (hs : Step w w')
    (hn : n ∈ w'.nodes) (hf : n.stability.peerFrontier? x = some f) : w.Reached x f := by
  cases hs with
  | @deliver i m e _ hi _ ht =>
    rcases List.mem_or_eq_of_mem_set hn with hn | rfl
    · exact h.peers n hn x f hf
    · apply h.receive hw (List.mem_of_getElem? hi) _ hf
      exact h.sent e ((ht e).2 (.inl (List.mem_singleton_self e)))
  | submit hi hsub _ =>
    rcases List.mem_or_eq_of_mem_set hn with hn | rfl
    · exact h.peers n hn x f hf
    · apply h.peers _ (List.mem_of_getElem? hi)
      rwa [← (Node.submit_eq_ok hsub).peerFrontier?]
  | complete _ hi hc _ =>
    rcases List.mem_or_eq_of_mem_set hn with hn | rfl
    · exact h.peers n hn x f hf
    · apply h.peers _ (List.mem_of_getElem? hi)
      rwa [← (Node.complete_clock hc).2]
  | collect =>
    obtain ⟨m, hm, rfl⟩ := List.mem_map.1 hn
    exact h.peers m hm x f hf
  | join _ =>
    rcases List.mem_append.1 hn with hn | hn
    · exact h.peers n hn x f hf
    · obtain rfl := List.mem_singleton.1 hn
      obtain ⟨hx, hle⟩ := Cluster.peerFrontier?_makeNode hf
      obtain ⟨m, hm, rfl⟩ := List.mem_map.1 hx
      exact (reached_empty hm).mono hle
  | _ => exact h.peers n hn x f hf

/-- What is said in a step was true before, or is that a node has joined. -/
theorem Attested.sent_step (h : w.Attested) (ho : w.Ordered) (hw : w.Sourced)
    (hc : w.gossip.Causal) (hs : Step w w') {e : Envelope Message} (he : e ∈ w'.transit)
    (hcredit : e.message.credit? = some (x, f)) :
    w.Reached x f ∨ ∃ n ∈ w'.nodes, n.id = x ∧ f = .empty := by
  cases hs with
  | send hnew ht =>
    rcases (ht e).1 he with he | he
    · exact .inl ((hnew e he).reached ho hw hc hcredit)
    · exact .inl (h.sent e he x f hcredit)
  | discard _ ht => exact .inl (h.sent e ((ht e).2 (.inr he)) x f hcredit)
  | deliver _ _ ht => exact .inl (h.sent e ((ht e).2 (.inr he)) x f hcredit)
  | @submit i n _ _ s _ _ _ hi hsub ht =>
    rcases (ht e).1 he with he | he
    · obtain ⟨u, hu, he⟩ := List.mem_flatMap.1 he
      rw [toOthers_message he] at hcredit
      cases hcredit
      rw [((Node.submit_eq_ok hsub).update u (Option.mem_toList.1 hu)).2.1]
      exact .inl (reached_empty (List.mem_of_getElem? hi))
    · exact .inl (h.sent e he x f hcredit)
  | @complete _ outcome _ _ _ _ _ _ _ _ ht =>
    rcases (ht e).1 he with he | he
    · cases outcome with
      | ok d =>
        rw [toOthers_message he] at hcredit
        cases hcredit
      | error reason => cases he
    · exact .inl (h.sent e he x f hcredit)
  | join ht =>
    rcases (ht e).1 he with he | he
    · rcases message_welcome he with hm | ⟨m, hm, u, hu, he⟩ | ⟨d, _, hm⟩
      · rw [hm] at hcredit
        cases hcredit
        exact .inr ⟨_, List.mem_append_right _ (List.mem_singleton_self _), rfl, rfl⟩
      · rw [he] at hcredit
        cases hcredit
        exact .inl (ho.reached_origin hw hc (hw.mem_of_retained hm hu))
      · rw [hm] at hcredit
        cases hcredit
    · exact .inl (h.sent e he x f hcredit)
  | _ => exact .inl (h.sent e he x f hcredit)

theorem Attested.step (h : w.Attested) (ho : w.Ordered) (hw : w.Sourced) (hc : w.gossip.Causal)
    (hs : Step w w') : w'.Attested where
  peers n hn x f hf := (h.peers_step hw hs hn hf).step ho hs
  sent e he x f hcredit := by
    rcases h.sent_step ho hw hc hs he hcredit with hr | ⟨n, hn, rfl, rfl⟩
    · exact hr.step ho hs
    · exact reached_empty hn

/-- All that holds of updates, whatever their classifier: where they are, how they are numbered, and
what is known of their spread. -/
structure Coherent (w : World) : Prop where
  ordered : w.Ordered
  sourced : w.Sourced
  charted : w.Charted
  causal : w.gossip.Causal
  attested : w.Attested
  gossiped : w.Gossiped

theorem Coherent.step (h : w.Coherent) (hs : Step w w') (hids : w'.ids.Nodup) : w'.Coherent where
  ordered := h.ordered.step hs
  sourced := h.sourced.step h.ordered hs hids
  charted := h.charted.step h.ordered hs
  causal := by
    rcases hs.gossip h.ordered h.sourced h.charted with he | hg
    · exact he ▸ h.causal
    · exact h.causal.step hg
  attested := h.attested.step h.ordered h.sourced h.causal hs
  gossiped := h.gossiped.step h.ordered h.sourced hs hids

theorem Steps.coherent (hs : Steps w w') (h : w.Coherent) (hids : w'.ids.Nodup) :
    w'.Coherent := by
  induction hs with
  | refl => exact h
  | tail _ hstep ih => exact (ih (hstep.nodup_ids hids)).step hstep hids

end World

namespace Chronicle
variable {config : ClusterConfig} {classifier : Classifier} {ids : IdSupply}
  {commands : List Cluster.Command} {h : Chronicle}

theorem coherent_new (config : ClusterConfig) (classifier : Classifier) (ids : IdSupply) :
    (new config classifier ids).world.Coherent where
  ordered := (world_new config classifier ids).ordered
  sourced := (world_new config classifier ids).sourced
  charted i n hi := by
    obtain ⟨id, _, rfl⟩ := List.mem_map.1 (List.mem_of_getElem? hi)
    exact Cluster.charts_makeNode ..
  causal := Gossip.causal_nil
  attested := by
    refine ⟨fun n hn x f hf => ?_, fun e he => by cases he⟩
    obtain ⟨id, _, rfl⟩ := List.mem_map.1 hn
    obtain ⟨hx, hle⟩ := Cluster.peerFrontier?_makeNode hf
    obtain ⟨hx, _⟩ := List.mem_filter.1 hx
    refine ⟨_, List.mem_map_of_mem hx, ?_, VectorClock.le_trans hle (VectorClock.empty_le _)⟩
    exact (Cluster.makeNode_isNew ..).id
  gossiped := (world_new config classifier ids).gossiped

theorem coherent (hp : (new config classifier ids).performAll commands = .ok h)
    (hids : h.ids.Nodup) : h.world.Coherent :=
  (performAll_steps (sound_new config classifier ids) hp).2.coherent
    (coherent_new config classifier ids) hids

/-- The updates that were committed, in order. -/
def updates (h : Chronicle) : List Update := h.submissions.filterMap (·.submission.update)

/-- The origin of an update had committed or merged another one before it committed this one. -/
def Precedes (h : Chronicle) (u v : Update) : Prop :=
  ∃ (i : Nat) (n : Node), h.cluster.nodes[i]? = some n ∧ n.id = v.origin ∧
    [u, v].Sublist (Change.updates (h.changes i))

theorem precedes_iff (hw : h.world.Coherent) {u v : Update} :
    h.Precedes u v ↔ h.world.gossip.Precedes u v := by
  constructor
  · rintro ⟨i, n, hi, hid, hs⟩
    exact ⟨i, hid.symm.trans (hw.sourced.names i n hi), hs⟩
  · rintro ⟨i, hname, hs⟩
    have hlt : i < h.world.nodes.length := by
      by_contra hge
      have hs : [u, v].Sublist (Change.updates (h.world.changesAt i)) := hs
      rw [hw.ordered.changesAt_of_le (Nat.le_of_not_lt hge)] at hs
      cases hs
    have hi := List.getElem?_eq_getElem hlt
    exact ⟨i, _, hi, (hw.sourced.names i _ hi).trans hname.symm, hs⟩

/-- Vector clocks characterise causality. Of two updates one has the smaller clock if and only if
there is a chain from it to the other in which every origin had the one before; clocks of distinct
updates differ, not only in entries that are zero; and the updates of an origin are numbered from
one, without gap or repetition. -/
theorem happenedBefore_iff_chain
    (hp : (new config classifier ids).performAll commands = .ok h) (hids : h.ids.Nodup) :
    (∀ u ∈ h.updates, ∀ v ∈ h.updates, u ≠ v →
      (u.clock.happenedBefore v.clock = true ↔ Relation.TransGen h.Precedes u v) ∧
        u.clock.agrees v.clock = false) ∧
      ∀ x, let own := h.updates.filter fun u => u.origin = x
        own.map (·.sequence.toNat) = List.range' 1 own.length := by
  have hw := coherent hp hids
  have hprecedes : h.Precedes = h.world.gossip.Precedes :=
    funext fun u => funext fun v => propext (precedes_iff hw)
  constructor
  · intro u hu v hv hne
    rw [hprecedes]
    exact ⟨hw.causal.happenedBefore_iff hu hv hne, hw.causal.not_agrees hu hv hne⟩
  · intro x
    exact hw.causal.numbered x

/-- The second node writes after it has heard of the first one's update, the third one before. -/
theorem happenedBefore_iff_chain_concurrent :
    ∃ h : Chronicle, (new .default .standard (.ofStream Uuid.ofNat)).performAll
        [.submit 0 [.increment "edits" 2], .submit 2 [.insert "tags" "new"], .step,
          .submit 1 [.increment "edits" 3], .run] = .ok h ∧ h.ids.Nodup ∧
      ∃ u ∈ h.updates, ∃ v ∈ h.updates, ∃ w ∈ h.updates, u.origin = "node-0" ∧
        v.origin = "node-1" ∧ w.origin = "node-2" ∧ Relation.TransGen h.Precedes u v ∧
        ¬ Relation.TransGen h.Precedes w v ∧ ¬ Relation.TransGen h.Precedes v w := by
  obtain ⟨h, hp, ht⟩ := @exists_of_endsWith _ _ ((new .default .standard
      (.ofStream Uuid.ofNat)).performAll
        [.submit 0 [.increment "edits" 2], .submit 2 [.insert "tags" "new"], .step,
          .submit 1 [.increment "edits" 3], .run])
    (fun h => h.ids.Nodup ∧ ∃ u ∈ h.updates, ∃ v ∈ h.updates, ∃ w ∈ h.updates,
      u.origin = "node-0" ∧ v.origin = "node-1" ∧ w.origin = "node-2" ∧ u ≠ v ∧ w ≠ v ∧
      u.clock.happenedBefore v.clock = true ∧ w.clock.happenedBefore v.clock = false ∧
      v.clock.happenedBefore w.clock = false) (by decide +kernel)
  obtain ⟨hids, u, hu, v, hv, w, hw, huo, hvo, hwo, huv, hwv, hb, hc, hc'⟩ := of_decide_eq_true ht
  have key := (happenedBefore_iff_chain hp hids).1
  refine ⟨h, hp, hids, u, hu, v, hv, w, hw, huo, hvo, hwo, (key u hu v hv huv).1.1 hb, ?_, ?_⟩
  · exact fun hch => Bool.false_ne_true (hc.symm.trans ((key w hw v hv hwv).1.2 hch))
  · exact fun hch => Bool.false_ne_true (hc'.symm.trans ((key v hv w hw hwv.symm).1.2 hch))

end Chronicle
end Confluence
