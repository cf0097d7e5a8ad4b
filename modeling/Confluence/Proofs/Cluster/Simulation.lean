import Confluence.Proofs.Cluster.Frame
import Confluence.Proofs.Cluster.Transport
import Confluence.Proofs.Consensus.Drive
import Confluence.Proofs.Node.Basic

namespace Confluence

namespace Cluster

/-- What the network and the sequencer need for their steps to be those of a world. -/
structure Sound (c : Cluster) : Prop where
  numbered : c.network.Numbered
  sequencer : c.sequencer.Sound

variable {c c' : Cluster} {new : List (Envelope Message)} {trace : Trace}
  {outcomes : List (QueuedProposal × Except NodeError Decision)} {i : Nat} {n n' : Node}

theorem Sends.sound (h : c.Sends c' new) (hc : c.Sound) : c'.Sound :=
  ⟨h.numbered, hc.sequencer.of_eq h.log h.slots⟩

theorem Sends.step (h : c.Sends c' new)
    (hnew : ∀ e ∈ new, (c.world outcomes trace).MaySend e) :
    World.Step (c.world outcomes trace) (c'.world outcomes trace) := by
  rw [h.world]
  exact .send hnew h.transit

theorem Sends.idle (h : c.Sends c' []) :
    World.Step (c.world outcomes trace) (c'.world outcomes trace) := h.step (by simp)

theorem map_id_set {l : List Node} (hi : l[i]? = some n) (hid : n'.id = n.id) :
    (l.set i n').map Node.id = l.map Node.id := by
  obtain ⟨hlt, rfl⟩ := List.getElem?_eq_some_iff.1 hi
  rw [List.map_set, hid, ← List.getElem_map Node.id (h := by simpa using hlt),
    List.set_getElem_self]

theorem getElem?_set_self' {l : List Node} (hi : l[i]? = some n) : (l.set i n')[i]? = some n' := by
  obtain ⟨hlt, _⟩ := List.getElem?_eq_some_iff.1 hi
  exact List.getElem?_set_self hlt

theorem broadcast_sends_of_set {m : Message} (hn : c.network.Numbered)
    {l : List Node} (hl : c.nodes = l.set i n') (hi : l[i]? = some n) (hid : n'.id = n.id)
    (h : c.broadcast i m = .ok c') :
    c.Sends c' (((l.map Node.id).filter (· ≠ n.id)).map (⟨n.id, ·, m⟩)) := by
  have hs := broadcast_sends hn (hl ▸ getElem?_set_self' hi) h
  rwa [hl, map_id_set hi hid, hid] at hs

/-- The cluster in which a node has taken a submission, and nothing has been sent yet. -/
def withSubmission (c : Cluster) (i : Nat) (n : Node) (ids : IdSupply) (x : Transaction)
    (s : Submission) : Cluster :=
  let lifted := (s.update.map fun u => u.operations.length).getD 0
  { c.setNode i n with
    ids
    stats := c.stats.addSubmission x.length lifted s.proposal.isSome }

/-- All that a submission does: one to a node, and its update is sent to the others. -/
theorem submit_eq_ok {x : Transaction} {s : Submission} (hn : c.network.Numbered)
    (h : c.submit i x = .ok (s, c')) :
    ∃ n n' ids, c.nodes[i]? = some n ∧ n.submit x c.ids = .ok (s, n', ids) ∧
      ∃ d, (c.withSubmission i n' ids x s).Sends d
          (s.update.toList.flatMap fun u => (c.world [] .empty).toOthers n (.update u)) ∧
        c' = { d with queued := d.queued ++ s.proposal.toList.map (QueuedProposal.mk i) } := by
  unfold submit at h
  obtain ⟨n, hi, h⟩ := bind_eq_ok h
  obtain ⟨⟨s', n', ids⟩, hs, h⟩ := bind_eq_ok h
  have hi := node_eq_ok hi
  dsimp only at h
  split at h
  · next u hu =>
    obtain ⟨d, hd, h⟩ := bind_eq_ok h
    cases h
    have hb := @broadcast_sends_of_set (c.withSubmission i n' ids x s) d i n n' (.update u) hn
      c.nodes rfl hi (Node.submit_eq_ok hs).kept.1 hd
    refine ⟨n, n', ids, hi, hs, d, ?_, rfl⟩
    rw [hu, Option.toList_some, List.flatMap_singleton]
    exact hb
  · next hu =>
    cases h
    refine ⟨n, n', ids, hi, hs, c.withSubmission i n' ids x s, ?_, rfl⟩
    rw [hu]
    exact .refl hn

theorem submit_steps {x : Transaction} {s : Submission} (hc : c.Sound)
    (h : c.submit i x = .ok (s, c')) :
    c'.Sound ∧ World.Step (c.world outcomes trace) (c'.world outcomes
      { trace with
        submissions := trace.submissions ++ [⟨x, s⟩]
        changes := trace.changes ++ c.submitChanges i x }) := by
  have hchanges : c.submitChanges i x = (s.update.toList.map .merge).map (i, ·) := by
    unfold submitChanges
    rw [h]
  obtain ⟨n, n', ids, hi, hs, d, hsends, rfl⟩ :=
    submit_eq_ok hc.numbered h
  refine ⟨⟨hsends.numbered, hc.sequencer.of_eq hsends.log hsends.slots⟩, ?_⟩
  have hw (queue : List QueuedProposal) (trace : Trace) :
      { d with queued := queue }.world outcomes trace =
        { (c.withSubmission i n' ids x s).world outcomes trace with
          transit := d.network.transit, queued := queue } := by
    have := hsends.world outcomes trace
    exact congrArg (fun w : World => { w with queued := queue }) this
  rw [hw, hsends.queued, hchanges]
  exact .submit (w := c.world outcomes trace) hi hs hsends.transit

theorem indexOf?_eq_some {target : NodeId} (h : c.indexOf? target = some i)
    (hi : c.nodes[i]? = some n) : n.id = target := by
  obtain ⟨hlt, hp, _⟩ := List.findIdx?_eq_some_iff_getElem.1 h
  rw [List.getElem?_eq_getElem hlt] at hi
  cases hi
  exact of_decide_eq_true hp

theorem indexOf?_eq_none {target : NodeId} (h : c.indexOf? target = none) :
    ∀ n ∈ c.nodes, n.id ≠ target := by
  intro n hn he
  exact absurd (List.findIdx?_eq_none_iff.1 h n hn) (by simp [he])

theorem changesAt_eq {m : Message} (hi : c.nodes[i]? = some n) :
    c.changesAt i m = (n.changes m).map (i, ·) := by
  unfold changesAt
  rw [hi, Option.toList_some, List.flatMap_singleton]

theorem stepChanges_eq {e : Envelope Message} {network : Network Message}
    (hd : c.network.nextDelivery = .ok (some e, network)) (ht : c.indexOf? e.target = some i)
    (hi : c.nodes[i]? = some n) : c.stepChanges = (n.changes e.message).map (i, ·) := by
  unfold stepChanges
  rw [hd]
  dsimp only
  rw [ht]
  exact changesAt_eq hi

/-- All that a step does: nothing can be delivered, or a message is taken from the network, which a node
receives unless it is for none. -/
inductive StepsTo (c : Cluster) : Option ReceiveOutcome → Cluster → Prop
  | nothing {network : Network Message} : c.network.nextDelivery = .ok (none, network) →
    StepsTo c none { c with network }
  | stray {e : Envelope Message} {network : Network Message} :
    c.network.nextDelivery = .ok (some e, network) → c.indexOf? e.target = none →
    StepsTo c none { c with network }.refreshLinks
  | arrive {e : Envelope Message} {network : Network Message} {i : Nat} {n : Node} :
    c.network.nextDelivery = .ok (some e, network) → c.indexOf? e.target = some i →
    c.nodes[i]? = some n → StepsTo c (some (n.receive e.message).1)
      ({ c with network }.refreshLinks.setNode i (n.receive e.message).2)

theorem step_eq_ok {outcome : Option ReceiveOutcome} (h : c.step = .ok (outcome, c')) :
    c.StepsTo outcome c' := by
  obtain ⟨⟨delivered, network⟩, hd, h⟩ := bind_eq_ok h
  cases delivered with
  | none =>
    cases h
    exact .nothing hd
  | some e =>
    dsimp only at h
    split at h
    · next hi =>
      cases h
      exact .stray hd hi
    · next i hi =>
      obtain ⟨n, hn, h⟩ := bind_eq_ok h
      cases h
      exact .arrive hd hi (node_eq_ok hn)

theorem step_steps {outcome : Option ReceiveOutcome} (hc : c.Sound)
    (h : c.step = .ok (outcome, c')) :
    c'.Sound ∧ World.Step (c.world outcomes trace) (c'.world outcomes
      { trace with changes := trace.changes ++ c.stepChanges }) := by
  have hcarries {delivered : Option (Envelope Message)} {network : Network Message}
      (hd : c.network.nextDelivery = .ok (delivered, network)) : network.Numbered ∧
        World.Carries c.network.transit delivered.toList network.transit := by
    obtain ⟨hn, ht⟩ := Network.nextDelivery_transit hc.numbered hd
    exact ⟨hn, fun e => by rw [ht.mem_iff, List.mem_append]⟩
  cases step_eq_ok h with
  | @nothing network hd =>
    obtain ⟨hn, hcarries⟩ := hcarries hd
    have hs : c.stepChanges = [] := by
      rw [stepChanges, hd]
    rw [hs, List.append_nil]
    refine ⟨⟨hn, hc.sequencer⟩, @World.Step.send (c.world outcomes trace) [] _ (by simp) ?_⟩
    intro e
    change e ∈ network.transit ↔ e ∈ [] ∨ e ∈ c.network.transit
    rw [hcarries]
    simp
  | stray hd hi =>
    obtain ⟨hn, hcarries⟩ := hcarries hd
    have hs : c.stepChanges = [] := by
      rw [stepChanges, hd]
      dsimp only
      rw [hi]
    rw [hs, List.append_nil]
    exact ⟨⟨hn, hc.sequencer.of_eq rfl rfl⟩,
      .discard (w := c.world outcomes trace) (indexOf?_eq_none hi) hcarries⟩
  | arrive hd hi hni =>
    obtain ⟨hn, hcarries⟩ := hcarries hd
    rw [stepChanges_eq hd hi hni]
    exact ⟨⟨hn, hc.sequencer.of_eq rfl rfl⟩,
      .deliver (w := c.world outcomes trace) hni (indexOf?_eq_some hi hni) hcarries⟩

theorem deliver_steps {budget steps duplicates : Nat} {result : Nat × Nat}
    (hc : c.Sound) (h : c.deliver budget steps duplicates = .ok (result.1, result.2, c')) :
    c'.Sound ∧ World.Steps (c.world outcomes trace) (c'.world outcomes
      { trace with changes := trace.changes ++ c.deliveryChanges budget }) := by
  induction budget generalizing c steps duplicates trace with
  | zero =>
    cases h
    rw [deliveryChanges, List.append_nil]
    exact ⟨hc, .refl⟩
  | succ budget ih =>
    unfold deliver at h
    obtain ⟨⟨outcome, d⟩, hd, h⟩ := bind_eq_ok h
    obtain ⟨hds, hstep⟩ := @step_steps c d trace outcomes _ hc hd
    cases outcome with
    | none =>
      cases h
      rw [deliveryChanges, hd, List.append_nil]
      exact ⟨hds, .single hstep⟩
    | some outcome =>
      obtain ⟨hs, hsteps⟩ := @ih d _ _ _ hds h
      refine ⟨hs, .head hstep ?_⟩
      rw [deliveryChanges, hd, ← List.append_assoc]
      exact hsteps

/-- As many nodes as before, and the same proposals queued. -/
structure Keeps (c c' : Cluster) : Prop where
  length : c'.nodes.length = c.nodes.length
  queued : c'.queued = c.queued

theorem Keeps.trans {c'' : Cluster} (h : c.Keeps c') (h' : c'.Keeps c'') : c.Keeps c'' :=
  ⟨h'.length.trans h.length, h'.queued.trans h.queued⟩

theorem step_keeps {outcome : Option ReceiveOutcome} (h : c.step = .ok (outcome, c')) :
    c.Keeps c' := by
  cases step_eq_ok h with
  | nothing _ => exact ⟨rfl, rfl⟩
  | stray _ _ => exact ⟨rfl, rfl⟩
  | arrive _ _ _ => exact ⟨List.length_set, rfl⟩

theorem run_keeps {report : RunReport} (h : c.runUntilQuiescent = .ok (report, c')) :
    c.Keeps c' := by
  have hkeeps : Composes Keeps := ⟨fun _ => ⟨rfl, rfl⟩, .trans⟩
  exact hkeeps.run step_keeps h

theorem completeChanges_of_error {q : QueuedProposal} {outcome : Except NodeError Decision}
    {e : NodeError} (hi : c.nodes[q.origin]? = some n)
    (he : n.complete q.proposal.id outcome = .error e) : c.completeChanges q outcome = [] := by
  unfold completeChanges
  rw [hi]
  have hp := Node.complete_eq_error he
  cases outcome with
  | ok d => simp [OrderedMap.contains, hp]
  | error reason => rfl

theorem completeChanges_of_ok {q : QueuedProposal} {outcome : Except NodeError Decision}
    {r : CommitResult} (hi : c.nodes[q.origin]? = some n)
    (hn : n.complete q.proposal.id outcome = .ok (r, n')) :
    c.completeChanges q outcome =
      (outcome.toOption.toList.flatMap fun d => n.changes (.decided d)).map (q.origin, ·) := by
  obtain ⟨⟨p, hp⟩, _⟩ := Node.complete_eq_ok hn
  unfold completeChanges
  rw [hi]
  cases outcome with
  | ok d =>
    rw [Except.toOption, Option.toList_some, List.flatMap_singleton]
    simp only [OrderedMap.contains, hp, Option.isSome_some, ↓reduceIte]
    exact changesAt_eq hi
  | error reason => rfl

/-- The cluster in which a node has heard of a result, and nothing has been sent yet. -/
def withResult (c : Cluster) (q : QueuedProposal) (n : Node) (r : CommitResult) : Cluster :=
  { c.setNode q.origin n with
    stats := c.stats.addResult r.isCommitted
    results := c.results.insert q.proposal.id r }

/-- All that a report does: nothing, if the node does not know the proposal; else the node hears of the
result, and a decision is sent to the others. -/
theorem complete_eq_ok {q : QueuedProposal} {outcome : Except NodeError Decision}
    {result : Option CommitResult} (hn : c.network.Numbered)
    (h : c.complete q outcome = .ok (result, c')) :
    ∃ n, c.nodes[q.origin]? = some n ∧
      ((∃ e, n.complete q.proposal.id outcome = .error e ∧ result = none ∧ c' = c) ∨
        ∃ r n', n.complete q.proposal.id outcome = .ok (r, n') ∧ result = some r ∧
          (c.withResult q n' r).Sends c' ((c.world [] .empty).report n outcome)) := by
  unfold complete at h
  obtain ⟨n, hi, h⟩ := bind_eq_ok h
  have hi := node_eq_ok hi
  refine ⟨n, hi, ?_⟩
  dsimp only at h
  split at h
  · next e he =>
    cases h
    exact .inl ⟨e, he, rfl, rfl⟩
  · next r n' hn' =>
    refine .inr ⟨r, n', hn', ?_⟩
    cases outcome with
    | ok d =>
      obtain ⟨d', hd', he⟩ := map_eq_ok h
      cases he
      exact ⟨rfl, @broadcast_sends_of_set (c.withResult q n' r) c' q.origin n n' (.decided d) hn
        c.nodes rfl hi (Node.complete_rest hn').1 hd'⟩
    | error reason =>
      cases h
      exact ⟨rfl, .refl hn⟩

theorem complete_steps {q : QueuedProposal} {outcome : Except NodeError Decision}
    {rest : List (QueuedProposal × Except NodeError Decision)} {result : Option CommitResult}
    (hc : c.Sound) (h : c.complete q outcome = .ok (result, c')) :
    c'.Sound ∧ World.Step (c.world ((q, outcome) :: rest) trace) (c'.world rest
      { trace with changes := trace.changes ++ c.completeChanges q outcome }) := by
  obtain ⟨n, hi, ⟨e, he, rfl, rfl⟩ | ⟨r, n', hn', rfl, hs⟩⟩ :=
    complete_eq_ok hc.numbered h
  · rw [completeChanges_of_error hi he, List.append_nil]
    exact ⟨hc, .ignore (w := c'.world ((q, outcome) :: rest) trace) rfl hi he⟩
  · rw [completeChanges_of_ok hi hn']
    refine ⟨⟨hs.numbered, hc.sequencer.of_eq hs.log hs.slots⟩, ?_⟩
    rw [hs.world]
    exact .complete (w := c.world ((q, outcome) :: rest) trace) rfl hi hn' hs.transit

theorem completeAll_steps {results : List (ProposalId × CommitResult)} (hc : c.Sound)
    (h : c.completeAll outcomes = .ok (results, c')) :
    c'.Sound ∧ World.Steps (c.world outcomes trace) (c'.world []
      { trace with changes := trace.changes ++ c.completeAllChanges outcomes }) := by
  induction outcomes generalizing c results trace with
  | nil =>
    cases h
    rw [completeAllChanges, List.append_nil]
    exact ⟨hc, .refl⟩
  | cons x rest ih =>
    obtain ⟨q, outcome⟩ := x
    unfold completeAll at h
    obtain ⟨⟨result, d⟩, hd, h⟩ := bind_eq_ok h
    obtain ⟨⟨more, c''⟩, hmore, h⟩ := bind_eq_ok h
    cases h
    obtain ⟨hds, hstep⟩ := @complete_steps c d trace q outcome rest _ hc hd
    obtain ⟨hs, hsteps⟩ := @ih d _ _ hds hmore
    refine ⟨hs, .head hstep ?_⟩
    rw [completeAllChanges, hd, ← List.append_assoc]
    exact hsteps

theorem decides_of_drives {sequencer : Sequencer} {ws : List Waiter}
    {results : List (Except NodeError Decision)} {w : World}
    (h : Schedule.Drives w.log (w.queued.map (·.proposal)) sequencer ws results) :
    w.Decides sequencer.log results where
  length := by rw [h.length, List.length_map]
  isLog := h.sound.isLog
  grows := h.grows
  decided i q d hq hr := by
    refine h.decided i q.proposal d ?_ hr
    rw [List.getElem?_map, hq]
    rfl
  new d hd hold := by
    obtain ⟨i, hi, hr⟩ := h.new d hd hold
    rw [List.getElem?_map] at hi
    obtain ⟨q, hq, hqp⟩ := Option.map_eq_some_iff.1 hi
    exact ⟨i, q, hq, hqp, hr⟩

theorem drive_steps (hc : c.Sound) (h : c.drive = .ok (outcomes, c')) :
    c'.Sound ∧ World.Steps (c.world [] trace) (c'.world outcomes trace) := by
  unfold drive at h
  obtain ⟨⟨results, sequencer⟩, hd, h⟩ := bind_eq_ok h
  obtain ⟨d, hcatch, h⟩ := bind_eq_ok h
  cases h
  let c₁ : Cluster :=
    { c with sequencer := c.sequencer.syncTime c.network.now }.refreshLinks
  have hs₁ : c.Sends c₁ [] := by
    have hsync := @sends_of_log c (c.sequencer.syncTime c.network.now) hc.numbered rfl rfl rfl
    exact hsync.trans (refreshLinks_sends hsync.numbered)
  obtain ⟨_, ws, hdrives⟩ := driveAll_decides (hs₁.sound hc).sequencer hd
  have hdecides : (c₁.world [] trace).Decides sequencer.log results := decides_of_drives hdrives
  have hs₂ : ({ c₁ with sequencer, queued := [] } : Cluster).Sends c' [] :=
    catchUp_sends hs₁.numbered hcatch
  refine ⟨hs₂.sound ⟨hs₁.numbered, hdrives.sound⟩, ?_⟩
  exact .head hs₁.idle (.head (.decide rfl hdecides) (.single hs₂.idle))

theorem resolve_steps {results : List (ProposalId × CommitResult)} (hc : c.Sound)
    (h : c.resolve = .ok (results, c')) :
    c'.Sound ∧ World.Steps (c.world [] trace) (c'.world []
      { trace with changes := trace.changes ++ c.resolveChanges }) := by
  unfold resolve at h
  obtain ⟨⟨outcomes, d⟩, hd, h⟩ := bind_eq_ok h
  obtain ⟨hds, hdrive⟩ := @drive_steps c d trace outcomes hc hd
  obtain ⟨hs, hall⟩ := @completeAll_steps d c' trace outcomes results hds h
  refine ⟨hs, hdrive.trans ?_⟩
  unfold resolveChanges
  rw [hd]
  exact hall

theorem run_steps {report : RunReport} (hc : c.Sound)
    (h : c.runUntilQuiescent = .ok (report, c')) :
    c'.Sound ∧ World.Steps (c.world outcomes trace) (c'.world outcomes
      { trace with changes := trace.changes ++ c.deliveryChanges c.config.maxSteps }) := by
  unfold runUntilQuiescent at h
  obtain ⟨⟨steps, duplicates, d⟩, hd, he⟩ := map_eq_ok h
  cases he
  exact @deliver_steps c c' trace outcomes _ 0 0 (steps, duplicates) hc hd

theorem settle_steps {report : RunReport} (hc : c.Sound) (h : c.settle = .ok (report, c')) :
    c'.Sound ∧ World.Steps (c.world [] trace) (c'.world []
      { trace with changes := trace.changes ++ Command.settle.changes c }) := by
  unfold settle at h
  obtain ⟨⟨results, d⟩, hd, h⟩ := bind_eq_ok h
  obtain ⟨hds, hresolve⟩ := @resolve_steps c d trace results hc hd
  obtain ⟨hs, hrun⟩ := @run_steps d c' _ [] report hds h
  refine ⟨hs, hresolve.trans ?_⟩
  unfold Command.changes
  dsimp only
  rw [hd, ← List.append_assoc]
  exact hrun

theorem collectGarbage_fst (c : Cluster) :
    c.collectGarbage.1 = (c.nodes.map fun n => n.collectGarbage.1).sum := by
  unfold collectGarbage
  dsimp only
  rw [List.sum_eq_foldl_nat, List.foldl_map, List.foldl_map]

theorem nodes_collectGarbage (c : Cluster) :
    c.collectGarbage.2.nodes = c.nodes.map fun n => n.collectGarbage.2 := List.map_map

theorem collectGarbage_step : World.Step (c.world outcomes trace) (c.collectGarbage.2.world outcomes
    { trace with collected := trace.collected + c.collectGarbage.1 }) := by
  have hw : c.collectGarbage.2.world outcomes
      { trace with collected := trace.collected + c.collectGarbage.1 } =
      { c.world outcomes { trace with collected := trace.collected + c.collectGarbage.1 } with
        nodes := c.collectGarbage.2.nodes } := rfl
  rw [hw, collectGarbage_fst, nodes_collectGarbage]
  exact .collect (w := c.world outcomes trace)

theorem foldlM_broadcast_sends {f : Node → List Message} (hn : c.network.Numbered)
    (h : c.nodes.zipIdx.foldlM (fun c x => (f x.1).foldlM (fun c m => c.broadcast x.2 m) c) c =
      .ok c') :
    c.Sends c' (c.nodes.flatMap fun n => (f n).flatMap ((c.world outcomes trace).toOthers n)) := by
  have hs := foldlM_sends
    (g := fun x : Node × Nat => (f x.1).flatMap ((c.world outcomes trace).toOthers x.1))
    (by
      intro x hx d d' _ hd hxd
      have hi : d.nodes[x.2]? = some x.1 := by
        rw [hd.nodes]
        exact List.mem_zipIdx_iff_getElem?.1 hx
      refine foldlM_sends ?_ hd.numbered hxd
      intro m _ d₁ d₂ _ hd₁ hb
      have := broadcast_sends hd₁.numbered (hd₁.nodes ▸ hi) hb
      rwa [hd₁.nodes, hd.nodes] at this)
    hn h
  have hflat : (c.nodes.zipIdx.flatMap fun x =>
      (f x.1).flatMap ((c.world outcomes trace).toOthers x.1)) =
      c.nodes.flatMap fun n => (f n).flatMap ((c.world outcomes trace).toOthers n) := by
    conv_rhs => rw [← List.zipIdx_map_fst 0 c.nodes, List.flatMap_map]
  rwa [hflat] at hs

theorem maySend_round {f : Node → List Message} {w : World}
    (hf : ∀ n ∈ w.nodes, ∀ m ∈ f n, ∀ target, (∃ k ∈ w.nodes, k.id = target) →
      w.MaySend ⟨n.id, target, m⟩) :
    ∀ e ∈ w.nodes.flatMap fun n => (f n).flatMap (w.toOthers n), w.MaySend e := by
  intro e he
  obtain ⟨n, hn, he⟩ := List.mem_flatMap.1 he
  obtain ⟨m, hm, he⟩ := List.mem_flatMap.1 he
  obtain ⟨target, ht, rfl⟩ := List.mem_map.1 he
  obtain ⟨k, hk, hkt⟩ := List.mem_map.1 (List.mem_filter.1 ht).1
  exact hf n hn m hm target ⟨k, hk, hkt⟩

theorem antiEntropy_sends (hc : c.Sound) (h : c.antiEntropy = .ok c') :
    c.Sends c' (c.nodes.flatMap fun n =>
      (n.retainedUpdates.map Message.update).flatMap ((c.world outcomes trace).toOthers n)) := by
  apply foldlM_broadcast_sends hc.numbered
  simp only [List.foldlM_map]
  exact h

theorem antiEntropy_step (hc : c.Sound) (h : c.antiEntropy = .ok c') :
    c'.Sound ∧ World.Step (c.world outcomes trace) (c'.world outcomes trace) := by
  have hs := @antiEntropy_sends c c' trace outcomes hc h
  refine ⟨hs.sound hc, hs.step (maySend_round ?_)⟩
  intro n hn m hm target ht
  obtain ⟨u, hu, rfl⟩ := List.mem_map.1 hm
  exact ⟨ht, n, hn, hu⟩

theorem announceFrontiers_sends (hc : c.Sound) (h : c.announceFrontiers = .ok c') :
    c.Sends c' (c.nodes.flatMap fun n =>
      [n.frontierAnnouncement].flatMap ((c.world outcomes trace).toOthers n)) := by
  apply foldlM_broadcast_sends hc.numbered
  simp only [List.foldlM_cons, List.foldlM_nil, bind_pure]
  exact h

theorem announceFrontiers_step (hc : c.Sound) (h : c.announceFrontiers = .ok c') :
    c'.Sound ∧ World.Step (c.world outcomes trace) (c'.world outcomes trace) := by
  have hs := @announceFrontiers_sends c c' trace outcomes hc h
  refine ⟨hs.sound hc, hs.step (maySend_round ?_)⟩
  intro n hn m hm target ht
  rw [List.mem_singleton.1 hm]
  exact ⟨ht, n, hn, rfl⟩

theorem addNode_sends {index : Nat} (hn : c.network.Numbered)
    (h : c.addNode = .ok (index, c')) :
    let w := c.world outcomes trace
    { c with nodes := c.nodes ++ [w.newcomer] }.Sends c'
      (w.welcome c.sequencer.leader w.newcomer) := by
  unfold addNode at h
  dsimp only at h
  obtain ⟨d₁, h₁, h⟩ := bind_eq_ok h
  obtain ⟨d₂, h₂, h⟩ := bind_eq_ok h
  obtain ⟨d₃, h₃, h⟩ := bind_eq_ok h
  cases h
  let w := c.world outcomes trace
  let c₁ : Cluster := { c with nodes := c.nodes ++ [w.newcomer] }
  have hs₁ : c₁.Sends d₁ (w.toOthers w.newcomer w.newcomer.joinAnnouncement) := by
    have hb := @broadcast_sends c₁ d₁ c.nodes.length w.newcomer w.newcomer.joinAnnouncement
      hn List.getElem?_concat_length h₁
    have hf : (c₁.nodes.map Node.id).filter (· ≠ w.newcomer.id) =
        (w.nodes.map Node.id).filter (· ≠ w.newcomer.id) := by
      change ((c.nodes ++ [w.newcomer]).map Node.id).filter _ = (c.nodes.map Node.id).filter _
      simp
    rwa [hf] at hb
  have hid : nodeName c.nodes.length = w.newcomer.id := w.newcomer_isNew.id.symm
  have hs₂ := foldlM_sends (g := fun r : NodeId × Update => [⟨r.1, nodeName c.nodes.length,
    .update r.2⟩]) (fun r _ d d' _ hd hs => send_sends hd.numbered hs) hs₁.numbered h₂
  rw [← List.map_eq_flatMap, hid] at hs₂
  have hs₃ := foldlM_sends (g := fun e : Decision => [⟨d₂.sequencer.leader,
    nodeName c.nodes.length, .decided e⟩])
    (fun e _ d d' _ hd hs => hd.leader ▸ send_sends hd.numbered hs) hs₂.numbered h₃
  rw [← List.map_eq_flatMap, hs₂.log, hs₁.log, hs₂.leader, hs₁.leader, hid] at hs₃
  have hs := hs₁.trans (hs₂.trans hs₃)
  rwa [← List.append_assoc] at hs

theorem addNode_step {index : Nat} (hc : c.Sound) (h : c.addNode = .ok (index, c')) :
    c'.Sound ∧ World.Step (c.world outcomes trace) (c'.world outcomes
      { trace with late := trace.late ∨ 0 < trace.collected }) := by
  have hs := @addNode_sends c c' trace outcomes index hc.numbered h
  refine ⟨⟨hs.numbered, hc.sequencer.of_eq hs.log hs.slots⟩, ?_⟩
  rw [hs.world]
  exact .join (w := c.world outcomes trace) hs.transit

end Cluster

def Trace.record (t : Trace) (r : Cluster.Record) : Trace where
  submissions := t.submissions ++ r.submitted?.toList
  changes := t.changes ++ r.command.changes r.before
  collected := t.collected + r.removed
  late := t.late ∨ r.command = .addNode ∧ 0 < t.collected

theorem Trace.record_changes {t : Trace} {r : Cluster.Record} (hs : r.submitted? = none)
    (hr : r.removed = 0) (hj : r.command ≠ .addNode) :
    t.record r = { t with changes := t.changes ++ r.command.changes r.before } := by
  unfold record
  simp [hs, hr, hj]

theorem Trace.record_quiet {t : Trace} {r : Cluster.Record} (hs : r.submitted? = none)
    (hr : r.removed = 0) (hj : r.command ≠ .addNode) (ha : r.command.changes r.before = []) :
    t.record r = t := by
  rw [record_changes hs hr hj, ha, List.append_nil]

namespace Chronicle
variable {h h' : Chronicle} {command : Cluster.Command}

def trace (h : Chronicle) : Trace where
  submissions := h.submissions
  changes := h.past.flatMap fun r => r.command.changes r.before
  collected := (h.past.map (·.removed)).sum
  late := ¬ h.JoinsInTime

def world (h : Chronicle) : World := h.cluster.world [] h.trace

theorem trace_concat (c c' : Cluster) (past : List Cluster.Record) (r : Cluster.Record) :
    (⟨c', past ++ [r]⟩ : Chronicle).trace = (⟨c, past⟩ : Chronicle).trace.record r := by
  have hlate : ¬ (⟨c', past ++ [r]⟩ : Chronicle).JoinsInTime ↔
      ¬ (⟨c, past⟩ : Chronicle).JoinsInTime ∨
        r.command = .addNode ∧ 0 < (past.map (·.removed)).sum := by
    have hsum : 0 < (past.map (·.removed)).sum ↔ ∃ x ∈ past, x.removed ≠ 0 := by
      rw [List.sum_pos_iff_exists_pos_nat]
      simp [Nat.pos_iff_ne_zero]
    unfold JoinsInTime
    rw [hsum, List.pairwise_append]
    simp only [List.pairwise_singleton, List.mem_singleton, forall_eq, true_and, not_and_or,
      not_forall, not_or, not_not, exists_prop]
    refine or_congr Iff.rfl ⟨?_, ?_⟩
    · rintro ⟨x, hx, hr, hcommand⟩
      exact ⟨hcommand, x, hx, hr⟩
    · rintro ⟨hcommand, x, hx, hr⟩
      exact ⟨x, hx, hr, hcommand⟩
  unfold trace Trace.record submissions
  rw [propext hlate]
  simp only [List.filterMap_append, List.flatMap_append, List.flatMap_singleton, List.map_append,
    List.map_singleton, List.sum_append, List.sum_singleton]
  congr 1

theorem quiet_steps {c c' : Cluster} {trace : Trace} {r : Cluster.Record} (hc : c.Sound)
    (hs : c.Sends c' []) (hr : r.submitted? = none) (hremoved : r.removed = 0)
    (hj : r.command ≠ .addNode) (hchanges : r.command.changes r.before = []) :
    c'.Sound ∧ World.Steps (c.world [] trace) (c'.world [] (trace.record r)) := by
  rw [Trace.record_quiet hr hremoved hj hchanges]
  exact ⟨hs.sound hc, .single hs.idle⟩

/-- A command is a series of steps, whatever happened before. -/
theorem record_steps {c c' : Cluster} {reply : Cluster.Reply} (hc : c.Sound)
    (hr : command.perform c = .ok (reply, c')) (trace : Trace) :
    c'.Sound ∧ World.Steps (c.world [] trace)
      (c'.world [] (trace.record ⟨c, command, reply⟩)) := by
  cases command with
  | submit i t =>
    obtain ⟨⟨s, d⟩, hd, he⟩ := map_eq_ok hr
    cases he
    obtain ⟨hs, hstep⟩ := @Cluster.submit_steps c c' trace [] i t s hc hd
    refine ⟨hs, .single ?_⟩
    simpa [Trace.record, Cluster.Record.submitted?, Cluster.Record.removed,
      Cluster.Command.changes] using hstep
  | step =>
    obtain ⟨⟨outcome, d⟩, hd, he⟩ := map_eq_ok hr
    cases he
    obtain ⟨hs, hstep⟩ := Cluster.step_steps hc hd
    rw [Trace.record_changes rfl rfl (by simp)]
    exact ⟨hs, .single hstep⟩
  | run =>
    obtain ⟨⟨report, d⟩, hd, he⟩ := map_eq_ok hr
    cases he
    rw [Trace.record_changes rfl rfl (by simp)]
    exact Cluster.run_steps hc hd
  | resolve =>
    obtain ⟨⟨results, d⟩, hd, he⟩ := map_eq_ok hr
    cases he
    rw [Trace.record_changes rfl rfl (by simp)]
    exact Cluster.resolve_steps hc hd
  | settle =>
    obtain ⟨⟨report, d⟩, hd, he⟩ := map_eq_ok hr
    cases he
    rw [Trace.record_changes rfl rfl (by simp)]
    exact Cluster.settle_steps hc hd
  | collectGarbage =>
    cases hr
    refine ⟨⟨hc.numbered, hc.sequencer⟩, .single ?_⟩
    simpa [Trace.record, Cluster.Record.submitted?, Cluster.Record.removed,
      Cluster.Command.changes] using @Cluster.collectGarbage_step c trace []
  | addNode =>
    obtain ⟨⟨index, d⟩, hd, he⟩ := map_eq_ok hr
    cases he
    obtain ⟨hs, hstep⟩ := @Cluster.addNode_step c c' trace [] index hc hd
    refine ⟨hs, .single ?_⟩
    simpa [Trace.record, Cluster.Record.submitted?, Cluster.Record.removed,
      Cluster.Command.changes] using hstep
  | antiEntropy =>
    obtain ⟨d, hd, he⟩ := map_eq_ok hr
    cases he
    obtain ⟨hs, hstep⟩ := Cluster.antiEntropy_step hc hd
    rw [Trace.record_quiet rfl rfl (by simp) rfl]
    exact ⟨hs, .single hstep⟩
  | announceFrontiers =>
    obtain ⟨d, hd, he⟩ := map_eq_ok hr
    cases he
    obtain ⟨hs, hstep⟩ := Cluster.announceFrontiers_step hc hd
    rw [Trace.record_quiet rfl rfl (by simp) rfl]
    exact ⟨hs, .single hstep⟩
  | cutOff indices duration =>
    obtain ⟨d, hd, he⟩ := map_eq_ok hr
    cases he
    exact quiet_steps hc (Cluster.cutOff_sends hc.numbered hd) rfl rfl (by simp) rfl
  | heal =>
    obtain ⟨d, hd, he⟩ := map_eq_ok hr
    cases he
    exact quiet_steps hc (Cluster.heal_sends hc.numbered hd) rfl rfl (by simp) rfl
  | advance ticks =>
    obtain ⟨d, hd, he⟩ := map_eq_ok hr
    cases he
    exact quiet_steps hc (Cluster.advance_sends hc.numbered hd) rfl rfl (by simp) rfl
  | setLinkDelay source target delay =>
    cases hr
    exact quiet_steps hc (Cluster.setLinkDelay_sends hc.numbered source target delay) rfl rfl
      (by simp) rfl
  | setLeader leader =>
    cases hr
    rw [Trace.record_quiet rfl rfl (by simp) rfl]
    exact ⟨⟨hc.numbered, hc.sequencer.of_eq rfl rfl⟩, .refl⟩
  | injectTimeouts count =>
    obtain ⟨d, hd, he⟩ := map_eq_ok hr
    cases he
    exact quiet_steps hc (Cluster.injectTimeouts_sends hc.numbered hd) rfl rfl (by simp) rfl

theorem perform_eq_ok (hp : h.perform command = .ok h') :
    ∃ reply, command.perform h.cluster = .ok (reply, h'.cluster) ∧
      h'.past = h.past ++ [⟨h.cluster, command, reply⟩] := by
  obtain ⟨⟨reply, c⟩, hc, rfl⟩ := map_eq_ok hp
  exact ⟨reply, hc, rfl⟩

theorem trace_of_past {r : Cluster.Record} (hp : h'.past = h.past ++ [r]) :
    h'.trace = h.trace.record r := by
  obtain ⟨c', past'⟩ := h'
  cases hp
  exact trace_concat h.cluster c' h.past r

theorem perform_steps (hc : h.cluster.Sound) (hp : h.perform command = .ok h') :
    h'.cluster.Sound ∧ World.Steps h.world h'.world := by
  obtain ⟨reply, hr, hpast⟩ := perform_eq_ok hp
  unfold world
  rw [trace_of_past hpast]
  exact record_steps hc hr h.trace

theorem performAll_steps {commands : List Cluster.Command} (hc : h.cluster.Sound)
    (hp : h.performAll commands = .ok h') : h'.cluster.Sound ∧ World.Steps h.world h'.world := by
  induction commands generalizing h with
  | nil =>
    cases hp
    exact ⟨hc, .refl⟩
  | cons command commands ih =>
    obtain ⟨mid, hm, hp⟩ := bind_eq_ok hp
    obtain ⟨hmc, hsteps⟩ := perform_steps hc hm
    obtain ⟨hc', hsteps'⟩ := ih hmc hp
    exact ⟨hc', hsteps.trans hsteps'⟩

theorem performAll_cons (h : Chronicle) (command : Cluster.Command)
    (commands : List Cluster.Command) :
    h.performAll (command :: commands) = command.perform h.cluster >>= fun r =>
      (⟨r.2, h.past ++ [⟨h.cluster, command, r.1⟩]⟩ : Chronicle).performAll commands := by
  unfold performAll perform
  rw [List.foldlM_cons]
  cases command.perform h.cluster <;> rfl

theorem performAll_append (h : Chronicle) (commands more : List Cluster.Command) :
    h.performAll (commands ++ more) = h.performAll commands >>= (·.performAll more) :=
  List.foldlM_append

theorem performAll_concat {commands : List Cluster.Command}
    (hp : h.performAll (commands ++ [command]) = .ok h') :
    ∃ mid, h.performAll commands = .ok mid ∧ mid.perform command = .ok h' := by
  rw [performAll_append] at hp
  obtain ⟨mid, hm, hp⟩ := bind_eq_ok hp
  obtain ⟨last, hl, hp⟩ := bind_eq_ok hp
  cases hp
  exact ⟨mid, hm, hl⟩

theorem submissions_perform {command : Cluster.Command} (hp : h.perform command = .ok h')
    (hq : ∀ i t, command ≠ .submit i t) : h'.submissions = h.submissions := by
  obtain ⟨reply, _, hpast⟩ := perform_eq_ok hp
  have hnone : (⟨h.cluster, command, reply⟩ : Cluster.Record).submitted? = none := by
    cases command with
    | submit i t => exact absurd rfl (hq i t)
    | _ => rfl
  unfold submissions
  rw [hpast, List.filterMap_append, List.filterMap_cons_none hnone]
  exact List.append_nil _

theorem ids_eq (hs : h'.submissions = h.submissions) : h'.ids = h.ids :=
  congrArg (List.flatMap _) hs

theorem performAll_runs {runs : Nat} (hp : h.performAll (List.replicate runs .run) = .ok h') :
    h'.cluster.nodes.length = h.cluster.nodes.length ∧ h'.submissions = h.submissions := by
  induction runs generalizing h with
  | zero =>
    cases hp
    exact ⟨rfl, rfl⟩
  | succ runs ih =>
    obtain ⟨mid, hm, hp⟩ := bind_eq_ok hp
    obtain ⟨hlen, hsub⟩ := ih hp
    obtain ⟨reply, hrun, _⟩ := perform_eq_ok hm
    obtain ⟨⟨report, c⟩, hrun, he⟩ := map_eq_ok hrun
    cases he
    refine ⟨hlen.trans (Cluster.run_keeps hrun).length, hsub.trans (submissions_perform hm ?_)⟩
    intro i t he
    cases he

theorem sound_new (config : ClusterConfig) (classifier : Classifier) (ids : IdSupply) :
    (new config classifier ids).cluster.Sound :=
  ⟨Network.numbered_new _ _, (Sequencer.sound_new (Cluster.nodeName 0)).of_eq rfl rfl⟩

theorem world_new (config : ClusterConfig) (classifier : Classifier) (ids : IdSupply) :
    (new config classifier ids).world.IsNew where
  nodes i n hi := by
    change (((List.range (max config.nodes 1)).map Cluster.nodeName).map fun id =>
      Cluster.makeNode id classifier config.node _)[i]? = some n at hi
    rw [List.getElem?_map, List.getElem?_map] at hi
    obtain ⟨id, hid, rfl⟩ := Option.map_eq_some_iff.1 hi
    obtain ⟨j, hj, rfl⟩ := Option.map_eq_some_iff.1 hid
    obtain ⟨hlt, rfl⟩ := List.getElem?_eq_some_iff.1 hj
    rw [List.getElem_range]
    exact Cluster.makeNode_isNew ..
  transit := rfl
  log := rfl
  queued := rfl
  outcomes := rfl
  submissions := rfl
  changes := rfl
  results := rfl
  stats := rfl

end Chronicle
end Confluence
