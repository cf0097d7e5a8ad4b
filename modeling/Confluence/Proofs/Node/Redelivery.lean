import Confluence.Proofs.Node.Progress
import Confluence.Proofs.Node.Run

namespace Confluence.Node

/-- All that a message can bring to a node is there. -/
def Absorbed (n : Node) : Message → Prop
  | .update u => n.replica.hasApplied u.id = true ∧ n.stability.Records u.origin .empty
  | .decided d => n.decisions.Knows d.slot
  | .join x => n.clock.entries.contains x = true ∧ n.stability.Records x .empty
  | .frontier x f => n.clock.entries.contains x = true ∧ n.stability.Records x f

/-- The log has its decisions in order, and the stable frontier is up to date. -/
structure Sound (n : Node) : Prop where
  consumed : ∃ ds, n.decisions.HasConsumed ds
  waits : n.decisions.WaitsAbove
  exact : n.stability.IsExact

/-- A node has become another one, and all that it had absorbed is still there. -/
structure Grows (n n' : Node) : Prop where
  applied : ∀ id, n.replica.hasApplied id = true → n'.replica.hasApplied id = true
  knows : ∀ k, n.decisions.Knows k → n'.decisions.Knows k
  clock : n'.clock.Holds n.clock
  records : ∀ x f, n.stability.Records x f → n'.stability.Records x f

variable {n n' : Node} {m : Message}

theorem Grows.refl (n : Node) : n.Grows n := ⟨fun _ h => h, fun _ h => h, .refl _, fun _ _ h => h⟩

theorem Grows.trans {n'' : Node} (h : n.Grows n') (h' : n'.Grows n'') : n.Grows n'' where
  applied id ha := h'.applied id (h.applied id ha)
  knows k hk := h'.knows k (h.knows k hk)
  clock := h'.clock.trans h.clock
  records x f hf := h'.records x f (h.records x f hf)

theorem Absorbed.mono (h : n.Absorbed m) (hg : n.Grows n') : n'.Absorbed m := by
  cases m with
  | update u => exact ⟨hg.applied _ h.1, hg.records _ _ h.2⟩
  | decided d => exact hg.knows _ h
  | join x => exact ⟨hg.clock.contains h.1, hg.records _ _ h.2⟩
  | frontier x f => exact ⟨hg.clock.contains h.1, hg.records _ _ h.2⟩

theorem Sound.keep (h : n.Sound) (hd : n'.decisions = n.decisions) (he : n'.stability.IsExact) :
    n'.Sound where
  consumed := hd ▸ h.consumed
  waits := hd ▸ h.waits
  exact := he

theorem Absorbed.receive_eq (h : n.Absorbed m) (he : n.stability.IsExact) :
    (n.receive m).2 = n := by
  cases m with
  | update u =>
    obtain ⟨ha, hr⟩ := h
    have hstability : n.stability.registerPeer u.origin = n.stability := hr.updatePeer_eq he
    rw [receive, Replica.integrate_of_applied ha]
    dsimp only
    rw [hstability]
  | decided d =>
    rw [receive_decided_snd, acceptDecision, DecisionLog.accept_of_knows h]
  | join x =>
    obtain ⟨hc, hr⟩ := h
    have hclock : n.replica.clock.observe x = n.replica.clock := VectorClock.observe_eq_self hc
    have hstability : n.stability.registerPeer x = n.stability := hr.updatePeer_eq he
    rw [receive, registerPeer, Replica.observeNode, hclock, hstability]
  | frontier x f =>
    obtain ⟨hc, hr⟩ := h
    have hclock : n.replica.clock.observe x = n.replica.clock := VectorClock.observe_eq_self hc
    rw [receive, Replica.observeNode, hclock, hr.updatePeer_eq he]

theorem Sound.acceptDecision (h : n.Sound) (d : Decision) :
    (n.acceptDecision d).2.Sound ∧ n.Grows (n.acceptDecision d).2 ∧
      (n.acceptDecision d).2.Absorbed (.decided d) := by
  obtain ⟨ds, hds⟩ := h.consumed
  obtain ⟨more, hext, _⟩ := @DecisionLog.accept_extends n.decisions ds d hds h.waits
  have hknows (k : UInt64) :
      (n.decisions.accept d).2.Knows k ↔ d.slot = k ∨ n.decisions.Knows k := by
    rw [hext.knows]
    simp
  rw [acceptDecision_snd]
  refine ⟨⟨⟨_, hext.consumed⟩, hext.waits, h.exact⟩, ?_, (hknows d.slot).2 (.inl rfl)⟩
  exact ⟨fun _ ha => ha, fun k hk => (hknows k).2 (.inr hk), .refl _, fun _ _ hr => hr⟩

theorem isExact_receive (h : n.stability.IsExact) (m : Message) :
    (n.receive m).2.stability.IsExact := by
  have hheed : (n.stability.heed m).IsExact := by
    rw [StabilityMonitor.heed]
    split
    · exact h.updatePeer _ _
    · exact h
  rcases n.stability_receive m with hs | hs
  · rw [hs]
    exact hheed
  · rw [hs]
    exact StabilityMonitor.isExact_recompute _

theorem records_receive (n : Node) (m : Message) {x : NodeId} {f : VectorClock} :
    m.credit? = some (x, f) ∨ n.stability.Records x f → (n.receive m).2.stability.Records x f := by
  have hheed : m.credit? = some (x, f) ∨ n.stability.Records x f →
      (n.stability.heed m).Records x f := by
    rw [StabilityMonitor.heed]
    rintro (hc | hr)
    · rw [hc]
      exact n.stability.records_updatePeer x f
    · split
      · exact hr.updatePeer _ _
      · exact hr
  intro h
  rcases n.stability_receive m with hs | hs
  · rw [hs]
    exact hheed h
  · rw [hs]
    exact hheed h

theorem clock_receive (n : Node) (m : Message) : (n.receive m).2.clock.Holds n.clock := by
  cases m with
  | update u =>
    rw [clock, receive_update_snd]
    by_cases ha : n.replica.hasApplied u.id = true
    · rw [Replica.integrate_of_applied ha]
      exact .refl _
    · rw [Replica.integrate_of_new ha]
      exact n.clock.holds_merge_left u.clock
  | decided d =>
    rw [receive_decided_snd, acceptDecision_snd]
    exact .refl _
  | join x => exact n.clock.holds_advance x 0
  | frontier x f => exact n.clock.holds_advance x 0

/-- A message that is received is absorbed, and takes nothing away. -/
theorem Sound.receive (h : n.Sound) (m : Message) :
    (n.receive m).2.Sound ∧ n.Grows (n.receive m).2 ∧ (n.receive m).2.Absorbed m := by
  have hkeep (hd : (n.receive m).2.decisions = n.decisions) :
      (n.receive m).2.Sound ∧ n.Grows (n.receive m).2 :=
    ⟨h.keep hd (isExact_receive h.exact m), fun id ha => (n.hasApplied_receive m id).2 (.inl ha),
      fun k hk => hd.symm ▸ hk, n.clock_receive m, fun x f hr => n.records_receive m (.inr hr)⟩
  cases m with
  | update u =>
    obtain ⟨hsound, hgrows⟩ := hkeep (n.receive_decisions (.update u))
    exact ⟨hsound, hgrows, (n.hasApplied_receive _ u.id).2 (.inr ⟨u, rfl, rfl⟩),
      n.records_receive _ (.inl rfl)⟩
  | decided d =>
    rw [receive_decided_snd]
    exact h.acceptDecision d
  | join x =>
    obtain ⟨hsound, hgrows⟩ := hkeep rfl
    exact ⟨hsound, hgrows, n.clock.contains_observe x, n.records_receive _ (.inl rfl)⟩
  | frontier x f =>
    obtain ⟨hsound, hgrows⟩ := hkeep rfl
    exact ⟨hsound, hgrows, n.clock.contains_observe x, n.records_receive _ (.inl rfl)⟩

theorem Submits.clock_holds {t : Transaction} {s : Submission} (hs : n.Submits t s n') :
    n'.clock.Holds n.clock := by
  cases hu : s.update with
  | none =>
    rw [clock, (hs.noUpdate hu).2]
    exact .refl _
  | some u =>
    obtain ⟨_, _, ht, hr⟩ := hs.update u hu
    rw [clock, hr]
    exact VectorClock.holds_tick ht

theorem Sound.submit {t : Transaction} {s : Submission} (h : n.Sound) (hs : n.Submits t s n') :
    n'.Sound ∧ n.Grows n' := by
  have hdecisions : n'.decisions = n.decisions := hs.kept.2.2.2
  have hexact : n'.stability.IsExact := by
    rw [hs.stability]
    split
    · exact StabilityMonitor.isExact_recompute _
    · exact h.exact
  have hrecords (x : NodeId) (f : VectorClock) (hr : n.stability.Records x f) :
      n'.stability.Records x f := by
    rw [hs.stability]
    split <;> exact hr
  exact ⟨h.keep hdecisions hexact,
    fun id ha => (hs.hasApplied id).2 (.inl ha), fun k hk => hdecisions ▸ hk, hs.clock_holds,
    hrecords⟩

/-- Every action keeps what was absorbed before, and a message that is received is absorbed. -/
theorem Sound.act {s s' : Node × IdSupply} {a : Action} (h : s.1.Sound) (ha : act s a = .ok s') :
    s'.1.Sound ∧ s.1.Grows s'.1 ∧ ∀ m, a = .receive m → s'.1.Absorbed m := by
  cases a with
  | submit transaction =>
    obtain ⟨⟨submission, n, ids⟩, hs, rfl⟩ := map_eq_ok ha
    obtain ⟨hsound, hgrows⟩ := h.submit (submit_eq_ok hs)
    exact ⟨hsound, hgrows, by simp⟩
  | receive m =>
    cases ha
    obtain ⟨hsound, hgrows, habsorbed⟩ := h.receive m
    refine ⟨hsound, hgrows, ?_⟩
    intro m' hm
    cases hm
    exact habsorbed
  | complete id outcome =>
    rw [Node.act] at ha
    split at ha
    · next result n hc =>
      cases ha
      have hcase := (complete_eq_ok hc).2
      have herased : Sound { s.1 with pending := s.1.pending.erase id } := h.keep rfl h.exact
      cases outcome with
      | ok d =>
        obtain ⟨hsound, hgrows, _⟩ := herased.acceptDecision d
        rw [hcase.2]
        exact ⟨hsound, ⟨hgrows.applied, hgrows.knows, hgrows.clock, hgrows.records⟩, by simp⟩
      | error reason =>
        rw [hcase.2]
        exact ⟨herased, ⟨fun _ ha => ha, fun _ hk => hk, .refl _, fun _ _ hr => hr⟩, by simp⟩
    · cases ha
      exact ⟨h, .refl _, by simp⟩
  | registerPeer peer =>
    cases ha
    have hexact : (s.1.stability.registerPeer peer).IsExact := h.exact.updatePeer peer .empty
    exact ⟨h.keep rfl hexact, ⟨fun _ ha => ha, fun _ hk => hk,
      s.1.clock.holds_advance peer 0, fun _ _ hr => hr.updatePeer peer .empty⟩, by simp⟩
  | collectGarbage =>
    cases ha
    exact ⟨h.keep rfl h.exact, ⟨fun _ ha => ha, fun _ hk => hk, .refl _, fun _ _ hr => hr⟩,
      by simp⟩

theorem Sound.actAll {s s' : Node × IdSupply} {actions : List Action} (h : s.1.Sound)
    (ha : actAll s actions = .ok s') :
    s'.1.Sound ∧ s.1.Grows s'.1 ∧ ∀ m, .receive m ∈ actions → s'.1.Absorbed m := by
  induction actions generalizing s with
  | nil =>
    cases ha
    exact ⟨h, .refl _, by simp⟩
  | cons a actions ih =>
    obtain ⟨mid, hmid, ha⟩ := bind_eq_ok ha
    obtain ⟨hsound, hgrows, habsorbed⟩ := h.act hmid
    obtain ⟨hsound', hgrows', habsorbed'⟩ := ih hsound ha
    refine ⟨hsound', hgrows.trans hgrows', ?_⟩
    intro m hm
    rcases List.mem_cons.1 hm with hm | hm
    · exact (habsorbed m hm.symm).mono hgrows'
    · exact habsorbed' m hm

theorem sound_new (id : NodeId) (c : Classifier) (config : NodeConfig) :
    (new id c config).Sound where
  consumed := ⟨[], DecisionLog.hasConsumed_empty⟩
  waits := by
    intro k d h
    cases h
  exact := StabilityMonitor.isExact_new id

/-- Delivery at least once is harmless: whatever a node has done since it was new, a message that it
has received on the way leaves all of the node as it is. -/
theorem receive_of_received {id : NodeId} {c : Classifier} {config : NodeConfig}
    {ids rest : IdSupply} {actions : List Action}
    (h : actAll (new id c config, ids) actions = .ok (n, rest)) (hm : .receive m ∈ actions) :
    (n.receive m).2 = n := by
  obtain ⟨hsound, _, habsorbed⟩ := (sound_new id c config).actAll h
  exact (habsorbed m hm).receive_eq hsound.exact

/-- An update that is pruned by now, a decision at a second slot, one that still waits, and a
frontier that was announced before the newest one. -/
theorem receive_of_received_pruned :
    let u : Update := ⟨.ofNat 7, "b", .ofList [("b", 1)], [.increment "edits" 2]⟩
    let p : Proposal := ⟨.ofNat 1, "a", [.overwrite "title" "draft"], .empty⟩
    let actions : List Action := [.receive (.update u), .submit [.increment "edits" 3],
      .receive (.frontier "b" (.ofList [("b", 1), ("c", 0)])),
      .receive (.frontier "b" (.ofList [("a", 1), ("b", 1)])), .collectGarbage,
      .submit [.overwrite "title" "draft"], .complete (.ofNat 1) (.ok ⟨0, p⟩),
      .receive (.decided ⟨1, p⟩), .receive (.decided ⟨5, p⟩), .receive (.join "c"),
      .registerPeer "d"]
    ∃ n rest, actAll (new "a" .standard .default, .ofStream Uuid.ofNat) actions = .ok (n, rest) ∧
      n.history.get? u.id = none ∧ n.history.pruned = 2 ∧ n.decisions.replayed = 1 ∧
      n.decisions.waiting.contains 5 = true ∧ n.stability.peers.size = 3 ∧
      (n.receive (.update u)).2 = n ∧ (n.receive (.decided ⟨1, p⟩)).2 = n ∧
      (n.receive (.decided ⟨5, p⟩)).2 = n ∧ (n.receive (.join "c")).2 = n ∧
      (n.receive (.frontier "b" (.ofList [("b", 1), ("c", 0)]))).2 = n := by
  intro u p actions
  obtain ⟨⟨n, rest⟩, h, ht⟩ := @exists_of_endsWith _ _
    (actAll (new "a" .standard .default, .ofStream Uuid.ofNat) actions)
    (fun s => s.1.history.get? u.id = none ∧ s.1.history.pruned = 2 ∧ s.1.decisions.replayed = 1 ∧
      s.1.decisions.waiting.contains 5 = true ∧ s.1.stability.peers.size = 3) (by decide +kernel)
  obtain ⟨hget, hpruned, hreplayed, hwaiting, hpeers⟩ := of_decide_eq_true ht
  exact ⟨n, rest, h, hget, hpruned, hreplayed, hwaiting, hpeers,
    receive_of_received h (by simp [actions]), receive_of_received h (by simp [actions]),
    receive_of_received h (by simp [actions]), receive_of_received h (by simp [actions]),
    receive_of_received h (by simp [actions])⟩

end Confluence.Node
