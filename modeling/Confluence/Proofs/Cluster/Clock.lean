import Confluence.Proofs.Cluster.Ledger
import Confluence.Proofs.Consensus.Budget
import Confluence.Proofs.Network.Clock

namespace Confluence

/-- Proposals do not change how long a timeout takes. -/
theorem Sequencer.propose_timeoutTicks {s s' : Sequencer} {via : NodeId} {p : Proposal}
    {outcome : ProposalOutcome} (h : s.propose via p = .ok (outcome, s')) :
    s'.timeoutTicks = s.timeoutTicks := by
  unfold propose at h
  dsimp only at h
  split at h
  · obtain ⟨_, now, _, rfl⟩ := timeOut_eq_ok h
    rfl
  split at h
  · obtain ⟨_, now, _, rfl⟩ := timeOut_eq_ok h
    rfl
  split at h
  · cases h
    rfl
  split at h
  · cases h
    rfl
  · obtain ⟨⟨d, t⟩, ha, he⟩ := map_eq_ok h
    cases he
    unfold append at ha
    split at ha
    · cases ha
      rfl
    · cases ha

theorem driveAll_timeoutTicks {retry : RetryConfig} {s s' : Sequencer} {proposals : List Proposal}
    {results : List (Except NodeError Decision)}
    (h : driveAll retry Sequencer.coordinator s proposals = .ok (results, s')) :
    s'.timeoutTicks = s.timeoutTicks :=
  Schedule.run_keeps (P := fun t => t.timeoutTicks = s.timeoutTicks)
    (fun _ _ _ _ _ _ ht hp => (Sequencer.propose_timeoutTicks hp).trans ht) rfl h

namespace Cluster
variable {c c' c'' : Cluster}

/-- Neither the network nor the sequencer has noticed any time. -/
structure Rests (c c' : Cluster) : Prop where
  config : c'.config = c.config
  sequencer : c'.sequencer = c.sequencer
  network : c.network.Rests c'.network

theorem Rests.refl (c : Cluster) : c.Rests c := ⟨rfl, rfl, .refl _⟩

theorem Rests.trans (h : c.Rests c') (h' : c'.Rests c'') : c.Rests c'' where
  config := h'.config.trans h.config
  sequencer := h'.sequencer.trans h.sequencer
  network := h.network.trans h'.network

theorem frames_rests : Frames Rests where
  refl := .refl
  trans := .trans
  same hconfig hsequencer hnetwork := ⟨hconfig, hsequencer, hnetwork ▸ .refl _⟩
  send h := by
    obtain ⟨network, hs, rfl⟩ := map_eq_ok h
    exact ⟨rfl, rfl, Network.send_rests hs⟩

/-- The clock of the network has gone on, and the sequencer has not noticed. -/
structure Passes (c c' : Cluster) : Prop where
  config : c'.config = c.config
  timeoutTicks : c'.sequencer.timeoutTicks = c.sequencer.timeoutTicks
  sequencer : c'.sequencer.now = c.sequencer.now
  attempts : c'.sequencer.attempts = c.sequencer.attempts
  network : c.network.now ≤ c'.network.now
  ahead : c.network.Ahead → c'.network.Ahead

theorem Passes.trans (h : c.Passes c') (h' : c'.Passes c'') : c.Passes c'' where
  config := h'.config.trans h.config
  timeoutTicks := h'.timeoutTicks.trans h.timeoutTicks
  sequencer := h'.sequencer.trans h.sequencer
  attempts := h'.attempts.trans h.attempts
  network := UInt64.le_trans h.network h'.network
  ahead := h'.ahead ∘ h.ahead

theorem Rests.passes (h : c.Rests c') : c.Passes c' where
  config := h.config
  timeoutTicks := congrArg _ h.sequencer
  sequencer := congrArg _ h.sequencer
  attempts := congrArg _ h.sequencer
  network := h.network.now ▸ UInt64.le_refl _
  ahead ha := ha.rests h.network

theorem step_passes {outcome : Option ReceiveOutcome} (h : c.step = .ok (outcome, c')) :
    c.Passes c' := by
  have hpasses {delivered : Option (Envelope Message)} {network : Network Message}
      (hd : c.network.nextDelivery = .ok (delivered, network)) :
      c.network.now ≤ network.now ∧ (c.network.Ahead → network.Ahead) :=
    ⟨(Network.nextDelivery_counts hd).1.now, fun ha => Network.nextDelivery_ahead ha hd⟩
  cases step_eq_ok h with
  | nothing hd => exact ⟨rfl, rfl, rfl, rfl, (hpasses hd).1, (hpasses hd).2⟩
  | stray hd _ => exact ⟨rfl, rfl, rfl, rfl, (hpasses hd).1, (hpasses hd).2⟩
  | arrive hd _ _ => exact ⟨rfl, rfl, rfl, rfl, (hpasses hd).1, (hpasses hd).2⟩

theorem composes_passes : Composes Passes where
  refl c := (Rests.refl c).passes
  trans := .trans

theorem advance_passes {ticks : UInt64} (h : c.advance ticks = .ok c') : c.Passes c' := by
  obtain ⟨network, ha, rfl⟩ := map_eq_ok h
  exact ⟨rfl, rfl, rfl, rfl, (Network.advance_counts ha).now,
    fun _ => (Network.advance_ahead ha).2⟩

theorem cutOff_passes {indices : List Nat} {duration : Option UInt64}
    (h : c.cutOff indices duration = .ok c') : c.Passes c' := by
  obtain ⟨side, _, h⟩ := bind_eq_ok h
  obtain ⟨network, hc, h⟩ := bind_eq_ok h
  cases h
  exact ⟨rfl, rfl, rfl, rfl, (Network.cutOff_counts hc).now,
    fun ha => (Network.cutOff_ahead ha hc).2⟩

theorem heal_passes (h : c.heal = .ok c') : c.Passes c' := by
  obtain ⟨network, hc, rfl⟩ := map_eq_ok h
  exact ⟨rfl, rfl, rfl, rfl, (Network.healAll_counts hc).now,
    fun _ => (Network.healAll_ahead hc).2⟩

theorem catchUp_passes (h : c.catchUp = .ok c') :
    c.Passes c' ∧ c'.sequencer.now ≤ c'.network.now ∧
      (c.network.now ≤ c.sequencer.now → c'.network.now = c'.sequencer.now) := by
  unfold catchUp at h
  split at h
  · next hlt =>
    obtain ⟨d, ha, rfl⟩ := map_eq_ok h
    have hp := advance_passes ha
    obtain ⟨network, hnet, rfl⟩ := map_eq_ok ha
    have hle := UInt64.le_of_lt hlt
    have hnow : network.now = c.sequencer.now := by
      apply UInt64.toNat_inj.1
      rw [(Network.advance_ahead hnet).1, UInt64.toNat_sub_of_le _ _ hle]
      exact Nat.add_sub_cancel' (UInt64.le_iff_toNat_le.1 hle)
    refine ⟨⟨hp.config, rfl, rfl, rfl, hp.network, hp.ahead⟩, ?_, fun _ => hnow⟩
    exact hnow ▸ UInt64.le_refl _
  · next hnot =>
    cases h
    have hle := UInt64.not_lt.1 hnot
    exact ⟨(Rests.refl _).passes, hle, fun hge => UInt64.le_antisymm hge hle⟩

/-- The cluster as its queued proposals are driven: the sequencer knows the time and the links. -/
def synced (c : Cluster) : Cluster :=
  { c with sequencer := c.sequencer.syncTime c.network.now }.refreshLinks

theorem drive_eq_ok {outcomes : List (QueuedProposal × Except NodeError Decision)}
    (h : c.drive = .ok (outcomes, c')) :
    ∃ answers sequencer, driveAll c.config.node.retry Sequencer.coordinator c.synced.sequencer
        (c.queued.map (·.proposal)) = .ok (answers, sequencer) ∧
      { c.synced with sequencer, queued := [] }.catchUp = .ok c' ∧
      outcomes = c.queued.zip answers := by
  obtain ⟨⟨answers, sequencer⟩, hall, h⟩ := bind_eq_ok h
  obtain ⟨d, hcatch, h⟩ := bind_eq_ok h
  cases h
  exact ⟨answers, sequencer, hall, hcatch, rfl⟩

/-- The clocks are right: the sequencer is not ahead of the network, its timeouts take as long as they
are configured to, and no partition is in force beyond its time. -/
structure Timely (config : ClusterConfig) (c : Cluster) : Prop where
  configured : c.config = config
  timeoutTicks : c.sequencer.timeoutTicks = config.timeoutTicks
  now : c.sequencer.now ≤ c.network.now
  ahead : c.network.Ahead

variable {config : ClusterConfig}

theorem Timely.passes (h : c.Timely config) (hp : c.Passes c') : c'.Timely config where
  configured := hp.config.trans h.configured
  timeoutTicks := hp.timeoutTicks.trans h.timeoutTicks
  now := hp.sequencer ▸ UInt64.le_trans h.now hp.network
  ahead := hp.ahead h.ahead

theorem timely_new (config : ClusterConfig) (classifier : Classifier) (ids : IdSupply) :
    (new config classifier ids).Timely config where
  configured := rfl
  timeoutTicks := rfl
  now := UInt64.le_refl _
  ahead p hp := by cases hp

theorem Timely.resolve {results : List (ProposalId × CommitResult)} (h : c.Timely config)
    (hr : c.resolve = .ok (results, c')) : c'.Timely config := by
  obtain ⟨⟨outcomes, d⟩, hd, hr⟩ := bind_eq_ok hr
  obtain ⟨answers, sequencer, hall, hcatch, _⟩ := drive_eq_ok hd
  obtain ⟨hp, hnow, _⟩ := catchUp_passes hcatch
  have hticks : sequencer.timeoutTicks = c.sequencer.timeoutTicks :=
    (driveAll_timeoutTicks hall).trans rfl
  have hd : d.Timely config := ⟨hp.config.trans h.configured,
    hp.timeoutTicks.trans (hticks.trans h.timeoutTicks), hnow, hp.ahead h.ahead⟩
  exact hd.passes (frames_rests.completeAll hr).passes

theorem Timely.perform {command : Command} {reply : Reply} (h : c.Timely config)
    (hp : command.perform c = .ok (reply, c')) : c'.Timely config := by
  cases command with
  | submit i x =>
    obtain ⟨⟨s, d⟩, hd, he⟩ := map_eq_ok hp
    cases he
    exact h.passes (frames_rests.submit hd).passes
  | step =>
    obtain ⟨⟨outcome, d⟩, hd, he⟩ := map_eq_ok hp
    cases he
    exact h.passes (step_passes hd)
  | run =>
    obtain ⟨⟨report, d⟩, hd, he⟩ := map_eq_ok hp
    cases he
    exact h.passes (composes_passes.run step_passes hd)
  | resolve =>
    obtain ⟨⟨results, d⟩, hd, he⟩ := map_eq_ok hp
    cases he
    exact h.resolve hd
  | settle =>
    obtain ⟨⟨report, d⟩, hd, he⟩ := map_eq_ok hp
    cases he
    obtain ⟨⟨results, d⟩, hr, hrun⟩ := bind_eq_ok hd
    exact (h.resolve hr).passes (composes_passes.run step_passes hrun)
  | cutOff indices duration =>
    obtain ⟨d, hd, he⟩ := map_eq_ok hp
    cases he
    exact h.passes (cutOff_passes hd)
  | heal =>
    obtain ⟨d, hd, he⟩ := map_eq_ok hp
    cases he
    exact h.passes (heal_passes hd)
  | advance ticks =>
    obtain ⟨d, hd, he⟩ := map_eq_ok hp
    cases he
    exact h.passes (advance_passes hd)
  | setLinkDelay source target delay =>
    cases hp
    exact ⟨h.configured, h.timeoutTicks, h.now, h.ahead⟩
  | antiEntropy =>
    obtain ⟨d, hd, he⟩ := map_eq_ok hp
    cases he
    exact h.passes (frames_rests.antiEntropy hd).passes
  | announceFrontiers =>
    obtain ⟨d, hd, he⟩ := map_eq_ok hp
    cases he
    exact h.passes (frames_rests.announceFrontiers hd).passes
  | collectGarbage =>
    cases hp
    exact ⟨h.configured, h.timeoutTicks, h.now, h.ahead⟩
  | setLeader leader =>
    cases hp
    exact ⟨h.configured, h.timeoutTicks, h.now, h.ahead⟩
  | injectTimeouts count =>
    obtain ⟨d, hd, he⟩ := map_eq_ok hp
    cases he
    obtain ⟨sequencer, hs, rfl⟩ := map_eq_ok hd
    unfold Sequencer.injectTimeouts at hs
    split at hs
    · cases hs
      exact ⟨h.configured, h.timeoutTicks, h.now, h.ahead⟩
    · cases hs
  | addNode =>
    obtain ⟨⟨index, d⟩, hd, he⟩ := map_eq_ok hp
    cases he
    exact h.passes (frames_rests.addNode hd).passes

end Cluster

namespace Chronicle
variable {config : ClusterConfig} {classifier : Classifier} {ids : IdSupply}
  {commands : List Cluster.Command} {h : Chronicle}

theorem timely (hp : (new config classifier ids).performAll commands = .ok h) :
    h.cluster.Timely config := by
  refine foldlM_keeps (p := fun h : Chronicle => h.cluster.Timely config) ?_
    (Cluster.timely_new config classifier ids) hp
  intro h command h' hh hc
  obtain ⟨reply, hr, _⟩ := perform_eq_ok hc
  exact hh.perform hr

end Chronicle
end Confluence
