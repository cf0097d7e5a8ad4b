import Confluence.Proofs.Cluster.Clock
import Confluence.Proofs.Consensus.Agreement
import Confluence.Proofs.Network.Progress

namespace Confluence

namespace Network
variable {μ : Type} {net net' : Network μ} {call : Call μ} {delivered : Option (Envelope μ)}

/-- Calls lead from one network to the other. -/
abbrev Reaches (net net' : Network μ) : Prop :=
  Relation.ReflTransGen (fun a b => ∃ call delivered, Call.perform a call = .ok (delivered, b))
    net net'

theorem reaches_of_perform (call : Call μ) (h : call.perform net = .ok (delivered, net')) :
    net.Reaches net' :=
  .single ⟨call, delivered, h⟩

theorem Sound.reaches (hs : net.Sound) (h : net.Reaches net') : net'.Sound := by
  induction h with
  | refl => exact hs
  | tail _ hstep ih =>
    obtain ⟨call, delivered, hp⟩ := hstep
    exact ih.perform call hp

end Network

namespace Cluster
variable {c c' : Cluster} {command : Command} {reply : Reply}

theorem frames_reaches : Frames fun c c' => c.network.Reaches c'.network where
  refl _ := .refl
  trans := .trans
  same _ _ hnetwork := hnetwork ▸ .refl
  send {c c' source target m} h := by
    obtain ⟨network, hs, rfl⟩ := map_eq_ok h
    exact Network.reaches_of_perform (.send source target m) (by rw [Network.Call.perform, hs]; rfl)

theorem advance_reaches {ticks : UInt64} (h : c.advance ticks = .ok c') :
    c.network.Reaches c'.network := by
  obtain ⟨network, ha, rfl⟩ := map_eq_ok h
  exact Network.reaches_of_perform (.advance ticks) (by rw [Network.Call.perform, ha]; rfl)

theorem resolve_reaches {results : List (ProposalId × CommitResult)}
    (h : c.resolve = .ok (results, c')) : c.network.Reaches c'.network := by
  obtain ⟨⟨outcomes, d⟩, hd, h⟩ := bind_eq_ok h
  obtain ⟨answers, sequencer, _, hcatch, _⟩ := drive_eq_ok hd
  refine .trans ?_ (frames_reaches.completeAll h)
  rw [catchUp] at hcatch
  split at hcatch
  · obtain ⟨d', ha, rfl⟩ := map_eq_ok hcatch
    have hr := advance_reaches ha
    exact hr
  · cases hcatch
    exact .refl

theorem step_reaches {outcome : Option ReceiveOutcome} (h : c.step = .ok (outcome, c')) :
    c.network.Reaches c'.network := by
  cases step_eq_ok h with
  | nothing hd => exact Network.reaches_of_perform .deliver hd
  | stray hd _ => exact Network.reaches_of_perform .deliver hd
  | arrive hd _ _ => exact Network.reaches_of_perform .deliver hd

theorem Command.perform_reaches (h : command.perform c = .ok (reply, c')) :
    c.network.Reaches c'.network := by
  cases command with
  | submit i x =>
    obtain ⟨⟨s, d⟩, hd, he⟩ := map_eq_ok h
    cases he
    exact frames_reaches.submit hd
  | step =>
    obtain ⟨⟨outcome, d⟩, hd, he⟩ := map_eq_ok h
    cases he
    exact step_reaches hd
  | run =>
    obtain ⟨⟨report, d⟩, hd, he⟩ := map_eq_ok h
    cases he
    exact frames_reaches.run step_reaches hd
  | resolve =>
    obtain ⟨⟨results, d⟩, hd, he⟩ := map_eq_ok h
    cases he
    exact resolve_reaches hd
  | settle =>
    obtain ⟨⟨report, d⟩, hd, he⟩ := map_eq_ok h
    cases he
    obtain ⟨⟨results, d'⟩, hr, hrun⟩ := bind_eq_ok hd
    exact (resolve_reaches hr).trans (frames_reaches.run step_reaches hrun)
  | cutOff indices duration =>
    obtain ⟨d, hd, he⟩ := map_eq_ok h
    cases he
    obtain ⟨side, _, hd⟩ := bind_eq_ok hd
    obtain ⟨network, hc, hd⟩ := bind_eq_ok hd
    cases hd
    exact Network.reaches_of_perform (.cutOff side duration)
      (by rw [Network.Call.perform, hc]; rfl)
  | heal =>
    obtain ⟨d, hd, he⟩ := map_eq_ok h
    cases he
    obtain ⟨network, hc, rfl⟩ := map_eq_ok hd
    exact Network.reaches_of_perform .heal (by rw [Network.Call.perform, hc]; rfl)
  | advance ticks =>
    obtain ⟨d, hd, he⟩ := map_eq_ok h
    cases he
    exact advance_reaches hd
  | setLinkDelay source target delay =>
    cases h
    exact Network.reaches_of_perform (.setLinkDelay source target delay) rfl
  | antiEntropy =>
    obtain ⟨d, hd, he⟩ := map_eq_ok h
    cases he
    exact frames_reaches.antiEntropy hd
  | announceFrontiers =>
    obtain ⟨d, hd, he⟩ := map_eq_ok h
    cases he
    exact frames_reaches.announceFrontiers hd
  | collectGarbage =>
    cases h
    exact .refl
  | setLeader leader =>
    cases h
    exact .refl
  | injectTimeouts count =>
    obtain ⟨d, hd, he⟩ := map_eq_ok h
    cases he
    obtain ⟨sequencer, _, rfl⟩ := map_eq_ok hd
    exact .refl
  | addNode =>
    obtain ⟨⟨index, d⟩, hd, he⟩ := map_eq_ok h
    cases he
    exact frames_reaches.addNode hd

/-- All that can be done with a cluster. -/
inductive Access
  | command (command : Command)
  | broadcast (source : Nat) (m : Message)
  | network (call : Network.Call Message)
  | sequencer (call : Sequencer.Call)

def Access.perform (c : Cluster) : Access → Except Fault Cluster
  | .command x => (x.perform c).map (·.2)
  | .broadcast source m => c.broadcast source m
  | .network call => (call.perform c.network).map fun r => { c with network := r.2 }
  | .sequencer call => (call.perform c.sequencer).map fun r => { c with sequencer := r.2 }

/-- Uses a cluster in some ways, one after the other, unless there is a fault. -/
def accessAll (c : Cluster) (accesses : List Access) : Except Fault Cluster :=
  accesses.foldlM (fun c access => access.perform c) c

theorem Access.perform_reaches {access : Access} (h : access.perform c = .ok c') :
    c.network.Reaches c'.network := by
  cases access with
  | command x =>
    obtain ⟨⟨reply, d⟩, hd, rfl⟩ := map_eq_ok h
    exact Command.perform_reaches hd
  | broadcast source m => exact frames_reaches.broadcast h
  | network call =>
    obtain ⟨⟨delivered, network⟩, hd, rfl⟩ := map_eq_ok h
    exact Network.reaches_of_perform call hd
  | sequencer call =>
    obtain ⟨_, _, rfl⟩ := map_eq_ok h
    exact .refl

theorem sound_network {config : ClusterConfig} {classifier : Classifier} {ids : IdSupply}
    {accesses : List Access} (h : (new config classifier ids).accessAll accesses = .ok c) :
    c.network.Sound :=
  foldlM_keeps (p := fun c : Cluster => c.network.Sound)
    (fun _ _ _ hs hp => hs.reaches (Access.perform_reaches hp)) (Network.sound_new _ _) h

end Cluster
end Confluence
