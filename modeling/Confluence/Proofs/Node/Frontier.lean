import Confluence.Proofs.History.Basic
import Confluence.Proofs.History.Frontier
import Confluence.Proofs.History.Stability
import Confluence.Proofs.Node.Listening
import Confluence.Proofs.Node.Past

namespace Confluence

/-- How far a message shows a node to have got. -/
def Message.credit? : Message → Option (NodeId × VectorClock)
  | .update u => some (u.origin, .empty)
  | .decided _ => none
  | .join x => some (x, .empty)
  | .frontier x f => some (x, f)

/-- A monitor takes in what a message shows. -/
def StabilityMonitor.heed (monitor : StabilityMonitor) (m : Message) : StabilityMonitor :=
  match m.credit? with
  | some (x, f) => monitor.updatePeer x f
  | none => monitor

theorem StabilityMonitor.node_heed (monitor : StabilityMonitor) (m : Message) :
    (monitor.heed m).node = monitor.node := by
  unfold heed
  split
  · exact node_updatePeer ..
  · rfl

theorem StabilityMonitor.Watches.heed {monitor : StabilityMonitor} {x : NodeId} {f : VectorClock}
    (h : monitor.Watches x f) (m : Message) : (monitor.heed m).Watches x f := by
  unfold StabilityMonitor.heed
  split
  · exact h.updatePeer _ _
  · exact h

namespace CausalHistory

theorem le_insert (h : CausalHistory) (u : Update) :
    h.delivered.contiguous ≤ (h.insert u).2.delivered.contiguous := by
  rw [delivered_insert]
  exact h.delivered.le_record u.origin u.sequence

end CausalHistory

namespace Node
variable {n n' : Node} {us : List Update} {u : Update}

theorem stability_receive (n : Node) (m : Message) :
    (n.receive m).2.stability = n.stability.heed m ∨
      (n.receive m).2.stability =
        (n.stability.heed m).updateLocal (n.receive m).2.history.delivered.contiguous := by
  cases m with
  | update u =>
    unfold receive
    dsimp only
    by_cases ha : n.replica.hasApplied u.id = true
    · rw [Replica.integrate_of_applied ha]
      exact .inl rfl
    · rw [Replica.integrate_of_new ha]
      exact .inr rfl
  | decided d =>
    rw [receive_decided_snd, acceptDecision_snd]
    exact .inl rfl
  | join x => exact .inl rfl
  | frontier x f => exact .inl rfl

theorem peerFrontier?_receive (n : Node) (m : Message) (x : NodeId) :
    (n.receive m).2.stability.peerFrontier? x = (n.stability.heed m).peerFrontier? x := by
  rcases n.stability_receive m with h | h
  · rw [h]
  · rw [h]
    rfl

theorem node_receive (n : Node) (m : Message) :
    (n.receive m).2.stability.node = n.stability.node := by
  have hn := n.stability.node_heed m
  rcases n.stability_receive m with h | h <;>
  · rw [h]
    exact hn

theorem complete_clock {id : ProposalId} {outcome : Except NodeError Decision}
    {result : CommitResult} (h : n.complete id outcome = .ok (result, n')) :
    n'.clock = n.clock ∧ n'.stability = n.stability := by
  have hcase := (complete_eq_ok h).2
  cases outcome with
  | ok d =>
    rw [hcase.2, acceptDecision_snd]
    exact ⟨rfl, rfl⟩
  | error reason =>
    rw [hcase.2]
    exact ⟨rfl, rfl⟩

theorem latest_concat (us : List Update) (u : Update) (x : NodeId) :
    latest (us ++ [u]) x = max (latest us x) (u.clock.get x).toNat :=
  List.foldl_append

/-- The clock and the frontier of a node are those of some updates, and its monitor knows the
frontier. -/
structure Charts (n : Node) (us : List Update) : Prop where
  clock : ∀ x, (n.clock.get x).toNat = latest us x
  delivered : n.history.delivered.Reflects us
  monitor : n.stability.Watches n.id n.history.delivered.contiguous

theorem Charts.keep (h : n.Charts us) (hc : ∀ x, n'.clock.get x = n.clock.get x)
    (hd : n'.history.delivered = n.history.delivered)
    (hm : n'.stability.Watches n'.id n.history.delivered.contiguous) : n'.Charts us where
  clock x := by rw [hc, h.clock]
  delivered := hd ▸ h.delivered
  monitor := hd ▸ hm

theorem Charts.concat (h : n.Charts us)
    (hc : ∀ x, (n'.clock.get x).toNat = max (n.clock.get x).toNat (u.clock.get x).toNat)
    (hd : n'.history.delivered = (n.history.delivered.record u.origin u.sequence).2)
    (hm : n'.stability.Watches n'.id n'.history.delivered.contiguous) :
    n'.Charts (us ++ [u]) where
  clock x := by rw [hc, h.clock, latest_concat]
  delivered := hd ▸ h.delivered.record u
  monitor := hm

theorem Charts.receive (h : n.Charts us) (m : Message) :
    (n.receive m).2.Charts (us ++ Change.updates (n.changes m)) := by
  have hheed := h.monitor.heed m
  cases m with
  | update u =>
    have hr := receive_update_snd n u
    have hid := (n.receive_rest (.update u)).1
    by_cases ha : n.replica.hasApplied u.id = true
    · have hchanges : n.changes (.update u) = [] := if_pos ha
      have hstability : (n.receive (.update u)).2.stability = n.stability.heed (.update u) := by
        unfold Node.receive
        dsimp only
        rw [Replica.integrate_of_applied ha]
        rfl
      rw [Replica.integrate_of_applied ha] at hr
      rw [hchanges, show Change.updates [] = [] from rfl, List.append_nil]
      refine h.keep (fun x => ?_) ?_ (hid ▸ hstability ▸ hheed)
      · unfold Node.clock
        rw [hr]
      · unfold Node.history
        rw [hr]
    · have hchanges : n.changes (.update u) = [.merge u] := if_neg ha
      have hstability : (n.receive (.update u)).2.stability =
          (n.stability.heed (.update u)).updateLocal
            (n.receive (.update u)).2.history.delivered.contiguous := by
        unfold Node.receive
        dsimp only
        rw [Replica.integrate_of_new ha]
        rfl
      rw [Replica.integrate_of_new ha] at hr
      rw [hchanges]
      refine h.concat (fun x => ?_) ?_ (hid ▸ hstability ▸ hheed.updateLocal _)
      · unfold Node.clock
        rw [hr]
        exact VectorClock.toNat_get_merge ..
      · unfold Node.history
        rw [hr]
        exact CausalHistory.delivered_insert ..
  | decided d =>
    rw [show Change.updates (n.changes (.decided d)) = [] from Change.updates_map_apply _,
      List.append_nil, receive_decided_snd, acceptDecision_snd]
    exact h.keep (fun _ => rfl) rfl hheed
  | join x =>
    rw [show Change.updates (n.changes (.join x)) = [] from rfl, List.append_nil]
    exact h.keep (fun y => VectorClock.get_observe n.clock x y) rfl hheed
  | frontier x f =>
    rw [show Change.updates (n.changes (.frontier x f)) = [] from rfl, List.append_nil]
    exact h.keep (fun y => VectorClock.get_observe n.clock x y) rfl hheed

theorem Charts.submit {t : Transaction} {s : Submission} (h : n.Charts us)
    (hs : n.Submits t s n') : n'.Charts (us ++ s.update.toList) := by
  have hstability := hs.stability
  have hid := hs.kept.1
  cases hu : s.update with
  | none =>
    rw [hu] at hstability
    have hstability : n'.stability = n.stability := hstability
    have hr := (hs.noUpdate hu).2
    rw [Option.toList_none, List.append_nil]
    refine h.keep (fun x => ?_) ?_ (hid ▸ hstability ▸ h.monitor)
    · unfold Node.clock
      rw [hr]
    · unfold Node.history
      rw [hr]
  | some u =>
    rw [hu] at hstability
    have hstability : n'.stability = n.stability.updateLocal n'.history.delivered.contiguous :=
      hstability
    obtain ⟨_, _, ht, hr⟩ := hs.update u hu
    rw [Option.toList_some]
    refine h.concat (fun x => ?_) ?_ (hid ▸ hstability ▸ h.monitor.updateLocal _)
    · have hclock : n'.clock = u.clock := by
        unfold Node.clock
        rw [hr]
        rfl
      rw [hclock, VectorClock.toNat_get_tick ht]
      omega
    · unfold Node.history
      rw [hr]
      exact CausalHistory.delivered_insert ..

theorem Charts.complete {id : ProposalId} {outcome : Except NodeError Decision}
    {result : CommitResult} (h : n.Charts us)
    (hc : n.complete id outcome = .ok (result, n')) : n'.Charts us := by
  obtain ⟨hid, _, _, _, hhistory⟩ := complete_rest hc
  obtain ⟨hclock, hstability⟩ := complete_clock hc
  exact h.keep (fun x => by rw [hclock]) (by rw [hhistory]) (hid ▸ hstability ▸ h.monitor)

theorem Charts.collectGarbage (h : n.Charts us) : n.collectGarbage.2.Charts us :=
  h.keep (fun _ => rfl) rfl h.monitor

theorem Charts.registerPeer (h : n.Charts us) (peer : NodeId) : (n.registerPeer peer).Charts us :=
  h.keep (fun x => VectorClock.get_observe n.clock peer x) rfl (h.monitor.updatePeer peer .empty)

theorem charts_new (id : NodeId) (c : Classifier) (config : NodeConfig) :
    (new id c config).Charts [] where
  clock x := (heard_new id c config).clock x
  delivered := DeliveryFrontier.reflects_empty
  monitor := StabilityMonitor.watches_new id

end Node
end Confluence
