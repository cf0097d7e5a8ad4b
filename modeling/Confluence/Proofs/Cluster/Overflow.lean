import Confluence.Proofs.Cluster.Clock
import Confluence.Proofs.Cluster.Policies
import Confluence.Proofs.Network.Overflow

namespace Confluence

namespace Sequencer

theorem propose_overflowsOnly (s : Sequencer) (via : NodeId) (p : Proposal) :
    OverflowsOnly (s.propose via p) := by
  unfold propose
  dsimp only
  split
  · exact (checkedAdd_stopsOnly ..).map _
  split
  · exact (checkedAdd_stopsOnly ..).map _
  split
  · exact .ok _
  split
  · exact .ok _
  · refine StopsOnly.map ?_ _
    unfold append
    split
    · exact .ok _
    · exact .error rfl

end Sequencer

namespace Cluster
variable {c : Cluster} {n : Node}

theorem node_eq {i : Nat} (hi : c.nodes[i]? = some n) : c.node i = .ok n := by
  unfold node
  rw [hi]

theorem broadcast_overflowsOnly {i : Nat} (hi : c.nodes[i]? = some n) (m : Message) :
    OverflowsOnly (c.broadcast i m) := by
  unfold broadcast
  rw [node_eq hi]
  exact .foldlM (p := fun _ => True) (fun c target _ => (c.network.send_overflowsOnly ..).map _)
    (fun _ _ _ _ _ => trivial) trivial

theorem complete_overflowsOnly {q : QueuedProposal} (hi : c.nodes[q.origin]? = some n)
    (outcome : Except NodeError Decision) : OverflowsOnly (c.complete q outcome) := by
  unfold complete
  rw [node_eq hi, ok_bind]
  split
  · exact .ok _
  · next result n' _ =>
    cases outcome with
    | error reason => exact .ok _
    | ok d =>
      refine StopsOnly.map ?_ _
      exact broadcast_overflowsOnly (getElem?_set_self' hi) _

theorem completeAll_overflowsOnly {outcomes : List (QueuedProposal × Except NodeError Decision)}
    (hc : c.Sound) (horigin : ∀ x ∈ outcomes, x.1.origin < c.nodes.length) :
    OverflowsOnly (c.completeAll outcomes) := by
  induction outcomes generalizing c with
  | nil => exact .ok _
  | cons x rest ih =>
    obtain ⟨q, outcome⟩ := x
    have hi := List.getElem?_eq_getElem (horigin _ List.mem_cons_self)
    apply (complete_overflowsOnly hi outcome).bind
    rintro ⟨result, d⟩ hd
    have hds := (@complete_steps c d .empty q outcome rest result hc hd).1
    have hlength := (complete_keeps hc hd).length
    have hrest : ∀ x ∈ rest, x.1.origin < d.nodes.length := fun x hx =>
      hlength ▸ horigin x (List.mem_cons_of_mem _ hx)
    exact (ih hds hrest).bind fun _ _ => .ok _

theorem catchUp_overflowsOnly (c : Cluster) : OverflowsOnly c.catchUp := by
  unfold catchUp
  split
  · exact ((c.network.advance_overflowsOnly _).map _).map _
  · exact .ok _

theorem drive_overflowsOnly (c : Cluster) : OverflowsOnly c.drive := by
  apply (Schedule.run_stopsOnly (q := (· = .overflow)) rfl
    (fun s _ via p => s.propose_overflowsOnly via p) _ _ _ _).bind
  rintro ⟨answers, sequencer⟩ _
  exact (catchUp_overflowsOnly _).bind fun _ _ => .ok _

theorem exists_resolve (hc : c.Sound) (horigin : ∀ q ∈ c.queued, q.origin < c.nodes.length)
    (h : c.resolve ≠ .error .overflow) : ∃ results c', c.resolve = .ok (results, c') := by
  have hstops : OverflowsOnly c.resolve := by
    apply c.drive_overflowsOnly.bind
    rintro ⟨outcomes, d⟩ hd
    have hsound := (@drive_steps c d .empty outcomes hc hd).1
    obtain ⟨answers, sequencer, _, hcatch, rfl⟩ := drive_eq_ok hd
    have hnodes : d.nodes = c.nodes := (catchUp_sends (by exact hc.numbered) hcatch).nodes
    apply completeAll_overflowsOnly hsound
    intro x hx
    exact hnodes ▸ horigin x.1 (List.of_mem_zip hx).1
  obtain ⟨⟨results, c'⟩, hr⟩ := hstops.exists_ok fun f hf => hf ▸ h
  exact ⟨results, c', hr⟩

end Cluster
end Confluence
