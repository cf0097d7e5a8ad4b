import Mathlib.Data.List.Pairwise
import Confluence.Proofs.Cluster.Proposals

namespace Confluence

/-- A failure names the update that the submission has committed. -/
def CommitResult.Retains : CommitResult → Submission → Prop
  | .committed _, _ => True
  | .failed _ retained, s => retained = s.update.map (·.id)

namespace Trace
variable {t t' : Trace} {p : Proposal} {s s' : Submitted}

/-- The submission has made the proposal. -/
def Made (t : Trace) (p : Proposal) (s : Submitted) : Prop :=
  s ∈ t.submissions ∧ s.submission.proposal = some p

theorem Made.mono (h : t.Made p s) (ht : t.submissions <+: t'.submissions) : t'.Made p s :=
  ⟨ht.subset h.1, h.2⟩

theorem mem_proposals : p ∈ t.proposals ↔ ∃ s, t.Made p s := List.mem_filterMap

theorem Made.unique (h : t.Made p s) (h' : t.Made p s') (hids : t.ids.Nodup) : s = s' := by
  have hn := List.pairwise_filterMap.1 (List.Nodup.of_map _ (nodup_proposals hids))
  have hsymm : Std.Symm fun s s' : Submitted => ∀ p, s.submission.proposal = some p →
      ∀ p', s'.submission.proposal = some p' → p ≠ p' :=
    ⟨fun s s' hss p hp p' hp' => (hss p' hp' p hp).symm⟩
  by_contra hne
  exact hn.forall h.1 h'.1 hne p h.2 p h'.2 rfl

end Trace

namespace World
variable {w w' : World} {i : Nat} {n n' : Node} {t : List (Envelope Message)}
  {id : ProposalId} {e : PendingProposal}

/-- The entry is what the node at the position keeps of a proposal whose outcome is awaited. -/
def Expects (w : World) (i : Nat) (id : ProposalId) (e : PendingProposal) : Prop :=
  ∃ q ∈ w.awaiting, q.origin = i ∧ q.proposal.id = id ∧
    ∃ s, w.Made q.proposal s ∧ e = s.submission.pendingEntry q.proposal

theorem Expects.mono (h : w.Expects i id e) (ha : ∀ q ∈ w.awaiting, q ∈ w'.awaiting)
    (hs : w.submissions <+: w'.submissions) : w'.Expects i id e := by
  obtain ⟨q, hq, ho, hid, s, hm, he⟩ := h
  exact ⟨q, ha q hq, ho, hid, s, hm.mono hs, he⟩

/-- Whatever is pending awaits its outcome, and whatever awaits its outcome has no result. -/
structure Pended (w : World) : Prop where
  entries : ∀ (i : Nat) (n : Node), w.nodes[i]? = some n → ∀ id e, n.pending.find? id = some e →
    w.Expects i id e
  undecided : ∀ q ∈ w.awaiting, w.results.find? q.proposal.id = none
  results : ∀ id r, w.results.find? id = some r →
    ∃ p s, w.Made p s ∧ p.id = id ∧ r.Retains s.submission

theorem IsNew.pended (h : w.IsNew) : w.Pended := by
  have ha : w.awaiting = [] := by
    unfold awaiting
    rw [h.queued, h.outcomes]
    rfl
  constructor
  · intro i n hi id e he
    rw [(h.nodes i n hi).pending] at he
    cases he
  · intro q hq
    rw [ha] at hq
    cases hq
  · intro id r hr
    rw [h.results] at hr
    cases hr

theorem Pended.keep (h : w.Pended) {l : List Node} {es : List (Nat × Change)} {k : Nat}
    {late : Prop} (hl : ∀ (i : Nat) (n' : Node), l[i]? = some n' →
      n'.pending = .empty ∨ ∃ n, w.nodes[i]? = some n ∧ n'.pending = n.pending) :
    { w with nodes := l, transit := t, changes := es, collected := k, late := late }.Pended where
  entries i n' hi id e he := by
    rcases hl i n' hi with hnone | ⟨n, hn, hsame⟩
    · rw [hnone] at he
      cases he
    · rw [hsame] at he
      exact h.entries i n hn id e he
  undecided := h.undecided
  results := h.results

theorem Pended.submit {x : Transaction} {s : Submission} (h : w.Pended) (hi : w.nodes[i]? = some n)
    (hs : n.Submits x s n')
    (hids : ({ w.toTrace with submissions := w.submissions ++ [Submitted.mk x s] } : Trace).ids.Nodup) :
    { w with
      nodes := w.nodes.set i n'
      queued := w.queued ++ s.proposal.toList.map (QueuedProposal.mk i)
      submissions := w.submissions ++ [Submitted.mk x s] }.Pended := by
  have hgrow : w.submissions <+: w.submissions ++ [Submitted.mk x s] := List.prefix_append _ _
  have hawait {q : QueuedProposal} :
      q ∈ w.queued ++ s.proposal.toList.map (QueuedProposal.mk i) ++ w.outcomes.map (·.1) ↔
        q ∈ w.awaiting ∨ ∃ p, s.proposal = some p ∧ QueuedProposal.mk i p = q := by
    unfold awaiting
    simp only [List.mem_append, List.mem_map, Option.mem_toList, or_right_comm]
  have hold : ∀ {j : Nat} {id : ProposalId} {e : PendingProposal}, w.Expects j id e →
      World.Expects { w with
        queued := w.queued ++ s.proposal.toList.map (QueuedProposal.mk i)
        submissions := w.submissions ++ [Submitted.mk x s] } j id e :=
    fun he => he.mono (fun q hq => hawait.2 (.inl hq)) hgrow
  constructor
  · intro j m hj id e hm
    rcases getElem?_set_node hi hj with ⟨rfl, rfl⟩ | ⟨_, hj⟩
    · rcases hs.find?_pending hm with hm | ⟨p, hp, hid, he⟩
      · exact hold (h.entries j n hi id e hm)
      · exact ⟨⟨j, p⟩, hawait.2 (.inr ⟨p, hp, rfl⟩), rfl, hid, ⟨x, s⟩,
          ⟨List.mem_append_right _ (List.mem_singleton_self _), hp⟩, he⟩
    · exact hold (h.entries j m hj id e hm)
  · intro q hq
    rcases hawait.1 hq with hq | ⟨p, hp, rfl⟩
    · exact h.undecided q hq
    · -- A result would be one of an earlier proposal of the same identifier.
      apply Option.eq_none_iff_forall_not_mem.2
      intro r hr
      obtain ⟨p', s', hm, hid, _⟩ := h.results p.id r hr
      exact proposals_fresh (x := ⟨x, s⟩) hp hids (Trace.mem_proposals.2 ⟨s', hm⟩) hid
  · intro id r hr
    obtain ⟨p, s', hm, hid, hret⟩ := h.results id r hr
    exact ⟨p, s', hm.mono hgrow, hid, hret⟩

theorem Pended.complete {q : QueuedProposal} {outcome : Except NodeError Decision}
    {rest : List (QueuedProposal × Except NodeError Decision)} {result : CommitResult}
    (h : w.Pended) (ha : w.Accounted) (hout : w.outcomes = (q, outcome) :: rest)
    (hi : w.nodes[q.origin]? = some n) (hn : n.complete q.proposal.id outcome = .ok (result, n')) :
    { w with
      nodes := w.nodes.set q.origin n'
      outcomes := rest
      results := w.results.insert q.proposal.id result }.Pended := by
  have hperm := awaiting_perm hout
  have hrest {q' : QueuedProposal} (hq' : q' ∈ w.awaiting) (hne : q' ≠ q) :
      q' ∈ w.queued ++ rest.map (·.1) :=
    (List.mem_cons.1 (hperm.mem_iff.1 hq')).resolve_left hne
  constructor
  · intro j m hj id e he
    rcases getElem?_set_node hi hj with ⟨rfl, rfl⟩ | ⟨hne, hj⟩
    · rw [(Node.complete_rest hn).2.2.1, OrderedMap.find?_erase] at he
      split at he
      · cases he
      · next hid =>
        obtain ⟨q', hq', ho, hid', hm⟩ := h.entries _ n hi id e he
        refine ⟨q', hrest hq' ?_, ho, hid', hm⟩
        rintro rfl
        exact hid hid'.symm
    · obtain ⟨q', hq', ho, hid, hm⟩ := h.entries j m hj id e he
      refine ⟨q', hrest hq' ?_, ho, hid, hm⟩
      rintro rfl
      exact hne ho.symm
  · intro q' hq'
    change (w.results.insert q.proposal.id result).find? q'.proposal.id = none
    rw [OrderedMap.find?_insert, if_neg (ha.ne_of_mem_rest hout hq')]
    exact h.undecided q' (hperm.mem_iff.2 (List.mem_cons_of_mem _ hq'))
  · intro id r hr
    change (w.results.insert q.proposal.id result).find? id = some r at hr
    rw [OrderedMap.find?_insert] at hr
    split at hr
    · next hid =>
      cases hr
      obtain ⟨p, hp⟩ := (Node.complete_eq_ok hn).1
      obtain ⟨q', hq', _, hid', s, hm, he⟩ := h.entries _ n hi _ p hp
      refine ⟨q'.proposal, s, hm, hid'.trans hid.symm, ?_⟩
      cases result with
      | committed scope => trivial
      | failed reason retained =>
        have hret := Node.complete_retained hp hn
        rw [he] at hret
        exact hret
    · exact h.results id r hr

theorem Pended.step (h : w.Pended) (ha : w.Accounted) (hs : Step w w') (hids : w'.ids.Nodup) :
    w'.Pended := by
  have hself : ∀ (i : Nat) (n : Node), w.nodes[i]? = some n → n.pending = .empty ∨
      ∃ m, w.nodes[i]? = some m ∧ n.pending = m.pending := fun i n hi => .inr ⟨n, hi, rfl⟩
  cases hs with
  | send _ _ => exact h.keep hself
  | discard _ _ => exact h.keep hself
  | @deliver i n e t hi _ _ =>
    apply h.keep
    intro j m hj
    rcases getElem?_set_node hi hj with ⟨rfl, rfl⟩ | ⟨_, hj⟩
    · exact .inr ⟨n, hi, (n.receive_rest e.message).2.2.2⟩
    · exact hself j m hj
  | submit hi hsub _ =>
    have hs := h.submit hi (Node.submit_eq_ok hsub) hids
    exact ⟨hs.entries, hs.undecided, hs.results⟩
  | decide hout hdec =>
    have ha := awaiting_decide hout hdec
    constructor
    · intro i n hi id e he
      exact (h.entries i n hi id e he).mono (fun q hq => ha.symm ▸ hq) List.prefix_rfl
    · rw [ha]
      exact h.undecided
    · exact h.results
  | complete hout hi hn _ =>
    have hs := h.complete ha hout hi hn
    exact ⟨hs.entries, hs.undecided, hs.results⟩
  | ignore hout hi hn => exact absurd hn (ha.complete_ne_error hout hi _)
  | collect =>
    apply h.keep
    intro i n hi
    rw [List.getElem?_map] at hi
    obtain ⟨m, hm, rfl⟩ := Option.map_eq_some_iff.1 hi
    exact .inr ⟨m, hm, rfl⟩
  | join _ =>
    apply h.keep
    intro i n hi
    rcases getElem?_concat_node hi with ⟨_, rfl⟩ | hi
    · exact .inl w.newcomer_isNew.pending
    · exact hself i n hi

theorem Pended.find?_results (h : w.Pended) (hs : Step w w') {id : ProposalId} {r : CommitResult}
    (hr : w.results.find? id = some r) : w'.results.find? id = some r := by
  cases hs with
  | @complete q outcome rest n n' result t hout hi hn ht =>
    change (w.results.insert q.proposal.id result).find? id = some r
    rw [OrderedMap.find?_insert, if_neg, hr]
    rintro rfl
    rw [h.undecided q ((awaiting_perm hout).mem_iff.2 List.mem_cons_self)] at hr
    cases hr
  | _ => exact hr

theorem Pended.find?_pending (h : w.Pended) (ha : w.Accounted) (hids : w.ids.Nodup)
    (hi : w.nodes[i]? = some n) : n.pending.find? id = some e ↔ w.Expects i id e := by
  constructor
  · exact h.entries i n hi id e
  · rintro ⟨q, hq, rfl, rfl, s, hs, rfl⟩
    obtain ⟨m, hm, hc⟩ := ha.pending q hq
    rw [hi] at hm
    cases hm
    obtain ⟨e, he⟩ := OrderedMap.contains_iff.1 hc
    obtain ⟨q', hq', _, hid, s', hs', rfl⟩ := h.entries _ n hi _ e he
    obtain rfl := List.inj_on_of_nodup_map ha.distinct hq' hq hid
    obtain rfl := hs.unique hs' hids
    exact he

end World
end Confluence
