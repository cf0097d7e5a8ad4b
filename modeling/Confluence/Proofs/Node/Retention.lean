import Confluence.Proofs.Node.Hold

namespace Confluence

theorem Submission.IsSplit.update_eq_none {s : Submission} (h : s.IsSplit) :
    s.update = none ↔ s.decomposition.liftable = [] := by
  have hupdate := h.update
  constructor
  · intro hu
    by_contra hl
    rw [if_neg hl, hu] at hupdate
    cases hupdate
  · intro hl
    rwa [if_pos hl, Option.map_eq_none_iff] at hupdate

namespace Node

/-- The call reports the outcome of the proposal, whatever it is. -/
def Call.completes (x : Call) (q : ProposalId) : Bool :=
  match x with
  | .act a => a.completes q
  | .commit _ => false

/-- A submission among the calls has made the proposal. -/
def Proposed (s : Node × IdSupply) (calls : List Call) (submission : Submission) (p : Proposal) :
    Prop :=
  ∃ before t after mid n ids, calls = before ++ .act (.submit t) :: after ∧
    callAll s before = .ok mid ∧ mid.1.submit t mid.2 = .ok (submission, n, ids) ∧
    submission.proposal = some p

/-- An update has taken effect: it is known, and every key on which it has an Abelian operation has
its mark. -/
structure Retains (n : Node) (c : Classifier) (u : Update) : Prop where
  applied : n.replica.hasApplied u.id = true
  marked : ∀ op ∈ u.operations, c.classifyOperation op = .abelian →
    (n.state.get op.key).applied.contains u.id = true

/-- The node without the entry of a proposal. -/
def drop (n : Node) (q : ProposalId) : Node := { n with pending := n.pending.erase q }

/-- What the failure of a proposal that a submission has made comes to, at a node that has drawn from
`start` what `ids` has given. -/
structure FailsWith (start ids : IdSupply) (n : Node) (q : ProposalId) (submission : Submission) :
    Prop where
  /-- The entry leaves and nothing else changes; what was lifted is told. -/
  result : ∀ reason, n.complete q (.error reason) =
    .ok (.failed reason (submission.update.map (·.id)), n.drop q)
  lifted : submission.update = none ↔ submission.decomposition.liftable = []
  retained : ∀ u, submission.update = some u → ∀ later n' ids',
    callAll (n.drop q, ids) later = .ok (n', ids') → n'.Retains n.classifier u
  ended : ∀ later n' ids', callAll (n.drop q, ids) later = .ok (n', ids') →
    (ids'.drawnSince start).Nodup → ∀ outcome,
      n'.complete q outcome = .error (.unknownProposal q)

variable {n n' : Node} {s s' mid : Node × IdSupply} {x : Call} {calls later : List Call}
  {t : Transaction} {submission : Submission} {p : Proposal} {q : ProposalId} {e : PendingProposal}
  {u : Update}

theorem find?_pending_call (h : call s x = .ok s') (hq : q ∉ s'.2.drawnSince s.2) :
    s'.1.pending.find? q = if x.completes q then none else s.1.pending.find? q := by
  cases x with
  | act a => exact find?_pending_act h hq
  | commit d =>
    obtain ⟨⟨v, n, ids⟩, hc, rfl⟩ := map_eq_ok h
    obtain ⟨_, _, _, _, hpending, _⟩ := commitLocal_eq_ok hc
    exact congrArg (OrderedMap.find? · q) hpending

theorem find?_pending_callAll (h : callAll s calls = .ok s') (hq : q ∉ s'.2.drawnSince s.2) :
    s'.1.pending.find? q =
      if calls.any (·.completes q) then none else s.1.pending.find? q := by
  induction calls generalizing s with
  | nil =>
    cases h
    rfl
  | cons x calls ih =>
    obtain ⟨mid, hmid, h⟩ := bind_eq_ok h
    rw [IdSupply.drawnSince_eq_append (callAll_moves h).ids (call_moves hmid).ids,
      List.mem_append, not_or] at hq
    rw [ih h hq.2, find?_pending_call hmid hq.1, List.any_cons]
    cases x.completes q <;> simp

theorem not_mem_drawnSince {start : IdSupply} (hfirst : s.2.Continues start)
    (hlast : s'.2.Continues s.2) (hids : (s'.2.drawnSince start).Nodup)
    (hq : q ∈ s.2.drawnSince start) : q ∉ s'.2.drawnSince s.2 := by
  rw [IdSupply.drawnSince_eq_append hlast hfirst] at hids
  exact List.disjoint_of_nodup_append hids hq

/-- What one call adds to what is pending is the entry of a proposal that it makes. -/
theorem exists_submit_of_find? (h : call s x = .ok s') (he : s'.1.pending.find? q = some e) :
    s.1.pending.find? q = some e ∨
      ∃ t submission p, x = .act (.submit t) ∧ s.1.submit t s.2 = .ok (submission, s'.1, s'.2) ∧
        submission.proposal = some p ∧ p.id = q := by
  cases x with
  | commit d =>
    obtain ⟨⟨v, n, ids⟩, hc, rfl⟩ := map_eq_ok h
    obtain ⟨_, _, _, _, hpending, _⟩ := commitLocal_eq_ok hc
    exact .inl (hpending ▸ he)
  | act a =>
    have hpending := pending_act h
    cases a with
    | submit t =>
      obtain ⟨submission, hs⟩ := hpending
      rcases (submit_eq_ok hs).find?_pending he with hold | ⟨p, hp, hq, _⟩
      · exact .inl hold
      · exact .inr ⟨t, submission, p, rfl, hs, hp, hq⟩
    | complete id outcome =>
      rw [hpending] at he
      split at he
      · cases he
      · exact .inl he
    | receive m => exact .inl (hpending ▸ he)
    | registerPeer peer => exact .inl (hpending ▸ he)
    | collectGarbage => exact .inl (hpending ▸ he)

theorem Proposed.append (h : Proposed s calls submission p) (later : List Call) :
    Proposed s (calls ++ later) submission p := by
  obtain ⟨before, t, after, mid, n, ids, rfl, hbefore, hs, hp⟩ := h
  exact ⟨before, t, after ++ later, mid, n, ids, List.append_assoc .., hbefore, hs, hp⟩

theorem exists_proposed (h : callAll s calls = .ok s') (hs : s.1.pending.find? q = none)
    (he : s'.1.pending.find? q = some e) : ∃ submission p, Proposed s calls submission p ∧ p.id = q := by
  induction calls using List.reverseRecOn generalizing s' with
  | nil =>
    cases h
    cases hs.symm.trans he
  | append_singleton calls x ih =>
    obtain ⟨mid, hmid, h⟩ := callAll_append.1 h
    obtain ⟨_, hlast, h⟩ := bind_eq_ok h
    cases h
    rcases exists_submit_of_find? hlast he with hold | ⟨t, submission, p, rfl, hsub, hp, hq⟩
    · obtain ⟨submission, p, hmade, hq⟩ := ih hmid hold
      exact ⟨submission, p, hmade.append _, hq⟩
    · exact ⟨submission, p, ⟨calls, t, [], mid, _, _, rfl, hmid, hsub, hp⟩, hq⟩

theorem Retains.of_moves {c : Classifier} (h : s.1.Retains c u) (hm : Moves s s') :
    s'.1.Retains c u where
  applied := hm.replica.hasApplied h.applied
  marked op hop habelian := hm.replica.stamped (h.marked op hop habelian)

/-- A node retains the update that a submission commits. -/
theorem Submits.retains (h : n.Submits t submission n') (hu : submission.update = some u) :
    n'.Retains n.classifier u := by
  obtain ⟨_, _, _, hr⟩ := h.update u hu
  constructor
  · rw [hr, Replica.hasApplied_absorb]
    exact .inl rfl
  · intro op hop habelian
    have hj : n.classifier.classifyOperation op ≠ .semilattice := by
      rw [habelian]
      decide
    unfold state
    rw [hr]
    exact ReplicaState.contains_merge n.state .deduplicated hop hj

/-- The identifier of a proposal is drawn by the submission that makes it, the entry stays as the
submission has left it, and the update of the submission is retained. -/
theorem Proposed.spec (h : Proposed s calls submission p) (hc : callAll s calls = .ok s')
    (hids : (s'.2.drawnSince s.2).Nodup) :
    p.id ∈ s'.2.drawnSince s.2 ∧ submission.IsSplit ∧
      (∀ e, s'.1.pending.find? p.id = some e → e = submission.pendingEntry p) ∧
      ∀ u, submission.update = some u → s'.1.Retains s'.1.classifier u := by
  obtain ⟨before, t, after, mid, n, ids, rfl, hbefore, hs, hp⟩ := h
  obtain ⟨_, hbefore', hc⟩ := callAll_append.1 hc
  cases hbefore.symm.trans hbefore'
  obtain ⟨made, hmade, hafter⟩ := bind_eq_ok hc
  change act mid (.submit t) = _ at hmade
  rw [act, hs] at hmade
  cases hmade
  have hsub := submit_eq_ok hs
  obtain ⟨hdraw, hdraws⟩ := submit_draws hs
  have hfirst : ids.Continues s.2 := hdraw.trans (callAll_moves hbefore).ids
  have hlast := callAll_moves hafter
  have hdrawn : p.id ∈ ids.drawnSince s.2 := by
    rw [IdSupply.drawnSince_eq_append hdraw (callAll_moves hbefore).ids]
    exact List.mem_append_right _ (hdraws p hp)
  refine ⟨?_, submit_isSplit hs, ?_, ?_⟩
  · rw [IdSupply.drawnSince_eq_append hlast.ids hfirst]
    exact List.mem_append_left _ hdrawn
  · intro e he
    have hfresh := not_mem_drawnSince (s := (n, ids)) hfirst hlast.ids hids hdrawn
    rw [find?_pending_callAll hafter hfresh, (hsub.proposal p hp).2.2, OrderedMap.find?_insert,
      if_pos rfl] at he
    split at he
    · cases he
    · exact (Option.some.inj he).symm
  · intro u hu
    have hclassifier : s'.1.classifier = mid.1.classifier :=
      hlast.classifier.trans hsub.kept.2.2.1
    rw [hclassifier]
    exact (hsub.retains hu).of_moves (s := (n, ids)) hlast

theorem complete_of_none (h : n.pending.find? q = none) (outcome : Except NodeError Decision) :
    n.complete q outcome = .error (.unknownProposal q) := by
  unfold complete
  rw [h]

theorem complete_of_failure (h : n.pending.find? q = some e) (reason : NodeError) :
    n.complete q (.error reason) = .ok (.failed reason e.retainedLocal, n.drop q) := by
  unfold complete
  rw [h]
  rfl

theorem find?_pending_after_drop {start : IdSupply} (hfirst : s.2.Continues start)
    (hq : q ∈ s.2.drawnSince start) (h : callAll (s.1.drop q, s.2) later = .ok s')
    (hids : (s'.2.drawnSince start).Nodup) : s'.1.pending.find? q = none := by
  have hfresh := not_mem_drawnSince hfirst (callAll_moves h).ids hids hq
  rw [find?_pending_callAll h hfresh]
  change (if _ then none else (s.1.pending.erase q).find? q) = none
  rw [OrderedMap.find?_erase, if_pos rfl, ite_self]

/-- Failed and unknown completions leave a node as it is. Whatever has been asked of a node since it
was new, a completion of what is not pending is refused without any change. What is pending stems from
a submission; its failure removes the entry alone and tells the update of that submission, which stays
applied and marked through every later call, while no second completion is taken. -/
theorem complete_without_decision {id : NodeId} {c : Classifier} {config : NodeConfig}
    {ids ids' : IdSupply} (h : callAll (new id c config, ids) calls = .ok (n, ids'))
    (hids : (ids'.drawnSince ids).Nodup) (q : ProposalId) :
    (n.pending.find? q = none → ∀ outcome,
      n.complete q outcome = .error (.unknownProposal q) ∧
      call (n, ids') (.act (.complete q outcome)) = .ok (n, ids')) ∧
    ∀ e, n.pending.find? q = some e → n.classifier = c ∧
      (∃ submission p, Proposed (new id c config, ids) calls submission p ∧ p.id = q) ∧
      ∀ submission p, Proposed (new id c config, ids) calls submission p → p.id = q →
        n.FailsWith ids ids' q submission := by
  constructor
  · intro hq outcome
    have hrefused := complete_of_none hq outcome
    refine ⟨hrefused, ?_⟩
    change act (n, ids') (.complete q outcome) = _
    rw [act, hrefused]
  · intro e he
    have hmoves := callAll_moves h
    refine ⟨hmoves.classifier, exists_proposed h rfl he, ?_⟩
    rintro submission p hp rfl
    obtain ⟨hdrawn, hsplit, hentry, hretains⟩ := hp.spec h hids
    cases hentry e he
    constructor
    · exact complete_of_failure he
    · exact hsplit.update_eq_none
    · intro u hu later n' ids'' hlater
      have hstill : (n.drop p.id).Retains n.classifier u :=
        ⟨(hretains u hu).applied, (hretains u hu).marked⟩
      exact hstill.of_moves (s := (n.drop p.id, ids')) (callAll_moves hlater)
    · intro later n' ids'' hlater hids'
      apply complete_of_none
      exact find?_pending_after_drop (s := (n, ids')) hmoves.ids hdrawn hlater hids'

/-- A lifted increment and insertion, and a proposal that fails; before that, an unknown proposal that
comes with a decision, and after it, an update from elsewhere on the key, a commit of a split made
elsewhere, a collection and the decision of the failed proposal. -/
theorem complete_without_decision_mixed :
    let start : Node := new "a" .standard .default
    let t : Transaction :=
      [.increment "edits" 3, .insert "tags" "new", .overwrite "title" "draft"]
    let p : Proposal := ⟨Uuid.ofNat 1, "a", [.overwrite "title" "draft"], .ofList [("a", 1)]⟩
    let v : Update := ⟨Uuid.ofNat 7, "b", .ofList [("b", 1)], [.increment "edits" 1]⟩
    let calls : List Call := [.act (.submit t), .act (.registerPeer "b")]
    let later : List Call := [.act (.receive (.update v)),
      .commit (start.decompose [.increment "edits" 2]), .act .collectGarbage]
    let reason : NodeError := .unavailable p.id 3 0
    ∃ n ids n' ids', callAll (start, .ofStream Uuid.ofNat) calls = .ok (n, ids) ∧
      (ids.drawnSince (.ofStream Uuid.ofNat)).Nodup ∧
      n.complete (Uuid.ofNat 9) (.ok ⟨0, p⟩) = .error (.unknownProposal (Uuid.ofNat 9)) ∧
      n.complete p.id (.error reason) = .ok (.failed reason (some (Uuid.ofNat 0)), n.drop p.id) ∧
      callAll (n.drop p.id, ids) later = .ok (n', ids') ∧
      n'.replica.hasApplied (Uuid.ofNat 0) = true ∧
      (n'.state.get "edits").applied.contains (Uuid.ofNat 0) = true ∧
      (n'.state.get "edits").counter = some 6 ∧
      n'.complete p.id (.ok ⟨0, p⟩) = .error (.unknownProposal p.id) := by
  intro start t p v calls later reason
  let u : Update := ⟨Uuid.ofNat 0, "a", .ofList [("a", 1)],
    [.increment "edits" 3, .insert "tags" "new"]⟩
  obtain ⟨⟨submission, m, rest⟩, hs, hmade⟩ := @exists_of_endsWith _ _
    (start.submit t (.ofStream Uuid.ofNat))
    (fun r => r.1.proposal = some p ∧ r.1.update = some u) (by decide +kernel)
  obtain ⟨hp, hu⟩ := of_decide_eq_true hmade
  obtain ⟨⟨n, ids⟩, ⟨n', ids'⟩, h, hlater, hend⟩ := @exists_pair_of_endsWith _ _ _
    (callAll (start, .ofStream Uuid.ofNat) calls) (fun s => callAll (s.1.drop p.id, s.2) later)
    (fun r => (r.1.2.drawnSince (.ofStream Uuid.ofNat)).Nodup ∧
      (r.2.2.drawnSince (.ofStream Uuid.ofNat)).Nodup ∧
      r.1.1.pending.find? (Uuid.ofNat 9) = none ∧ r.1.1.pending.contains p.id = true ∧
      (r.2.1.state.get "edits").counter = some 6) (by decide +kernel)
  obtain ⟨hids, hids', hunknown, hpending, hcounter⟩ := of_decide_eq_true hend
  obtain ⟨e, he⟩ := OrderedMap.contains_iff.1 hpending
  have hproposed : Proposed (start, .ofStream Uuid.ofNat) calls submission p :=
    ⟨[], t, [.act (.registerPeer "b")], _, m, rest, rfl, rfl, hs, hp⟩
  have hrefused := (complete_without_decision h hids (Uuid.ofNat 9)).1 hunknown
  obtain ⟨hc, _, hall⟩ := (complete_without_decision h hids p.id).2 e he
  have hfails := hall submission p hproposed rfl
  have hretains := hfails.retained u hu later n' ids' hlater
  rw [hc] at hretains
  have hresult := hfails.result reason
  rw [hu] at hresult
  refine ⟨n, ids, n', ids', h, hids, (hrefused _).1, hresult, hlater, hretains.applied, ?_, hcounter,
    hfails.ended later n' ids' hlater hids' _⟩
  exact hretains.marked (.increment "edits" 3) List.mem_cons_self (by decide)

end Node
end Confluence
