import Confluence.Proofs.Cluster.Updates

namespace Confluence

/-- What an outcome of a proposal says about the log. -/
def Proposal.Told (p : Proposal) (log : List Decision) : Except NodeError Decision → Prop
  | .ok d => d ∈ log ∧ d.proposal = p
  | .error _ => ∀ d ∈ log, d.proposal.id ≠ p.id

/-- What a result of a proposal says about the log. -/
def Proposal.Settled (p : Proposal) (log : List Decision) : CommitResult → Prop
  | .committed (.withConsensus slot) => ∃ d ∈ log, d.proposal = p ∧ d.slot = slot
  | .committed .localOnly => False
  | .failed _ _ => ∀ d ∈ log, d.proposal.id ≠ p.id

theorem Proposal.Settled.grow {p : Proposal} {log log' : List Decision} {result : CommitResult}
    (h : p.Settled log result) (hgrows : log <+: log')
    (hnew : ∀ d ∈ log', d ∉ log → d.proposal.id ≠ p.id) : p.Settled log' result := by
  cases result with
  | committed scope =>
    cases scope with
    | localOnly => exact h
    | withConsensus slot =>
      obtain ⟨d, hd, he⟩ := h
      exact ⟨d, hgrows.subset hd, he⟩
  | failed reason retained =>
    intro d hd
    by_cases hold : d ∈ log
    · exact h d hold
    · exact hnew d hd hold

theorem Proposal.Told.settled {p : Proposal} {log : List Decision}
    {outcome : Except NodeError Decision} {n n' : Node} {result : CommitResult}
    (h : p.Told log outcome) (hn : n.complete p.id outcome = .ok (result, n')) :
    p.Settled log result := by
  have hcase := (Node.complete_eq_ok hn).2
  cases outcome with
  | ok d =>
    rw [hcase.1]
    exact ⟨d, h.1, h.2, rfl⟩
  | error reason =>
    obtain ⟨⟨retained, hr⟩, _⟩ := hcase
    rw [hr]
    exact h

theorem Node.pending_complete {n n' : Node} {id id' : ProposalId}
    {outcome : Except NodeError Decision} {result : CommitResult}
    (hn : n.complete id outcome = .ok (result, n')) (hne : id' ≠ id)
    (h : n.pending.contains id' = true) : n'.pending.contains id' = true := by
  obtain ⟨p, hp⟩ := OrderedMap.contains_iff.1 h
  refine OrderedMap.contains_iff.2 ⟨p, ?_⟩
  rw [(complete_rest hn).2.2.1, OrderedMap.find?_erase, if_neg hne, hp]

theorem Node.Submits.pending_contains {n n' : Node} {x : Transaction} {s : Submission}
    {p : Proposal} (h : n.Submits x s n') (hp : s.proposal = some p) (id : ProposalId) :
    n'.pending.contains id = true ↔ id = p.id ∨ n.pending.contains id = true := by
  obtain ⟨_, _, hpending⟩ := h.proposal p hp
  rw [OrderedMap.contains_iff, OrderedMap.contains_iff, hpending, OrderedMap.find?_insert]
  by_cases he : id = p.id
  · simp [he]
  · simp [he]

namespace World
variable {w w' : World} {i : Nat} {n : Node}

/-- The proposals whose outcome has not been reported. -/
def awaiting (w : World) : List QueuedProposal := w.queued ++ w.outcomes.map (·.1)

/-- Every proposal is accounted for: it awaits its outcome or has a result. -/
structure Accounted (w : World) : Prop where
  pending : ∀ q ∈ w.awaiting, ∃ n, w.nodes[q.origin]? = some n ∧
    n.pending.contains q.proposal.id = true
  distinct : (w.awaiting.map (·.proposal.id)).Nodup
  made : ∀ q ∈ w.awaiting, q.proposal ∈ w.proposals
  unlogged : ∀ q ∈ w.queued, ∀ d ∈ w.log, d.proposal.id ≠ q.proposal.id
  logged : ∀ d ∈ w.log, d.proposal ∈ w.proposals
  told : ∀ q outcome, (q, outcome) ∈ w.outcomes → q.proposal.Told w.log outcome
  settled : ∀ p ∈ w.proposals, (∃ q ∈ w.awaiting, q.proposal = p) ∨
    ∃ result, w.results.find? p.id = some result ∧ p.Settled w.log result

theorem IsNew.accounted (h : w.IsNew) : w.Accounted := by
  have ha : w.awaiting = [] := by
    unfold awaiting
    rw [h.queued, h.outcomes]
    rfl
  have hp : w.proposals = [] := by
    unfold Trace.proposals
    rw [h.submissions]
    rfl
  refine ⟨?_, ?_, ?_, ?_, ?_, ?_, ?_⟩
  · simp [ha]
  · simp [ha]
  · simp [ha]
  · simp [h.queued]
  · simp [h.log]
  · simp [h.outcomes]
  · simp [hp]

/-- Nothing changes for proposals as long as the nodes keep theirs pending. -/
theorem Accounted.keep (h : w.Accounted) {l : List Node} {t : List (Envelope Message)}
    {es : List (Nat × Change)} {k : Nat} {late : Prop}
    (hl : ∀ (i : Nat) (n : Node), w.nodes[i]? = some n →
      ∃ n', l[i]? = some n' ∧ n'.pending = n.pending) :
    { w with nodes := l, transit := t, changes := es, collected := k, late := late }.Accounted where
  pending q hq := by
    obtain ⟨n, hn, hp⟩ := h.pending q hq
    obtain ⟨n', hn', he⟩ := hl _ n hn
    exact ⟨n', hn', he ▸ hp⟩
  distinct := h.distinct
  made := h.made
  unlogged := h.unlogged
  logged := h.logged
  told := h.told
  settled := h.settled

theorem exists_getElem?_set {n' : Node} {p : Node → Node → Prop} (hi : w.nodes[i]? = some n)
    (hp : p n n') (hr : ∀ m, p m m) {j : Nat} {m : Node} (hj : w.nodes[j]? = some m) :
    ∃ m', (w.nodes.set i n')[j]? = some m' ∧ p m m' := by
  by_cases he : j = i
  · subst he
    rw [hi] at hj
    cases hj
    exact ⟨n', Cluster.getElem?_set_self' hi, hp⟩
  · exact ⟨m, by rwa [List.getElem?_set_ne (Ne.symm he)], hr m⟩

theorem proposals_concat (t : Trace) (x : Submitted) :
    { t with submissions := t.submissions ++ [x] }.proposals =
      t.proposals ++ x.submission.proposal.toList := by
  unfold Trace.proposals
  rw [List.filterMap_append]
  congr 1

theorem proposals_fresh {t : Trace} {x : Submitted} {p p' : Proposal}
    (hx : x.submission.proposal = some p)
    (hids : { t with submissions := t.submissions ++ [x] }.ids.Nodup) (hp' : p' ∈ t.proposals) :
    p'.id ≠ p.id := by
  intro he
  have hn := Trace.nodup_proposals hids
  rw [proposals_concat, hx, Option.toList_some, List.map_append] at hn
  apply List.disjoint_of_nodup_append hn (List.mem_map_of_mem hp')
  rw [he]
  exact List.mem_map_of_mem (List.mem_singleton_self p)

theorem Accounted.submit_none {l : List Node} {x : Submitted} (h : w.Accounted)
    (hx : x.submission.proposal = none)
    (hl : ∀ (i : Nat) (n : Node), w.nodes[i]? = some n →
      ∃ n', l[i]? = some n' ∧ n'.pending = n.pending) :
    { w with nodes := l, submissions := w.submissions ++ [x] }.Accounted := by
  have hp : ({ w with nodes := l, submissions := w.submissions ++ [x] } : World).proposals =
      w.proposals := by
    rw [proposals_concat, hx, Option.toList_none, List.append_nil]
  have hk := @Accounted.keep w h l w.transit w.changes w.collected w.late hl
  exact ⟨hk.pending, hk.distinct, hp ▸ hk.made, hk.unlogged, hp ▸ hk.logged, hk.told,
    hp ▸ hk.settled⟩

theorem Accounted.submit_some {l : List Node} {x : Submitted} {p : Proposal} (h : w.Accounted)
    (hx : x.submission.proposal = some p)
    (hids : ({ w.toTrace with submissions := w.submissions ++ [x] } : Trace).ids.Nodup)
    (hl : ∀ (j : Nat) (m : Node), w.nodes[j]? = some m → ∃ m', l[j]? = some m' ∧
      ∀ id, m.pending.contains id = true → m'.pending.contains id = true)
    (hi : ∃ n', l[i]? = some n' ∧ n'.pending.contains p.id = true) :
    { w with
      nodes := l
      queued := w.queued ++ [(⟨i, p⟩ : QueuedProposal)]
      submissions := w.submissions ++ [x] }.Accounted := by
  have hp : ({ w with nodes := l, submissions := w.submissions ++ [x] } : World).proposals =
      w.proposals ++ [p] := by
    rw [proposals_concat, hx, Option.toList_some]
  have hfresh : ∀ p' ∈ w.proposals, p'.id ≠ p.id := fun p' hp' => proposals_fresh hx hids hp'
  have hperm : (w.queued ++ [(⟨i, p⟩ : QueuedProposal)] ++ w.outcomes.map (·.1)).Perm
      (⟨i, p⟩ :: w.awaiting) := by
    rw [List.append_assoc]
    exact List.perm_middle
  have hawait {q : QueuedProposal} :
      q ∈ w.queued ++ [(⟨i, p⟩ : QueuedProposal)] ++ w.outcomes.map (·.1) ↔
      q = ⟨i, p⟩ ∨ q ∈ w.awaiting := by
    rw [hperm.mem_iff, List.mem_cons]
  refine ⟨?_, ?_, ?_, ?_, ?_, h.told, ?_⟩
  · intro q hq
    rcases hawait.1 hq with rfl | hq
    · exact hi
    · obtain ⟨m, hm, hc⟩ := h.pending q hq
      obtain ⟨m', hm', hk⟩ := hl _ m hm
      exact ⟨m', hm', hk _ hc⟩
  · refine ((hperm.map _).nodup_iff).2 (List.nodup_cons.2 ⟨?_, h.distinct⟩)
    intro hm
    obtain ⟨q, hq, he⟩ := List.mem_map.1 hm
    exact hfresh _ (h.made q hq) he
  · intro q hq
    rw [hp]
    rcases hawait.1 hq with rfl | hq
    · exact List.mem_append_right _ (List.mem_singleton_self p)
    · exact List.mem_append_left _ (h.made q hq)
  · intro q hq d hd
    rcases List.mem_append.1 hq with hq | hq
    · exact h.unlogged q hq d hd
    · rw [List.mem_singleton.1 hq]
      exact hfresh _ (h.logged d hd)
  · intro d hd
    rw [hp]
    exact List.mem_append_left _ (h.logged d hd)
  · intro p' hp'
    rw [hp] at hp'
    rcases List.mem_append.1 hp' with hp' | hp'
    · rcases h.settled p' hp' with ⟨q, hq, he⟩ | hs
      · exact .inl ⟨q, hawait.2 (.inr hq), he⟩
      · exact .inr hs
    · exact .inl ⟨⟨i, p⟩, hawait.2 (.inl rfl), (List.mem_singleton.1 hp').symm⟩

theorem awaiting_decide {log : List Decision} {results : List (Except NodeError Decision)}
    (hout : w.outcomes = []) (hdec : w.Decides log results) :
    { w with log := log, queued := [], outcomes := w.queued.zip results }.awaiting =
      w.awaiting := by
  unfold awaiting
  rw [hout, List.map_nil, List.append_nil, List.nil_append,
    List.map_fst_zip (Nat.le_of_eq hdec.length.symm)]

theorem awaiting_of_outcomes (hout : w.outcomes = []) : w.awaiting = w.queued := by
  unfold awaiting
  rw [hout, List.map_nil, List.append_nil]

theorem Accounted.index_inj (h : w.Accounted) (hout : w.outcomes = []) {i j : Nat}
    {q q' : QueuedProposal} (hi : w.queued[i]? = some q) (hj : w.queued[j]? = some q')
    (he : q.proposal.id = q'.proposal.id) : i = j := by
  have hn := h.distinct
  rw [awaiting_of_outcomes hout] at hn
  obtain ⟨hlt, _⟩ := List.getElem?_eq_some_iff.1 hi
  apply (List.getElem?_inj (by simpa using hlt) hn).1
  rw [List.getElem?_map, List.getElem?_map, hi, hj]
  exact congrArg some he

theorem Accounted.result_eq (h : w.Accounted) (hout : w.outcomes = []) {log : List Decision}
    {results : List (Except NodeError Decision)} (hdec : w.Decides log results) {d : Decision}
    {q : QueuedProposal} (hd : d ∈ log) (hi : w.queued[i]? = some q)
    (he : d.proposal.id = q.proposal.id) :
    d.proposal = q.proposal ∧ results[i]? = some (.ok d) := by
  have hold : d ∉ w.log := fun hd => h.unlogged q (List.mem_of_getElem? hi) d hd he
  obtain ⟨j, q', hj, hq', hr⟩ := hdec.new d hd hold
  obtain rfl := h.index_inj hout hi hj (by rw [hq', he])
  rw [hi] at hj
  cases hj
  exact ⟨hq'.symm, hr⟩

/-- The decisions that are made are on queued proposals, and each is told of its own. -/
theorem Accounted.decide {log : List Decision} {results : List (Except NodeError Decision)}
    (h : w.Accounted) (hids : w.ids.Nodup) (hout : w.outcomes = [])
    (hdec : w.Decides log results) :
    { w with log := log, queued := [], outcomes := w.queued.zip results }.Accounted := by
  have ha := awaiting_decide hout hdec
  have hqueued := awaiting_of_outcomes hout
  refine ⟨?_, ?_, ?_, by simp, ?_, ?_, ?_⟩
  · rw [ha]
    exact h.pending
  · rw [ha]
    exact h.distinct
  · rw [ha]
    exact h.made
  · intro d hd
    by_cases hold : d ∈ w.log
    · exact h.logged d hold
    · obtain ⟨i, q, hi, hq, _⟩ := hdec.new d hd hold
      have hm := h.made q (hqueued ▸ List.mem_of_getElem? hi)
      rwa [hq] at hm
  · intro q outcome hq
    obtain ⟨i, hi⟩ := List.getElem?_of_mem hq
    obtain ⟨hqi, hr⟩ := List.getElem?_zip_eq_some.1 hi
    cases outcome with
    | ok d =>
      obtain ⟨hd, hid⟩ := hdec.decided i q d hqi hr
      exact ⟨hd, (h.result_eq hout hdec hd hqi hid).1⟩
    | error reason =>
      -- A decision on the proposal would be its result.
      intro d hd he
      have hok := (h.result_eq hout hdec hd hqi he).2
      rw [hr] at hok
      cases hok
  · intro p hp
    rw [ha]
    by_cases hw : ∃ q ∈ w.awaiting, q.proposal = p
    · exact .inl hw
    · obtain ⟨result, hr, hs⟩ := (h.settled p hp).resolve_left hw
      refine .inr ⟨result, hr, hs.grow hdec.grows fun d hd hold he => ?_⟩
      obtain ⟨i, q, hi, hq, _⟩ := hdec.new d hd hold
      have hqa : q ∈ w.awaiting := hqueued ▸ List.mem_of_getElem? hi
      refine hw ⟨q, hqa, Trace.eq_of_proposal_id hids (h.made q hqa) hp ?_⟩
      rw [hq, he]

theorem awaiting_perm {q : QueuedProposal} {outcome : Except NodeError Decision}
    {rest : List (QueuedProposal × Except NodeError Decision)}
    (hout : w.outcomes = (q, outcome) :: rest) :
    w.awaiting.Perm (q :: (w.queued ++ rest.map (·.1))) := by
  unfold awaiting
  rw [hout]
  exact List.perm_middle

theorem Accounted.ne_of_mem_rest {q q' : QueuedProposal} {outcome : Except NodeError Decision}
    {rest : List (QueuedProposal × Except NodeError Decision)} (h : w.Accounted)
    (hout : w.outcomes = (q, outcome) :: rest) (hq' : q' ∈ w.queued ++ rest.map (·.1)) :
    q'.proposal.id ≠ q.proposal.id := by
  intro he
  have hdistinct := ((awaiting_perm hout).map (·.proposal.id)).nodup_iff.1 h.distinct
  apply (List.nodup_cons.1 hdistinct).1
  exact List.mem_map.2 ⟨q', hq', he⟩

theorem Accounted.complete {q : QueuedProposal} {outcome : Except NodeError Decision}
    {rest : List (QueuedProposal × Except NodeError Decision)} {n' : Node} {result : CommitResult}
    (h : w.Accounted) (hids : w.ids.Nodup) (hout : w.outcomes = (q, outcome) :: rest)
    (hi : w.nodes[q.origin]? = some n) (hn : n.complete q.proposal.id outcome = .ok (result, n')) :
    { w with
      nodes := w.nodes.set q.origin n'
      outcomes := rest
      results := w.results.insert q.proposal.id result }.Accounted := by
  have hperm := awaiting_perm hout
  have hmem {q' : QueuedProposal} (hq' : q' ∈ w.queued ++ rest.map (·.1)) : q' ∈ w.awaiting :=
    hperm.mem_iff.2 (List.mem_cons_of_mem _ hq')
  have hq : q ∈ w.awaiting := hperm.mem_iff.2 List.mem_cons_self
  have hdistinct := (hperm.map (·.proposal.id)).nodup_iff.1 h.distinct
  have hsettled : q.proposal.Settled w.log result :=
    (h.told q outcome (hout ▸ List.mem_cons_self)).settled hn
  refine ⟨?_, (List.nodup_cons.1 hdistinct).2, fun q' hq' => h.made q' (hmem hq'), h.unlogged,
    h.logged, fun q' o hq' => h.told q' o (hout ▸ List.mem_cons_of_mem _ hq'), ?_⟩
  · intro q' hq'
    obtain ⟨m, hm, hc⟩ := h.pending q' (hmem hq')
    obtain ⟨m', hm', hk⟩ := exists_getElem?_set (p := fun m m' =>
      m.pending.contains q'.proposal.id = true → m'.pending.contains q'.proposal.id = true) hi
      (Node.pending_complete hn (h.ne_of_mem_rest hout hq')) (fun _ hc => hc) hm
    exact ⟨m', hm', hk hc⟩
  · intro p hp
    change _ ∨ ∃ r, (w.results.insert q.proposal.id result).find? p.id = some r ∧ _
    rw [OrderedMap.find?_insert]
    by_cases he : p.id = q.proposal.id
    · obtain rfl := Trace.eq_of_proposal_id hids hp (h.made q hq) he
      exact .inr ⟨result, if_pos rfl, hsettled⟩
    · rw [if_neg he]
      rcases h.settled p hp with ⟨q', hq', hqp⟩ | hs
      · refine .inl ⟨q', ?_, hqp⟩
        rcases List.mem_cons.1 (hperm.mem_iff.1 hq') with rfl | hq'
        · exact absurd (congrArg _ hqp.symm) he
        · exact hq'
      · exact .inr hs

theorem Accounted.complete_ne_error {q : QueuedProposal} {outcome : Except NodeError Decision}
    {rest : List (QueuedProposal × Except NodeError Decision)} (h : w.Accounted)
    (hout : w.outcomes = (q, outcome) :: rest) (hi : w.nodes[q.origin]? = some n) (e : NodeError) :
    n.complete q.proposal.id outcome ≠ .error e := by
  intro hn
  have hq : q ∈ w.awaiting := List.mem_append_right _ (by rw [hout]; exact List.mem_cons_self)
  obtain ⟨m, hm, hc⟩ := h.pending q hq
  rw [hi] at hm
  cases hm
  obtain ⟨p, hp⟩ := OrderedMap.contains_iff.1 hc
  rw [Node.complete_eq_error hn] at hp
  cases hp

theorem Accounted.step (h : w.Accounted) (hs : Step w w') (hids : w'.ids.Nodup) : w'.Accounted := by
  have hwids := hs.nodup_ids hids
  have hself : ∀ (i : Nat) (n : Node), w.nodes[i]? = some n →
      ∃ n', w.nodes[i]? = some n' ∧ n'.pending = n.pending := fun i n hi => ⟨n, hi, rfl⟩
  cases hs with
  | send _ _ => exact h.keep hself
  | discard _ _ => exact h.keep hself
  | @deliver i n e t hi _ _ =>
    exact h.keep fun j m hj => exists_getElem?_set (p := fun m m' => m'.pending = m.pending) hi
      (n.receive_rest e.message).2.2.2 (fun _ => rfl) hj
  | @submit i n n' x s ids ids' t hi hsub _ =>
    have hsub := Node.submit_eq_ok hsub
    cases hp : s.proposal with
    | none =>
      have h₁ := h.submit_none (x := ⟨x, s⟩) hp fun j m hj =>
        exists_getElem?_set (p := fun m m' => m'.pending = m.pending) hi (hsub.noProposal hp).2
          (fun _ => rfl) hj
      rw [Option.toList_none, List.map_nil, List.append_nil]
      exact ⟨h₁.pending, h₁.distinct, h₁.made, h₁.unlogged, h₁.logged, h₁.told, h₁.settled⟩
    | some p =>
      have hcontains := hsub.pending_contains hp
      have h₁ := h.submit_some (i := i) (x := ⟨x, s⟩) hp hids
        (fun j m hj => exists_getElem?_set (p := fun m m' => ∀ id,
          m.pending.contains id = true → m'.pending.contains id = true) hi
          (fun id hc => (hcontains id).2 (.inr hc)) (fun _ _ hc => hc) hj)
        ⟨n', Cluster.getElem?_set_self' hi, (hcontains p.id).2 (.inl rfl)⟩
      exact ⟨h₁.pending, h₁.distinct, h₁.made, h₁.unlogged, h₁.logged, h₁.told, h₁.settled⟩
  | decide hout hdec => exact h.decide hwids hout hdec
  | complete hout hi hn _ =>
    have h₁ := h.complete hwids hout hi hn
    exact ⟨h₁.pending, h₁.distinct, h₁.made, h₁.unlogged, h₁.logged, h₁.told, h₁.settled⟩
  | ignore hout hi hn => exact absurd hn (h.complete_ne_error hout hi _)
  | collect =>
    exact h.keep fun i n hi => ⟨n.collectGarbage.2, by rw [List.getElem?_map, hi]; rfl, rfl⟩
  | join _ =>
    refine h.keep fun i n hi => ⟨n, ?_, rfl⟩
    rw [List.getElem?_append_left (List.getElem?_eq_some_iff.1 hi).1]
    exact hi

end World
end Confluence
