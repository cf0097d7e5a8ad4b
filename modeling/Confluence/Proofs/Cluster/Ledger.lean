import Mathlib.Logic.Basic
import Confluence.Proofs.Cluster.Outcome
import Confluence.Proofs.Cluster.Pending

namespace Confluence

namespace ClusterStats

theorem addResult_ended (s : ClusterStats) (b : Bool) :
    (s.addResult b).committed + (s.addResult b).failed = s.committed + s.failed + 1 := by
  cases b with
  | false => rfl
  | true => exact Nat.add_right_comm ..

theorem addResult_rest (s : ClusterStats) (b : Bool) :
    (s.addResult b).transactions = s.transactions ∧ (s.addResult b).operations = s.operations ∧
      (s.addResult b).lifted = s.lifted ∧ (s.addResult b).proposals = s.proposals := by
  cases b <;> exact ⟨rfl, rfl, rfl, rfl⟩

end ClusterStats

namespace World
variable {w w' : World} {i : Nat} {n n' : Node}

/-- The counters are those of the trace, and every proposal has ended or awaits its end. -/
structure Tallied (w : World) : Prop where
  transactions : w.stats.transactions = w.submissions.length
  operations : w.stats.operations = (w.submissions.flatMap (·.transaction)).length
  lifted : w.stats.lifted = (w.submissions.flatMap (·.lifted)).length
  proposals : w.stats.proposals = w.proposals.length
  ended : w.stats.proposals = w.stats.committed + w.stats.failed + w.awaiting.length

theorem IsNew.tallied (h : w.IsNew) : w.Tallied := by
  have ha : w.awaiting = [] := by
    unfold awaiting
    rw [h.queued, h.outcomes]
    rfl
  have hp : w.proposals = [] := by
    unfold Trace.proposals
    rw [h.submissions]
    rfl
  constructor
  · rw [h.stats, h.submissions]
    rfl
  · rw [h.stats, h.submissions]
    rfl
  · rw [h.stats, h.submissions]
    rfl
  · rw [h.stats, hp]
    rfl
  · rw [h.stats, ha]
    rfl

theorem Tallied.submit (h : w.Tallied) (x : Transaction) (s : Submission) :
    { w with
      queued := w.queued ++ s.proposal.toList.map (QueuedProposal.mk i)
      stats := w.stats.addSubmission x.length
        ((s.update.map fun u : Update => u.operations.length).getD 0) s.proposal.isSome
      submissions := w.submissions ++ [Submitted.mk x s] }.Tallied := by
  have hone : (if s.proposal.isSome then 1 else 0) = s.proposal.toList.length := by
    cases s.proposal <;> rfl
  have hlifted : (s.update.map fun u => u.operations.length).getD 0 =
      (Submitted.lifted ⟨x, s⟩).length := by
    unfold Submitted.lifted
    cases s.update <;> simp
  constructor
  · change w.stats.transactions + 1 = _
    rw [h.transactions, List.length_append]
    rfl
  · change w.stats.operations + x.length = _
    rw [h.operations, List.flatMap_append, List.length_append, List.flatMap_singleton]
  · change w.stats.lifted + _ = _
    rw [h.lifted, hlifted, List.flatMap_append, List.length_append, List.flatMap_singleton]
  · change w.stats.proposals + _ = _
    rw [h.proposals, hone, proposals_concat, List.length_append]
  · have hawait : (w.queued ++ s.proposal.toList.map (QueuedProposal.mk i) ++
        w.outcomes.map (·.1)).length = w.awaiting.length + s.proposal.toList.length := by
      unfold awaiting
      simp only [List.length_append, List.length_map]
      omega
    change w.stats.proposals + _ = w.stats.committed + w.stats.failed +
      (w.queued ++ s.proposal.toList.map (QueuedProposal.mk i) ++ w.outcomes.map (·.1)).length
    rw [h.ended, hone, hawait, Nat.add_assoc]

theorem Tallied.complete {q : QueuedProposal} {outcome : Except NodeError Decision}
    {rest : List (QueuedProposal × Except NodeError Decision)} (h : w.Tallied)
    (hout : w.outcomes = (q, outcome) :: rest) (isCommitted : Bool) :
    { w with outcomes := rest, stats := w.stats.addResult isCommitted }.Tallied := by
  obtain ⟨ht, ho, hl, hp⟩ := w.stats.addResult_rest isCommitted
  have hawait := (awaiting_perm hout).length_eq
  rw [List.length_cons] at hawait
  constructor
  · exact ht.trans h.transactions
  · exact ho.trans h.operations
  · exact hl.trans h.lifted
  · exact hp.trans h.proposals
  · change (w.stats.addResult isCommitted).proposals = _ + _ + (w.queued ++ rest.map (·.1)).length
    rw [hp, h.ended, hawait, ClusterStats.addResult_ended]
    omega

theorem Tallied.step (h : w.Tallied) (ha : w.Accounted) (hs : Step w w') : w'.Tallied := by
  cases hs with
  | @submit i n n' x s ids ids' t hi hsub ht =>
    have hs := h.submit (i := i) x s
    exact ⟨hs.transactions, hs.operations, hs.lifted, hs.proposals, hs.ended⟩
  | decide hout hdec =>
    refine ⟨h.transactions, h.operations, h.lifted, h.proposals, ?_⟩
    rw [awaiting_decide hout hdec]
    exact h.ended
  | @complete q outcome rest n n' result t hout hi hn ht =>
    have hs := h.complete hout result.isCommitted
    exact ⟨hs.transactions, hs.operations, hs.lifted, hs.proposals, hs.ended⟩
  | ignore hout hi hn => exact absurd hn (ha.complete_ne_error hout hi _)
  | _ => exact ⟨h.transactions, h.operations, h.lifted, h.proposals, h.ended⟩

def HasSplit (w : World) : Prop := ∀ s ∈ w.submissions, s.submission.IsSplit

theorem HasSplit.step (h : w.HasSplit) (hs : Step w w') : w'.HasSplit := by
  cases hs with
  | submit _ hsub _ =>
    intro y hy
    rcases List.mem_append.1 hy with hy | hy
    · exact h y hy
    · rw [List.mem_singleton.1 hy]
      exact Node.submit_isSplit hsub
  | _ => exact h

/-- All that holds of proposals, results and counters whatever the classifier. -/
structure Ledger (w : World) : Prop where
  ordered : w.Ordered
  sourced : w.Sourced
  accounted : w.Accounted
  pended : w.Pended
  tallied : w.Tallied
  split : w.Split
  hasSplit : w.HasSplit

theorem IsNew.ledger (h : w.IsNew) : w.Ledger where
  ordered := h.ordered
  sourced := h.sourced
  accounted := h.accounted
  pended := h.pended
  tallied := h.tallied
  split s hs := by
    rw [h.submissions] at hs
    cases hs
  hasSplit s hs := by
    rw [h.submissions] at hs
    cases hs

theorem Ledger.step (h : w.Ledger) (hs : Step w w') (hids : w'.ids.Nodup) : w'.Ledger where
  ordered := h.ordered.step hs
  sourced := h.sourced.step h.ordered hs hids
  accounted := h.accounted.step hs hids
  pended := h.pended.step h.accounted hs hids
  tallied := h.tallied.step h.accounted hs
  split := h.split.step hs
  hasSplit := h.hasSplit.step hs

theorem Ledger.steps (h : w.Ledger) (hs : Steps w w') (hids : w'.ids.Nodup) : w'.Ledger := by
  induction hs with
  | refl => exact h
  | tail _ hstep ih => exact (ih (hstep.nodup_ids hids)).step hstep hids

theorem Ledger.find?_results (h : w.Ledger) (hs : Steps w w') (hids : w'.ids.Nodup)
    {id : ProposalId} {r : CommitResult} (hr : w.results.find? id = some r) :
    w'.results.find? id = some r := by
  induction hs with
  | refl => exact hr
  | tail hsteps hstep ih =>
    have hmid := hstep.nodup_ids hids
    exact (h.steps hsteps hmid).pended.find?_results hstep (ih hmid)

theorem Ledger.queued_or_settled (h : w.Ledger) (hout : w.outcomes = []) {p : Proposal}
    (hp : p ∈ w.proposals) :
    ((∃ q ∈ w.queued, q.proposal = p) ∧ w.results.find? p.id = none ∧
        ∀ d ∈ w.log, d.proposal.id ≠ p.id) ∨
      ((∀ q ∈ w.queued, q.proposal.id ≠ p.id) ∧
        ∃ r, w.results.find? p.id = some r ∧ p.Settled w.log r) := by
  have hawait := awaiting_of_outcomes hout
  rcases h.accounted.settled p hp with ⟨q, hq, rfl⟩ | ⟨r, hr, hs⟩
  · exact .inl ⟨⟨q, hawait ▸ hq, rfl⟩, h.pended.undecided q hq,
      h.accounted.unlogged q (hawait ▸ hq)⟩
  · refine .inr ⟨?_, r, hr, hs⟩
    intro q hq he
    rw [← he, h.pended.undecided q (hawait.symm ▸ hq)] at hr
    cases hr

end World

namespace Cluster
variable {c c' : Cluster} {trace : Trace}
  {outcomes : List (QueuedProposal × Except NodeError Decision)}
  {results : List (ProposalId × CommitResult)}

theorem complete_result? {q : QueuedProposal} {outcome : Except NodeError Decision}
    {r : CommitResult} (hc : c.Sound) (h : c.complete q outcome = .ok (some r, c')) :
    c'.result? q.proposal.id = some r := by
  obtain ⟨n, _, ⟨_, _, hr, _⟩ | ⟨r', n', _, hr, hs⟩⟩ :=
    complete_eq_ok hc.numbered h
  · cases hr
  · cases hr
    rw [result?, hs.results, withResult, OrderedMap.find?_insert, if_pos rfl]

theorem completeAll_result? (hc : c.Sound) (hw : (c.world outcomes trace).Ledger)
    (h : c.completeAll outcomes = .ok (results, c')) (hids : trace.ids.Nodup) :
    ∀ x ∈ results, c'.result? x.1 = some x.2 := by
  induction outcomes generalizing c results trace with
  | nil =>
    cases h
    intro x hx
    cases hx
  | cons a rest ih =>
    obtain ⟨q, outcome⟩ := a
    unfold completeAll at h
    obtain ⟨⟨result, d⟩, hd, h⟩ := bind_eq_ok h
    obtain ⟨⟨more, c''⟩, hmore, h⟩ := bind_eq_ok h
    cases h
    obtain ⟨hds, hstep⟩ := @complete_steps c d trace q outcome rest _ hc hd
    have hwd := hw.step hstep hids
    intro x hx
    rcases List.mem_append.1 hx with hx | hx
    · -- The others that are reported later leave this one's result.
      obtain ⟨r, hr, rfl⟩ := List.mem_map.1 hx
      rw [Option.mem_toList.1 hr] at hd
      exact hwd.find?_results (completeAll_steps hds hmore).2 hids (complete_result? hc hd)
    · exact ih hds hwd hmore hids x hx

theorem resolve_result? (hc : c.Sound) (hw : (c.world [] trace).Ledger)
    (h : c.resolve = .ok (results, c')) (hids : trace.ids.Nodup) :
    ∀ x ∈ results, c'.result? x.1 = some x.2 := by
  unfold resolve at h
  obtain ⟨⟨outcomes, d⟩, hd, h⟩ := bind_eq_ok h
  obtain ⟨hds, hdrive⟩ := @drive_steps c d trace outcomes hc hd
  exact completeAll_result? hds (hw.steps hdrive hids) h hids

theorem Command.eq_resolve {command : Command}
    (h : command.perform c = .ok (.resolved results, c')) : command = .resolve := by
  cases command with
  | resolve => rfl
  | setLinkDelay _ _ _ => cases h
  | setLeader _ => cases h
  | collectGarbage => cases h
  | _ =>
    obtain ⟨_, _, he⟩ := map_eq_ok h
    cases he

end Cluster

namespace Chronicle
variable {config : ClusterConfig} {classifier : Classifier} {ids : IdSupply}
  {commands more : List Cluster.Command} {h h' : Chronicle}

theorem ledger (hp : (new config classifier ids).performAll commands = .ok h)
    (hids : h.ids.Nodup) : h.world.Ledger :=
  (world_new config classifier ids).ledger.steps
    (performAll_steps (sound_new config classifier ids) hp).2 hids

/-- What was answered about proposals is what is kept as their results. -/
def Keeps (h : Chronicle) : Prop :=
  ∀ r ∈ h.past, ∀ results, r.reply = .resolved results →
    ∀ x ∈ results, h.cluster.result? x.1 = some x.2

theorem Keeps.perform {command : Cluster.Command} (hk : h.Keeps) (hc : h.cluster.Sound)
    (hw : h.world.Ledger) (hp : h.perform command = .ok h') (hids : h'.ids.Nodup) : h'.Keeps := by
  obtain ⟨reply, hr, hpast⟩ := perform_eq_ok hp
  have hsteps := (perform_steps hc hp).2
  intro r hmem results hreply x hx
  rw [hpast] at hmem
  rcases List.mem_append.1 hmem with hmem | hmem
  · exact hw.find?_results hsteps hids (hk r hmem results hreply x hx)
  · rw [List.mem_singleton.1 hmem] at hreply
    obtain rfl : reply = .resolved results := hreply
    obtain rfl := Cluster.Command.eq_resolve hr
    obtain ⟨⟨results', c⟩, hres, he⟩ := map_eq_ok hr
    cases he
    exact Cluster.resolve_result? hc hw hres (hsteps.nodup_ids hids) x hx

theorem Keeps.performAll (hk : h.Keeps) (hc : h.cluster.Sound) (hw : h.world.Ledger)
    (hp : h.performAll more = .ok h') (hids : h'.ids.Nodup) : h'.Keeps := by
  induction more generalizing h with
  | nil =>
    cases hp
    exact hk
  | cons command more ih =>
    obtain ⟨mid, hm, hp⟩ := bind_eq_ok hp
    obtain ⟨hmc, hsteps⟩ := perform_steps hc hm
    have hmid := (performAll_steps hmc hp).2.nodup_ids hids
    exact ih (hk.perform hc hw hm hmid) hmc (hw.steps hsteps hmid) hp

/-- The change is by what some submission has lifted, or by a decision on another proposal. -/
def Spares (h : Chronicle) (p : Proposal) : Change → Prop
  | .merge u => ∃ s ∈ h.submissions, s.submission.update = some u ∧
      u.operations = s.submission.decomposition.liftable.map (·.operation)
  | .apply d => d ∈ h.cluster.sequencer.log ∧ d.proposal.id ≠ p.id

/-- What has become of a proposal and its submission, now and whatever is done later. -/
structure Accounts (h : Chronicle) (s : Submitted) (p : Proposal) : Prop where
  /-- The proposal is queued, or else it has a result. -/
  once : Xor (∃ q ∈ h.cluster.queued, q.proposal.id = p.id)
    (∃ r, h.cluster.result? p.id = some r)
  /-- It is committed to the slot at which the log has it. -/
  committed : ∀ scope, h.cluster.result? p.id = some (.committed scope) ↔
    ∃ (slot : UInt64) (d : Decision), scope = .withConsensus slot ∧
      h.cluster.sequencer.log[slot.toNat]? = some d ∧ d.proposal.id = p.id
  /-- It has failed if the log does not have it and it is no longer queued. -/
  failed : (∃ reason retained, h.cluster.result? p.id = some (.failed reason retained)) ↔
    (∀ q ∈ h.cluster.queued, q.proposal.id ≠ p.id) ∧
      ∀ d ∈ h.cluster.sequencer.log, d.proposal.id ≠ p.id
  /-- A failure names the update of the same submission, if that has lifted anything. -/
  retained : ∀ reason retained, h.cluster.result? p.id = some (.failed reason retained) →
    retained = s.submission.update.map (·.id) ∧
      (retained = none ↔ s.submission.decomposition.liftable = [])
  /-- A result is final. -/
  final : ∀ r, h.cluster.result? p.id = some r → ∀ more h', h.performAll more = .ok h' →
    h'.ids.Nodup → h'.cluster.result? p.id = some r
  /-- After a failure, no node applies the proposal at any time. -/
  spared : ∀ reason retained, h.cluster.result? p.id = some (.failed reason retained) →
    ∀ more h', h.performAll more = .ok h' → h'.ids.Nodup →
      ∀ (i : Nat) (n : Node), h'.cluster.nodes[i]? = some n →
        n.state = .replay n.classifier (h'.changes i) ∧ ∀ e ∈ h'.changes i, h'.Spares p e

theorem failed_iff (hw : h.world.Ledger) {p : Proposal} (hp : p ∈ h.world.proposals) :
    (∃ reason retained, h.cluster.result? p.id = some (.failed reason retained)) ↔
      (∀ q ∈ h.cluster.queued, q.proposal.id ≠ p.id) ∧
        ∀ d ∈ h.cluster.sequencer.log, d.proposal.id ≠ p.id := by
  rcases hw.queued_or_settled rfl hp with ⟨⟨q, hq, he⟩, hr, _⟩ | ⟨hq, r, hr, hs⟩
  · constructor
    · rintro ⟨reason, retained, hf⟩
      cases hr.symm.trans hf
    · intro h
      exact absurd (congrArg Proposal.id he) (h.1 q hq)
  · constructor
    · rintro ⟨reason, retained, hf⟩
      obtain rfl := Option.some.inj (hr.symm.trans hf)
      exact ⟨hq, hs⟩
    · intro h
      cases r with
      | failed reason retained => exact ⟨reason, retained, hr⟩
      | committed scope =>
        cases scope with
        | localOnly => cases hs
        | withConsensus slot =>
          obtain ⟨d, hd, rfl, _⟩ := hs
          exact absurd rfl (h.2 d hd)

theorem committed_iff (hw : h.world.Ledger) {p : Proposal} (hp : p ∈ h.world.proposals)
    (scope : CommitScope) :
    h.cluster.result? p.id = some (.committed scope) ↔
      ∃ (slot : UInt64) (d : Decision), scope = .withConsensus slot ∧
        h.cluster.sequencer.log[slot.toNat]? = some d ∧ d.proposal.id = p.id := by
  have hlog : Decision.IsLog h.cluster.sequencer.log := hw.ordered.isLog
  rcases hw.queued_or_settled rfl hp with ⟨_, hr, hnew⟩ | ⟨_, r, hr, hs⟩
  · constructor
    · intro hc
      cases hr.symm.trans hc
    · rintro ⟨slot, d, _, hd, he⟩
      exact absurd he (hnew d (List.mem_of_getElem? hd))
  · constructor
    · intro hc
      obtain rfl := Option.some.inj (hr.symm.trans hc)
      cases scope with
      | localOnly => cases hs
      | withConsensus slot =>
        obtain ⟨d, hd, rfl, rfl⟩ := hs
        exact ⟨d.slot, d, rfl, hlog.getElem?_slot hd, rfl⟩
    · rintro ⟨slot, d, rfl, hd, he⟩
      have hslot : d.slot = slot := UInt64.toNat_inj.1 (hlog.slots _ d hd)
      have hmem := List.mem_of_getElem? hd
      apply hr.trans
      cases r with
      | failed reason retained => exact absurd he (hs d hmem)
      | committed scope =>
        cases scope with
        | localOnly => cases hs
        | withConsensus slot' =>
          obtain ⟨d', hd', rfl, rfl⟩ := hs
          rw [← List.inj_on_of_nodup_map hlog.ids hmem hd' he, hslot]

theorem spares (hw : h.world.Ledger) {p : Proposal}
    (hlog : ∀ d ∈ h.cluster.sequencer.log, d.proposal.id ≠ p.id) {i : Nat} {n : Node}
    (hi : h.cluster.nodes[i]? = some n) :
    n.state = .replay n.classifier (h.changes i) ∧ ∀ e ∈ h.changes i, h.Spares p e := by
  obtain ⟨_, hl, hd⟩ := hw.ordered.nodes i n hi
  refine ⟨hl.state, ?_⟩
  intro e he
  cases e with
  | merge u =>
    have hu : u ∈ Change.updates (h.changes i) := List.mem_filterMap.2 ⟨_, he, rfl⟩
    obtain ⟨s, hs, hsu⟩ := List.mem_filterMap.1 (hw.sourced.merged i u hu)
    have hsplit := (hw.hasSplit s hs).update
    rw [hsu] at hsplit
    split at hsplit
    · cases hsplit
    · exact ⟨s, hs, hsu, Option.some.inj hsplit⟩
  | apply d =>
    have hm : d ∈ Change.decisions (h.changes i) := List.mem_filterMap.2 ⟨_, he, rfl⟩
    have hd' : Change.decisions (h.changes i) =
      h.cluster.sequencer.log.take n.decisions.consumed := hd
    have hmem : d ∈ h.cluster.sequencer.log := List.mem_of_mem_take (hd' ▸ hm)
    exact ⟨hmem, hlog d hmem⟩

theorem accounts (hc : h.cluster.Sound) (hw : h.world.Ledger) (hids : h.ids.Nodup) {s : Submitted}
    (hs : s ∈ h.submissions) {p : Proposal} (hp : s.submission.proposal = some p) :
    h.Accounts s p := by
  have hmade : h.world.Made p s := ⟨hs, hp⟩
  have hmem : p ∈ h.world.proposals := Trace.mem_proposals.2 ⟨s, hmade⟩
  have hfinal : ∀ r, h.cluster.result? p.id = some r → ∀ more h', h.performAll more = .ok h' →
      h'.ids.Nodup → h'.cluster.result? p.id = some r := fun r hr more h' hp' hids' =>
    hw.find?_results (performAll_steps hc hp').2 hids' hr
  constructor
  · rcases hw.queued_or_settled rfl hmem with ⟨⟨q, hq, rfl⟩, hr, _⟩ | ⟨hq, r, hr, _⟩
    · left
      refine ⟨⟨q, hq, rfl⟩, ?_⟩
      rintro ⟨r, hr'⟩
      cases hr.symm.trans hr'
    · right
      refine ⟨⟨r, hr⟩, ?_⟩
      rintro ⟨q, hq', he⟩
      exact hq q hq' he
  · exact committed_iff hw hmem
  · exact failed_iff hw hmem
  · intro reason retained hr
    obtain ⟨p', s', hm', he, hret⟩ := hw.pended.results p.id _ hr
    obtain rfl := Trace.eq_of_proposal_id (t := h.trace) hids (Trace.mem_proposals.2 ⟨s', hm'⟩) hmem he
    obtain rfl := hm'.unique hmade hids
    refine ⟨hret, ?_⟩
    obtain rfl : retained = _ := hret
    have hsplit := (hw.hasSplit _ hs).update
    by_cases hl : s'.submission.decomposition.liftable = []
    · rw [if_pos hl] at hsplit
      simpa [hl] using hsplit
    · rw [if_neg hl] at hsplit
      obtain ⟨u, hu, _⟩ := Option.map_eq_some_iff.1 hsplit
      simp [hl, hu]
  · exact hfinal
  · intro reason retained hr more h' hp' hids' i n hi
    have hsteps := (performAll_steps hc hp').2
    have hw' := hw.steps hsteps hids'
    have hgrow := World.Steps.submissions hsteps
    have hmem' : p ∈ h'.world.proposals := Trace.mem_proposals.2 ⟨s, hmade.mono hgrow⟩
    have hr' := hfinal _ hr more h' hp' hids'
    exact spares hw' ((failed_iff hw' hmem').1 ⟨reason, retained, hr'⟩).2 hi

/-- The books are right at every moment. Every proposal that a submission has made is accounted for,
the answers were the results, and the counters add up. -/
theorem accounts_of_performAll (hp : (new config classifier ids).performAll commands = .ok h)
    (hids : h.ids.Nodup) :
    let stats := h.cluster.stats
    (∀ s ∈ h.submissions, ∀ p, s.submission.proposal = some p → h.Accounts s p) ∧ h.Keeps ∧
      stats.proposals = stats.committed + stats.failed + h.cluster.queued.length ∧
      stats.operations = stats.lifted + (h.submissions.flatMap (·.proposed)).length := by
  intro stats
  have hw := ledger hp hids
  have hc := (performAll_steps (sound_new config classifier ids) hp).1
  refine ⟨fun s hs p => accounts hc hw hids hs, ?_, ?_, ?_⟩
  · have hk : (new config classifier ids).Keeps := by
      intro r hr
      cases hr
    exact hk.performAll (sound_new ..) (world_new ..).ledger hp hids
  · have hended := hw.tallied.ended
    rwa [World.awaiting_of_outcomes rfl] at hended
  · have ho : stats.operations = _ := hw.tallied.operations
    have hl : stats.lifted = _ := hw.tallied.lifted
    have hlen := (List.Perm.flatMap_left h.submissions fun s hs => hw.split s hs).length_eq
    rw [← (List.flatMap_append_perm ..).length_eq, List.length_append] at hlen
    rw [ho, hl]
    exact hlen.symm

/-- One proposal has failed, one has been decided, and one is queued. -/
theorem accounts_of_performAll_mixed :
    ∃ h : Chronicle, (new .default .standard (.ofStream Uuid.ofNat)).performAll
        [.injectTimeouts 6, .submit 0 [.increment "edits" 2, .overwrite "title" "draft"], .resolve,
          .submit 1 [.overwrite "title" "final"], .settle,
          .submit 2 [.increment "edits" 3, .overwrite "title" "late"]] = .ok h ∧
      h.ids.Nodup ∧
      (h.submissions.flatMap fun s => s.submission.proposal.toList.map fun p =>
        h.cluster.result? p.id) =
        [some (.failed (.unavailable (Uuid.ofNat 1) 6 0) (some (Uuid.ofNat 0))),
          some (.committed (.withConsensus 0)), none] ∧
      (∀ s ∈ h.submissions, ∀ p, s.submission.proposal = some p → h.Accounts s p) ∧ h.Keeps ∧
      (h.cluster.stats.proposals, h.cluster.stats.committed, h.cluster.stats.failed,
        h.cluster.queued.length) = (3, 1, 1, 1) ∧
      (h.cluster.stats.operations, h.cluster.stats.lifted) = (5, 2) := by
  obtain ⟨h, hp, ht⟩ := @exists_of_endsWith _ _ ((new .default .standard
      (.ofStream Uuid.ofNat)).performAll
        [.injectTimeouts 6, .submit 0 [.increment "edits" 2, .overwrite "title" "draft"], .resolve,
          .submit 1 [.overwrite "title" "final"], .settle,
          .submit 2 [.increment "edits" 3, .overwrite "title" "late"]])
    (fun h => h.ids.Nodup ∧
      (h.submissions.flatMap fun s => s.submission.proposal.toList.map fun p =>
        h.cluster.result? p.id) =
        [some (.failed (.unavailable (Uuid.ofNat 1) 6 0) (some (Uuid.ofNat 0))),
          some (.committed (.withConsensus 0)), none] ∧
      (h.cluster.stats.proposals, h.cluster.stats.committed, h.cluster.stats.failed,
        h.cluster.queued.length) = (3, 1, 1, 1) ∧
      (h.cluster.stats.operations, h.cluster.stats.lifted) = (5, 2)) (by decide +kernel)
  obtain ⟨hids, hresults, hended, hcount⟩ := of_decide_eq_true ht
  obtain ⟨haccounts, hkeeps, _⟩ := accounts_of_performAll hp hids
  exact ⟨h, hp, hids, hresults, haccounts, hkeeps, hended, hcount⟩

end Chronicle
end Confluence
