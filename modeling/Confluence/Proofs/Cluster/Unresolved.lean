import Confluence.Proofs.Cluster.Moments

namespace Confluence

/-- What a command has made a node propose. -/
def Cluster.Record.proposed? (r : Cluster.Record) : Option QueuedProposal :=
  match r.command, r.reply with
  | .submit i _, .submitted s => s.proposal.map (⟨i, ·⟩)
  | _, _ => none

theorem Cluster.Record.proposed?_proposal (r : Cluster.Record) :
    r.proposed?.map (·.proposal) = r.submitted?.bind fun y => y.submission.proposal := by
  obtain ⟨before, command, reply⟩ := r
  cases command with
  | submit i x =>
    cases reply with
    | submitted s => exact (Option.map_map ..).trans Option.map_id'
    | _ => rfl
  | _ => rfl

theorem Submission.IsSplit.operations {s : Submission} {p : Proposal} (h : s.IsSplit)
    (hp : s.proposal = some p) : p.operations = s.decomposition.coordinated.map (·.operation) := by
  have hops := h.proposal
  rw [hp] at hops
  split at hops
  · cases hops
  · exact Option.some.inj hops

namespace Chronicle
variable {config : ClusterConfig} {classifier : Classifier} {ids : IdSupply}
  {commands : List Cluster.Command} {h mid : Chronicle} {i : Nat} {x : Transaction}
  {s : Submission} {p : Proposal} {q : QueuedProposal}

/-- All proposals so far, with the nodes that have made them. -/
def proposed (h : Chronicle) : List QueuedProposal := h.past.filterMap (·.proposed?)

/-- The proposals of the node at a position of which no result is known. -/
def unresolved (h : Chronicle) (index : Nat) : List Proposal :=
  (h.proposed.filter fun q =>
    q.origin = index ∧ h.cluster.result? q.proposal.id = none).map (·.proposal)

theorem map_proposal_proposed (h : Chronicle) :
    h.proposed.map (·.proposal) = h.world.proposals := by
  change _ = h.submissions.filterMap fun y => y.submission.proposal
  unfold proposed submissions
  rw [List.map_filterMap, List.filterMap_filterMap]
  exact List.filterMap_congr fun r _ => r.proposed?_proposal

/-- Nothing is queued that was not proposed. -/
theorem mem_proposed_of_queued (hp : (new config classifier ids).performAll commands = .ok h)
    (hq : q ∈ h.cluster.queued) : q ∈ h.proposed := by
  induction commands using List.reverseRecOn generalizing h with
  | nil =>
    cases hp
    cases hq
  | append_singleton commands command ih =>
    obtain ⟨mid, hm, hlast⟩ := performAll_concat hp
    have hsound := (performAll_steps (sound_new config classifier ids) hm).1
    obtain ⟨reply, hr, hpast⟩ := perform_eq_ok hlast
    have hold (hq : q ∈ mid.cluster.queued) : q ∈ h.proposed := by
      unfold proposed
      rw [hpast, List.filterMap_append]
      exact List.mem_append_left _ (ih hm hq)
    by_cases hsubmit : ∃ i x, command = .submit i x
    · obtain ⟨i, x, rfl⟩ := hsubmit
      obtain ⟨_, _, s, _, _, _, hpast, _, hqueued⟩ := perform_submit hsound hlast
      rw [hqueued] at hq
      rcases List.mem_append.1 hq with hq | hq
      · exact hold hq
      · obtain ⟨p, hp, rfl⟩ := List.mem_map.1 hq
        rw [Option.mem_toList] at hp
        apply List.mem_filterMap.2
        refine ⟨_, hpast ▸ List.mem_append_right _ (List.mem_singleton_self _), ?_⟩
        exact congrArg (Option.map _) hp
    · have hne : ∀ i x, command ≠ .submit i x := fun i x he => hsubmit ⟨i, x, he⟩
      by_cases hresolve : command = .resolve ∨ command = .settle
      · rw [Cluster.Command.resolves_queued hsound hr hresolve] at hq
        cases hq
      · obtain ⟨hresolve, hsettle⟩ := not_or.1 hresolve
        rw [Cluster.Command.perform_queued hsound hr hne hresolve hsettle] at hq
        exact hold hq

theorem mem_unresolved (hp : (new config classifier ids).performAll commands = .ok h)
    (hids : h.ids.Nodup) : p ∈ h.unresolved i ↔ ⟨i, p⟩ ∈ h.cluster.queued := by
  have hw := ledger hp hids
  have hmade {q : QueuedProposal} (hq : q ∈ h.proposed) : q.proposal ∈ h.world.proposals :=
    map_proposal_proposed h ▸ List.mem_map_of_mem hq
  constructor
  · intro hu
    obtain ⟨q, hfilter, rfl⟩ := List.mem_map.1 hu
    obtain ⟨hq, hopen⟩ := List.mem_filter.1 hfilter
    obtain ⟨rfl, hnone⟩ := of_decide_eq_true hopen
    rcases hw.queued_or_settled rfl (hmade hq) with ⟨⟨q', hq', he⟩, _⟩ | ⟨_, r, hr, _⟩
    · -- Each proposal was made once, so the one that is queued is the same.
      have hdistinct : (h.proposed.map (·.proposal)).Nodup := by
        rw [map_proposal_proposed]
        exact List.Nodup.of_map _ (Trace.nodup_proposals hids)
      obtain rfl := List.inj_on_of_nodup_map hdistinct (mem_proposed_of_queued hp hq') hq he
      exact hq'
    · cases hnone.symm.trans hr
  · intro hq
    refine List.mem_map.2 ⟨⟨i, p⟩, List.mem_filter.2 ⟨mem_proposed_of_queued hp hq, ?_⟩, rfl⟩
    exact decide_eq_true ⟨rfl, hw.pended.undecided _ (List.mem_append_left _ hq)⟩

theorem annotate_of_coordinated (hp : (new config classifier ids).performAll commands = .ok h)
    (hids : h.ids.Nodup) {y : Submitted} (hy : y ∈ h.submissions) {c : ClassifiedOperation}
    (hc : c ∈ y.submission.decomposition.coordinated) :
    c.operation ∈ y.transaction ∧ classifier.annotate c.operation = c := by
  obtain ⟨mid, i, hs⟩ := exists_submits hy
  obtain ⟨_, _, _, hrun, n, _, _, hi, hsub⟩ := hs.exists_node hp hids
  rw [(Node.submit_eq_ok hsub).decomposition, Node.decompose, hrun.classifier i n hi,
    Classifier.coordinated_decompose] at hc
  obtain ⟨op, hop, rfl⟩ := List.mem_map.1 (List.mem_filter.1 hc).1
  exact ⟨hop, rfl⟩

theorem awaits_iff (hp : (new config classifier ids).performAll commands = .ok h)
    (hids : h.ids.Nodup) (c : ClassifiedOperation) :
    h.world.Awaits i c ↔ ∃ p ∈ h.unresolved i, ∃ op ∈ p.operations, classifier.annotate op = c := by
  have hw := ledger hp hids
  constructor
  · rintro ⟨⟨i, p⟩, hq, rfl, y, hm, hc⟩
    refine ⟨p, (mem_unresolved hp hids).2 hq, c.operation, ?_,
      (annotate_of_coordinated hp hids hm.1 hc).2⟩
    rw [(hw.hasSplit y hm.1).operations hm.2]
    exact List.mem_map_of_mem hc
  · rintro ⟨p, hu, op, hop, rfl⟩
    have hq := (mem_unresolved hp hids).1 hu
    obtain ⟨y, hm⟩ := Trace.mem_proposals.1 (hw.accounted.made _ (List.mem_append_left _ hq))
    rw [(hw.hasSplit y hm.1).operations hm.2] at hop
    obtain ⟨c, hc, rfl⟩ := List.mem_map.1 hop
    rw [(annotate_of_coordinated hp hids hm.1 hc).2]
    exact ⟨⟨i, p⟩, hq, rfl, y, hm, hc⟩

theorem mem_pendingIndex (hp : (new config classifier ids).performAll commands = .ok h)
    (hids : h.ids.Nodup) {n : Node} (hi : h.cluster.nodes[i]? = some n) (k : Key) (σ : Signature) :
    (∃ e ∈ n.pendingIndex.onKey k, e.signature = σ) ↔
      ∃ p ∈ h.unresolved i, ∃ op ∈ p.operations, op.key = k ∧ classifier.classifyOperation op = σ := by
  rw [(ledger hp hids).mem_pendingIndex hids rfl hi]
  constructor
  · rintro ⟨c, ha, hk, hσ⟩
    obtain ⟨p, hu, op, hop, rfl⟩ := (awaits_iff hp hids c).1 ha
    exact ⟨p, hu, op, hop, hk, hσ⟩
  · rintro ⟨p, hu, op, hop, hk, hσ⟩
    exact ⟨classifier.annotate op, (awaits_iff hp hids _).2 ⟨p, hu, op, hop, rfl⟩, hk, hσ⟩

theorem exists_submission_of_unresolved
    (hp : (new config classifier ids).performAll commands = .ok h) (hids : h.ids.Nodup)
    (hu : p ∈ h.unresolved i) {op : Operation} (hop : op ∈ p.operations) :
    ∃ y ∈ h.submissions, op ∈ y.transaction := by
  obtain ⟨_, _, _, y, hm, hc⟩ := (awaits_iff hp hids _).2 ⟨p, hu, op, hop, rfl⟩
  exact ⟨y, hm.1, (annotate_of_coordinated hp hids hm.1 hc).1⟩

end Chronicle

/-- Of the operations, algebraic ones on one key always commute. -/
def Classifier.Uniform (c : Classifier) (ops : List Operation) : Prop :=
  ∀ a ∈ ops, ∀ b ∈ ops, a.key = b.key → c.classifyOperation a ≠ .generic →
    c.classifyOperation b ≠ .generic →
      (c.classifyOperation a).commutesWith (c.classifyOperation b) = true

namespace Chronicle
variable {config : ClusterConfig} {classifier : Classifier} {ids : IdSupply}
  {commands : List Cluster.Command} {h mid : Chronicle} {i : Nat} {x : Transaction}
  {s : Submission}

theorem Submits.exists_pending (hs : h.Submits mid i x s)
    (hp : (new config classifier ids).performAll commands = .ok h) (hids : h.ids.Nodup) :
    ∃ pending : PendingIndex,
      Submitted.lifted ⟨x, s⟩ =
        (classifier.decompose config.node.escalation pending x).liftable.map (·.operation) ∧
      ∀ k σ, (∃ e ∈ pending.onKey k, e.signature = σ) ↔
        ∃ p ∈ mid.unresolved i, ∃ op ∈ p.operations,
          op.key = k ∧ classifier.classifyOperation op = σ := by
  obtain ⟨_, _, hmid, hrun, n, _, _, hi, hsub⟩ := hs.exists_node hp hids
  refine ⟨n.pendingIndex, ?_, fun k σ => mem_pendingIndex hmid hrun.ids hi k σ⟩
  rw [(Node.submit_isSplit hsub).lifted, (Node.submit_eq_ok hsub).decomposition, Node.decompose,
    hrun.classifier i n hi, hrun.policy i n hi]

theorem Submits.isConflictFree (hs : h.Submits mid i x s)
    (hp : (new config classifier ids).performAll commands = .ok h) (hids : h.ids.Nodup)
    (hu : classifier.Uniform h.operations) {pending : PendingIndex}
    (hpending : ∀ k σ, (∃ e ∈ pending.onKey k, e.signature = σ) ↔
      ∃ p ∈ mid.unresolved i, ∃ op ∈ p.operations,
        op.key = k ∧ classifier.classifyOperation op = σ) :
    classifier.IsConflictFree pending x := by
  obtain ⟨_, _, hmid, hrun, _⟩ := hs.exists_node hp hids
  have hown : ∀ op ∈ x, op ∈ h.operations := fun op hop =>
    List.mem_flatMap.2 ⟨⟨x, s⟩, hs.mem_submissions, hop⟩
  intro op hop hg
  constructor
  · intro other ho hk hg'
    exact hu op (hown op hop) other (hown other ho) hk.symm hg hg'
  · intro e he hg'
    obtain ⟨p, hp', other, ho, hk, hσ⟩ := (hpending op.key e.signature).1 ⟨e, he, rfl⟩
    obtain ⟨y, hy, hother⟩ := exists_submission_of_unresolved hmid hrun.ids hp' ho
    have hmem : other ∈ h.operations :=
      List.mem_flatMap.2 ⟨y, (submissions_of_past hs.past).subset hy, hother⟩
    rw [← hσ] at hg' ⊢
    exact hu op (hown op hop) other hmem hk.symm hg hg'

theorem Submits.lifted_conflictingPairs (hs : h.Submits mid i x s)
    (hp : (new config classifier ids).performAll commands = .ok h) (hids : h.ids.Nodup)
    (hu : classifier.Uniform h.operations)
    (hpolicy : config.node.escalation = .conflictingPairs) :
    Submitted.lifted ⟨x, s⟩ = x.filter fun op => classifier.classifyOperation op ≠ .generic := by
  obtain ⟨pending, hlifted, hpending⟩ := hs.exists_pending hp hids
  rw [hlifted, hpolicy]
  exact (hs.isConflictFree hp hids hu hpending).liftable_conflictingPairs

/-- The key-wide policy lifts those on whose key there is no generic operation, in the transaction or
in an unresolved proposal of the node. -/
theorem Submits.lifted_keyWide (hs : h.Submits mid i x s)
    (hp : (new config classifier ids).performAll commands = .ok h) (hids : h.ids.Nodup)
    (hu : classifier.Uniform h.operations) (hpolicy : config.node.escalation = .keyWide) :
    Submitted.lifted ⟨x, s⟩ = x.filter fun op : Operation =>
      (∀ other ∈ x, other.key = op.key → classifier.classifyOperation other ≠ .generic) ∧
        ∀ p ∈ mid.unresolved i, ∀ other ∈ p.operations, other.key = op.key →
          classifier.classifyOperation other ≠ .generic := by
  obtain ⟨pending, hlifted, hpending⟩ := hs.exists_pending hp hids
  rw [hlifted, hpolicy, (hs.isConflictFree hp hids hu hpending).liftable_keyWide]
  apply List.filter_congr
  intro op _
  rw [decide_eq_decide]
  apply and_congr_right
  intro _
  constructor
  · intro hnone p hp other ho hk hg
    obtain ⟨e, he, hσ⟩ := (hpending op.key .generic).2 ⟨p, hp, other, ho, hk, hg⟩
    exact hnone e he hσ
  · intro hnone e he hg
    obtain ⟨p, hp, other, ho, hk, hσ⟩ := (hpending op.key .generic).1 ⟨e, he, hg⟩
    exact hnone p hp other ho hk hσ

end Chronicle
end Confluence
