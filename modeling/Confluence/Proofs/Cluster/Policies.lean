import Confluence.Proofs.Cluster.Ledger
import Confluence.Proofs.Escalation

namespace Confluence

namespace Cluster
variable {c c' : Cluster}

theorem Sends.keeps {new : List (Envelope Message)} (h : c.Sends c' new) : c.Keeps c' :=
  ⟨congrArg List.length h.nodes, h.queued⟩

theorem complete_keeps {q : QueuedProposal} {outcome : Except NodeError Decision}
    {result : Option CommitResult} (hc : c.Sound) (h : c.complete q outcome = .ok (result, c')) :
    c.Keeps c' := by
  obtain ⟨n, _, ⟨_, _, _, rfl⟩ | ⟨r, n', _, _, hs⟩⟩ := complete_eq_ok hc.numbered h
  · exact ⟨rfl, rfl⟩
  · exact ⟨hs.keeps.length.trans List.length_set, hs.queued⟩

theorem completeAll_keeps {outcomes : List (QueuedProposal × Except NodeError Decision)}
    {results : List (ProposalId × CommitResult)} (hc : c.Sound)
    (h : c.completeAll outcomes = .ok (results, c')) : c.Keeps c' := by
  induction outcomes generalizing c results with
  | nil =>
    cases h
    exact ⟨rfl, rfl⟩
  | cons a rest ih =>
    obtain ⟨q, outcome⟩ := a
    unfold completeAll at h
    obtain ⟨⟨result, d⟩, hd, h⟩ := bind_eq_ok h
    obtain ⟨⟨more, c''⟩, hmore, h⟩ := bind_eq_ok h
    cases h
    have hds := (@complete_steps c d .empty q outcome rest result hc hd).1
    exact (complete_keeps hc hd).trans (ih hds hmore)

theorem drive_queued {outcomes : List (QueuedProposal × Except NodeError Decision)}
    (hc : c.Sound) (h : c.drive = .ok (outcomes, c')) : c'.queued = [] := by
  unfold drive at h
  obtain ⟨⟨results, sequencer⟩, _, h⟩ := bind_eq_ok h
  obtain ⟨d, hcatch, h⟩ := bind_eq_ok h
  cases h
  exact (catchUp_sends (by exact hc.numbered) hcatch).queued

theorem resolve_queued {results : List (ProposalId × CommitResult)} (hc : c.Sound)
    (h : c.resolve = .ok (results, c')) : c'.queued = [] := by
  unfold resolve at h
  obtain ⟨⟨outcomes, d⟩, hd, h⟩ := bind_eq_ok h
  have hds := (@drive_steps c d .empty outcomes hc hd).1
  exact (completeAll_keeps hds h).queued.trans (drive_queued hc hd)

theorem settle_queued {report : RunReport} (hc : c.Sound) (h : c.settle = .ok (report, c')) :
    c'.queued = [] := by
  unfold settle at h
  obtain ⟨⟨results, d⟩, hd, h⟩ := bind_eq_ok h
  exact (run_keeps h).queued.trans (resolve_queued hc hd)

theorem Command.resolves_queued {command : Command} {reply : Reply} (hc : c.Sound)
    (h : command.perform c = .ok (reply, c')) (hr : command = .resolve ∨ command = .settle) :
    c'.queued = [] := by
  rcases hr with rfl | rfl
  · obtain ⟨⟨results, d⟩, hd, he⟩ := map_eq_ok h
    cases he
    exact resolve_queued hc hd
  · obtain ⟨⟨report, d⟩, hd, he⟩ := map_eq_ok h
    cases he
    exact settle_queued hc hd

/-- A command that neither submits nor resolves leaves the queue alone, and unless a node joins
there are as many nodes as before. -/
theorem Command.perform_keeps {command : Command} {reply : Reply} (hc : c.Sound)
    (h : command.perform c = .ok (reply, c')) (hsubmit : ∀ i x, command ≠ .submit i x)
    (hresolve : command ≠ .resolve) (hsettle : command ≠ .settle) (hjoin : command ≠ .addNode) :
    c.Keeps c' := by
  have hn := hc.numbered
  cases command with
  | submit i x => exact absurd rfl (hsubmit i x)
  | resolve => exact absurd rfl hresolve
  | settle => exact absurd rfl hsettle
  | addNode => exact absurd rfl hjoin
  | setLinkDelay source target delay =>
    cases h
    exact ⟨rfl, rfl⟩
  | setLeader leader =>
    cases h
    exact ⟨rfl, rfl⟩
  | collectGarbage =>
    cases h
    exact ⟨by rw [nodes_collectGarbage, List.length_map], rfl⟩
  | step =>
    obtain ⟨⟨outcome, d⟩, hd, he⟩ := map_eq_ok h
    cases he
    exact step_keeps hd
  | run =>
    obtain ⟨⟨report, d⟩, hd, he⟩ := map_eq_ok h
    cases he
    exact run_keeps hd
  | cutOff indices duration =>
    obtain ⟨d, hd, he⟩ := map_eq_ok h
    cases he
    exact (cutOff_sends hn hd).keeps
  | heal =>
    obtain ⟨d, hd, he⟩ := map_eq_ok h
    cases he
    exact (heal_sends hn hd).keeps
  | advance ticks =>
    obtain ⟨d, hd, he⟩ := map_eq_ok h
    cases he
    exact (advance_sends hn hd).keeps
  | injectTimeouts count =>
    obtain ⟨d, hd, he⟩ := map_eq_ok h
    cases he
    exact (injectTimeouts_sends hn hd).keeps
  | antiEntropy =>
    obtain ⟨d, hd, he⟩ := map_eq_ok h
    cases he
    exact (@antiEntropy_sends c c' .empty [] hc hd).keeps
  | announceFrontiers =>
    obtain ⟨d, hd, he⟩ := map_eq_ok h
    cases he
    exact (@announceFrontiers_sends c c' .empty [] hc hd).keeps

theorem Command.perform_queued {command : Command} {reply : Reply} (hc : c.Sound)
    (h : command.perform c = .ok (reply, c')) (hsubmit : ∀ i x, command ≠ .submit i x)
    (hresolve : command ≠ .resolve) (hsettle : command ≠ .settle) : c'.queued = c.queued := by
  by_cases hjoin : command = .addNode
  · subst hjoin
    obtain ⟨⟨index, d⟩, hd, he⟩ := map_eq_ok h
    cases he
    exact (@addNode_sends c c' .empty [] index hc.numbered hd).queued
  · exact (perform_keeps hc h hsubmit hresolve hsettle hjoin).queued

end Cluster

namespace World
variable {w w' : World} {i : Nat} {n : Node}

/-- All nodes have the configuration of the cluster. -/
def Configured (w : World) : Prop :=
  ∀ (i : Nat) (n : Node), w.nodes[i]? = some n → n.config = w.config

theorem Step.config (hs : Step w w') : w'.config = w.config := by
  cases hs <;> rfl

theorem config_newcomer (w : World) : w.newcomer.config = w.config :=
  (Node.foldl_registerPeer ..).2.1

theorem Configured.set (h : w.Configured) {n' : Node} (hi : w.nodes[i]? = some n)
    (hc : n'.config = n.config) :
    ∀ (j : Nat) (m : Node), (w.nodes.set i n')[j]? = some m → m.config = w.config := by
  intro j m hj
  rcases getElem?_set_node hi hj with ⟨rfl, rfl⟩ | ⟨_, hj⟩
  · exact hc.trans (h j n hi)
  · exact h j m hj

theorem Configured.step (h : w.Configured) (hs : Step w w') : w'.Configured := by
  cases hs with
  | @deliver i n e t hi _ _ => exact h.set hi (n.receive_rest e.message).2.1
  | submit hi hsub _ => exact h.set hi (Node.submit_eq_ok hsub).kept.2.1
  | complete _ hi hn _ => exact h.set hi (Node.complete_config hn)
  | collect =>
    intro i n hi
    rw [List.getElem?_map] at hi
    obtain ⟨m, hm, rfl⟩ := Option.map_eq_some_iff.1 hi
    exact h i m hm
  | join _ =>
    intro i n hi
    rcases getElem?_concat_node hi with ⟨_, rfl⟩ | hi
    · exact w.config_newcomer
    · exact h i n hi
  | _ => exact h

theorem Configured.steps (h : w.Configured) (hs : Steps w w') :
    w'.Configured ∧ w'.config = w.config ∧ w'.classifier = w.classifier := by
  induction hs with
  | refl => exact ⟨h, rfl, rfl⟩
  | tail _ hstep ih =>
    obtain ⟨hc, hconfig, hclassifier⟩ := ih
    exact ⟨hc.step hstep, hstep.config.trans hconfig, hstep.classifier.trans hclassifier⟩

/-- The operation is among those that a node has proposed and that are still queued. -/
def Awaits (w : World) (i : Nat) (c : ClassifiedOperation) : Prop :=
  ∃ q ∈ w.queued, q.origin = i ∧
    ∃ s, w.Made q.proposal s ∧ c ∈ s.submission.decomposition.coordinated

theorem Ledger.mem_pendingIndex (h : w.Ledger) (hids : w.ids.Nodup) (hout : w.outcomes = [])
    (hi : w.nodes[i]? = some n) (k : Key) (σ : Signature) :
    (∃ e ∈ n.pendingIndex.onKey k, e.signature = σ) ↔
      ∃ c, w.Awaits i c ∧ c.key = k ∧ c.signature = σ := by
  have hawait := awaiting_of_outcomes hout
  constructor
  · rintro ⟨e, he, rfl⟩
    obtain ⟨rfl, p, hp, c, hc, hk, hs⟩ := Node.mem_onKey_pendingIndex.1 he
    obtain ⟨q, hq, ho, _, s, hm, rfl⟩ := (h.pended.find?_pending h.accounted hids hi).1 hp
    exact ⟨c, ⟨q, hawait ▸ hq, ho, s, hm, hc⟩, hk, hs⟩
  · rintro ⟨c, ⟨q, hq, ho, s, hm, hc⟩, rfl, rfl⟩
    refine ⟨⟨q.proposal.id, c.key, c.signature⟩, Node.mem_onKey_pendingIndex.2 ⟨rfl,
      s.submission.pendingEntry q.proposal, ?_, c, hc, rfl, rfl⟩, rfl⟩
    apply (h.pended.find?_pending h.accounted hids hi).2
    exact ⟨q, hawait.symm ▸ hq, ho, rfl, s, hm, rfl⟩

theorem Awaits.mono {w₁ : World} {c : ClassifiedOperation} (h : w.Awaits i c)
    (hq : ∀ q ∈ w.queued, q ∈ w₁.queued) (hs : w.submissions <+: w₁.submissions) :
    w₁.Awaits i c := by
  obtain ⟨q, hmem, ho, s, hm, hc⟩ := h
  exact ⟨q, hq q hmem, ho, s, hm.mono hs, hc⟩

end World

namespace Chronicle
variable {config : ClusterConfig} {classifier : Classifier} {ids : IdSupply}
  {commands : List Cluster.Command} {h h₁ : Chronicle} {i : Nat} {x : Transaction}

theorem configured_new (config : ClusterConfig) (classifier : Classifier) (ids : IdSupply) :
    (new config classifier ids).world.Configured := by
  intro i n hi
  change (((List.range (max config.nodes 1)).map Cluster.nodeName).map fun id =>
    Cluster.makeNode id classifier config.node _)[i]? = some n at hi
  rw [List.getElem?_map] at hi
  obtain ⟨id, _, rfl⟩ := Option.map_eq_some_iff.1 hi
  exact (Node.foldl_registerPeer ..).2.1

/-- What is known of every cluster that has performed some commands. -/
structure Run (h : Chronicle) (policy : EscalationPolicy) (classifier : Classifier) : Prop where
  sound : h.cluster.Sound
  ledger : h.world.Ledger
  ids : h.ids.Nodup
  policy : ∀ (i : Nat) (n : Node), h.cluster.nodes[i]? = some n → n.config.escalation = policy
  classifier : ∀ (i : Nat) (n : Node), h.cluster.nodes[i]? = some n → n.classifier = classifier

theorem run (hp : (new config classifier ids).performAll commands = .ok h) (hids : h.ids.Nodup) :
    h.Run config.node.escalation classifier := by
  obtain ⟨hsound, hsteps⟩ := performAll_steps (sound_new config classifier ids) hp
  obtain ⟨hconfigured, hconfig, hclassifier⟩ := (configured_new config classifier ids).steps hsteps
  have hledger := ledger hp hids
  constructor
  · exact hsound
  · exact hledger
  · exact hids
  · intro i n hi
    rw [hconfigured i n hi, hconfig]
    rfl
  · intro i n hi
    exact (hledger.sourced.classifiers i n hi).trans hclassifier

theorem perform_submit (hc : h.cluster.Sound) (hp : h.perform (.submit i x) = .ok h₁) :
    ∃ n n' s ids, h.cluster.nodes[i]? = some n ∧ n.submit x h.cluster.ids = .ok (s, n', ids) ∧
      h₁.past = h.past ++ [⟨h.cluster, .submit i x, .submitted s⟩] ∧
      h₁.submissions = h.submissions ++ [⟨x, s⟩] ∧
      h₁.cluster.queued = h.cluster.queued ++ s.proposal.toList.map (QueuedProposal.mk i) := by
  obtain ⟨reply, hr, hpast⟩ := perform_eq_ok hp
  obtain ⟨⟨s, c⟩, hs, he⟩ := map_eq_ok hr
  cases he
  obtain ⟨n, n', ids, hi, hsub, d, hsends, hd⟩ := Cluster.submit_eq_ok hc.numbered hs
  refine ⟨n, n', s, ids, hi, hsub, hpast, ?_, ?_⟩
  · unfold submissions
    rw [hpast, List.filterMap_append]
    rfl
  · have hq : d.queued = h.cluster.queued := hsends.queued
    rw [hd, ← hq]

/-- What awaits agreement after a submission: what did before, and what it has proposed. -/
theorem awaits_submit {s : Submission} (hw : h.world.Ledger) (hids : h₁.ids.Nodup)
    (hs : h₁.submissions = h.submissions ++ [⟨x, s⟩])
    (hq : h₁.cluster.queued = h.cluster.queued ++ s.proposal.toList.map (QueuedProposal.mk i))
    (hsplit : s.IsSplit) (j : Nat) (c : ClassifiedOperation) :
    h₁.world.Awaits j c ↔ h.world.Awaits j c ∨ j = i ∧ c ∈ s.decomposition.coordinated := by
  have hgrow : h.world.submissions <+: h₁.world.submissions := ⟨[⟨x, s⟩], hs.symm⟩
  have hlast : ⟨x, s⟩ ∈ h₁.submissions := by
    rw [hs]
    exact List.mem_append_right _ (List.mem_singleton_self _)
  have hmade {p : Proposal} (hp : s.proposal = some p) : h₁.world.Made p ⟨x, s⟩ := ⟨hlast, hp⟩
  have hmem {q : QueuedProposal} : q ∈ h₁.world.queued ↔
      q ∈ h.world.queued ∨ ∃ p, s.proposal = some p ∧ QueuedProposal.mk i p = q := by
    change q ∈ h₁.cluster.queued ↔ q ∈ h.cluster.queued ∨ _
    rw [hq, List.mem_append, List.mem_map]
    simp only [Option.mem_toList]
  constructor
  · rintro ⟨q, hq, ho, s', hm, hc⟩
    rcases hmem.1 hq with hq | ⟨p, hp, rfl⟩
    · obtain ⟨s'', hm''⟩ := Trace.mem_proposals.1 (hw.accounted.made q
        (List.mem_append_left _ hq))
      obtain rfl := (hm''.mono hgrow).unique hm hids
      exact .inl ⟨q, hq, ho, s'', hm'', hc⟩
    · obtain rfl := (hmade hp).unique hm hids
      exact .inr ⟨ho.symm, hc⟩
  · rintro (ha | ⟨rfl, hc⟩)
    · exact ha.mono (fun q hq => hmem.2 (.inl hq)) hgrow
    · have hp := hsplit.proposal
      rw [if_neg (List.ne_nil_of_mem hc)] at hp
      obtain ⟨p, hp, _⟩ := Option.map_eq_some_iff.1 hp
      exact ⟨⟨j, p⟩, hmem.2 (.inr ⟨p, hp, rfl⟩), rfl, ⟨x, s⟩, hmade hp, hc⟩

end Chronicle

/-- Two submissions of one transaction, of which the second one lifts all that the first one does. -/
structure Submitted.Widens (s s' : Submitted) : Prop where
  transaction : s.transaction = s'.transaction
  positions : s.submission.decomposition.routes.map (·.operation.operation) = s.transaction
  decomposition : s.submission.decomposition.Widens s'.submission.decomposition
  lifted : s.lifted.Sublist s'.lifted

theorem Submission.IsSplit.lifted {x : Transaction} {s : Submission} (h : s.IsSplit) :
    Submitted.lifted ⟨x, s⟩ = s.decomposition.liftable.map (·.operation) := by
  have hu := h.update
  unfold Submitted.lifted
  split at hu
  · next hl =>
    rw [Option.map_eq_none_iff.1 hu, hl]
    rfl
  · obtain ⟨u, hs, hops⟩ := Option.map_eq_some_iff.1 hu
    rw [hs, ← hops]
    exact List.flatMap_singleton _ _

namespace Chronicle
variable {config : ClusterConfig} {classifier : Classifier} {ids ids' : IdSupply}
  {commands : List Cluster.Command} {command : Cluster.Command} {h h' h₁ h₁' : Chronicle}

/-- In the second cluster no more awaits agreement, and every submission has lifted as much. -/
structure Widens (h h' : Chronicle) : Prop where
  awaits : ∀ i c, h'.world.Awaits i c → h.world.Awaits i c
  submissions : List.Forall₂ Submitted.Widens h.submissions h'.submissions

theorem Widens.decompose {i : Nat} {n n' : Node} (hw : h.Widens h')
    (hr : h.Run .keyWide classifier) (hr' : h'.Run .conflictingPairs classifier)
    (hi : h.cluster.nodes[i]? = some n) (hi' : h'.cluster.nodes[i]? = some n') (x : Transaction) :
    (n.decompose x).Widens (n'.decompose x) := by
  unfold Node.decompose
  rw [hr.classifier i n hi, hr'.classifier i n' hi', hr.policy i n hi, hr'.policy i n' hi']
  apply Classifier.decompose_widens
  intro k e' he'
  obtain ⟨c, hc, hk, hs⟩ := (hr'.ledger.mem_pendingIndex hr'.ids rfl hi' k e'.signature).1
    ⟨e', he', rfl⟩
  exact (hr.ledger.mem_pendingIndex hr.ids rfl hi k e'.signature).2 ⟨c, hw.awaits i c hc, hk, hs⟩

theorem Widens.submit {i : Nat} {x : Transaction} (hw : h.Widens h')
    (hr : h.Run .keyWide classifier) (hr' : h'.Run .conflictingPairs classifier)
    (hp : h.perform (.submit i x) = .ok h₁) (hp' : h'.perform (.submit i x) = .ok h₁')
    (hids : h₁.ids.Nodup) (hids' : h₁'.ids.Nodup) : h₁.Widens h₁' := by
  obtain ⟨n, _, s, _, hi, hsub, _, hs, hq⟩ := perform_submit hr.sound hp
  obtain ⟨n', _, s', _, hi', hsub', _, hs', hq'⟩ := perform_submit hr'.sound hp'
  have hsplit := Node.submit_isSplit hsub
  have hsplit' := Node.submit_isSplit hsub'
  have hd : s.decomposition.Widens s'.decomposition := by
    rw [(Node.submit_eq_ok hsub).decomposition, (Node.submit_eq_ok hsub').decomposition]
    exact hw.decompose hr hr' hi hi' x
  constructor
  · intro j c hc
    rw [awaits_submit hr.ledger hids hs hq hsplit]
    rcases (awaits_submit hr'.ledger hids' hs' hq' hsplit' j c).1 hc with hc | ⟨rfl, hc⟩
    · exact .inl (hw.awaits j c hc)
    · exact .inr ⟨rfl, hd.coordinated c hc⟩
  · rw [hs, hs']
    apply List.rel_append hw.submissions
    refine .cons ⟨rfl, ?_, hd, ?_⟩ .nil
    · rw [(Node.submit_eq_ok hsub).decomposition]
      exact Classifier.positions_decompose ..
    · rw [hsplit.lifted, hsplit'.lifted]
      exact hd.liftable.map _

theorem not_awaits {i : Nat} {c : ClassifiedOperation} (hq : h.cluster.queued = []) :
    ¬ h.world.Awaits i c := by
  rintro ⟨q, hmem, _⟩
  have hmem : q ∈ h.cluster.queued := hmem
  rw [hq] at hmem
  cases hmem

theorem awaits_of_eq {i : Nat} {c : ClassifiedOperation}
    (hq : h₁.cluster.queued = h.cluster.queued) (hs : h₁.submissions = h.submissions)
    (hc : h.world.Awaits i c) : h₁.world.Awaits i c := by
  apply hc.mono
  · intro q hmem
    change q ∈ h₁.cluster.queued
    rw [hq]
    exact hmem
  · exact ⟨[], (List.append_nil _).trans hs.symm⟩

theorem Widens.perform (hw : h.Widens h') (hr : h.Run .keyWide classifier)
    (hr' : h'.Run .conflictingPairs classifier) (hp : h.perform command = .ok h₁)
    (hp' : h'.perform command = .ok h₁') (hids : h₁.ids.Nodup) (hids' : h₁'.ids.Nodup) :
    h₁.Widens h₁' := by
  by_cases hsubmit : ∃ i x, command = .submit i x
  · obtain ⟨i, x, rfl⟩ := hsubmit
    exact hw.submit hr hr' hp hp' hids hids'
  · have hne : ∀ i x, command ≠ .submit i x := fun i x he => hsubmit ⟨i, x, he⟩
    have hs := submissions_perform hp hne
    have hs' := submissions_perform hp' hne
    obtain ⟨reply, hc, _⟩ := perform_eq_ok hp
    obtain ⟨reply', hc', _⟩ := perform_eq_ok hp'
    constructor
    · intro i c ha
      by_cases hresolve : command = .resolve ∨ command = .settle
      · exact absurd ha (not_awaits (Cluster.Command.resolves_queued hr'.sound hc' hresolve))
      · obtain ⟨hresolve, hsettle⟩ := not_or.1 hresolve
        have hq := Cluster.Command.perform_queued hr.sound hc hne hresolve hsettle
        have hq' := Cluster.Command.perform_queued hr'.sound hc' hne hresolve hsettle
        exact awaits_of_eq hq hs (hw.awaits i c (awaits_of_eq hq'.symm hs'.symm ha))
    · rw [hs, hs']
      exact hw.submissions

theorem widens (hp : (new { config with node.escalation := .keyWide } classifier ids).performAll
      commands = .ok h)
    (hp' : (new { config with node.escalation := .conflictingPairs } classifier ids').performAll
      commands = .ok h') (hids : h.ids.Nodup) (hids' : h'.ids.Nodup) : h.Widens h' := by
  induction commands using List.reverseRecOn generalizing h h' with
  | nil =>
    cases hp
    cases hp'
    constructor
    · intro i c hc
      exact absurd hc (not_awaits rfl)
    · exact .nil
  | append_singleton commands command ih =>
    obtain ⟨mid, hm, hlast⟩ := performAll_concat hp
    obtain ⟨mid', hm', hlast'⟩ := performAll_concat hp'
    have hmid := (perform_steps (performAll_steps (sound_new ..) hm).1 hlast).2.nodup_ids hids
    have hmid' := (perform_steps (performAll_steps (sound_new ..) hm').1 hlast').2.nodup_ids hids'
    exact (ih hm hm' hmid hmid').perform (run hm hmid) (run hm' hmid') hlast hlast' hids hids'

theorem flatMap_sublist {α β : Type} {r : α → α → Prop} {f : α → List β}
    (hf : ∀ a b, r a b → (f a).Sublist (f b)) {l l' : List α} (h : List.Forall₂ r l l') :
    (l.flatMap f).Sublist (l'.flatMap f) := by
  induction h with
  | nil => exact .refl _
  | cons hr _ ih =>
    rw [List.flatMap_cons, List.flatMap_cons]
    exact (hf _ _ hr).append ih

theorem Widens.lifted_le (hw : h.Widens h') (ht : h.world.Tallied) (ht' : h'.world.Tallied) :
    h.cluster.stats.lifted ≤ h'.cluster.stats.lifted := by
  have hl : h.cluster.stats.lifted = _ := ht.lifted
  have hl' : h'.cluster.stats.lifted = _ := ht'.lifted
  rw [hl, hl']
  exact (flatMap_sublist (fun _ _ hs => hs.lifted) hw.submissions).length_le

/-- Over whole runs, the policy of conflicting pairs lifts at least what the key-wide one lifts. Two
clusters that differ in nothing else perform the same commands; then at every submission the second
one lifts all positions of the transaction that the first one does, and so it counts no fewer. -/
theorem lifted_of_policies
    (hp : (new { config with node.escalation := .keyWide } classifier ids).performAll commands =
      .ok h)
    (hp' : (new { config with node.escalation := .conflictingPairs } classifier ids').performAll
      commands = .ok h') (hids : h.ids.Nodup) (hids' : h'.ids.Nodup) :
    List.Forall₂ Submitted.Widens h.submissions h'.submissions ∧
      h.cluster.stats.lifted ≤ h'.cluster.stats.lifted := by
  have hw := widens hp hp' hids hids'
  exact ⟨hw.submissions, hw.lifted_le (ledger hp hids).tallied (ledger hp' hids').tallied⟩

/-- A generic operation is coordinated alone in the second cluster, and blocks no later one. -/
theorem lifted_of_policies_pending :
    let commands : List Cluster.Command :=
      [.submit 0 [.increment "score" 2, .overwrite "score" "draft"],
        .submit 0 [.increment "score" 3], .resolve, .submit 0 [.increment "score" 4]]
    ∃ h h' : Chronicle,
      (new { ClusterConfig.default with node.escalation := .keyWide } .standard
        (.ofStream Uuid.ofNat)).performAll commands = .ok h ∧
      (new { ClusterConfig.default with node.escalation := .conflictingPairs } .standard
        (.ofStream fun k => Uuid.ofNat (k + 100))).performAll commands = .ok h' ∧
      h.ids.Nodup ∧ h'.ids.Nodup ∧
      List.Forall₂ Submitted.Widens h.submissions h'.submissions ∧
      h.cluster.stats.lifted = 1 ∧ h'.cluster.stats.lifted = 3 := by
  intro commands
  obtain ⟨h, hp, ht⟩ := @exists_of_endsWith _ _
    ((new { ClusterConfig.default with node.escalation := .keyWide } .standard
      (.ofStream Uuid.ofNat)).performAll commands)
    (fun h => h.ids.Nodup ∧ h.cluster.stats.lifted = 1) (by decide +kernel)
  obtain ⟨h', hp', ht'⟩ := @exists_of_endsWith _ _
    ((new { ClusterConfig.default with node.escalation := .conflictingPairs } .standard
      (.ofStream fun k => Uuid.ofNat (k + 100))).performAll commands)
    (fun h => h.ids.Nodup ∧ h.cluster.stats.lifted = 3) (by decide +kernel)
  obtain ⟨hids, hl⟩ := of_decide_eq_true ht
  obtain ⟨hids', hl'⟩ := of_decide_eq_true ht'
  have hw := (lifted_of_policies hp hp' hids hids').1
  exact ⟨h, h', hp, hp', hids, hids', hw, hl, hl'⟩

end Chronicle
end Confluence
