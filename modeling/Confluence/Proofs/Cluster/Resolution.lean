import Confluence.Proofs.Cluster.Links
import Confluence.Proofs.Cluster.Overflow
import Confluence.Proofs.Cluster.Unresolved
import Confluence.Proofs.Consensus.Agreement

namespace Confluence

/-- The result tells the outcome. -/
def CommitResult.Reports : CommitResult → Except NodeError Decision → Prop
  | .committed scope, .ok d => scope = .withConsensus d.slot
  | .failed reason _, .error e => reason = e
  | _, _ => False

theorem Node.complete_reports {n n' : Node} {id : ProposalId} {outcome : Except NodeError Decision}
    {result : CommitResult} (h : n.complete id outcome = .ok (result, n')) :
    result.Reports outcome := by
  have hcase := (complete_eq_ok h).2
  cases outcome with
  | ok d =>
    rw [hcase.1]
    exact rfl
  | error reason =>
    obtain ⟨⟨retained, rfl⟩, _⟩ := hcase
    exact rfl

namespace Cluster
variable {c c' d : Cluster} {config : ClusterConfig} {trace : Trace}
  {outcomes : List (QueuedProposal × Except NodeError Decision)}
  {results : List (ProposalId × CommitResult)} {q : QueuedProposal}

theorem completeAll_reports (hc : c.Sound) (hw : (c.world outcomes trace).Ledger)
    (hids : trace.ids.Nodup) (h : c.completeAll outcomes = .ok (results, c')) :
    ∀ x ∈ outcomes, ∃ r, (x.1.proposal.id, r) ∈ results ∧ r.Reports x.2 := by
  induction outcomes generalizing c results trace with
  | nil => nofun
  | cons a rest ih =>
    obtain ⟨q, outcome⟩ := a
    unfold completeAll at h
    obtain ⟨⟨result, d⟩, hd, h⟩ := bind_eq_ok h
    obtain ⟨⟨more, c''⟩, hmore, h⟩ := bind_eq_ok h
    cases h
    obtain ⟨hds, hstep⟩ := @complete_steps c d trace q outcome rest _ hc hd
    intro x hx
    rcases List.mem_cons.1 hx with rfl | hx
    · obtain ⟨n, hi, ⟨e, he, _⟩ | ⟨r, n', hn, rfl, _⟩⟩ := complete_eq_ok hc.numbered hd
      · exact absurd he (hw.accounted.complete_ne_error rfl hi e)
      · exact ⟨r, List.mem_append_left _ List.mem_cons_self, Node.complete_reports hn⟩
    · obtain ⟨r, hr, hreports⟩ := ih hds (hw.step hstep hids) hids hmore x hx
      exact ⟨r, List.mem_append_right _ hr, hreports⟩

theorem drive_answers (hc : c.Sound) (h0 : c.sequencer.injectedTimeouts = 0)
    (hredirects : 1 ≤ c.config.node.retry.maxRedirects.toNat) (h : c.drive = .ok (outcomes, d))
    (hq : q ∈ c.queued) : ∃ outcome, (q, outcome) ∈ outcomes ∧
      Schedule.Answered c.config.node.retry c.synced.sequencer q.proposal outcome := by
  obtain ⟨answers, sequencer, hall, _, rfl⟩ := drive_eq_ok h
  obtain ⟨i, hi⟩ := List.getElem?_of_mem hq
  have hproposal : (c.queued.map (·.proposal))[i]? = some q.proposal := by
    rw [List.getElem?_map, hi]
    rfl
  have hs : c.synced.sequencer.Sound := hc.sequencer.of_eq rfl rfl
  obtain ⟨outcome, ho, hanswered⟩ :=
    driveAll_answers hs h0 c.link_leader_synced hredirects hall i q.proposal hproposal
  refine ⟨outcome, List.mem_of_getElem? (i := i) ?_, hanswered⟩
  rw [List.getElem?_zip_eq_some]
  exact ⟨hi, ho⟩

theorem drive_now (h : c.drive = .ok (outcomes, d)) (ht : c.Timely config) :
    d.network.now = d.sequencer.now := by
  obtain ⟨answers, sequencer, hall, hcatch, _⟩ := drive_eq_ok h
  have hle : c.network.now ≤ sequencer.now := by
    apply Schedule.run_keeps (P := fun s => c.network.now ≤ s.now) ?_ ?_ hall
    · intro s _ via p outcome s' hle hp
      exact UInt64.le_trans hle (Sequencer.now_le_propose hp)
    · exact ht.now_synced ▸ UInt64.le_refl _
  exact (catchUp_passes hcatch).2.2 hle

end Cluster

/-- How many timeouts it takes from one tick to another. -/
def ClusterConfig.timeouts (config : ClusterConfig) (now tick : UInt64) : Nat :=
  (tick.toNat - now.toNat) ⌈/⌉ config.timeoutTicks.toNat

/-- The results say that the proposal is in the log. -/
def Committed (results : List (ProposalId × CommitResult)) (p : Proposal) : Prop :=
  ∃ slot, (p.id, .committed (.withConsensus slot)) ∈ results

/-- The results say that the proposal was given up as unavailable after some attempts and redirects. -/
def Abandoned (results : List (ProposalId × CommitResult)) (p : Proposal)
    (attempts redirects : UInt32) : Prop :=
  ∃ retained, (p.id, .failed (.unavailable p.id attempts redirects) retained) ∈ results

/-- What becomes of queued proposals when they are resolved, by their links to the leader. -/
structure Cluster.Resolves (config : ClusterConfig) (c : Cluster)
    (results : List (ProposalId × CommitResult)) (c' : Cluster) : Prop where
  opened : ∀ q ∈ c.queued, c.linkOf q.proposal = .opened → Committed results q.proposal
  /-- A link that is cut for a time opens before the retries are spent, if there are enough. -/
  cutUntil : ∀ q ∈ c.queued, ∀ tick, c.linkOf q.proposal = .cutUntil tick →
    c.network.now ≤ tick ∧
      (config.timeouts c.network.now tick ≤ config.node.retry.maxRetries.toNat →
        Committed results q.proposal)
  cut : ∀ q ∈ c.queued, c.linkOf q.proposal = .cut →
    Abandoned results q.proposal (config.node.retry.maxRetries + 1) 0
  /-- A proposal that is resolved alone times out until its link opens, is sent to the leader and is
  decided there. -/
  alone : ∀ q tick, c.queued = [q] → c.linkOf q.proposal = .cutUntil tick →
    let timeouts := config.timeouts c.network.now tick
    (Committed results q.proposal ↔ timeouts ≤ config.node.retry.maxRetries.toNat) ∧
      (Committed results q.proposal →
        c'.sequencer.attempts = c.sequencer.attempts + timeouts + 2)
  now : c'.network.now = c'.sequencer.now

namespace Cluster
variable {c c' : Cluster} {config : ClusterConfig} {trace : Trace}
  {results : List (ProposalId × CommitResult)} {q : QueuedProposal}

theorem committed_of_reports {p : Proposal} {r : CommitResult} {d : Decision}
    (hr : (p.id, r) ∈ results) (h : r.Reports (.ok d)) : Committed results p := by
  cases r with
  | failed reason retained => cases h
  | committed scope =>
    obtain rfl : scope = .withConsensus d.slot := h
    exact ⟨d.slot, hr⟩

theorem abandoned_of_reports {p : Proposal} {r : CommitResult} {attempts redirects : UInt32}
    (hr : (p.id, r) ∈ results) (h : r.Reports (.error (.unavailable p.id attempts redirects))) :
    Abandoned results p attempts redirects := by
  cases r with
  | committed scope => cases h
  | failed reason retained =>
    obtain rfl : reason = .unavailable p.id attempts redirects := h
    exact ⟨retained, hr⟩

theorem not_committed_of_abandoned {p : Proposal} {attempts redirects : UInt32}
    (hkept : ∀ x ∈ results, c'.result? x.1 = some x.2) (h : Abandoned results p attempts redirects) :
    ¬ Committed results p := by
  rintro ⟨slot, hcommitted⟩
  obtain ⟨retained, hfailed⟩ := h
  have hc := hkept _ hcommitted
  have hf := hkept _ hfailed
  cases hc.symm.trans hf

/-- A cluster that may resolve its proposals: their origins are nodes, no timeout is injected, and one
hint at the leader may be followed. -/
structure Ready (config : ClusterConfig) (trace : Trace) (c : Cluster) : Prop where
  sound : c.Sound
  ledger : (c.world [] trace).Ledger
  ids : trace.ids.Nodup
  timely : c.Timely config
  origin : ∀ q ∈ c.queued, q.proposal.origin ∈ c.nodes.map Node.id
  injected : c.sequencer.injectedTimeouts = 0
  ticks : 1 ≤ config.timeoutTicks.toNat
  redirects : 1 ≤ config.node.retry.maxRedirects.toNat
  retries : config.node.retry.maxRetries.toNat + config.node.retry.maxRedirects.toNat + 1 <
    UInt32.size

theorem Ready.link_synced (h : c.Ready config trace) (hq : q ∈ c.queued) :
    c.synced.sequencer.link q.proposal.origin = c.linkOf q.proposal := by
  rw [Cluster.link_synced, if_pos (h.origin q hq)]
  rfl

/-- The answer about a queued proposal is by its link and the time that its retries take. -/
theorem Ready.answers (h : c.Ready config trace) (hr : c.resolve = .ok (results, c'))
    (hq : q ∈ c.queued) :
    ((c.linkOf q.proposal).OpensBy
        (c.network.now.toNat + config.node.retry.maxRetries.toNat * config.timeoutTicks.toNat) →
      Committed results q.proposal) ∧
    (c.linkOf q.proposal = .cut →
      Abandoned results q.proposal (config.node.retry.maxRetries + 1) 0) := by
  obtain ⟨⟨outcomes, d⟩, hd, hr⟩ := bind_eq_ok hr
  obtain ⟨hds, hsteps⟩ := @drive_steps c d trace outcomes h.sound hd
  obtain ⟨outcome, ho, hanswered⟩ :=
    drive_answers h.sound h.injected (h.timely.configured ▸ h.redirects) hd hq
  obtain ⟨r, hmem, hreports⟩ :=
    completeAll_reports hds (h.ledger.steps hsteps h.ids) h.ids hr _ ho
  have hticks : c.synced.sequencer.timeoutTicks = config.timeoutTicks := h.timely.timeoutTicks
  have hretry := congrArg (·.node.retry) h.timely.configured
  constructor
  · intro hopens
    rw [← h.link_synced hq, ← h.timely.now_synced, ← hticks, ← hretry] at hopens
    obtain ⟨d, rfl⟩ := hanswered.decided hopens
    exact committed_of_reports hmem hreports
  · intro hcut
    obtain rfl := hanswered.failed ((h.link_synced hq).trans hcut)
    exact hretry ▸ abandoned_of_reports hmem hreports

theorem Ready.opensBy_iff (h : c.Ready config trace) (tick : UInt64) :
    (LinkState.cutUntil tick).OpensBy
        (c.network.now.toNat + config.node.retry.maxRetries.toNat * config.timeoutTicks.toNat) ↔
      config.timeouts c.network.now tick ≤ config.node.retry.maxRetries.toNat := by
  unfold ClusterConfig.timeouts
  rw [ceilDiv_le_iff_le_mul h.ticks, Nat.sub_le_iff_le_add', Nat.mul_comm]
  rfl

theorem Ready.alone {tick : UInt64} (h : c.Ready config trace)
    (hr : c.resolve = .ok (results, c')) (hq : c.queued = [q])
    (hlink : c.linkOf q.proposal = .cutUntil tick) :
    let timeouts := config.timeouts c.network.now tick
    (timeouts ≤ config.node.retry.maxRetries.toNat →
        c'.sequencer.attempts = c.sequencer.attempts + timeouts + 2) ∧
      (config.node.retry.maxRetries.toNat < timeouts →
        Abandoned results q.proposal (config.node.retry.maxRetries + 1) 0) := by
  intro timeouts
  obtain ⟨⟨outcomes, d⟩, hd, hr⟩ := bind_eq_ok hr
  obtain ⟨hds, hsteps⟩ := @drive_steps c d trace outcomes h.sound hd
  have hreports := completeAll_reports hds (h.ledger.steps hsteps h.ids) h.ids hr
  obtain ⟨answers, sequencer, hall, hcatch, rfl⟩ := drive_eq_ok hd
  have hmem : q ∈ c.queued := hq ▸ List.mem_cons_self
  have hticks : c.synced.sequencer.timeoutTicks = config.timeoutTicks := h.timely.timeoutTicks
  rw [hq, List.map_singleton, h.timely.configured] at hall
  have hinjected : c.synced.sequencer.injectedTimeouts = 0 := h.injected
  have huntil := driveAll_until hinjected ((h.link_synced hmem).trans hlink)
    c.link_leader_synced (hticks ▸ h.ticks) h.redirects hall
  rw [hticks, h.timely.now_synced] at huntil
  constructor
  · intro hle
    rw [(frames_rests.completeAll hr).sequencer, (catchUp_passes hcatch).1.attempts]
    exact (huntil.1 hle).2
  · intro hlt
    obtain rfl := huntil.2 hlt
    rw [hq] at hreports
    obtain ⟨r, hr, hrep⟩ := hreports _ List.mem_cons_self
    exact abandoned_of_reports hr hrep

theorem Ready.resolves (h : c.Ready config trace) (hr : c.resolve = .ok (results, c')) :
    c.Resolves config results c' := by
  have hcutUntil {q : QueuedProposal} (hq : q ∈ c.queued) {tick : UInt64}
      (hlink : c.linkOf q.proposal = .cutUntil tick)
      (hle : config.timeouts c.network.now tick ≤ config.node.retry.maxRetries.toNat) :
      Committed results q.proposal := by
    apply (h.answers hr hq).1
    rw [hlink]
    exact (h.opensBy_iff tick).2 hle
  constructor
  · intro q hq hlink
    apply (h.answers hr hq).1
    rw [hlink]
    trivial
  · intro q hq tick hlink
    exact ⟨h.timely.le_of_linkOf hlink, hcutUntil hq hlink⟩
  · intro q hq hlink
    exact (h.answers hr hq).2 hlink
  · intro q tick hq hlink timeouts
    obtain ⟨hcost, hfails⟩ := h.alone hr hq hlink
    have hle (hcommitted : Committed results q.proposal) :
        timeouts ≤ config.node.retry.maxRetries.toNat := by
      by_contra hlt
      have hkept := resolve_result? h.sound h.ledger hr h.ids
      exact not_committed_of_abandoned hkept (hfails (Nat.not_le.1 hlt)) hcommitted
    exact ⟨⟨hle, hcutUntil (hq ▸ List.mem_cons_self) hlink⟩, fun hc => hcost (hle hc)⟩
  · obtain ⟨⟨outcomes, d⟩, hd, hr⟩ := bind_eq_ok hr
    have hrests := frames_rests.completeAll hr
    rw [hrests.network.now, hrests.sequencer]
    exact drive_now hd h.timely

end Cluster

namespace Chronicle
variable {config : ClusterConfig} {classifier : Classifier} {ids : IdSupply}
  {commands : List Cluster.Command} {h : Chronicle} {q : QueuedProposal}

/-- What is queued was proposed by a node of the cluster. -/
theorem origin_of_queued (hp : (new config classifier ids).performAll commands = .ok h)
    (hids : h.ids.Nodup) (hq : q ∈ h.cluster.queued) :
    q.origin < h.cluster.nodes.length ∧ q.proposal.origin ∈ h.cluster.nodes.map Node.id := by
  have hw := ledger hp hids
  obtain ⟨n, hi, _⟩ := hw.accounted.pending q (List.mem_append_left _ hq)
  have hi : h.cluster.nodes[q.origin]? = some n := hi
  refine ⟨(List.getElem?_eq_some_iff.1 hi).1, ?_⟩
  obtain ⟨r, hr, hmade⟩ := List.mem_filterMap.1 (mem_proposed_of_queued hp hq)
  obtain ⟨past, hpre⟩ := exists_prefix_of_mem hr
  obtain ⟨before, command, reply⟩ := r
  unfold Cluster.Record.proposed? at hmade
  split at hmade
  · next i x s hcommand hreply =>
    obtain ⟨p, hproposal, rfl⟩ := Option.map_eq_some_iff.1 hmade
    obtain rfl : command = .submit i x := hcommand
    obtain rfl : reply = .submitted s := hreply
    have hs : h.Submits ⟨before, past⟩ i x s := hpre
    obtain ⟨_, _, hmid, hrun, m, _, _, hm, hsub⟩ := hs.exists_node hp hids
    have horigin := ((Node.submit_eq_ok hsub).proposal p hproposal).2.1
    have hname := (ledger hmid hrun.ids).sourced.names i m hm
    rw [horigin, hname, ← hw.sourced.names i n hi]
    exact List.mem_map_of_mem (List.mem_of_getElem? hi)
  · cases hmade

/-- Proposals wait partitions out. Unless there is an overflow, the queued proposals of a cluster in which
no timeout is injected are resolved: whatever the partitions and whatever else is queued, those whose link
to the leader is open, or opens while their retries last, are committed, and those that are cut off for
good fail with all their retries spent. A proposal whose link is cut for a time and that is resolved alone
is committed if and only if its retries last, and costs two attempts more than the timeouts until its link
opens. The network ends at the time of the sequencer, which was not ahead of it. -/
theorem resolves_of_performAll (hp : (new config classifier ids).performAll commands = .ok h)
    (hids : h.ids.Nodup) (hinjected : h.cluster.sequencer.injectedTimeouts = 0)
    (hticks : 1 ≤ config.timeoutTicks.toNat)
    (hredirects : 1 ≤ config.node.retry.maxRedirects.toNat)
    (hretries : config.node.retry.maxRetries.toNat + config.node.retry.maxRedirects.toNat + 1 <
      UInt32.size) (hoverflow : h.cluster.resolve ≠ .error .overflow) :
    h.cluster.sequencer.now ≤ h.cluster.network.now ∧
      ∃ results c', h.cluster.resolve = .ok (results, c') ∧
        h.cluster.Resolves config results c' := by
  have hsound := (performAll_steps (sound_new config classifier ids) hp).1
  have htimely := timely hp
  refine ⟨htimely.now, ?_⟩
  obtain ⟨results, c', hr⟩ := Cluster.exists_resolve hsound
    (fun q hq => (origin_of_queued hp hids hq).1) hoverflow
  refine ⟨results, c', hr, ?_⟩
  have hready : h.cluster.Ready config h.trace := ⟨hsound, ledger hp hids, hids, htimely,
    fun q hq => (origin_of_queued hp hids hq).2, hinjected, hticks, hredirects, hretries⟩
  exact hready.resolves hr

/-- Partitions overlap. One of the proposals that are resolved together is the leader's own, one is cut
off for a time, and one for good. -/
theorem resolves_of_performAll_partitions :
    ∃ h results c', (new .default .standard (.ofStream Uuid.ofNat)).performAll
        [.cutOff [1] (some 2), .cutOff [1, 2] (some 4), .cutOff [2] none,
          .submit 2 [.overwrite "title" "draft"], .submit 1 [.overwrite "title" "final"],
          .submit 0 [.overwrite "title" "late"]] = .ok h ∧
      h.cluster.resolve = .ok (results, c') ∧
      (h.cluster.queued.map fun q => h.cluster.linkOf q.proposal) =
        [.cut, .cutUntil 4, .opened] ∧
      h.cluster.Resolves .default results c' ∧ c'.network.now = 8 := by
  obtain ⟨h, ⟨results, c'⟩, hp, hr, ht⟩ := @exists_pair_of_endsWith _ _ _
    ((new .default .standard (.ofStream Uuid.ofNat)).performAll
        [.cutOff [1] (some 2), .cutOff [1, 2] (some 4), .cutOff [2] none,
          .submit 2 [.overwrite "title" "draft"], .submit 1 [.overwrite "title" "final"],
          .submit 0 [.overwrite "title" "late"]])
    (fun h => h.cluster.resolve)
    (fun r => r.1.ids.Nodup ∧ r.1.cluster.sequencer.injectedTimeouts = 0 ∧
      (r.1.cluster.queued.map fun q => r.1.cluster.linkOf q.proposal) =
        [.cut, .cutUntil 4, .opened] ∧ r.2.2.network.now = 8) (by decide +kernel)
  obtain ⟨hids, hinjected, hlinks, hnow⟩ := of_decide_eq_true ht
  have hoverflow : h.cluster.resolve ≠ .error .overflow := by
    rw [hr]
    nofun
  obtain ⟨_, results', c'', hr', hresolves⟩ := resolves_of_performAll hp hids hinjected (by decide)
    (by decide) (by decide) hoverflow
  cases hr.symm.trans hr'
  exact ⟨h, results, c', hp, hr, hlinks, hresolves, hnow⟩

-- A cut that lasts as long as the five retries costs seven attempts; one that lasts for a tick longer is
-- not waited out.
example :
    let run (heal : UInt64) := (new .default .standard (.ofStream Uuid.ofNat)).performAll
      [.cutOff [1] (some heal), .submit 1 [.overwrite "title" "draft"]] >>= (·.cluster.resolve)
    (endsWith (run 5) fun r => r.1.map (·.2) = [.committed (.withConsensus 0)] ∧
        r.2.sequencer.attempts = 7) ∧
      endsWith (run 6) fun r => r.1.map (·.2) =
        [.failed (.unavailable (Uuid.ofNat 0) 6 0) none] := by
  decide +kernel

end Chronicle
end Confluence
