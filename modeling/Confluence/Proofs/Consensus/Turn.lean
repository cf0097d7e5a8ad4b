import Confluence.Consensus.Sequencer
import Confluence.Proofs.Consensus.Course

namespace Confluence

/-- The link is open from that time on, in ticks. -/
def LinkState.OpensBy : LinkState → Nat → Prop
  | .opened, _ => True
  | .cutUntil tick, time => tick.toNat ≤ time
  | .cut, _ => False

theorem LinkState.OpensBy.mono {link : LinkState} {time later : Nat} (h : link.OpensBy time)
    (hle : time ≤ later) : link.OpensBy later := by
  cases link with
  | opened => trivial
  | cutUntil tick => exact Nat.le_trans h hle
  | cut => exact h

theorem LinkState.isCutAt_eq_false {link : LinkState} {now : UInt64} :
    link.isCutAt now = false ↔ link.OpensBy now.toNat := by
  cases link with
  | opened => exact ⟨fun _ => trivial, fun _ => rfl⟩
  | cutUntil tick =>
    change decide (now < tick) = false ↔ tick.toNat ≤ now.toNat
    rw [decide_eq_false_iff_not, UInt64.lt_iff_toNat_lt, Nat.not_lt]
  | cut => exact ⟨nofun, nofun⟩

namespace Sequencer
variable {s s' : Sequencer} {via : NodeId} {p : Proposal} {outcome : ProposalOutcome}

/-- The link between a node and the leader, as the sequencer knows it. -/
def link (s : Sequencer) (node : NodeId) : LinkState := (s.links.find? node).getD .opened

/-- An attempt is counted, and leaves the links and the pace of time alone. -/
structure Attempted (s s' : Sequencer) : Prop where
  leader : s'.leader = s.leader
  links : s'.links = s.links
  timeoutTicks : s'.timeoutTicks = s.timeoutTicks
  injectedTimeouts : s'.injectedTimeouts = s.injectedTimeouts
  attempts : s'.attempts = s.attempts + 1

theorem Attempted.isCut_eq (h : s.Attempted s') (hnow : s'.now = s.now) (node : NodeId) :
    s'.isCut node = s.isCut node := by
  unfold isCut
  rw [h.links, hnow]

/-- What an outcome says of the links and takes of the time, where no timeout is injected: only a cut
link makes an attempt time out. -/
def Tells (s s' : Sequencer) (via : NodeId) (p : Proposal) : ProposalOutcome → Prop
  | .timeout => (s.isCut p.origin || s.isCut via) = true ∧
      s'.now.toNat = s.now.toNat + s.timeoutTicks.toNat
  | .notLeader leader => (s.isCut p.origin || s.isCut via) = false ∧ via ≠ s.leader ∧
      leader = some s.leader ∧ s'.now = s.now
  | .decided _ => (s.isCut p.origin || s.isCut via) = false ∧ via = s.leader ∧ s'.now = s.now

/-- All that an attempt can come to. -/
theorem propose_eq_ok (h0 : s.injectedTimeouts = 0) (h : s.propose via p = .ok (outcome, s')) :
    s.Attempted s' ∧ s.Tells s' via p outcome := by
  have hnone : ¬ 0 < s.injectedTimeouts := by
    rw [h0]
    decide
  unfold propose at h
  dsimp only at h
  rw [if_neg hnone] at h
  split at h
  · next hcut =>
    obtain ⟨now, hnow, he⟩ := map_eq_ok h
    cases he
    exact ⟨⟨rfl, rfl, rfl, rfl, rfl⟩, hcut, toNat_checkedAdd hnow⟩
  · next hcut =>
    have hopen := Bool.eq_false_iff.2 hcut
    split at h
    · next hvia =>
      cases h
      exact ⟨⟨rfl, rfl, rfl, rfl, rfl⟩, hopen, hvia, rfl, rfl⟩
    · next hvia =>
      have hvia := not_not.1 hvia
      split at h
      · cases h
        exact ⟨⟨rfl, rfl, rfl, rfl, rfl⟩, hopen, hvia, rfl⟩
      · obtain ⟨⟨d, t⟩, ha, he⟩ := map_eq_ok h
        cases he
        unfold append at ha
        split at ha
        · cases ha
          exact ⟨⟨rfl, rfl, rfl, rfl, rfl⟩, hopen, hvia, rfl⟩
        · cases ha

/-- The sequencer as the driving of a batch finds it, and what it has become: its log and its time have
gone on. -/
structure Goes (start s : Sequencer) : Prop where
  leader : s.leader = start.leader
  links : s.links = start.links
  timeoutTicks : s.timeoutTicks = start.timeoutTicks
  injectedTimeouts : s.injectedTimeouts = 0

theorem Goes.attempted {start : Sequencer} (h : start.Goes s) (ha : s.Attempted s') :
    start.Goes s' where
  leader := ha.leader.trans h.leader
  links := ha.links.trans h.links
  timeoutTicks := ha.timeoutTicks.trans h.timeoutTicks
  injectedTimeouts := ha.injectedTimeouts.trans h.injectedTimeouts

theorem Goes.isCut_eq {start : Sequencer} (h : start.Goes s) (node : NodeId) :
    s.isCut node = (start.link node).isCutAt s.now := by
  unfold isCut link
  rw [h.links]

theorem Goes.isCut_leader {start : Sequencer} (h : start.Goes s)
    (hleader : start.link start.leader = .opened) : s.isCut s.leader = false := by
  rw [h.isCut_eq, h.leader, hleader]
  rfl

end Sequencer

namespace Attempt

/-- The attempt has only timed out so far. -/
structure Waited (retry : RetryConfig) (a : Attempt) : Prop where
  via : a.via = a.proposal.origin
  attempts : a.attempts = a.timeouts
  redirects : a.redirects = 0
  timeouts : a.timeouts ≤ retry.maxRetries.toNat

theorem waited_new (retry : RetryConfig) (p : Proposal) : (new p).Waited retry :=
  ⟨rfl, rfl, rfl, Nat.zero_le _⟩

end Attempt

section Turn
variable {retry : RetryConfig} {now : Nat} {start s s' : Sequencer} {a : Attempt}
  {progress : Progress}

/-- One more timeout: the proposal waits for its next turn, or fails with all its retries spent. -/
def Progress.TimesOut (retry : RetryConfig) (a : Attempt) : Progress → Prop
  | .waiting _ b => b.Waited retry ∧ b.proposal = a.proposal ∧ b.timeouts = a.timeouts + 1
  | .finished result => a.timeouts = retry.maxRetries.toNat ∧
      result = .error (.unavailable a.proposal.id (retry.maxRetries + 1) 0)

/-- A turn over a cut link is one timeout. -/
theorem Progress.run_of_cut
    (h : Progress.run retry Sequencer.coordinator now s a = .ok (progress, s'))
    (ha : a.Waited retry) (hs : start.Goes s) (hcut : s.isCut a.proposal.origin = true) :
    start.Goes s' ∧ s'.now.toNat = s.now.toNat + start.timeoutTicks.toNat ∧
      s'.attempts = s.attempts + 1 ∧ progress.TimesOut retry a := by
  obtain ⟨outcome, mid, hp, hcases⟩ := Attempt.run_eq_ok h
  obtain ⟨hattempted, hcase⟩ := Sequencer.propose_eq_ok hs.injectedTimeouts hp
  obtain ⟨rfl, hnow⟩ : outcome = .timeout ∧
      mid.now.toNat = s.now.toNat + start.timeoutTicks.toNat := by
    cases outcome with
    | timeout => exact ⟨rfl, hs.timeoutTicks ▸ hcase.2⟩
    | notLeader leader => simp [Sequencer.Tells, hcut] at hcase
    | decided d => simp [Sequencer.Tells, hcut] at hcase
  obtain ⟨hstops, rfl, rfl⟩ | ⟨hn, _, rfl, rfl⟩ | ⟨_, ht, _⟩ := hcases
  · have hspent := Nat.le_antisymm ha.timeouts hstops
    refine ⟨hs.attempted hattempted, hnow, hattempted.attempts, hspent, ?_⟩
    have hattempts : (a.attempts + 1).toUInt32 = retry.maxRetries + 1 := by
      rw [ha.attempts, hspent]
      exact UInt32.toNat_inj.1 (by simp)
    change Except.error (NodeError.unavailable a.proposal.id _ _) = _
    rw [hattempts, ha.redirects]
    rfl
  · refine ⟨hs.attempted hattempted, hnow, hattempted.attempts, ?_, rfl, rfl⟩
    exact ⟨ha.via, congrArg (· + 1) ha.attempts, ha.redirects, Nat.not_le.1 hn⟩
  · cases ht

theorem Progress.run_through_leader
    (h : Progress.run retry Sequencer.coordinator now s a = .ok (progress, s'))
    (hs : start.Goes s) (hvia : a.via = s.leader) (hopen : s.isCut a.proposal.origin = false)
    (hleader : s.isCut s.leader = false) :
    start.Goes s' ∧ s'.now = s.now ∧ (∃ d, progress = .finished (.ok d)) ∧
      s'.attempts = s.attempts + 1 := by
  obtain ⟨outcome, mid, hp, hcases⟩ := Attempt.run_eq_ok h
  obtain ⟨hattempted, hcase⟩ := Sequencer.propose_eq_ok hs.injectedTimeouts hp
  rw [hvia] at hcase
  cases outcome with
  | timeout => simp [Sequencer.Tells, hopen, hleader] at hcase
  | notLeader leader => exact absurd rfl hcase.2.1
  | decided d =>
    obtain ⟨_, rfl, rfl⟩ | ⟨hn, _⟩ | ⟨hn, _⟩ := hcases
    · exact ⟨hs.attempted hattempted, hcase.2.2, ⟨d, rfl⟩, hattempted.attempts⟩
    · exact absurd trivial hn
    · exact absurd trivial hn

/-- A turn over an open link ends with a decision, after one attempt more if the origin does not
lead. -/
theorem Progress.run_of_open
    (h : Progress.run retry Sequencer.coordinator now s a = .ok (progress, s'))
    (ha : a.Waited retry) (hs : start.Goes s) (hopen : s.isCut a.proposal.origin = false)
    (hleader : s.isCut s.leader = false) (hredirects : 1 ≤ retry.maxRedirects.toNat) :
    start.Goes s' ∧ s'.now = s.now ∧ (∃ d, progress = .finished (.ok d)) ∧
      s'.attempts = s.attempts + if a.proposal.origin = start.leader then 1 else 2 := by
  by_cases hvia : a.via = s.leader
  · rw [if_pos (ha.via.symm.trans (hvia.trans hs.leader))]
    exact run_through_leader h hs hvia hopen hleader
  rw [if_neg (ha.via ▸ hs.leader ▸ hvia)]
  obtain ⟨outcome, mid, hp, hcases⟩ := Attempt.run_eq_ok h
  obtain ⟨hattempted, hcase⟩ := Sequencer.propose_eq_ok hs.injectedTimeouts hp
  rw [ha.via] at hcase
  cases outcome with
  | timeout => simp [Sequencer.Tells, hopen] at hcase
  | decided d => exact absurd (ha.via.trans hcase.2.1) hvia
  | notLeader leader =>
    obtain ⟨_, _, rfl, hnow⟩ := hcase
    obtain ⟨hstops, _⟩ | ⟨_, ht, _⟩ | ⟨_, _, hrest⟩ := hcases
    · -- One hint may be followed.
      have hspent : retry.maxRedirects.toNat ≤ a.redirects := hstops
      rw [ha.redirects] at hspent
      exact absurd hspent (Nat.not_le.2 hredirects)
    · cases ht
    · obtain ⟨hgoes, hnow', hd, hattempts⟩ := run_through_leader hrest (hs.attempted hattempted)
        hattempted.leader.symm ((hattempted.isCut_eq hnow _).trans hopen)
        (hattempted.leader ▸ (hattempted.isCut_eq hnow _).trans hleader)
      refine ⟨hgoes, hnow'.trans hnow, hd, ?_⟩
      rw [hattempts, hattempted.attempts]

end Turn
end Confluence
