import Mathlib.Algebra.Order.BigOperators.Group.List
import Mathlib.Algebra.Order.Floor.Div
import Confluence.Proofs.Consensus.Budget
import Confluence.Proofs.Consensus.Drive
import Confluence.Proofs.Consensus.Turn

namespace Confluence
namespace Schedule

theorem mem_of_firstWake? {l : List Waiter} {now : Nat} (h : firstWake? l = some now) :
    ∃ w ∈ l, w.wake = now := by
  induction l generalizing now with
  | nil => cases h
  | cons w l ih =>
    cases hl : firstWake? l with
    | none =>
      rw [firstWake?, hl] at h
      exact ⟨w, List.mem_cons_self, Option.some.inj h⟩
    | some next =>
      rw [firstWake?, hl] at h
      obtain ⟨v, hv, hnext⟩ := ih hl
      have hmin : min w.wake next = now := Option.some.inj h
      rcases Nat.le_total w.wake next with hle | hle
      · exact ⟨w, List.mem_cons_self, (Nat.min_eq_left hle).symm.trans hmin⟩
      · exact ⟨v, List.mem_cons_of_mem _ hv, hnext.trans ((Nat.min_eq_right hle).symm.trans hmin)⟩

/-- With credit left no pause is put off, and only pauses that last longer keep a proposal. -/
theorem pick_eq_none {s : Schedule} {l : List Waiter} (hc : s.credit ≠ 0)
    (h : (s.pick l).1 = none) :
    (s.pick l).2.postponed = s.postponed ∧ ∀ w ∈ l, s.now < w.wake := by
  induction l generalizing s with
  | nil => exact ⟨rfl, nofun⟩
  | cons w l ih =>
    rw [pick]
    rw [pick] at h
    by_cases hfirst : w.attempt.attempts = 0
    · rw [if_pos hfirst] at h
      cases h
    rw [if_neg hfirst, if_neg hc] at h ⊢
    by_cases hover : w.wake ≤ s.now
    · rw [if_pos hover] at h
      cases h
    rw [if_neg hover] at h ⊢
    obtain ⟨hpostponed, hl⟩ := ih (s := { s with asleep := w :: s.asleep }) hc h
    refine ⟨hpostponed, ?_⟩
    intro v hv
    rcases List.mem_cons.1 hv with rfl | hv
    · exact Nat.not_le.1 hover
    · exact hl v hv

theorem asleep_of_pick_awaken {s : Schedule} (h : (s.awaken.pick s.awaken.queue).1 = none) :
    s.asleep = [] := by
  cases hw : firstWake? s.asleep with
  | none =>
    cases hs : s.asleep with
    | nil => rfl
    | cons w l =>
      rw [hs] at hw
      cases hw
  | some now =>
    obtain ⟨w, hmem, hwake⟩ := mem_of_firstWake? hw
    unfold awaken at h
    rw [hw] at h
    have hcredit : roundCredit ≠ 0 := by decide
    have hlate := (pick_eq_none hcredit h).2 w
      (List.mem_reverse.2 (List.mem_filter.2 ⟨hmem, decide_eq_true hwake⟩))
    exact absurd hwake (Nat.ne_of_gt hlate)

/-- Only where nothing is left to do does no proposal go on. -/
theorem waiters_of_next?_eq_none {s : Schedule} (h : s.next? = none) : s.waiters = [] := by
  have hpick (t : Schedule) := pick_waiters t t.queue
  unfold next? at h
  split at h
  · cases h
  next t₁ hp₁ =>
  obtain ⟨hw₁, hq₁⟩ := hpick s
  rw [hp₁] at hw₁ hq₁
  have hr₁ := (nextRound_waiters (hq₁ rfl)).trans hw₁
  dsimp only at h
  split at h
  · cases h
  next t₂ hp₂ =>
  obtain ⟨hw₂, hq₂⟩ := hpick t₁.nextRound
  have hcredit : t₁.nextRound.credit ≠ 0 := show roundCredit ≠ 0 by decide
  have hnone := pick_eq_none (l := t₁.nextRound.queue) hcredit
  rw [hp₂] at hw₂ hq₂ hnone
  split at h
  · cases h
  next hp₃ =>
  have hpostponed : t₂.postponed = [] := (hnone rfl).1
  have hasleep : t₂.asleep = [] := asleep_of_pick_awaken (congrArg Prod.fst hp₃)
  have hempty : t₂.waiters = [] := by
    unfold waiters
    rw [hq₂ rfl, hpostponed, hasleep]
    rfl
  have hperm : t₂.waiters.Perm s.waiters := hw₂.trans hr₁
  rw [hempty] at hperm
  exact hperm.symm.eq_nil

/-- What becomes of a proposal that is driven with others from a time on: it is decided if its link opens
while its retries last, and it spends them all on a link that does not. -/
structure Answered (retry : RetryConfig) (start : Sequencer) (p : Proposal)
    (result : Except NodeError Decision) : Prop where
  decided : (start.link p.origin).OpensBy
      (start.now.toNat + retry.maxRetries.toNat * start.timeoutTicks.toNat) →
    ∃ d, result = .ok d
  failed : start.link p.origin = .cut →
    result = .error (.unavailable p.id (retry.maxRetries + 1) 0)

/-- The state of a run against an idle sequencer: whoever still waits has only timed out so far, and
each timeout has moved the common time on. -/
structure Waits (retry : RetryConfig) (start : Sequencer) (proposals : List Proposal) (s : Sequencer)
    (waiters : List Waiter) (results : List (Except NodeError Decision)) : Prop
    extends Drives start.log proposals s waiters results where
  goes : start.Goes s
  waited : ∀ w ∈ waiters, w.attempt.Waited retry
  time : ∀ w ∈ waiters,
    start.now.toNat + w.attempt.timeouts * start.timeoutTicks.toNat ≤ s.now.toNat
  answered : ∀ (i : Nat) (p : Proposal), proposals[i]? = some p →
    (∀ w ∈ waiters, w.position ≠ i) →
      ∃ result, results[i]? = some result ∧ Answered retry start p result

/-- The turns that are left to some proposals. -/
def turnsLeft (retry : RetryConfig) (waiters : List Waiter) : Nat :=
  (waiters.map fun w => retry.maxRetries.toNat + 1 - w.attempt.timeouts).sum

section Batch
variable {retry : RetryConfig} {start s s' : Sequencer} {proposals : List Proposal} {w : Waiter}
  {ws ws' : List Waiter} {results results' : List (Except NodeError Decision)} {now : Nat}

theorem Waits.perm (h : Waits retry start proposals s ws results) (hp : ws'.Perm ws) :
    Waits retry start proposals s ws' results where
  toDrives := h.toDrives.perm hp
  goes := h.goes
  waited w hw := h.waited w (hp.mem_iff.1 hw)
  time w hw := h.time w (hp.mem_iff.1 hw)
  answered i p hi hnone := h.answered i p hi fun w hw => hnone w (hp.mem_iff.2 hw)

/-- A turn after which the proposal waits again was over a cut link. -/
theorem Waits.wait {wake : Nat} {a : Attempt}
    (h : Waits retry start proposals s (w :: ws) results)
    (hleader : start.link start.leader = .opened) (hredirects : 1 ≤ retry.maxRedirects.toNat)
    (hr : Progress.run retry Sequencer.coordinator now s w.attempt = .ok (.waiting wake a, s')) :
    Waits retry start proposals s' ({ w with wake, attempt := a } :: ws) results ∧
      a.timeouts = w.attempt.timeouts + 1 := by
  have hmem : w ∈ w :: ws := List.mem_cons_self
  have hw := h.waited w hmem
  have hopened := h.goes.isCut_leader hleader
  cases hcut : s.isCut w.attempt.proposal.origin with
  | false =>
    obtain ⟨_, _, ⟨d, hd⟩, _⟩ := Progress.run_of_open hr hw h.goes hcut hopened hredirects
    cases hd
  | true =>
    obtain ⟨hgoes, hnow, _, ha, hproposal, htimeouts⟩ := Progress.run_of_cut hr hw h.goes hcut
    obtain ⟨new, ht⟩ := Progress.run_turn h.sound hr
    refine ⟨⟨h.toDrives.wait ht, hgoes, ?_, ?_, ?_⟩, htimeouts⟩
    · intro v hv
      rcases List.mem_cons.1 hv with rfl | hv
      · exact ha
      · exact h.waited v (List.mem_cons_of_mem _ hv)
    · intro v hv
      rw [hnow]
      rcases List.mem_cons.1 hv with rfl | hv
      · change _ + a.timeouts * _ ≤ _
        rw [htimeouts, Nat.succ_mul, ← Nat.add_assoc]
        exact Nat.add_le_add_right (h.time w hmem) _
      · exact Nat.le_add_right_of_le (h.time v (List.mem_cons_of_mem _ hv))
    · intro i p hi hnone
      apply h.answered i p hi
      intro v hv
      rcases List.mem_cons.1 hv with rfl | hv
      · exact hnone { v with wake, attempt := a } List.mem_cons_self
      · exact hnone v (List.mem_cons_of_mem _ hv)

/-- A proposal that is finished has been answered. -/
theorem Waits.finish {result : Except NodeError Decision}
    (h : Waits retry start proposals s (w :: ws) results)
    (hleader : start.link start.leader = .opened) (hredirects : 1 ≤ retry.maxRedirects.toNat)
    (hr : Progress.run retry Sequencer.coordinator now s w.attempt = .ok (.finished result, s')) :
    Waits retry start proposals s' ws (results.set w.position result) := by
  have hmem : w ∈ w :: ws := List.mem_cons_self
  have hw := h.waited w hmem
  have hopened := h.goes.isCut_leader hleader
  obtain ⟨new, ht⟩ := Progress.run_turn h.sound hr
  obtain ⟨hgoes, hnow, hanswered⟩ : start.Goes s' ∧ s.now.toNat ≤ s'.now.toNat ∧
      Answered retry start w.attempt.proposal result := by
    cases hcut : s.isCut w.attempt.proposal.origin with
    | false =>
      obtain ⟨hgoes, hnow, ⟨d, hd⟩, _⟩ := Progress.run_of_open hr hw h.goes hcut hopened hredirects
      cases hd
      refine ⟨hgoes, Nat.le_of_eq (congrArg UInt64.toNat hnow.symm), fun _ => ⟨d, rfl⟩, ?_⟩
      intro hlink
      rw [h.goes.isCut_eq, hlink] at hcut
      cases hcut
    | true =>
      obtain ⟨hgoes, hnow, _, hspent, rfl⟩ := Progress.run_of_cut hr hw h.goes hcut
      refine ⟨hgoes, hnow ▸ Nat.le_add_right .., ?_, fun _ => rfl⟩
      intro hopens
      have hlate := hopens.mono (hspent ▸ h.time w hmem)
      rw [h.goes.isCut_eq, LinkState.isCutAt_eq_false.2 hlate] at hcut
      cases hcut
  have hproposal := h.proposal w hmem
  have hlt : w.position < results.length := by
    rw [h.length]
    exact (List.getElem?_eq_some_iff.1 hproposal).1
  refine ⟨h.toDrives.finish ht, hgoes, fun v hv => h.waited v (List.mem_cons_of_mem _ hv),
    fun v hv => Nat.le_trans (h.time v (List.mem_cons_of_mem _ hv)) hnow, ?_⟩
  intro i p hi hnone
  by_cases he : w.position = i
  · subst he
    obtain rfl := Option.some.inj (hproposal.symm.trans hi)
    exact ⟨result, List.getElem?_set_self hlt, hanswered⟩
  · rw [List.getElem?_set_ne he]
    apply h.answered i p hi
    intro v hv
    rcases List.mem_cons.1 hv with rfl | hv
    · exact he
    · exact hnone v hv

/-- With turns enough every proposal is answered. -/
theorem run_waits {turns : Nat} {sched : Schedule}
    (h : Waits retry start proposals s sched.waiters results)
    (hleader : start.link start.leader = .opened) (hredirects : 1 ≤ retry.maxRedirects.toNat)
    (hturns : turnsLeft retry sched.waiters ≤ turns)
    (hr : run retry Sequencer.coordinator turns s sched results = .ok (results', s')) :
    Waits retry start proposals s' [] results' := by
  induction turns generalizing s sched results with
  | zero =>
    cases hr
    have hnil : sched.waiters = [] := by
      apply List.eq_nil_iff_forall_not_mem.2
      intro w hw
      have hle : retry.maxRetries.toNat + 1 - w.attempt.timeouts ≤ turnsLeft retry sched.waiters :=
        List.le_sum_of_mem (List.mem_map_of_mem hw)
      have hlate := (h.waited w hw).timeouts
      have hzero := Nat.le_trans hle hturns
      omega
    exact hnil ▸ h
  | succ turns ih =>
    unfold run at hr
    split at hr
    · next hnone =>
      cases hr
      exact waiters_of_next?_eq_none hnone ▸ h
    · next w sched' hn =>
      obtain ⟨⟨progress, mid⟩, hp, hr⟩ := bind_eq_ok hr
      have hperm := next?_waiters hn
      have h' := h.perm hperm
      have hlate := (h'.waited w List.mem_cons_self).timeouts
      have hleft : turnsLeft retry (w :: sched'.waiters) ≤ turns + 1 := by
        unfold turnsLeft at hturns ⊢
        rwa [(hperm.map _).sum_eq]
      unfold turnsLeft at hleft
      rw [List.map_cons, List.sum_cons] at hleft
      cases progress with
      | finished result =>
        apply ih (h'.finish hleader hredirects hp) ?_ hr
        unfold turnsLeft
        omega
      | waiting wake a =>
        obtain ⟨hw, htimeouts⟩ := h'.wait hleader hredirects hp
        have hw : Waits retry start proposals mid ({ sched' with
            queue := { w with wake, attempt := a } :: sched'.queue } : Schedule).waiters results := hw
        apply ih hw ?_ hr
        change turnsLeft retry ({ w with wake, attempt := a } :: sched'.waiters) ≤ turns
        unfold turnsLeft
        rw [List.map_cons, List.sum_cons]
        dsimp only
        omega

theorem waits_new (hs : start.Sound) (h0 : start.injectedTimeouts = 0) (proposals : List Proposal) :
    Waits retry start proposals start (Schedule.new proposals).waiters
      (proposals.map fun p => .error (Attempt.new p).unavailable) := by
  have hnew : ∀ w ∈ (Schedule.new proposals).waiters, ∃ p, w.attempt = .new p := by
    intro w hw
    rw [waiters_new] at hw
    obtain ⟨i, hi, rfl⟩ := List.mem_mapIdx.1 hw
    exact ⟨_, rfl⟩
  refine ⟨drives_new hs proposals, ⟨rfl, rfl, rfl, h0⟩, ?_, ?_, ?_⟩
  · intro w hw
    obtain ⟨p, hp⟩ := hnew w hw
    exact hp ▸ Attempt.waited_new retry p
  · intro w hw
    obtain ⟨p, hp⟩ := hnew w hw
    rw [hp]
    exact Nat.le_of_eq (by simp [Attempt.new])
  · intro i p hi hnone
    obtain ⟨hlt, rfl⟩ := List.getElem?_eq_some_iff.1 hi
    refine absurd rfl (hnone ⟨i, 0, .new proposals[i]⟩ ?_)
    rw [waiters_new]
    exact List.mem_mapIdx.2 ⟨i, hlt, rfl⟩

theorem turnsLeft_new (retry : RetryConfig) (proposals : List Proposal) :
    turnsLeft retry (Schedule.new proposals).waiters =
      proposals.length * (retry.maxRetries.toNat + 1) := by
  have hconst : ((Schedule.new proposals).waiters.map fun w =>
      retry.maxRetries.toNat + 1 - w.attempt.timeouts) =
      List.replicate proposals.length (retry.maxRetries.toNat + 1) := by
    rw [waiters_new]
    refine List.eq_replicate_iff.2 ⟨by rw [List.length_map, List.length_mapIdx], ?_⟩
    intro left hleft
    obtain ⟨w, hw, rfl⟩ := List.mem_map.1 hleft
    obtain ⟨i, hi, rfl⟩ := List.mem_mapIdx.1 hw
    rfl
  exact (congrArg List.sum hconst).trans List.sum_replicate_nat

end Batch

section Alone
variable {retry : RetryConfig} {start s s' : Sequencer} {sched : Schedule} {w : Waiter} {turns : Nat}
  {tick : UInt64} {results results' : List (Except NodeError Decision)}

theorem isCut_iff_of_cutUntil {node : NodeId} {timeouts : Nat} (hs : start.Goes s)
    (hlink : start.link node = .cutUntil tick) (hticks : 0 < start.timeoutTicks.toNat)
    (hnow : s.now.toNat = start.now.toNat + timeouts * start.timeoutTicks.toNat) :
    s.isCut node = true ↔
      timeouts < (tick.toNat - start.now.toNat) ⌈/⌉ start.timeoutTicks.toNat := by
  have hreached : (tick.toNat - start.now.toNat) ⌈/⌉ start.timeoutTicks.toNat ≤ timeouts ↔
      tick.toNat ≤ s.now.toNat := by
    rw [ceilDiv_le_iff_le_mul hticks, Nat.sub_le_iff_le_add', Nat.mul_comm, hnow]
  rw [hs.isCut_eq, hlink]
  change decide (s.now < tick) = true ↔ _
  rw [decide_eq_true_iff, UInt64.lt_iff_toNat_lt, ← Nat.not_le, ← hreached, Nat.not_le]

/-- A proposal that is driven alone times out until its link opens, and goes through the leader at the
second attempt then; or it fails before. -/
theorem Lone.run_until (h : sched.Lone w) (hw : w.attempt.Waited retry) (hs : start.Goes s)
    (hnow : s.now.toNat = start.now.toNat + w.attempt.timeouts * start.timeoutTicks.toNat)
    (hlink : start.link w.attempt.proposal.origin = .cutUntil tick)
    (hleader : start.link start.leader = .opened) (hticks : 0 < start.timeoutTicks.toNat)
    (hredirects : 1 ≤ retry.maxRedirects.toNat)
    (hneeded : w.attempt.timeouts ≤ (tick.toNat - start.now.toNat) ⌈/⌉ start.timeoutTicks.toNat)
    (hturns : retry.maxRetries.toNat < turns + w.attempt.timeouts)
    (hr : run retry Sequencer.coordinator turns s sched results = .ok (results', s')) :
    let needed := (tick.toNat - start.now.toNat) ⌈/⌉ start.timeoutTicks.toNat
    (needed ≤ retry.maxRetries.toNat → (∃ d, results' = results.set w.position (.ok d)) ∧
        s'.attempts + w.attempt.timeouts = s.attempts + needed + 2) ∧
      (retry.maxRetries.toNat < needed → results' = results.set w.position
        (.error (.unavailable w.attempt.proposal.id (retry.maxRetries + 1) 0))) := by
  intro needed
  have horigin : w.attempt.proposal.origin ≠ start.leader := by
    intro he
    rw [he, hleader] at hlink
    cases hlink
  induction turns generalizing s sched w with
  | zero => exact absurd hturns (Nat.not_lt.2 (Nat.zero_add _ ▸ hw.timeouts))
  | succ turns ih =>
    have hcut := isCut_iff_of_cutUntil hs hlink hticks hnow
    have hopened := hs.isCut_leader hleader
    have hretries := hw.timeouts
    obtain ⟨result, hturn, rfl⟩ | ⟨wake, b, mid, sched', hturn, hlone, hr⟩ := h.run_cases hr
    · cases hc : s.isCut w.attempt.proposal.origin with
      | false =>
        obtain ⟨_, _, ⟨d, hd⟩, hattempts⟩ :=
          Progress.run_of_open hturn hw hs hc hopened hredirects
        cases hd
        rw [if_neg horigin] at hattempts
        have hreached : w.attempt.timeouts = needed := by
          apply Nat.le_antisymm hneeded
          rw [← Nat.not_lt, ← hcut, hc]
          decide
        refine ⟨fun _ => ⟨⟨d, rfl⟩, ?_⟩, fun hlt => ?_⟩ <;> omega
      | true =>
        obtain ⟨_, _, _, hspent, rfl⟩ := Progress.run_of_cut hturn hw hs hc
        exact ⟨fun hle => absurd (hspent ▸ hcut.1 hc) (Nat.not_lt.2 hle), fun _ => rfl⟩
    · cases hc : s.isCut w.attempt.proposal.origin with
      | false =>
        obtain ⟨_, _, ⟨d, hd⟩, _⟩ := Progress.run_of_open hturn hw hs hc hopened hredirects
        cases hd
      | true =>
        obtain ⟨hgoes, htime, hattempts, hb, hproposal, htimeouts⟩ :=
          Progress.run_of_cut hturn hw hs hc
        have hnow' : mid.now.toNat = start.now.toNat + b.timeouts * start.timeoutTicks.toNat := by
          rw [htime, hnow, htimeouts, Nat.succ_mul, Nat.add_assoc]
        obtain ⟨hdecided, hfailed⟩ := ih hlone hb hgoes hnow' (hproposal ▸ hlink)
          (htimeouts ▸ hcut.1 hc) (by dsimp only; omega) hr (hproposal ▸ horigin)
        refine ⟨?_, hproposal ▸ hfailed⟩
        intro hle
        obtain ⟨hd, hcount⟩ := hdecided hle
        refine ⟨hd, ?_⟩
        dsimp only at hcount
        omega

end Alone
end Schedule

theorem driveAll_answers {retry : RetryConfig} {start s' : Sequencer} {proposals : List Proposal}
    {results : List (Except NodeError Decision)} (hs : start.Sound) (h0 : start.injectedTimeouts = 0)
    (hleader : start.link start.leader = .opened) (hredirects : 1 ≤ retry.maxRedirects.toNat)
    (h : driveAll retry Sequencer.coordinator start proposals = .ok (results, s')) :
    ∀ (i : Nat) (p : Proposal), proposals[i]? = some p →
      ∃ result, results[i]? = some result ∧ Schedule.Answered retry start p result := by
  intro i p hi
  have hturns := Nat.le_of_eq (Schedule.turnsLeft_new retry proposals)
  have hend := Schedule.run_waits (Schedule.waits_new hs h0 proposals) hleader hredirects hturns h
  exact hend.answered i p hi nofun

theorem driveAll_until {retry : RetryConfig} {start s' : Sequencer} {p : Proposal} {tick : UInt64}
    {results : List (Except NodeError Decision)} (h0 : start.injectedTimeouts = 0)
    (hlink : start.link p.origin = .cutUntil tick) (hleader : start.link start.leader = .opened)
    (hticks : 0 < start.timeoutTicks.toNat) (hredirects : 1 ≤ retry.maxRedirects.toNat)
    (h : driveAll retry Sequencer.coordinator start [p] = .ok (results, s')) :
    let needed := (tick.toNat - start.now.toNat) ⌈/⌉ start.timeoutTicks.toNat
    (needed ≤ retry.maxRetries.toNat →
        (∃ d, results = [.ok d]) ∧ s'.attempts = start.attempts + needed + 2) ∧
      (retry.maxRetries.toNat < needed →
        results = [.error (.unavailable p.id (retry.maxRetries + 1) 0)]) := by
  have hnow : start.now.toNat = start.now.toNat + 0 * start.timeoutTicks.toNat := by
    rw [Nat.zero_mul, Nat.add_zero]
  have hturns : retry.maxRetries.toNat < [p].length * (retry.maxRetries.toNat + 1) + 0 := by
    rw [List.length_singleton]
    omega
  exact (Schedule.lone_new p).run_until (Attempt.waited_new retry p) ⟨rfl, rfl, rfl, h0⟩ hnow hlink
    hleader hticks hredirects (Nat.zero_le _) hturns h

end Confluence
