import Confluence.Proofs.Consensus.Course

namespace Confluence

open Attempt

variable {σ : Type} {retry : RetryConfig} {coordinator : Coordinator σ} {now : Nat} {s s' mid : σ}
  {a b : Attempt} {progress : Progress} {p : Proposal}

/-- What one turn of an attempt is of its course: all of it, or what comes before a pause. -/
def Progress.Begins (retry : RetryConfig) (coordinator : Coordinator σ) (now : Nat) (s : σ)
    (a : Attempt) (mid : σ) : Progress → Prop
  | .finished result => ∃ calls, Course retry coordinator now s a calls [] result mid
  | .waiting wake b => now ≤ wake ∧ b.attempts ≠ 0 ∧ b.timeouts = a.timeouts + 1 ∧
      a.timeouts < retry.maxRetries.toNat ∧
      ∀ calls pauses result s', Course retry coordinator wake mid b calls pauses result s' →
        ∃ calls pauses, Course retry coordinator now s a calls pauses result s'

theorem Progress.run_begins (h : Progress.run retry coordinator now s a = .ok (progress, mid)) :
    progress.Begins retry coordinator now s a mid := by
  fun_induction Progress.run retry coordinator now s a with
  | case1 s a spent => cases h
  | case2 s a _ f answer => cases h
  | case3 s a _ outcome mid answer result done =>
    cases h
    exact ⟨_, .stop answer done⟩
  | case4 s a _ outcome mid answer length b tolerated =>
    cases h
    obtain ⟨hn, ht, _, rfl⟩ := not_stops_of_pause tolerated
    refine ⟨Nat.le_add_right .., Nat.succ_ne_zero _, ?_, (isNone_hint?_of_not_stops hn ht).2, ?_⟩
    · rw [advance, ht]
      rfl
    · intro calls pauses result s' rest
      exact ⟨_, _, .pause answer tolerated rest⟩
  | case5 s a _ outcome next answer b followed _ ih =>
    obtain ⟨_, ht, rfl⟩ := not_stops_of_redirect followed
    have hrun := ih h
    cases progress with
    | finished result =>
      obtain ⟨calls, rest⟩ := hrun
      exact ⟨_, .redirect answer followed rest⟩
    | waiting wake b =>
      obtain ⟨hwake, hattempts, htimeouts, hlt, hrest⟩ := hrun
      rw [advance, ht] at htimeouts hlt
      refine ⟨hwake, hattempts, htimeouts, hlt, ?_⟩
      intro calls pauses result s' rest
      obtain ⟨calls, pauses, rest⟩ := hrest calls pauses result s' rest
      exact ⟨_, _, .redirect answer followed rest⟩

theorem Progress.run_stopsOnly {q : Fault → Prop} (hq : q .overflow)
    (hc : ∀ s now via p, StopsOnly q (coordinator s now via p)) (now : Nat) (s : σ) (a : Attempt) :
    StopsOnly q (Progress.run retry coordinator now s a) := by
  fun_induction Progress.run retry coordinator now s a with
  | case1 s a spent => exact .error hq
  | case2 s a _ f answer => exact .error ((hc s now a.via a.proposal).reason f answer)
  | case3 => exact .ok _
  | case4 => exact .ok _
  | case5 s a _ outcome next answer b followed _ ih => exact ih

/-- No more calls were made than the budget allows for. -/
structure Attempt.Within (retry : RetryConfig) (a : Attempt) : Prop where
  attempts : a.attempts ≤ a.timeouts + a.redirects
  timeouts : a.timeouts ≤ retry.maxRetries.toNat
  redirects : a.redirects ≤ retry.maxRedirects.toNat

theorem Attempt.within_new (retry : RetryConfig) (p : Proposal) : (new p).Within retry :=
  ⟨Nat.le_refl 0, Nat.zero_le _, Nat.zero_le _⟩

theorem Attempt.Within.advance {outcome : ProposalOutcome} (h : a.Within retry)
    (hn : ¬ Stops retry a.timeouts a.redirects outcome) : (a.advance outcome).Within retry := by
  obtain ⟨hattempts, htimeouts, hredirects⟩ := h
  by_cases ht : outcome.isTimeout = true
  · obtain ⟨hhint, hlt⟩ := isNone_hint?_of_not_stops hn ht
    constructor <;> simp only [Attempt.advance, ht, hhint, Bool.false_eq_true, if_true, if_false] <;> omega
  · obtain ⟨hhint, hlt⟩ := isSome_hint?_of_not_stops hn (Bool.eq_false_iff.2 ht)
    constructor <;> simp only [Attempt.advance, ht, hhint, Bool.false_eq_true, if_true, if_false] <;> omega

/-- A turn within the budget comes to an end if its calls are answered. -/
theorem Attempt.Within.exists_run
    (hretry : retry.maxRetries.toNat + retry.maxRedirects.toNat + 1 < UInt32.size)
    (hc : ∀ s now via p, ∃ r, coordinator s now via p = .ok r) (now : Nat) (s : σ)
    (h : a.Within retry) : ∃ progress mid, Progress.run retry coordinator now s a = .ok (progress, mid) ∧
      ∀ wake b, progress = .waiting wake b → b.Within retry := by
  fun_induction Progress.run retry coordinator now s a with
  | case1 s a spent =>
    obtain ⟨hattempts, htimeouts, hredirects⟩ := h
    omega
  | case2 s a _ f answer =>
    obtain ⟨r, hr⟩ := hc s now a.via a.proposal
    cases answer.symm.trans hr
  | case3 s a _ outcome mid answer result done => exact ⟨_, mid, rfl, nofun⟩
  | case4 s a _ outcome mid answer length b tolerated =>
    obtain ⟨hn, _, _, rfl⟩ := not_stops_of_pause tolerated
    refine ⟨_, mid, rfl, ?_⟩
    intro wake b hb
    cases hb
    exact h.advance hn
  | case5 s a _ outcome next answer b followed _ ih =>
    obtain ⟨hn, _, rfl⟩ := not_stops_of_redirect followed
    exact ih (h.advance hn)

/-- What every answer keeps is kept by a turn. -/
theorem Progress.run_keeps {P : σ → Prop} (hc : ∀ s now via p outcome s', P s →
      coordinator s now via p = .ok (outcome, s') → P s')
    (hs : P s) (h : Progress.run retry coordinator now s a = .ok (progress, mid)) : P mid := by
  fun_induction Progress.run retry coordinator now s a with
  | case1 s a spent => cases h
  | case2 s a _ f answer => cases h
  | case3 s a _ outcome mid answer result done =>
    cases h
    exact hc s now a.via a.proposal outcome _ hs answer
  | case4 s a _ outcome mid answer length b tolerated =>
    cases h
    exact hc s now a.via a.proposal outcome _ hs answer
  | case5 s a _ outcome next answer b followed _ ih =>
    exact ih (hc s now a.via a.proposal outcome next hs answer) h

namespace Schedule

theorem run_stopsOnly {q : Fault → Prop} (hq : q .overflow)
    (hc : ∀ s now via p, StopsOnly q (coordinator s now via p)) (turns : Nat) (s : σ)
    (sched : Schedule) (results : List (Except NodeError Decision)) :
    StopsOnly q (run retry coordinator turns s sched results) := by
  induction turns generalizing s sched results with
  | zero => exact .ok _
  | succ turns ih =>
    unfold run
    split
    · exact .ok _
    · next w sched' _ =>
      apply (Progress.run_stopsOnly hq hc sched'.now s w.attempt).bind
      rintro ⟨progress, mid⟩ _
      cases progress with
      | finished result => exact ih mid sched' _
      | waiting wake b => exact ih mid _ results

theorem run_keeps {P : σ → Prop} (hc : ∀ s now via p outcome s', P s →
      coordinator s now via p = .ok (outcome, s') → P s')
    {turns : Nat} {sched : Schedule} {results results' : List (Except NodeError Decision)} (hs : P s)
    (h : run retry coordinator turns s sched results = .ok (results', s')) : P s' := by
  induction turns generalizing s sched results with
  | zero =>
    cases h
    exact hs
  | succ turns ih =>
    unfold run at h
    split at h
    · cases h
      exact hs
    · next w sched' _ =>
      obtain ⟨⟨progress, mid⟩, hturn, h⟩ := bind_eq_ok h
      have hmid := Progress.run_keeps hc hs hturn
      cases progress with
      | finished result => exact ih hmid h
      | waiting wake b => exact ih hmid h

/-- One proposal is all that there is to do. -/
structure Lone (s : Schedule) (w : Waiter) : Prop where
  queue : s.queue = [w]
  postponed : s.postponed = []
  asleep : s.asleep = []
  wake : s.now ≤ w.wake
  first : w.attempt.attempts = 0 → w.wake = s.now

theorem Lone.next? {sched : Schedule} {w : Waiter} (h : sched.Lone w) :
    ∃ sched', sched.next? = some (w, sched') ∧ sched'.now = w.wake ∧ sched'.queue = [] ∧
      sched'.postponed = [] ∧ sched'.asleep = [] := by
  obtain ⟨now, credit, isOrdered, queue, postponed, asleep⟩ := sched
  obtain ⟨hq, hp, ha, hwake, hfirst⟩ := h
  dsimp only at hq hp ha hwake hfirst
  subst hq hp ha
  have hawake : firstWake? [w] = some w.wake := rfl
  by_cases h0 : w.attempt.attempts = 0
  · simp [Schedule.next?, pick, h0, hfirst h0]
  · by_cases hover : w.wake ≤ now
    · obtain rfl := Nat.le_antisymm hwake hover
      by_cases hc : credit = 0 <;> simp [Schedule.next?, pick, nextRound, h0, hc, roundCredit]
    · by_cases hc : credit = 0 <;>
        simp [Schedule.next?, pick, nextRound, awaken, h0, hc, hover, roundCredit, hawake]

theorem run_of_empty {sched : Schedule} (hq : sched.queue = []) (hp : sched.postponed = [])
    (ha : sched.asleep = []) (turns : Nat) (s : σ) (results : List (Except NodeError Decision)) :
    run retry coordinator turns s sched results = .ok (results, s) := by
  cases turns with
  | zero => rfl
  | succ turns =>
    have hnone : sched.next? = none := by
      simp [Schedule.next?, pick, nextRound, awaken, hq, hp, ha, firstWake?]
    unfold run
    rw [hnone]

theorem Lone.wait {sched : Schedule} {w : Waiter} {wake : Nat}
    (hturn : Progress.run retry coordinator sched.now s w.attempt = .ok (.waiting wake b, mid))
    (hq : sched.queue = []) (hp : sched.postponed = []) (ha : sched.asleep = []) :
    Lone { sched with queue := { w with wake, attempt := b } :: sched.queue }
      { w with wake, attempt := b } := by
  obtain ⟨hwake, hattempts, _⟩ := Progress.run_begins hturn
  exact ⟨by rw [hq], hp, ha, hwake, fun hb => absurd hb hattempts⟩

/-- A turn of a lone proposal either ends the run or leaves the proposal to wait, alone again. -/
theorem Lone.run_cases {sched : Schedule} {w : Waiter} {turns : Nat}
    {results results' : List (Except NodeError Decision)} (h : sched.Lone w)
    (hr : run retry coordinator (turns + 1) s sched results = .ok (results', s')) :
    (∃ result, Progress.run retry coordinator w.wake s w.attempt = .ok (.finished result, s') ∧
        results' = results.set w.position result) ∨
      ∃ wake b mid sched',
        Progress.run retry coordinator w.wake s w.attempt = .ok (.waiting wake b, mid) ∧
          Lone sched' { w with wake, attempt := b } ∧
          run retry coordinator turns mid sched' results = .ok (results', s') := by
  obtain ⟨sched', hnext, hnow, hq, hp, ha⟩ := h.next?
  unfold run at hr
  rw [hnext] at hr
  obtain ⟨⟨progress, mid⟩, hturn, hr⟩ := bind_eq_ok hr
  cases progress with
  | finished result =>
    have hr : run retry coordinator turns mid sched' (results.set w.position result) =
      .ok (results', s') := hr
    rw [run_of_empty hq hp ha] at hr
    cases hr
    exact .inl ⟨result, hnow ▸ hturn, rfl⟩
  | waiting wake b =>
    exact .inr ⟨wake, b, mid, _, hnow ▸ hturn, Lone.wait hturn hq hp ha, hr⟩

theorem Lone.exists_run
    (hretry : retry.maxRetries.toNat + retry.maxRedirects.toNat + 1 < UInt32.size)
    (hc : ∀ s now via p, ∃ r, coordinator s now via p = .ok r) {sched : Schedule} {w : Waiter}
    (h : sched.Lone w) (hw : w.attempt.Within retry) (turns : Nat) (s : σ)
    (results : List (Except NodeError Decision)) :
    ∃ r, run retry coordinator turns s sched results = .ok r := by
  induction turns generalizing s sched w with
  | zero => exact ⟨_, rfl⟩
  | succ turns ih =>
    obtain ⟨sched', hnext, _, hq, hp, ha⟩ := h.next?
    obtain ⟨progress, mid, hturn, hwithin⟩ := hw.exists_run hretry hc sched'.now s
    unfold run
    rw [hnext]
    dsimp only
    rw [hturn, ok_bind]
    cases progress with
    | finished result => exact ⟨_, run_of_empty hq hp ha _ _ _⟩
    | waiting wake b => exact ih (Lone.wait hturn hq hp ha) (hwithin wake b rfl) mid

theorem Lone.run_course {sched : Schedule} {w : Waiter} {turns : Nat}
    {results results' : List (Except NodeError Decision)} (h : sched.Lone w)
    (hturns : retry.maxRetries.toNat < turns + w.attempt.timeouts) (h0 : 0 < turns)
    (hr : run retry coordinator turns s sched results = .ok (results', s')) :
    ∃ calls pauses result, Course retry coordinator w.wake s w.attempt calls pauses result s' ∧
      results' = results.set w.position result := by
  induction turns generalizing s sched w with
  | zero => cases h0
  | succ turns ih =>
    obtain ⟨result, hturn, rfl⟩ | ⟨wake, b, mid, sched', hturn, hlone, hr⟩ := h.run_cases hr
    · obtain ⟨calls, hcourse⟩ := Progress.run_begins hturn
      exact ⟨calls, [], result, hcourse, rfl⟩
    · obtain ⟨_, _, htimeouts, hlt, hrest⟩ := Progress.run_begins hturn
      obtain ⟨calls, pauses, result, hcourse, hresults⟩ :=
        ih hlone (by dsimp only; omega) (by omega) hr
      obtain ⟨calls, pauses, hcourse⟩ := hrest calls pauses result s' hcourse
      exact ⟨calls, pauses, result, hcourse, hresults⟩

theorem lone_new (p : Proposal) : (Schedule.new [p]).Lone ⟨0, 0, .new p⟩ :=
  ⟨rfl, rfl, rfl, Nat.le_refl 0, fun _ => rfl⟩

end Schedule

theorem course_of_driveAll {results : List (Except NodeError Decision)}
    (h : driveAll retry coordinator s [p] = .ok (results, s')) :
    ∃ calls pauses result, Course retry coordinator 0 s (.new p) calls pauses result s' ∧
      results = [result] := by
  have hturns : retry.maxRetries.toNat < [p].length * (retry.maxRetries.toNat + 1) + 0 := by
    rw [List.length_singleton]
    omega
  exact (Schedule.lone_new p).run_course hturns (by omega) h

/-- A proposal was driven within its budget, and the budget was used up before it was given up. -/
structure Attempt.Obeys (retry : RetryConfig) (p : Proposal) (calls : List Asked)
    (pauses : List Duration) (result : Except NodeError Decision) : Prop where
  length_le : calls.length ≤ retry.maxRetries.toNat + retry.maxRedirects.toNat + 1
  ne_nil : calls ≠ []
  /-- The last call is the first whose outcome is not tolerated. -/
  stops : ∀ before call after, calls = before ++ call :: after →
    (after = [] ↔ Stops retry (Asked.timeouts before) (Asked.hints before).length call.outcome)
  result : ∀ before call, calls = before ++ [call] →
    result = verdict p calls.length (Asked.hints before).length call.outcome
  /-- A call goes to where the last hint pointed, and the first calls to the origin. -/
  via : ∀ before call after, calls = before ++ call :: after →
    call.via = (Asked.hints before).getLast?.getD p.origin
  /-- There is one pause for each timeout that was tolerated. -/
  taken : pauses = (List.range (Asked.timeouts calls.dropLast)).map
    fun k => retry.backoff k.toUInt32
  /-- Calls are put off by the pauses alone. -/
  time : ∀ before call after, calls = before ++ call :: after →
    call.time = ((pauses.take (Asked.timeouts before)).map Duration.timerMillis).sum

theorem Attempt.Course.obeys {calls : List Asked} {pauses : List Duration}
    {result : Except NodeError Decision}
    (h : Course retry coordinator 0 s (.new p) calls pauses result s') :
    Obeys retry p calls pauses result where
  length_le := h.length_le
  ne_nil := h.ne_nil
  stops before call after hcalls := by
    obtain ⟨⟨mid, hrest⟩, _⟩ := h.moment hcalls
    have hstops := hrest.head.2.2.1
    rw [advanceAll_eq] at hstops
    simpa [Attempt.new] using hstops
  result before call hcalls := by
    obtain ⟨⟨mid, hrest⟩, _⟩ := h.moment hcalls
    have hresult := hrest.head.2.2.2 rfl
    rw [advanceAll_eq] at hresult
    simpa [Attempt.new, hcalls] using hresult
  via before call after hcalls := by
    obtain ⟨⟨mid, hrest⟩, _⟩ := h.moment hcalls
    have hvia := hrest.head.1
    rw [advanceAll_eq] at hvia
    exact hvia
  taken := by
    rw [List.range_eq_range']
    exact h.pauses_eq
  time before call after hcalls := (h.moment hcalls).2.trans (Nat.zero_add _)

/-- Driving is bounded and keeps to its budget. Whatever the coordinator answers, it is called at most
once for every timeout and every hint that may be tolerated and once more. The proposal stops at the
first decision, with it, or at the first timeout or hint beyond its budget, as unavailable, with the
number of its calls and of the hints followed; it goes where the last hint pointed, and pauses after
each timeout that is tolerated, for the next of the configured times. -/
theorem driveAll_obeys (hc : ∀ s now via p, ∃ r, coordinator s now via p = .ok r)
    (hretry : retry.maxRetries.toNat + retry.maxRedirects.toNat + 1 < UInt32.size) (s : σ)
    (p : Proposal) : ∃ calls pauses result s',
      driveAll retry coordinator s [p] = .ok ([result], s') ∧
        Course retry coordinator 0 s (.new p) calls pauses result s' ∧
        Obeys retry p calls pauses result ∧ calls.length < UInt32.size := by
  obtain ⟨⟨results, s'⟩, h⟩ : ∃ r, driveAll retry coordinator s [p] = .ok r :=
    (Schedule.lone_new p).exists_run hretry hc (within_new retry p) _ s _
  obtain ⟨calls, pauses, result, hcourse, rfl⟩ := course_of_driveAll h
  have hobeys := hcourse.obeys
  exact ⟨calls, pauses, result, s', h, hcourse, hobeys, Nat.lt_of_le_of_lt hobeys.length_le hretry⟩

/-- Two timeouts are tolerated, the second one from a node that knows no leader, and one hint; the hint
that comes then is one too many, and what would have been a decision is never asked for. -/
theorem driveAll_obeys_spent :
    let p : Proposal := ⟨Uuid.ofNat 1, "a", [.overwrite "title" "draft"], .ofList [("a", 1)]⟩
    let script : List ProposalOutcome := [.timeout, .notLeader (some "b"), .notLeader none,
      .notLeader (some "c"), .decided ⟨0, p⟩]
    let coordinator : Coordinator Nat := fun k _ _ _ => .ok (script[k]?.getD .timeout, k + 1)
    let retry : RetryConfig := { RetryConfig.default with maxRetries := 2, maxRedirects := 1 }
    ∃ calls pauses s', driveAll retry coordinator 0 [p] = .ok ([.error (.unavailable p.id 4 1)], s') ∧
      Course retry coordinator 0 0 (.new p) calls pauses (.error (.unavailable p.id 4 1)) s' ∧
      Obeys retry p calls pauses (.error (.unavailable p.id 4 1)) ∧ calls.length < UInt32.size := by
  intro p script coordinator retry
  obtain ⟨calls, pauses, result, s', h, hcourse, hobeys, hlength⟩ :=
    @driveAll_obeys _ retry coordinator (fun _ _ _ _ => ⟨_, rfl⟩) (by decide) 0 p
  obtain ⟨⟨results, _⟩, hr, hend⟩ := @exists_of_endsWith _ _ (driveAll retry coordinator 0 [p])
    (fun r => r.1 = [.error (.unavailable p.id 4 1)]) (by decide +kernel)
  cases h.symm.trans hr
  obtain rfl := List.singleton_inj.1 (of_decide_eq_true hend)
  exact ⟨calls, pauses, s', h, hcourse, hobeys, hlength⟩

end Confluence
