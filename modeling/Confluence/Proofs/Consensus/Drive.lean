import Mathlib.Data.List.Induction
import Confluence.Proofs.Consensus.Sequencer

namespace Confluence

namespace Attempt

def Next.rest? : Next → Option Attempt
  | .done _ => none
  | .redirect a => some a
  | .pause _ a => some a

theorem rest?_handle {retry : RetryConfig} {a b : Attempt} {outcome : ProposalOutcome}
    (h : (a.handle retry outcome).rest? = some b) :
    b.proposal = a.proposal ∧ ∀ d, outcome ≠ .decided d := by
  unfold handle at h
  dsimp only at h
  split at h
  · cases h
  · split at h <;> cases h
    exact ⟨rfl, by simp⟩
  · split at h <;> cases h
    exact ⟨rfl, by simp⟩
  · split at h <;> cases h
    exact ⟨rfl, by simp⟩

theorem handle_done_ok {retry : RetryConfig} {a : Attempt} {outcome : ProposalOutcome}
    {d : Decision} : a.handle retry outcome = .done (.ok d) ↔ outcome = .decided d := by
  unfold handle
  cases outcome with
  | decided e => simp
  | timeout => dsimp only; split <;> simp
  | notLeader leader => cases leader <;> dsimp only <;> split <;> simp

end Attempt

/-- The log has got the entries `new` by a turn of the proposal `p`. -/
structure Progress.Turn (s s' : Sequencer) (p : Proposal) (progress : Progress)
    (new : List Decision) : Prop where
  leader : s'.leader = s.leader
  log : s'.log = s.log ++ new
  sound : s'.Sound
  decided : ∀ d, progress = .finished (.ok d) → d ∈ s'.log ∧ d.proposal.id = p.id
  new : ∀ d ∈ new, progress = .finished (.ok d) ∧ d.proposal = p
  waits : ∀ wake a, progress = .waiting wake a → a.proposal = p

theorem Progress.run_turn {retry : RetryConfig} {now : Nat} {s s' : Sequencer} {a : Attempt}
    {progress : Progress} (hs : s.Sound)
    (h : Progress.run retry Sequencer.coordinator now s a = .ok (progress, s')) :
    ∃ new, Turn s s' a.proposal progress new := by
  fun_induction Progress.run retry Sequencer.coordinator now s a with
  | case1 s a spent => cases h
  | case2 s a _ f hp => cases h
  | case3 s a _ outcome s₁ hp result hd =>
    cases h
    obtain ⟨new, ha⟩ := Sequencer.propose_answers hs hp
    refine ⟨new, ha.leader, ha.log, ha.sound, ?_, ?_, ?_⟩
    · intro d he
      cases he
      exact ha.decided d (Attempt.handle_done_ok.1 hd)
    · intro d hdn
      obtain ⟨ho, hpd⟩ := ha.new d hdn
      have hr : a.handle retry outcome = .done (.ok d) := Attempt.handle_done_ok.2 ho
      rw [hd] at hr
      cases hr
      exact ⟨rfl, hpd⟩
    · intro wake b he
      cases he
  | case4 s a _ outcome s₁ hp length b hb =>
    cases h
    obtain ⟨new, ha⟩ := Sequencer.propose_answers hs hp
    obtain ⟨hbp, hnd⟩ := Attempt.rest?_handle (congrArg Attempt.Next.rest? hb)
    refine ⟨new, ha.leader, ha.log, ha.sound, ?_, ?_, ?_⟩
    · intro d he
      cases he
    · intro d hdn
      exact absurd (ha.new d hdn).1 (hnd d)
    · intro wake b' he
      cases he
      exact hbp
  | case5 s a _ outcome s₁ hp b hb _ ih =>
    obtain ⟨new, ha⟩ := Sequencer.propose_answers hs hp
    obtain ⟨hbp, hnd⟩ := Attempt.rest?_handle (congrArg Attempt.Next.rest? hb)
    -- An attempt that is redirected has decided nothing.
    have hnil : new = [] := List.eq_nil_iff_forall_not_mem.2 fun d hd => hnd d (ha.new d hd).1
    subst hnil
    obtain ⟨new, ht⟩ := ih ha.sound h
    have hlog : s₁.log = s.log := by rw [ha.log, List.append_nil]
    rw [hbp] at ht
    exact ⟨new, ht.leader.trans ha.leader, hlog ▸ ht.log, ht.sound, ht.decided, ht.new, ht.waits⟩

namespace Schedule

def waiters (s : Schedule) : List Waiter := s.queue ++ s.postponed ++ s.asleep

theorem pick_waiters (s : Schedule) (l : List Waiter) :
    ((s.pick l).1.toList ++ (s.pick l).2.waiters).Perm (l ++ s.postponed ++ s.asleep) ∧
      ((s.pick l).1 = none → (s.pick l).2.queue = []) := by
  induction l generalizing s with
  | nil => exact ⟨.refl _, fun _ => rfl⟩
  | cons w l ih =>
    unfold pick
    split
    · exact ⟨.refl _, fun h => by cases h⟩
    · split
      · obtain ⟨hp, hn⟩ := ih { s with postponed := w :: s.postponed }
        refine ⟨hp.trans ?_, hn⟩
        exact List.perm_middle.append_right _
      · split
        · exact ⟨.refl _, fun h => by cases h⟩
        · obtain ⟨hp, hn⟩ := ih { s with asleep := w :: s.asleep }
          refine ⟨hp.trans ?_, hn⟩
          exact List.perm_middle

theorem nextRound_waiters {s : Schedule} (h : s.queue = []) :
    s.nextRound.waiters.Perm s.waiters := by
  unfold nextRound waiters
  rw [h, List.append_nil, List.nil_append]
  apply List.Perm.append_right _
  split
  · exact List.reverse_perm _
  · exact .refl _

theorem awaken_waiters {s : Schedule} (h : s.queue = []) : s.awaken.waiters.Perm s.waiters := by
  unfold awaken
  split
  · exact .refl _
  · next now _ =>
    unfold waiters
    rw [h, List.nil_append]
    have hf : ((s.asleep.filter (·.wake = now)).reverse ++ s.asleep.filter (·.wake ≠ now)).Perm
        s.asleep := by
      apply ((List.reverse_perm _).append_right _).trans
      simpa using List.filter_append_perm (fun w : Waiter => decide (w.wake = now)) s.asleep
    refine List.Perm.trans ?_ (hf.append_left _)
    rw [← List.append_assoc]
    exact List.perm_append_comm.append_right _

/-- The proposal to go on with is one of those that are not finished. -/
theorem next?_waiters {s s' : Schedule} {w : Waiter} (h : s.next? = some (w, s')) :
    (w :: s'.waiters).Perm s.waiters := by
  have hpick (t : Schedule) := pick_waiters t t.queue
  unfold next? at h
  split at h
  · next t w' t' hp =>
    cases h
    have := (hpick s).1
    rw [hp] at this
    exact this
  · next t₁ hp =>
    obtain ⟨hw₁, hq₁⟩ := hpick s
    rw [hp] at hw₁ hq₁
    have hr₁ := (nextRound_waiters (hq₁ rfl)).trans hw₁
    dsimp only at h
    split at h
    · next t w' t' hp' =>
      cases h
      have := (hpick t₁.nextRound).1
      rw [hp'] at this
      exact this.trans hr₁
    · next t₂ hp' =>
      obtain ⟨hw₂, hq₂⟩ := hpick t₁.nextRound
      rw [hp'] at hw₂ hq₂
      have hr₂ := (awaken_waiters (hq₂ rfl)).trans (hw₂.trans hr₁)
      split at h
      · next t w' t' hp'' =>
        cases h
        have := (hpick t₂.awaken).1
        rw [hp''] at this
        exact this.trans hr₂
      · cases h

/-- The state of a run: every unfinished proposal is with the waiter of its position and has no
result yet, and the log has grown from `old` by the decisions among the results. -/
structure Drives (old : List Decision) (proposals : List Proposal) (s : Sequencer)
    (waiters : List Waiter) (results : List (Except NodeError Decision)) : Prop where
  length : results.length = proposals.length
  proposal : ∀ w ∈ waiters, proposals[w.position]? = some w.attempt.proposal
  nodup : (waiters.map (·.position)).Nodup
  unfinished : ∀ w ∈ waiters, ∃ e, results[w.position]? = some (.error e)
  sound : s.Sound
  grows : old <+: s.log
  decided : ∀ (i : Nat) (p : Proposal) (d : Decision), proposals[i]? = some p →
    results[i]? = some (.ok d) → d ∈ s.log ∧ d.proposal.id = p.id
  new : ∀ d ∈ s.log, d ∉ old → ∃ i : Nat, proposals[i]? = some d.proposal ∧
    results[i]? = some (.ok d)

variable {old : List Decision} {proposals : List Proposal} {s s' : Sequencer} {w : Waiter}
  {ws ws' : List Waiter} {results : List (Except NodeError Decision)} {new : List Decision}

theorem Drives.perm (h : Drives old proposals s ws results) (hp : ws'.Perm ws) :
    Drives old proposals s ws' results where
  length := h.length
  proposal := fun w hw => h.proposal w (hp.mem_iff.1 hw)
  nodup := ((hp.map _).nodup_iff).2 h.nodup
  unfinished := fun w hw => h.unfinished w (hp.mem_iff.1 hw)
  sound := h.sound
  grows := h.grows
  decided := h.decided
  new := h.new

/-- A turn that ends with a pause leaves everything as it is. -/
theorem Drives.wait {wake : Nat} {a : Attempt} (h : Drives old proposals s (w :: ws) results)
    (ht : Progress.Turn s s' w.attempt.proposal (.waiting wake a) new) :
    Drives old proposals s' ({ w with wake, attempt := a } :: ws) results := by
  have hnil : new = [] := by
    refine List.eq_nil_iff_forall_not_mem.2 fun d hd => ?_
    cases (ht.new d hd).1
  have hlog : s'.log = s.log := by rw [ht.log, hnil, List.append_nil]
  refine ⟨h.length, ?_, h.nodup, ?_, ht.sound, hlog ▸ h.grows, hlog ▸ h.decided, hlog ▸ h.new⟩
  · intro x hx
    rcases List.mem_cons.1 hx with rfl | hx
    · rw [ht.waits wake a rfl]
      exact h.proposal w List.mem_cons_self
    · exact h.proposal x (List.mem_cons_of_mem _ hx)
  · intro x hx
    rcases List.mem_cons.1 hx with rfl | hx
    · exact h.unfinished w List.mem_cons_self
    · exact h.unfinished x (List.mem_cons_of_mem _ hx)

theorem Drives.finish {result : Except NodeError Decision}
    (h : Drives old proposals s (w :: ws) results)
    (ht : Progress.Turn s s' w.attempt.proposal (.finished result) new) :
    Drives old proposals s' ws (results.set w.position result) := by
  obtain ⟨hw, hws⟩ := List.nodup_cons.1 h.nodup
  have hp : proposals[w.position]? = some w.attempt.proposal := h.proposal w List.mem_cons_self
  have hlt : w.position < results.length := by
    rw [h.length]
    exact (List.getElem?_eq_some_iff.1 hp).1
  have hset (i : Nat) : (results.set w.position result)[i]? =
      if i = w.position then some result else results[i]? := by
    rw [List.getElem?_set]
    by_cases hi : i = w.position
    · subst hi
      simp [hlt]
    · simp [hi, Ne.symm hi]
  have hne {x : Waiter} (hx : x ∈ ws) : x.position ≠ w.position := by
    intro he
    exact hw (List.mem_map.2 ⟨x, hx, he⟩)
  refine ⟨by rw [List.length_set, h.length], fun x hx => h.proposal x (List.mem_cons_of_mem _ hx),
    hws, ?_, ht.sound, ?_, ?_, ?_⟩
  · intro x hx
    rw [hset, if_neg (hne hx)]
    exact h.unfinished x (List.mem_cons_of_mem _ hx)
  · rw [ht.log]
    exact h.grows.trans (List.prefix_append _ _)
  · intro i p d hi hr
    rw [hset] at hr
    split at hr
    · next he =>
      subst he
      rw [hp] at hi
      cases hi
      cases hr
      exact ht.decided d rfl
    · obtain ⟨hd, hid⟩ := h.decided i p d hi hr
      refine ⟨?_, hid⟩
      rw [ht.log]
      exact List.mem_append_left _ hd
  · intro d hd hold
    rw [ht.log] at hd
    rcases List.mem_append.1 hd with hd | hd
    · obtain ⟨i, hi, hr⟩ := h.new d hd hold
      refine ⟨i, hi, ?_⟩
      rw [hset, if_neg ?_]
      · exact hr
      · -- The position of the waiter has had no decision as a result before.
        rintro rfl
        obtain ⟨e, he⟩ := h.unfinished w List.mem_cons_self
        rw [hr] at he
        cases he
    · obtain ⟨hd, hdp⟩ := ht.new d hd
      cases hd
      refine ⟨w.position, by rw [hp, hdp], ?_⟩
      rw [hset, if_pos rfl]

theorem run_drives {retry : RetryConfig} {turns : Nat} {sched : Schedule}
    {results' : List (Except NodeError Decision)}
    (h : Drives old proposals s sched.waiters results)
    (hr : run retry Sequencer.coordinator turns s sched results = .ok (results', s')) :
    s'.leader = s.leader ∧ ∃ ws, Drives old proposals s' ws results' := by
  induction turns generalizing s sched results with
  | zero =>
    cases hr
    exact ⟨rfl, _, h⟩
  | succ turns ih =>
    unfold run at hr
    split at hr
    · cases hr
      exact ⟨rfl, _, h⟩
    · next w sched' hn =>
      obtain ⟨⟨progress, s₁⟩, hp, hr⟩ := bind_eq_ok hr
      have h' := h.perm (next?_waiters hn)
      obtain ⟨new, ht⟩ := Progress.run_turn h'.sound hp
      cases progress with
      | finished result =>
        obtain ⟨hl, ws, hd⟩ := ih (h'.finish ht) hr
        exact ⟨hl.trans ht.leader, ws, hd⟩
      | waiting wake a =>
        have hw : Drives old proposals s₁ ({ sched' with
            queue := { w with wake, attempt := a } :: sched'.queue } : Schedule).waiters results :=
          h'.wait ht
        obtain ⟨hl, ws, hd⟩ := ih hw hr
        exact ⟨hl.trans ht.leader, ws, hd⟩

theorem waiters_new (proposals : List Proposal) : (Schedule.new proposals).waiters =
    proposals.mapIdx fun i p => (⟨i, 0, .new p⟩ : Waiter) := by
  unfold waiters Schedule.new
  rw [List.append_nil, List.append_nil]

theorem drives_new (hs : s.Sound) (proposals : List Proposal) :
    Drives s.log proposals s (Schedule.new proposals).waiters
      (proposals.map fun p => .error (Attempt.new p).unavailable) := by
  have hw := waiters_new proposals
  have hmem : ∀ w ∈ (Schedule.new proposals).waiters,
      proposals[w.position]? = some w.attempt.proposal := by
    intro w hw'
    rw [hw] at hw'
    obtain ⟨i, hi, rfl⟩ := List.mem_mapIdx.1 hw'
    exact List.getElem?_eq_getElem hi
  refine ⟨List.length_map _, hmem, ?_, ?_, hs, List.prefix_rfl, ?_, fun d hd hn => absurd hd hn⟩
  · have he : (Schedule.new proposals).waiters.map (·.position) =
        List.range proposals.length := by
      apply List.ext_getElem (by simp [hw])
      intro i hi hi'
      simp [hw]
    exact he ▸ List.nodup_range
  · intro w hw'
    refine ⟨(Attempt.new w.attempt.proposal).unavailable, ?_⟩
    rw [List.getElem?_map, hmem w hw']
    rfl
  · intro i p d hi hr
    rw [List.getElem?_map, hi] at hr
    cases hr

end Schedule

theorem driveAll_decides {retry : RetryConfig} {s s' : Sequencer} {proposals : List Proposal}
    {results : List (Except NodeError Decision)} (hs : s.Sound)
    (h : driveAll retry Sequencer.coordinator s proposals = .ok (results, s')) :
    s'.leader = s.leader ∧ ∃ ws, Schedule.Drives s.log proposals s' ws results :=
  Schedule.run_drives (Schedule.drives_new hs proposals) h

end Confluence
