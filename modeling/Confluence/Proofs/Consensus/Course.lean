import Mathlib.Algebra.GroupWithZero.Nat
import Mathlib.Data.List.Basic
import Confluence.Consensus.Drive
import Confluence.Proofs.Fault

namespace Confluence

/-- The node that an outcome points to. -/
def ProposalOutcome.hint? : ProposalOutcome → Option NodeId
  | .notLeader leader => leader
  | _ => none

/-- A node that knows no leader counts as one that does not answer. -/
def ProposalOutcome.isTimeout : ProposalOutcome → Bool
  | .timeout => true
  | .notLeader none => true
  | _ => false

/-- A call that was made, and what came of it. -/
structure Asked where
  via : NodeId
  time : Nat
  outcome : ProposalOutcome
  deriving DecidableEq

namespace Asked

def timeouts (calls : List Asked) : Nat := calls.countP (·.outcome.isTimeout)

def hints (calls : List Asked) : List NodeId := calls.filterMap (·.outcome.hint?)

theorem timeouts_cons (call : Asked) (calls : List Asked) :
    timeouts (call :: calls) = timeouts calls + if call.outcome.isTimeout then 1 else 0 :=
  List.countP_cons

theorem hints_cons (call : Asked) (calls : List Asked) :
    hints (call :: calls) = call.outcome.hint?.toList ++ hints calls := by
  unfold hints
  rw [List.filterMap_cons]
  cases call.outcome.hint? <;> rfl

end Asked

namespace Attempt

/-- The attempt after an outcome that is tolerated. -/
def advance (a : Attempt) (outcome : ProposalOutcome) : Attempt :=
  { a with
    via := outcome.hint?.getD a.via
    attempts := a.attempts + 1
    timeouts := a.timeouts + if outcome.isTimeout then 1 else 0
    redirects := a.redirects + if outcome.hint?.isSome then 1 else 0 }

/-- The attempt after calls that were all tolerated. -/
def advanceAll (a : Attempt) (calls : List Asked) : Attempt :=
  calls.foldl (fun a call => a.advance call.outcome) a

/-- The outcome ends an attempt that has tolerated so many timeouts and followed so many hints: it is a
decision, or finds the budget that it is charged to spent. -/
def Stops (retry : RetryConfig) (timeouts redirects : Nat) : ProposalOutcome → Prop
  | .decided _ => True
  | .notLeader (some _) => retry.maxRedirects.toNat ≤ redirects
  | .notLeader none => retry.maxRetries.toNat ≤ timeouts
  | .timeout => retry.maxRetries.toNat ≤ timeouts

/-- What the calls of a proposal come to, if the last of them ends it. -/
def verdict (p : Proposal) (attempts redirects : Nat) : ProposalOutcome → Except NodeError Decision
  | .decided d => .ok d
  | _ => .error (.unavailable p.id attempts redirects)

/-- The calls of an attempt that begins at a time, the pauses between them, and the result. -/
inductive Course {σ : Type} (retry : RetryConfig) (coordinator : Coordinator σ) :
    Nat → σ → Attempt → List Asked → List Duration → Except NodeError Decision → σ → Prop
  | stop {now s s' a outcome result} (answer : coordinator s now a.via a.proposal = .ok (outcome, s'))
      (done : a.handle retry outcome = .done result) :
      Course retry coordinator now s a [⟨a.via, now, outcome⟩] [] result s'
  | redirect {now s mid s' a b outcome calls pauses result}
      (answer : coordinator s now a.via a.proposal = .ok (outcome, mid))
      (followed : a.handle retry outcome = .redirect b)
      (rest : Course retry coordinator now mid b calls pauses result s') :
      Course retry coordinator now s a (⟨a.via, now, outcome⟩ :: calls) pauses result s'
  | pause {now s mid s' a b outcome length calls pauses result}
      (answer : coordinator s now a.via a.proposal = .ok (outcome, mid))
      (tolerated : a.handle retry outcome = .pause length b)
      (rest : Course retry coordinator (now + length.timerMillis) mid b calls pauses result s') :
      Course retry coordinator now s a (⟨a.via, now, outcome⟩ :: calls) (length :: pauses) result s'

variable {σ : Type} {retry : RetryConfig} {coordinator : Coordinator σ} {now : Nat} {s mid s' : σ}
  {a b : Attempt} {call : Asked} {calls before after : List Asked} {pauses : List Duration}
  {outcome : ProposalOutcome} {length : Duration} {result : Except NodeError Decision}

theorem handle_of_stops (h : Stops retry a.timeouts a.redirects outcome) :
    a.handle retry outcome =
      .done (verdict a.proposal (a.attempts + 1) a.redirects outcome) := by
  cases outcome with
  | decided d => rfl
  | timeout => exact if_neg (Nat.not_lt.2 h)
  | notLeader leader =>
    cases leader with
    | none => exact if_neg (Nat.not_lt.2 h)
    | some leader => exact if_neg (Nat.not_lt.2 h)

theorem handle_of_not_stops (h : ¬ Stops retry a.timeouts a.redirects outcome) :
    a.handle retry outcome =
      if outcome.isTimeout then .pause (retry.backoff a.timeouts.toUInt32) (a.advance outcome)
      else .redirect (a.advance outcome) := by
  cases outcome with
  | decided d => exact absurd trivial h
  | timeout => exact if_pos (Nat.not_le.1 h)
  | notLeader leader =>
    cases leader with
    | none => exact if_pos (Nat.not_le.1 h)
    | some leader => exact if_pos (Nat.not_le.1 h)

theorem stops_of_done (h : a.handle retry outcome = .done result) :
    Stops retry a.timeouts a.redirects outcome ∧
      result = verdict a.proposal (a.attempts + 1) a.redirects outcome := by
  by_cases hs : Stops retry a.timeouts a.redirects outcome
  · rw [handle_of_stops hs] at h
    cases h
    exact ⟨hs, rfl⟩
  · rw [handle_of_not_stops hs] at h
    split at h <;> cases h

theorem not_stops_of_redirect (h : a.handle retry outcome = .redirect b) :
    ¬ Stops retry a.timeouts a.redirects outcome ∧ outcome.isTimeout = false ∧
      b = a.advance outcome := by
  by_cases hs : Stops retry a.timeouts a.redirects outcome
  · rw [handle_of_stops hs] at h
    cases h
  · rw [handle_of_not_stops hs] at h
    split at h
    · cases h
    · next ht =>
      cases h
      exact ⟨hs, Bool.not_eq_true _ ▸ ht, rfl⟩

theorem not_stops_of_pause (h : a.handle retry outcome = .pause length b) :
    ¬ Stops retry a.timeouts a.redirects outcome ∧ outcome.isTimeout = true ∧
      length = retry.backoff a.timeouts.toUInt32 ∧ b = a.advance outcome := by
  by_cases hs : Stops retry a.timeouts a.redirects outcome
  · rw [handle_of_stops hs] at h
    cases h
  · rw [handle_of_not_stops hs] at h
    split at h
    · next ht =>
      cases h
      exact ⟨hs, ht, rfl, rfl⟩
    · cases h

/-- All that a turn can come to: the first answer ends the attempt, or it is a timeout that is tolerated
and ends the turn, or a hint that is followed at once. -/
theorem run_eq_ok {progress : Progress}
    (h : Progress.run retry coordinator now s a = .ok (progress, s')) :
    ∃ outcome mid, coordinator s now a.via a.proposal = .ok (outcome, mid) ∧
      ((Stops retry a.timeouts a.redirects outcome ∧ s' = mid ∧
          progress = .finished (verdict a.proposal (a.attempts + 1) a.redirects outcome)) ∨
        (¬ Stops retry a.timeouts a.redirects outcome ∧ outcome.isTimeout = true ∧ s' = mid ∧
          progress = .waiting (now + (retry.backoff a.timeouts.toUInt32).timerMillis)
            (a.advance outcome)) ∨
        (¬ Stops retry a.timeouts a.redirects outcome ∧ outcome.isTimeout = false ∧
          Progress.run retry coordinator now mid (a.advance outcome) = .ok (progress, s'))) := by
  unfold Progress.run at h
  split at h
  · cases h
  split at h
  · cases h
  next outcome mid answer =>
    refine ⟨outcome, mid, answer, ?_⟩
    split at h
    · next result done =>
      cases h
      obtain ⟨hs, rfl⟩ := stops_of_done done
      exact .inl ⟨hs, rfl, rfl⟩
    · next length b tolerated =>
      cases h
      obtain ⟨hn, ht, rfl, rfl⟩ := not_stops_of_pause tolerated
      exact .inr (.inl ⟨hn, ht, rfl, rfl⟩)
    · next b followed =>
      obtain ⟨hn, ht, rfl⟩ := not_stops_of_redirect followed
      exact .inr (.inr ⟨hn, ht, h⟩)

theorem isSome_hint?_of_not_stops (h : ¬ Stops retry a.timeouts a.redirects outcome)
    (ht : outcome.isTimeout = false) :
    outcome.hint?.isSome = true ∧ a.redirects < retry.maxRedirects.toNat := by
  cases outcome with
  | decided d => exact absurd trivial h
  | timeout => cases ht
  | notLeader leader =>
    cases leader with
    | none => cases ht
    | some leader => exact ⟨rfl, Nat.not_le.1 h⟩

theorem isNone_hint?_of_not_stops (h : ¬ Stops retry a.timeouts a.redirects outcome)
    (ht : outcome.isTimeout = true) :
    outcome.hint?.isSome = false ∧ a.timeouts < retry.maxRetries.toNat := by
  cases outcome with
  | decided d => exact absurd trivial h
  | timeout => exact ⟨rfl, Nat.not_le.1 h⟩
  | notLeader leader =>
    cases leader with
    | none => exact ⟨rfl, Nat.not_le.1 h⟩
    | some leader => cases ht

/-- What the calls that were tolerated have changed of an attempt. -/
theorem advanceAll_eq (a : Attempt) (calls : List Asked) :
    a.advanceAll calls =
      { proposal := a.proposal
        via := (Asked.hints calls).getLast?.getD a.via
        attempts := a.attempts + calls.length
        timeouts := a.timeouts + Asked.timeouts calls
        redirects := a.redirects + (Asked.hints calls).length } := by
  induction calls generalizing a with
  | nil => rfl
  | cons call calls ih =>
    change (a.advance call.outcome).advanceAll calls = _
    rw [ih]
    rw [Asked.timeouts_cons, Asked.hints_cons, List.length_cons]
    unfold advance
    congr 1
    · cases call.outcome.hint? with
      | none => rfl
      | some leader =>
        rw [Option.toList_some, List.singleton_append, List.getLast?_cons]
        rfl
    · dsimp only
      omega
    · dsimp only
      omega
    · cases call.outcome.hint? with
      | none => rfl
      | some leader =>
        rw [Option.toList_some, List.singleton_append, List.length_cons]
        exact Nat.add_right_comm ..

theorem Course.ne_nil (h : Course retry coordinator now s a calls pauses result s') :
    calls ≠ [] := by
  cases h <;> exact List.cons_ne_nil _ _

/-- The first call of a course. -/
theorem Course.head (h : Course retry coordinator now s a (call :: after) pauses result s') :
    call.via = a.via ∧ call.time = now ∧
      (after = [] ↔ Stops retry a.timeouts a.redirects call.outcome) ∧
      (after = [] → result = verdict a.proposal (a.attempts + 1) a.redirects call.outcome) := by
  cases h with
  | stop answer done =>
    obtain ⟨hs, hr⟩ := stops_of_done done
    exact ⟨rfl, rfl, ⟨fun _ => hs, fun _ => rfl⟩, fun _ => hr⟩
  | redirect answer followed rest =>
    have hn := (not_stops_of_redirect followed).1
    have hne := rest.ne_nil
    exact ⟨rfl, rfl, ⟨fun h => absurd h hne, fun h => absurd h hn⟩, fun h => absurd h hne⟩
  | pause answer tolerated rest =>
    have hn := (not_stops_of_pause tolerated).1
    have hne := rest.ne_nil
    exact ⟨rfl, rfl, ⟨fun h => absurd h hne, fun h => absurd h hn⟩, fun h => absurd h hne⟩

/-- At every call of a course the rest of it is the course of the attempt that the calls before have
left. -/
theorem Course.moment (h : Course retry coordinator now s a calls pauses result s')
    (hcalls : calls = before ++ call :: after) :
    (∃ mid, Course retry coordinator call.time mid (a.advanceAll before) (call :: after)
        (pauses.drop (Asked.timeouts before)) result s') ∧
      call.time = now + ((pauses.take (Asked.timeouts before)).map Duration.timerMillis).sum := by
  induction h generalizing before with
  | stop answer done =>
    cases before with
    | nil =>
      cases hcalls
      exact ⟨⟨_, .stop answer done⟩, rfl⟩
    | cons first before => cases before <;> cases hcalls
  | redirect answer followed rest ih =>
    cases before with
    | nil =>
      cases hcalls
      exact ⟨⟨_, .redirect answer followed rest⟩, rfl⟩
    | cons first before =>
      obtain ⟨_, ht, rfl⟩ := not_stops_of_redirect followed
      cases hcalls
      rw [Asked.timeouts_cons, if_neg (Bool.eq_false_iff.1 ht), Nat.add_zero]
      exact ih rfl
  | pause answer tolerated rest ih =>
    cases before with
    | nil =>
      cases hcalls
      exact ⟨⟨_, .pause answer tolerated rest⟩, rfl⟩
    | cons first before =>
      obtain ⟨_, ht, _, rfl⟩ := not_stops_of_pause tolerated
      cases hcalls
      rw [Asked.timeouts_cons, if_pos ht, List.drop_succ_cons, List.take_succ_cons, List.map_cons,
        List.sum_cons, ← Nat.add_assoc]
      exact ih rfl

theorem Course.pauses_eq (h : Course retry coordinator now s a calls pauses result s') :
    pauses = (List.range' a.timeouts (Asked.timeouts calls.dropLast)).map
      fun k => retry.backoff k.toUInt32 := by
  induction h with
  | stop answer done => rfl
  | redirect answer followed rest ih =>
    obtain ⟨_, ht, rfl⟩ := not_stops_of_redirect followed
    rw [List.dropLast_cons_of_ne_nil rest.ne_nil, Asked.timeouts_cons,
      if_neg (Bool.eq_false_iff.1 ht), ih, advance, ht]
    rfl
  | pause answer tolerated rest ih =>
    obtain ⟨_, ht, rfl, rfl⟩ := not_stops_of_pause tolerated
    rw [List.dropLast_cons_of_ne_nil rest.ne_nil, Asked.timeouts_cons, if_pos ht,
      List.range'_succ, List.map_cons, ih, advance, ht]
    rfl

theorem Course.length_le (h : Course retry coordinator now s a calls pauses result s') :
    calls.length ≤ (retry.maxRetries.toNat - a.timeouts) +
      (retry.maxRedirects.toNat - a.redirects) + 1 := by
  induction h with
  | stop answer done => exact Nat.le_add_left ..
  | redirect answer followed rest ih =>
    obtain ⟨hn, ht, rfl⟩ := not_stops_of_redirect followed
    obtain ⟨hhint, hlt⟩ := isSome_hint?_of_not_stops hn ht
    rw [advance, ht, hhint] at ih
    rw [List.length_cons]
    simp only [if_true] at ih
    omega
  | pause answer tolerated rest ih =>
    obtain ⟨hn, ht, _, rfl⟩ := not_stops_of_pause tolerated
    obtain ⟨hhint, hlt⟩ := isNone_hint?_of_not_stops hn ht
    rw [advance, ht, hhint] at ih
    rw [List.length_cons]
    simp only [if_true] at ih
    omega

end Attempt
end Confluence
