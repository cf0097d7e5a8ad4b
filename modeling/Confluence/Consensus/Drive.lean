import Confluence.Classifier
import Confluence.Message

namespace Confluence

/-- Counts are kept as numbers and reported as words. -/
scoped instance coeWord : Coe Nat UInt32 := ⟨Nat.toUInt32⟩

/-- The ways in which the coordinated part of a transaction can fail. -/
inductive NodeError
  | unavailable (proposal : ProposalId) (attempts redirects : UInt32)
  | unknownProposal (proposal : ProposalId)
  | classifier (cause : ClassifierError)
  | encoding (reason : String)
  deriving DecidableEq

def NodeError.message : NodeError → String
  | .unavailable proposal attempts redirects =>
    "Consensus unavailable for proposal " ++ toString proposal ++ ": gave up after " ++
      toString attempts ++ " attempts and " ++ toString redirects ++ " redirects"
  | .unknownProposal proposal => "Unknown proposal: " ++ toString proposal
  | .classifier cause => "Classifier error: " ++ cause.message
  | .encoding reason => "Encoding error: " ++ reason

structure Duration where
  nanoseconds : Nat
  deriving DecidableEq

namespace Duration

def ofMillis (ms : Nat) : Duration := ⟨ms * 1000000⟩

/-- The whole seconds and the nanoseconds beyond them. -/
def parts (d : Duration) : Nat × Nat := (d.nanoseconds / 1000000000, d.nanoseconds % 1000000000)

def wholeMillis (d : Duration) : Nat := d.nanoseconds / 1000000

/-- The furthest ahead that a timer is set: thirty years of 365 days, in milliseconds. -/
def maxTimerMillis : Nat := 946080000000

/-- The milliseconds until a timer of this length fires; timers fire on whole milliseconds. -/
def timerMillis (d : Duration) : Nat := min ((d.nanoseconds + 999999) / 1000000) maxTimerMillis

def least (a b : Duration) : Duration := if a.nanoseconds ≤ b.nanoseconds then a else b

end Duration

/-- How often a proposal is tried again, and how long it waits in between. -/
structure RetryConfig where
  maxRetries : UInt32
  initialBackoff : Duration
  maxBackoff : Duration
  multiplier : Float
  maxRedirects : UInt32
  deriving BEq

namespace RetryConfig

def default : RetryConfig := ⟨5, .ofMillis 50, .ofMillis 2000, 2, 3⟩

/-- The product of `result` and a natural power of `base`, by repeated squaring. -/
def powerOf (result base : Float) (exponent : Nat) : Float :=
  let result := if exponent % 2 = 1 then result * base else result
  if exponent / 2 = 0 then result else powerOf result (base * base) (exponent / 2)
termination_by exponent
decreasing_by omega

/-- A power of a number; negative exponents take the reciprocal. -/
def power (base : Float) (exponent : Int) : Float :=
  let p := powerOf 1 base exponent.natAbs
  if exponent < 0 then 1 / p else p

/-- The exponent of an attempt: its number as a signed word. -/
def exponent (attempt : UInt32) : Int := attempt.toInt32.toInt

/-- The pause before retry number `attempt`, counted from zero: the initial pause in whole
milliseconds times a power of the multiplier, cut to whole milliseconds. -/
def backoff (r : RetryConfig) (attempt : UInt32) : Duration :=
  let ms := r.initialBackoff.wholeMillis.toFloat * power r.multiplier (exponent attempt)
  (Duration.ofMillis ms.toUInt64.toNat).least r.maxBackoff

end RetryConfig

inductive ProposalOutcome
  | decided (decision : Decision)
  | timeout
  | notLeader (leader : Option NodeId)
  deriving DecidableEq

/-- A service that answers attempts, made at a time in milliseconds through a node. -/
abbrev Coordinator (σ : Type) :=
  σ → Nat → NodeId → Proposal → Except Fault (ProposalOutcome × σ)

/-- A proposal that is being driven: the node to ask next, and what it has spent so far. -/
structure Attempt where
  proposal : Proposal
  via : NodeId
  attempts : Nat
  timeouts : Nat
  redirects : Nat
  deriving DecidableEq

namespace Attempt

def new (p : Proposal) : Attempt := ⟨p, p.origin, 0, 0, 0⟩

def unavailable (a : Attempt) : NodeError := .unavailable a.proposal.id a.attempts a.redirects

inductive Next
  | done (result : Except NodeError Decision)
  | redirect (a : Attempt)
  | pause (length : Duration) (a : Attempt)

/-- Counts an answer and decides how to go on. -/
def handle (retry : RetryConfig) (a : Attempt) (outcome : ProposalOutcome) : Next :=
  let a := { a with attempts := a.attempts + 1 }
  match outcome with
  | .decided d => .done (.ok d)
  | .notLeader (some leader) =>
    if a.redirects < retry.maxRedirects.toNat then
      .redirect { a with via := leader, redirects := a.redirects + 1 }
    else .done (.error a.unavailable)
  | .timeout | .notLeader none =>
    if a.timeouts < retry.maxRetries.toNat then
      .pause (retry.backoff a.timeouts.toUInt32) { a with timeouts := a.timeouts + 1 }
    else .done (.error a.unavailable)

theorem redirects_handle {retry : RetryConfig} {a b : Attempt} {outcome : ProposalOutcome}
    (h : a.handle retry outcome = .redirect b) :
    retry.maxRedirects.toNat - b.redirects < retry.maxRedirects.toNat - a.redirects := by
  unfold handle at h
  dsimp only at h
  split at h
  · cases h
  · split at h
    · cases h
      dsimp only
      omega
    · cases h
  · split at h <;> cases h
  · split at h <;> cases h

end Attempt

inductive Progress
  | waiting (wake : Nat) (a : Attempt)
  | finished (result : Except NodeError Decision)

/-- Runs an attempt until it has to wait or is finished. The number of calls has to fit in a word. -/
def Progress.run {σ : Type} (retry : RetryConfig) (coordinator : Coordinator σ) (now : Nat) (s : σ)
    (a : Attempt) : Except Fault (Progress × σ) :=
  if UInt32.size ≤ a.attempts + 1 then .error .overflow
  else match coordinator s now a.via a.proposal with
  | .error fault => .error fault
  | .ok (outcome, s) =>
    match h : a.handle retry outcome with
    | .done result => .ok (.finished result, s)
    | .pause length a => .ok (.waiting (now + length.timerMillis) a, s)
    | .redirect b =>
      have := Attempt.redirects_handle h
      run retry coordinator now s b
termination_by retry.maxRedirects.toNat - a.redirects

/-- A proposal that waits for its turn: its position among those that are driven together, and when
its pause ends. -/
structure Waiter where
  position : Nat
  wake : Nat
  attempt : Attempt
  deriving DecidableEq

/-- How many pauses may end in one round. -/
def roundCredit : Nat := 128

/-- Up to this many proposals are taken in the same order in every round. -/
def maxOrdered : Nat := 30

/-- Proposals that are driven together share one clock: each runs until it has to wait, and then they go
on in the order in which their pauses end. A round has credit for a fixed number of pauses, and a
proposal whose pause finds the credit spent is put off to the next round, at the same time. The
proposals to be looked at in this round stand with the next one first, those put off and those whose
pause is longer with the newest first. -/
structure Schedule where
  now : Nat
  credit : Nat
  isOrdered : Bool
  queue : List Waiter
  postponed : List Waiter
  asleep : List Waiter
  deriving DecidableEq

namespace Schedule

/-- Every proposal is ready for its first attempt. -/
def new (proposals : List Proposal) : Schedule :=
  { now := 0
    credit := roundCredit
    isOrdered := proposals.length ≤ maxOrdered
    queue := proposals.mapIdx fun i p => ⟨i, 0, .new p⟩
    postponed := []
    asleep := [] }

/-- Looks at the proposals of the round until one can go on. A first attempt follows no pause and
takes no credit, and neither does a look at a pause that is not over. -/
def pick (s : Schedule) : List Waiter → Option Waiter × Schedule
  | [] => (none, { s with queue := [] })
  | w :: rest =>
    if w.attempt.attempts = 0 then (some w, { s with queue := rest })
    else if s.credit = 0 then pick { s with postponed := w :: s.postponed } rest
    else if w.wake ≤ s.now then (some w, { s with credit := s.credit - 1, queue := rest })
    else pick { s with asleep := w :: s.asleep } rest

/-- Begins the next round at the same time. Where the proposals are too many to keep their order,
the one that was put off last comes first. -/
def nextRound (s : Schedule) : Schedule :=
  { s with
    credit := roundCredit
    queue := if s.isOrdered then s.postponed.reverse else s.postponed
    postponed := [] }

def firstWake? : List Waiter → Option Nat
  | [] => none
  | w :: rest => some ((firstWake? rest).elim w.wake (min w.wake))

/-- Begins a round when the next pause ends, with the proposals whose pauses end then. -/
def awaken (s : Schedule) : Schedule :=
  match firstWake? s.asleep with
  | none => s
  | some now =>
    { s with
      now
      credit := roundCredit
      queue := (s.asleep.filter (·.wake = now)).reverse
      asleep := s.asleep.filter (·.wake ≠ now) }

/-- The proposal to go on with, if any is unfinished: one of this round, else one of those put off,
else one of those that wake next. -/
def next? (s : Schedule) : Option (Waiter × Schedule) :=
  match s.pick s.queue with
  | (some w, s) => some (w, s)
  | (none, s) =>
    let s := s.nextRound
    match s.pick s.queue with
    | (some w, s) => some (w, s)
    | (none, s) =>
      let s := s.awaken
      match s.pick s.queue with
      | (some w, s) => some (w, s)
      | (none, _) => none

/-- Gives the proposals up to `turns` turns and enters the results that they come to. A proposal
that waits again is looked at before all others. -/
def run {σ : Type} (retry : RetryConfig) (coordinator : Coordinator σ) :
    Nat → σ → Schedule → List (Except NodeError Decision) →
    Except Fault (List (Except NodeError Decision) × σ)
  | 0, state, _, results => .ok (results, state)
  | turns + 1, state, s, results =>
    match s.next? with
    | none => .ok (results, state)
    | some (w, s) => do
      match ← Progress.run retry coordinator s.now state w.attempt with
      | (.finished result, state) =>
        run retry coordinator turns state s (results.set w.position result)
      | (.waiting wake attempt, state) =>
        run retry coordinator turns state
          { s with queue := { w with wake, attempt } :: s.queue } results

end Schedule

/-- Drives proposals together; the result of a proposal is a failure as long as there is none. Every
turn but the last of a proposal ends with a tolerated timeout, which bounds the number of turns. -/
def driveAll {σ : Type} (retry : RetryConfig) (coordinator : Coordinator σ) (s : σ)
    (proposals : List Proposal) : Except Fault (List (Except NodeError Decision) × σ) :=
  let turns := proposals.length * (retry.maxRetries.toNat + 1)
  Schedule.run retry coordinator turns s (.new proposals)
    (proposals.map fun p => .error (Attempt.new p).unavailable)

end Confluence
