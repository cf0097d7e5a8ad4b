import Confluence.Proofs.Consensus.Sequencer

namespace Confluence.Sequencer

inductive Call
  | propose (via : NodeId) (p : Proposal)
  | setLeader (leader : NodeId)
  | setLinks (links : List (NodeId × LinkState))
  | setUnreachable (nodes : List NodeId)
  | syncTime (now : UInt64)
  | setTimeoutTicks (ticks : UInt64)
  | injectTimeouts (count : UInt32)

/-- Performs a call; only an attempt has an outcome. -/
def Call.perform (s : Sequencer) : Call → Except Fault (Option ProposalOutcome × Sequencer)
  | propose via p => (s.propose via p).map fun (outcome, s) => (some outcome, s)
  | setLeader leader => .ok (none, s.setLeader leader)
  | setLinks links => .ok (none, s.setLinks links)
  | setUnreachable nodes => .ok (none, s.setUnreachable nodes)
  | syncTime now => .ok (none, s.syncTime now)
  | setTimeoutTicks ticks => .ok (none, s.setTimeoutTicks ticks)
  | injectTimeouts count => (s.injectTimeouts count).map (none, ·)

/-- A call that was performed, its outcome, and the sequencer before and after it. -/
structure Record where
  before : Sequencer
  call : Call
  outcome : Option ProposalOutcome
  after : Sequencer

/-- The id of the proposal in an attempt that came to a decision, and the decision. -/
def Record.decided? (r : Record) : Option (ProposalId × Decision) :=
  match r.call, r.outcome with
  | .propose _ p, some (.decided d) => some (p.id, d)
  | _, _ => none

/-- A sequencer and all calls that were performed on it, the first one first. -/
structure Transcript where
  sequencer : Sequencer
  past : List Record

namespace Transcript

def new (leader : NodeId) : Transcript := ⟨.new leader, []⟩

def perform (t : Transcript) (call : Call) : Except Fault Transcript :=
  (call.perform t.sequencer).map fun (outcome, sequencer) =>
    ⟨sequencer, t.past ++ [⟨t.sequencer, call, outcome, sequencer⟩]⟩

/-- Performs calls in order, unless there is a fault. -/
def performAll (t : Transcript) (calls : List Call) : Except Fault Transcript :=
  calls.foldlM perform t

/-- The decisions that were answered, each with the id that was asked for. -/
def decided (t : Transcript) : List (ProposalId × Decision) := t.past.filterMap (·.decided?)

end Transcript

/-- An attempt cannot get to the log: it is made to time out, one of its ends is cut off at the
moment, or it is put to a node that does not lead. -/
def Blocks (s : Sequencer) (via : NodeId) (p : Proposal) : Prop :=
  0 < s.injectedTimeouts ∨ s.isCut p.origin = true ∨ s.isCut via = true ∨ via ≠ s.leader

variable {s s' : Sequencer} {via : NodeId} {p : Proposal} {outcome : ProposalOutcome}

theorem append_now {d : Decision} (h : s.append p = .ok (d, s')) : s'.now = s.now := by
  rw [append] at h
  split at h
  · cases h
    rfl
  · cases h

theorem now_le_syncTime (s : Sequencer) (now : UInt64) : s.now ≤ (s.syncTime now).now := by
  simp only [syncTime]
  split
  · assumption
  · exact UInt64.le_refl _

theorem now_le_propose (h : s.propose via p = .ok (outcome, s')) : s.now ≤ s'.now := by
  simp only [propose] at h
  split at h
  · obtain ⟨_, now, hnow, rfl⟩ := timeOut_eq_ok h
    exact hnow
  split at h
  · obtain ⟨_, now, hnow, rfl⟩ := timeOut_eq_ok h
    exact hnow
  split at h
  · cases h
    exact UInt64.le_refl _
  split at h
  · cases h
    exact UInt64.le_refl _
  · obtain ⟨⟨d, t⟩, ha, he⟩ := map_eq_ok h
    cases he
    rw [append_now ha]
    exact UInt64.le_refl _

theorem propose_of_blocks (hb : s.Blocks via p) (h : s.propose via p = .ok (outcome, s')) :
    s'.log = s.log ∧ s'.slots = s.slots ∧ ∀ d, outcome ≠ .decided d := by
  simp only [propose] at h
  split at h
  · obtain ⟨rfl, now, _, rfl⟩ := timeOut_eq_ok h
    exact ⟨rfl, rfl, by simp⟩
  split at h
  · obtain ⟨rfl, now, _, rfl⟩ := timeOut_eq_ok h
    exact ⟨rfl, rfl, by simp⟩
  split at h
  · cases h
    exact ⟨rfl, rfl, by simp⟩
  · next hinjected hcut hleader =>
    obtain ⟨horigin, hvia⟩ : s.isCut p.origin = false ∧ s.isCut via = false := by
      simpa [isCut] using hcut
    rcases hb with hb | hb | hb | hb
    · exact absurd hb hinjected
    · exact absurd hb (Bool.eq_false_iff.1 horigin)
    · exact absurd hb (Bool.eq_false_iff.1 hvia)
    · exact absurd hb hleader

/-- All that a call does to the log, the table of slots and the time. -/
structure Record.Valid (r : Record) : Prop where
  sound : r.after.Sound
  log : r.before.log <+: r.after.log
  now : r.before.now ≤ r.after.now
  decided : ∀ x, r.decided? = some x → x.2 ∈ r.after.log ∧ x.2.proposal.id = x.1
  blocked : ∀ via p, r.call = .propose via p → r.before.Blocks via p →
    r.after.log = r.before.log ∧ r.after.slots = r.before.slots

theorem Record.valid_of_eq {r : Record} (hs : r.before.Sound) (hlog : r.after.log = r.before.log)
    (hslots : r.after.slots = r.before.slots) (hnow : r.before.now ≤ r.after.now)
    (hcall : ∀ via p, r.call ≠ .propose via p) : r.Valid where
  sound := hs.of_eq hlog hslots
  log := hlog ▸ List.prefix_rfl
  now := hnow
  decided := by
    intro x hx
    rw [decided?] at hx
    split at hx
    · next h _ => exact absurd h (hcall _ _)
    · cases hx
  blocked := fun via p h => absurd h (hcall via p)

theorem Call.perform_valid {call : Call} {outcome : Option ProposalOutcome} (hs : s.Sound)
    (h : call.perform s = .ok (outcome, s')) : (⟨s, call, outcome, s'⟩ : Record).Valid := by
  cases call with
  | propose via p =>
    obtain ⟨⟨answer, t⟩, hp, he⟩ := map_eq_ok h
    cases he
    obtain ⟨new, ha⟩ := propose_answers hs hp
    refine ⟨ha.sound, ?_, now_le_propose hp, ?_, ?_⟩
    · rw [ha.log]
      exact List.prefix_append _ _
    · intro x hx
      cases answer with
      | decided d =>
        cases hx
        exact ha.decided d rfl
      | timeout => cases hx
      | notLeader leader => cases hx
    · intro via' p' hcall hb
      cases hcall
      obtain ⟨hlog, hslots, _⟩ := propose_of_blocks hb hp
      exact ⟨hlog, hslots⟩
  | setLeader leader =>
    cases h
    exact Record.valid_of_eq hs rfl rfl (UInt64.le_refl _) (by simp)
  | setLinks links =>
    cases h
    exact Record.valid_of_eq hs rfl rfl (UInt64.le_refl _) (by simp)
  | setUnreachable nodes =>
    cases h
    exact Record.valid_of_eq hs rfl rfl (UInt64.le_refl _) (by simp)
  | syncTime now =>
    cases h
    exact Record.valid_of_eq hs rfl rfl (now_le_syncTime s now) (by simp)
  | setTimeoutTicks ticks =>
    cases h
    exact Record.valid_of_eq hs rfl rfl (UInt64.le_refl _) (by simp)
  | injectTimeouts count =>
    obtain ⟨t, hi, he⟩ := map_eq_ok h
    cases he
    rw [Sequencer.injectTimeouts] at hi
    split at hi
    · cases hi
      exact Record.valid_of_eq hs rfl rfl (UInt64.le_refl _) (by simp)
    · cases hi

namespace Transcript
variable {t t' : Transcript} {leader : NodeId} {call : Call} {calls : List Call}

/-- Every call so far has kept the order, and nothing of it was undone. -/
structure Valid (t : Transcript) : Prop where
  sound : t.sequencer.Sound
  records : ∀ r ∈ t.past, r.Valid
  log : ∀ r ∈ t.past, r.after.log <+: t.sequencer.log
  now : ∀ r ∈ t.past, r.after.now ≤ t.sequencer.now

theorem valid_new (leader : NodeId) : (new leader).Valid where
  sound := sound_new leader
  records := by simp [new]
  log := by simp [new]
  now := by simp [new]

theorem Valid.perform (h : t.Valid) (hp : t.perform call = .ok t') : t'.Valid := by
  obtain ⟨⟨outcome, sequencer⟩, hc, rfl⟩ := map_eq_ok hp
  have hr := Call.perform_valid h.sound hc
  constructor
  · exact hr.sound
  · intro r hm
    rcases List.mem_append.1 hm with hm | hm
    · exact h.records r hm
    · exact List.mem_singleton.1 hm ▸ hr
  · intro r hm
    rcases List.mem_append.1 hm with hm | hm
    · exact (h.log r hm).trans hr.log
    · exact List.mem_singleton.1 hm ▸ List.prefix_rfl
  · intro r hm
    rcases List.mem_append.1 hm with hm | hm
    · exact UInt64.le_trans (h.now r hm) hr.now
    · rw [List.mem_singleton.1 hm]
      exact UInt64.le_refl _

theorem Valid.performAll (h : t.Valid) (hp : t.performAll calls = .ok t') : t'.Valid := by
  induction calls generalizing t with
  | nil =>
    cases hp
    exact h
  | cons call calls ih =>
    obtain ⟨mid, hm, hp⟩ := bind_eq_ok hp
    exact ih (h.perform hm) hp

theorem Valid.mem_log (h : t.Valid) {x : ProposalId × Decision} (hx : x ∈ t.decided) :
    x.2 ∈ t.sequencer.log ∧ x.2.proposal.id = x.1 := by
  obtain ⟨r, hr, hd⟩ := List.mem_filterMap.1 hx
  obtain ⟨hmem, hid⟩ := (h.records r hr).decided x hd
  exact ⟨(h.log r hr).subset hmem, hid⟩

/-- The sequencer is safe. Whatever calls it takes without a fault, every entry of the log stands at
its slot, no proposal has two, and the table has the slots of exactly the proposals in the log.
Every call keeps the log or appends to it and takes no time back; an attempt that cannot get to the
log leaves it and the table alone. Decisions on one proposal are the same decision, and decisions on
different proposals have different slots. -/
theorem agreement_of_performAll (h : (new leader).performAll calls = .ok t) :
    let s := t.sequencer
    (∀ (i : Nat) (d : Decision), s.log[i]? = some d → d.slot.toNat = i) ∧
      (s.log.map (·.proposal.id)).Nodup ∧
      (∀ id slot, s.slots.find? id = some slot ↔
        ∃ d ∈ s.log, d.proposal.id = id ∧ d.slot = slot) ∧
      (∀ r ∈ t.past, r.before.log <+: r.after.log ∧ r.after.log <+: s.log) ∧
      (∀ r ∈ t.past, r.before.now ≤ r.after.now ∧ r.after.now ≤ s.now) ∧
      (∀ r ∈ t.past, ∀ via p, r.call = .propose via p → r.before.Blocks via p →
        r.after.log = r.before.log ∧ r.after.slots = r.before.slots) ∧
      (∀ x ∈ t.decided, x.2 ∈ s.log ∧ x.2.proposal.id = x.1) ∧
      ∀ x ∈ t.decided, ∀ y ∈ t.decided,
        (x.1 = y.1 → x.2 = y.2) ∧ (x.1 ≠ y.1 → x.2.slot ≠ y.2.slot) := by
  intro s
  have ht : t.Valid := (valid_new leader).performAll h
  have hlog : Decision.IsLog s.log := ht.sound.isLog
  refine ⟨hlog.slots, hlog.ids, ht.sound.slots, fun r hr => ⟨(ht.records r hr).log, ht.log r hr⟩,
    fun r hr => ⟨(ht.records r hr).now, ht.now r hr⟩, fun r hr => (ht.records r hr).blocked,
    fun x => ht.mem_log, ?_⟩
  intro x hx y hy
  obtain ⟨hxmem, hxid⟩ := ht.mem_log hx
  obtain ⟨hymem, hyid⟩ := ht.mem_log hy
  constructor
  · intro hid
    apply List.inj_on_of_nodup_map hlog.ids hxmem hymem
    rw [hxid, hyid, hid]
  · intro hid hslot
    have hget : s.log[x.2.slot.toNat]? = some y.2 := hslot ▸ hlog.getElem?_slot hymem
    have he : x.2 = y.2 := Option.some.inj ((hlog.getElem?_slot hxmem).symm.trans hget)
    apply hid
    rw [← hxid, ← hyid, he]

/-- A cut opens while attempts time out, the leader changes, and a decided id is put again with
other operations. -/
theorem agreement_of_performAll_retries :
    let p : Proposal := ⟨Uuid.ofNat 1, "b", [.overwrite "title" "draft"], .empty⟩
    let q : Proposal := ⟨Uuid.ofNat 2, "c", [.overwrite "title" "final"], .empty⟩
    ∃ t : Transcript, (new "a").performAll [.setTimeoutTicks 2, .setLinks [("b", .cutUntil 3)],
        .propose "a" p, .propose "a" p, .propose "a" p, .injectTimeouts 1, .propose "a" q,
        .setLeader "c", .propose "a" q, .propose "c" q, .setUnreachable ["b"], .propose "c" p,
        .setLinks [], .syncTime 1, .propose "c" { p with operations := [] }] = .ok t ∧
      t.sequencer.log = [⟨0, p⟩, ⟨1, q⟩] ∧ t.sequencer.now = 8 ∧
      t.decided = [(p.id, ⟨0, p⟩), (q.id, ⟨1, q⟩), (p.id, ⟨0, p⟩)] ∧
      ∀ r ∈ t.past, r.before.log <+: r.after.log ∧ r.after.log <+: t.sequencer.log := by
  intro p q
  obtain ⟨t, h, ht⟩ := @exists_of_endsWith _ _ ((new "a").performAll [.setTimeoutTicks 2,
      .setLinks [("b", .cutUntil 3)], .propose "a" p, .propose "a" p, .propose "a" p,
      .injectTimeouts 1, .propose "a" q, .setLeader "c", .propose "a" q, .propose "c" q,
      .setUnreachable ["b"], .propose "c" p, .setLinks [], .syncTime 1,
      .propose "c" { p with operations := [] }])
    (fun t => t.sequencer.log = [⟨0, p⟩, ⟨1, q⟩] ∧ t.sequencer.now = 8 ∧
      t.decided = [(p.id, ⟨0, p⟩), (q.id, ⟨1, q⟩), (p.id, ⟨0, p⟩)]) (by decide +kernel)
  obtain ⟨hlog, hnow, hdecided⟩ := of_decide_eq_true ht
  exact ⟨t, h, hlog, hnow, hdecided, (agreement_of_performAll h).2.2.2.1⟩

end Transcript
end Confluence.Sequencer
