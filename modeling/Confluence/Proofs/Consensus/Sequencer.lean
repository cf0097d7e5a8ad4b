import Mathlib.Data.List.Nodup
import Confluence.Consensus.Sequencer
import Confluence.Proofs.Fault
import Confluence.Proofs.Ordered

namespace Confluence

/-- Every decision stands at its slot, the slots are counters, and no proposal has two. -/
structure Decision.IsLog (log : List Decision) : Prop where
  slots : ∀ (i : Nat) (d : Decision), log[i]? = some d → d.slot.toNat = i
  room : log.length < UInt64.size
  ids : (log.map (·.proposal.id)).Nodup

theorem Decision.isLog_nil : IsLog [] where
  slots := by simp
  room := by decide
  ids := .nil

namespace Decision.IsLog
variable {log : List Decision} {d e : Decision}

theorem getElem?_slot (h : IsLog log) (hd : d ∈ log) : log[d.slot.toNat]? = some d := by
  obtain ⟨i, hi, rfl⟩ := List.mem_iff_getElem.1 hd
  have hs := h.slots i _ (List.getElem?_eq_getElem hi)
  rw [hs, List.getElem?_eq_getElem hi]

theorem slot_lt (h : IsLog log) (hd : d ∈ log) : d.slot.toNat < log.length :=
  (List.getElem?_eq_some_iff.1 (h.getElem?_slot hd)).1

end Decision.IsLog

namespace Sequencer

/-- The log is in order, and the table has the slot of every proposal in it and of no other. -/
structure Sound (s : Sequencer) : Prop where
  isLog : Decision.IsLog s.log
  slots : ∀ id slot, s.slots.find? id = some slot ↔ ∃ d ∈ s.log, d.proposal.id = id ∧ d.slot = slot

theorem sound_new (leader : NodeId) : (new leader).Sound where
  isLog := Decision.isLog_nil
  slots := by simp [new]

variable {s s' : Sequencer} {p : Proposal} {outcome : ProposalOutcome} {id : ProposalId}
  {d : Decision}

theorem Sound.of_eq (h : s.Sound) (hlog : s'.log = s.log) (hslots : s'.slots = s.slots) :
    s'.Sound where
  isLog := hlog ▸ h.isLog
  slots := by
    rw [hlog, hslots]
    exact h.slots

/-- The log has got the entries `new`, which are the decisions on `p` that were just made. -/
structure Answers (s s' : Sequencer) (p : Proposal) (outcome : ProposalOutcome)
    (new : List Decision) : Prop where
  leader : s'.leader = s.leader
  log : s'.log = s.log ++ new
  sound : s'.Sound
  decided : ∀ d, outcome = .decided d → d ∈ s'.log ∧ d.proposal.id = p.id
  new : ∀ d ∈ new, outcome = .decided d ∧ d.proposal = p

theorem Answers.unchanged (h : s.Sound) (hleader : s'.leader = s.leader) (hlog : s'.log = s.log)
    (hslots : s'.slots = s.slots) (hd : ∀ d, outcome ≠ .decided d) :
    s.Answers s' p outcome [] where
  leader := hleader
  log := by rw [hlog, List.append_nil]
  sound := h.of_eq hlog hslots
  decided := fun d he => absurd he (hd d)
  new := by simp

theorem timeOut_eq_ok (h : s.timeOut = .ok (outcome, s')) :
    outcome = .timeout ∧ ∃ now, s.now ≤ now ∧ s' = { s with now } := by
  obtain ⟨now, hnow, he⟩ := map_eq_ok h
  cases he
  refine ⟨rfl, now, ?_, rfl⟩
  rw [UInt64.le_iff_toNat_le, toNat_checkedAdd hnow]
  exact Nat.le_add_right _ _

theorem mem_of_decision? (hs : s.Sound) (h : s.decision? id = some d) :
    d ∈ s.log ∧ d.proposal.id = id := by
  obtain ⟨slot, hslot, hd⟩ := Option.bind_eq_some_iff.1 h
  obtain ⟨e, he, hid, rfl⟩ := (hs.slots id slot).1 hslot
  rw [hs.isLog.getElem?_slot he] at hd
  cases hd
  exact ⟨he, hid⟩

theorem ne_of_decision? (hs : s.Sound) (h : s.decision? id = none) (hd : d ∈ s.log) :
    d.proposal.id ≠ id := by
  intro hid
  have hslot : s.slots.find? id = some d.slot := (hs.slots id d.slot).2 ⟨d, hd, hid, rfl⟩
  rw [decision?, hslot, Option.bind_some, hs.isLog.getElem?_slot hd] at h
  cases h

theorem isLog_concat {log : List Decision} {p : Proposal} (h : Decision.IsLog log)
    (hp : ∀ d ∈ log, d.proposal.id ≠ p.id) (hroom : log.length + 1 < UInt64.size) :
    Decision.IsLog (log ++ [⟨log.length.toUInt64, p⟩]) where
  slots := by
    intro i d hd
    rcases Nat.lt_or_ge i log.length with hi | hi
    · rw [List.getElem?_append_left hi] at hd
      exact h.slots i d hd
    · rw [List.getElem?_append_right hi, List.getElem?_singleton] at hd
      split at hd
      · cases hd
        have hw : log.length.toUInt64.toNat = log.length :=
          Nat.mod_eq_of_lt (Nat.lt_of_succ_lt hroom)
        rw [hw]
        omega
      · cases hd
  room := by simpa using hroom
  ids := by
    rw [List.map_append]
    refine List.nodup_append.2 ⟨h.ids, List.nodup_singleton _, ?_⟩
    intro a ha b hb he
    obtain ⟨d, hd, rfl⟩ := List.mem_map.1 ha
    rw [List.mem_singleton.1 hb] at he
    exact hp d hd he

/-- A proposal without a slot gets the next one. -/
theorem append_answers (hs : s.Sound) (hnone : s.decision? p.id = none)
    (h : s.append p = .ok (d, s')) : s.Answers s' p (.decided d) [d] := by
  unfold append at h
  split at h
  · next hroom =>
    cases h
    have hnew : ∀ d ∈ s.log, d.proposal.id ≠ p.id := fun d hd => ne_of_decision? hs hnone hd
    refine ⟨rfl, rfl, ⟨isLog_concat hs.isLog hnew hroom, ?_⟩, ?_, ?_⟩
    · intro id slot
      dsimp only
      rw [OrderedMap.find?_insert]
      simp only [List.mem_append, List.mem_singleton, or_and_right, exists_or, exists_eq_left]
      by_cases hid : id = p.id
      · subst hid
        rw [if_pos rfl, Option.some.injEq]
        refine ⟨fun he => .inr ⟨rfl, he⟩, ?_⟩
        rintro (⟨e, he, hep, _⟩ | ⟨_, he⟩)
        · exact absurd hep (hnew e he)
        · exact he
      · rw [if_neg hid, hs.slots]
        refine ⟨.inl, ?_⟩
        rintro (he | ⟨he, _⟩)
        · exact he
        · exact absurd he.symm hid
    · intro d hd
      cases hd
      exact ⟨List.mem_append_right _ (List.mem_singleton_self _), rfl⟩
    · intro d hd
      rw [List.mem_singleton.1 hd]
      exact ⟨rfl, rfl⟩
  · cases h

theorem propose_answers {via : NodeId} (hs : s.Sound)
    (h : s.propose via p = .ok (outcome, s')) : ∃ new, s.Answers s' p outcome new := by
  unfold propose at h
  dsimp only at h
  split at h
  · obtain ⟨rfl, now, _, rfl⟩ := timeOut_eq_ok h
    exact ⟨[], .unchanged hs rfl rfl rfl (by simp)⟩
  split at h
  · obtain ⟨rfl, now, _, rfl⟩ := timeOut_eq_ok h
    exact ⟨[], .unchanged hs rfl rfl rfl (by simp)⟩
  split at h
  · cases h
    exact ⟨[], .unchanged hs rfl rfl rfl (by simp)⟩
  have ht : ({ s with attempts := s.attempts + 1 } : Sequencer).Sound := hs.of_eq rfl rfl
  split at h
  · next d hd =>
    cases h
    refine ⟨[], rfl, (List.append_nil _).symm, ht, ?_, by simp⟩
    intro e he
    cases he
    exact mem_of_decision? ht hd
  · next hnone =>
    obtain ⟨⟨d, t⟩, ha, he⟩ := map_eq_ok h
    cases he
    have hanswers := append_answers ht hnone ha
    exact ⟨[d], hanswers.leader, hanswers.log, hanswers.sound, hanswers.decided, hanswers.new⟩

end Sequencer
end Confluence
