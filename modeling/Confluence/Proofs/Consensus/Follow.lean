import Confluence.Proofs.Consensus.DecisionLog
import Confluence.Proofs.Consensus.Sequencer

namespace Confluence.DecisionLog

/-- All that the log has consumed or keeps is from the log of the sequencer. -/
structure Follows (log : DecisionLog) (ds : List Decision) : Prop where
  consumed : log.HasConsumed (ds.take log.consumed)
  waits : log.WaitsAbove
  waiting : ∀ k d, log.waiting.find? k = some d → d ∈ ds

variable {log : DecisionLog} {ds es : List Decision} {d : Decision}

theorem follows_empty (ds : List Decision) : empty.Follows ds where
  consumed := by
    have hn : ds.take empty.consumed = [] := List.take_zero
    rw [hn]
    exact hasConsumed_empty
  waits k d h := by cases h
  waiting k d h := by cases h

theorem Follows.consumed_le (h : log.Follows ds) : log.consumed ≤ ds.length := by
  have hn := h.consumed.length
  rw [List.length_take] at hn
  omega

theorem Follows.grow (h : log.Follows ds) (hp : ds <+: es) : log.Follows es where
  consumed := by
    obtain ⟨new, rfl⟩ := hp
    rw [List.take_append_of_le_length h.consumed_le]
    exact h.consumed
  waits := h.waits
  waiting k d hk := hp.subset (h.waiting k d hk)

theorem take_eq_of_slots {a n : Nat} (hlog : Decision.IsLog ds) {more : List Decision}
    (hlen : n = a + more.length) (hmore : ∀ d ∈ more, d ∈ ds)
    (hslots : ∀ (i : Nat) (d : Decision), (ds.take a ++ more)[i]? = some d → d.slot.toNat = i)
    (ha : a ≤ ds.length) : ds.take a ++ more = ds.take n := by
  have hmem : ∀ d ∈ ds.take a ++ more, d ∈ ds := by
    intro d hd
    rcases List.mem_append.1 hd with hd | hd
    · exact List.mem_of_mem_take hd
    · exact hmore d hd
  have hget : ∀ (i : Nat) (d : Decision), (ds.take a ++ more)[i]? = some d → ds[i]? = some d := by
    intro i d hi
    rw [← hslots i d hi]
    exact hlog.getElem?_slot (hmem d (List.mem_of_getElem? hi))
  have hal : (ds.take a ++ more).length = n := by
    rw [List.length_append, List.length_take]
    omega
  apply List.ext_getElem?
  intro i
  by_cases hi : i < n
  · rw [List.getElem?_take_of_lt hi]
    have hs := List.getElem?_eq_getElem (hal.symm ▸ hi : i < (ds.take a ++ more).length)
    rw [hs, hget i _ hs]
  · rw [List.getElem?_eq_none (by omega), List.getElem?_take_eq_none (Nat.le_of_not_lt hi)]

/-- Taking in an entry of the sequencer's log. What is handed out are the entries that follow. -/
theorem Follows.accept (h : log.Follows ds) (hlog : Decision.IsLog ds) (hd : d ∈ ds) :
    (log.accept d).2.Follows ds ∧
      ds.take (log.accept d).2.consumed =
        ds.take log.consumed ++ (log.accept d).1.ready? ∧
      ∀ k, (log.accept d).2.Knows k ↔ d.slot = k ∨ log.Knows k := by
  obtain ⟨more, hext, hready⟩ := @accept_extends log _ d h.consumed h.waits
  have hmem {k : UInt64} {e : Decision} (he : e ∈ [d] ∨ log.waiting.find? k = some e) :
      e ∈ ds := by
    rcases he with he | he
    · exact List.mem_singleton.1 he ▸ hd
    · exact h.waiting _ e he
  have hn : (log.accept d).2.consumed = log.consumed + more.length := by
    rw [← hext.consumed.length, List.length_append, h.consumed.length]
  have htake : ds.take log.consumed ++ more = ds.take (log.accept d).2.consumed :=
    take_eq_of_slots hlog hn (fun e he => hmem (hext.origin e he)) hext.consumed.slots h.consumed_le
  have hfirsts (n : Nat) : Decision.firsts (ds.take n) = ds.take n := by
    apply Decision.firsts_eq_self
    rw [List.map_take]
    exact hlog.ids.sublist (List.take_sublist _ _)
  refine ⟨⟨htake ▸ hext.consumed, hext.waits, fun k e he => hmem (hext.waiting k e he)⟩, ?_, ?_⟩
  · rw [htake, hfirsts, hfirsts] at hready
    exact hready
  · intro k
    rw [hext.knows]
    simp

theorem Follows.toNat_nextSlot (h : log.Follows ds) (hlog : Decision.IsLog ds) :
    log.nextSlot.toNat = log.consumed :=
  Nat.mod_eq_of_lt (Nat.lt_of_le_of_lt h.consumed_le hlog.room)

/-- A log that knows all entries has consumed them all. -/
theorem Follows.complete (h : log.Follows ds) (hlog : Decision.IsLog ds)
    (hk : ∀ d ∈ ds, log.Knows d.slot) :
    log.consumed = ds.length ∧ log.waiting = .empty := by
  have hn : log.consumed = ds.length := by
    refine Nat.le_antisymm h.consumed_le (Nat.le_of_not_lt fun hlt => ?_)
    have hslot := hlog.slots _ _ (List.getElem?_eq_getElem hlt)
    exact h.waits.not_knows_next hslot (hk _ (List.getElem_mem hlt))
  refine ⟨hn, OrderedMap.eq_empty_iff.2 fun k => ?_⟩
  refine Option.eq_none_iff_forall_ne_some.2 fun d hd => ?_
  obtain ⟨hs, hlt⟩ := h.waits k d hd
  have hd' := hlog.slot_lt (h.waiting k d hd)
  rw [hs] at hd'
  omega

end Confluence.DecisionLog
