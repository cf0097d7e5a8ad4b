import Mathlib.Data.List.Induction
import Confluence.Consensus.DecisionLog
import Confluence.Proofs.Ordered

namespace Confluence

namespace Decision

/-- Keeps the decisions whose proposal none before them has. -/
def firsts (ds : List Decision) : List Decision :=
  ds.foldl (fun kept d => if kept.any (·.proposal.id = d.proposal.id) then kept else kept ++ [d]) []

theorem firsts_concat (ds : List Decision) (d : Decision) :
    firsts (ds ++ [d]) =
      if (firsts ds).any (·.proposal.id = d.proposal.id) then firsts ds else firsts ds ++ [d] := by
  unfold firsts
  rw [List.foldl_append]
  rfl

theorem mem_ids_firsts {ds : List Decision} {id : ProposalId} :
    (∃ d ∈ firsts ds, d.proposal.id = id) ↔ ∃ d ∈ ds, d.proposal.id = id := by
  induction ds using List.reverseRecOn with
  | nil => rfl
  | append_singleton ds e ih =>
    simp only [List.mem_append, List.mem_singleton, or_and_right, exists_or, exists_eq_left,
      ← ih, firsts_concat]
    by_cases he : (firsts ds).any (·.proposal.id = e.proposal.id)
    · rw [if_pos he]
      obtain ⟨x, hx, hxe⟩ := List.any_eq_true.1 he
      constructor
      · exact .inl
      · rintro (h | h)
        · exact h
        · exact ⟨x, hx, (of_decide_eq_true hxe).trans h⟩
    · rw [if_neg he]
      simp only [List.mem_append, List.mem_singleton, or_and_right, exists_or, exists_eq_left]

theorem firsts_eq_self {ds : List Decision} (h : (ds.map (·.proposal.id)).Nodup) :
    firsts ds = ds := by
  induction ds using List.reverseRecOn with
  | nil => rfl
  | append_singleton ds e ih =>
    rw [List.map_append] at h
    have hds := ih (List.Nodup.of_append_left h)
    have hn : ¬ ds.any (·.proposal.id = e.proposal.id) := by
      intro ha
      obtain ⟨x, hx, hxe⟩ := List.any_eq_true.1 ha
      apply List.disjoint_of_nodup_append h (List.mem_map_of_mem hx)
      rw [of_decide_eq_true hxe]
      exact List.mem_singleton_self _
    rw [firsts_concat, hds, if_neg hn]

end Decision

/-- The decisions that a log hands out. -/
def DecisionStatus.ready? : DecisionStatus → List Decision
  | .ready ds => ds
  | _ => []

namespace DecisionLog

/-- The log has consumed the slots below the next one, and these are their decisions. -/
structure HasConsumed (log : DecisionLog) (ds : List Decision) : Prop where
  slots : ∀ (i : Nat) (d : Decision), ds[i]? = some d → d.slot.toNat = i
  length : ds.length = log.consumed
  applied : ∀ id, log.applied.contains id = true ↔ ∃ d ∈ ds, d.proposal.id = id
  replayed : log.replayed + (Decision.firsts ds).length = log.consumed

/-- Every decision that waits is filed under its slot, and the next slot is not there yet. -/
def WaitsAbove (log : DecisionLog) : Prop :=
  ∀ s d, log.waiting.find? s = some d → d.slot = s ∧ log.consumed < s.toNat

/-- A slot whose decision the log has. -/
def Knows (log : DecisionLog) (s : UInt64) : Prop :=
  s.toNat < log.consumed ∨ ∃ d, log.waiting.find? s = some d

theorem knows_iff {log : DecisionLog} {s : UInt64} :
    log.Knows s ↔ (s.toNat < log.consumed || log.waiting.contains s) = true := by
  simp [Knows, OrderedMap.contains_iff]

theorem accept_of_knows {log : DecisionLog} {d : Decision} (h : log.Knows d.slot) :
    log.accept d = (.duplicate, log) :=
  if_pos (knows_iff.1 h)

theorem hasConsumed_empty : empty.HasConsumed [] where
  slots := by simp
  length := rfl
  applied := by simp [empty]
  replayed := rfl

theorem not_knows_empty (s : UInt64) : ¬ empty.Knows s := by
  rintro (h | ⟨d, h⟩)
  · exact Nat.not_lt_zero _ h
  · cases h

theorem WaitsAbove.not_knows_next {log : DecisionLog} (h : log.WaitsAbove) {s : UInt64}
    (hs : s.toNat = log.consumed) : ¬ log.Knows s := by
  rintro (hlt | ⟨d, hd⟩)
  · exact absurd hlt (hs ▸ Nat.lt_irrefl _)
  · exact absurd (h s d hd).2 (hs ▸ Nat.lt_irrefl _)

theorem HasConsumed.slots_concat {log : DecisionLog} {ds : List Decision} {d : Decision}
    (h : log.HasConsumed ds) (hd : d.slot.toNat = log.consumed) (i : Nat) (e : Decision)
    (he : (ds ++ [d])[i]? = some e) : e.slot.toNat = i := by
  rcases Nat.lt_or_ge i ds.length with hi | hi
  · rw [List.getElem?_append_left hi] at he
    exact h.slots i e he
  · rw [List.getElem?_append_right hi, List.getElem?_singleton] at he
    split at he
    · cases he
      rw [hd, ← h.length]
      omega
    · cases he

@[simp] theorem consume_waiting (log : DecisionLog) (d : Decision) :
    (log.consume d).2.waiting = log.waiting := by
  unfold consume
  split <;> rfl

@[simp] theorem consume_consumed (log : DecisionLog) (d : Decision) :
    (log.consume d).2.consumed = log.consumed + 1 := by
  unfold consume
  split <;> rfl

theorem HasConsumed.consume {log : DecisionLog} {ds : List Decision} {d : Decision}
    (h : log.HasConsumed ds) (hd : d.slot.toNat = log.consumed) :
    (log.consume d).2.HasConsumed (ds ++ [d]) ∧
      Decision.firsts (ds ++ [d]) = Decision.firsts ds ++ (log.consume d).1 := by
  have hlength : (ds ++ [d]).length = log.consumed + 1 := by
    rw [List.length_append, List.length_singleton, h.length]
  have hany : (Decision.firsts ds).any (·.proposal.id = d.proposal.id) =
      log.applied.contains d.proposal.id := by
    rw [Bool.eq_iff_iff, h.applied, ← Decision.mem_ids_firsts, List.any_eq_true]
    simp only [decide_eq_true_eq]
  have hids (id : ProposalId) : (∃ e ∈ ds ++ [d], e.proposal.id = id) ↔
      d.proposal.id = id ∨ log.applied.contains id = true := by
    simp only [h.applied, List.mem_append, List.mem_singleton, or_and_right, exists_or,
      exists_eq_left]
    exact or_comm
  have hreplayed := h.replayed
  unfold DecisionLog.consume
  by_cases ha : log.applied.contains d.proposal.id = true
  · have hfirsts : Decision.firsts (ds ++ [d]) = Decision.firsts ds := by
      rw [Decision.firsts_concat, hany, if_pos ha]
    rw [if_pos ha, hfirsts]
    refine ⟨⟨h.slots_concat hd, hlength, ?_, ?_⟩, (List.append_nil _).symm⟩
    · intro id
      rw [hids]
      exact ⟨.inr, fun hid => hid.elim (fun he => he ▸ ha) fun hid => hid⟩
    · rw [hfirsts]
      change log.replayed + 1 + _ = log.consumed + 1
      omega
  · have hfirsts : Decision.firsts (ds ++ [d]) = Decision.firsts ds ++ [d] := by
      rw [Decision.firsts_concat, hany, if_neg ha]
    rw [if_neg ha, hfirsts]
    refine ⟨⟨h.slots_concat hd, hlength, ?_, ?_⟩, rfl⟩
    · intro id
      rw [hids, OrderedSet.contains_insert, eq_comm]
    · rw [hfirsts, List.length_append, List.length_singleton]
      change log.replayed + _ = log.consumed + 1
      omega

/-- One log comes out of another by taking in decisions from a set: it has consumed some more, and
knows the slots of the set besides those that it knew. -/
structure Extends (log log' : DecisionLog) (ds more : List Decision) (taken : List Decision) :
    Prop where
  consumed : log'.HasConsumed (ds ++ more)
  waits : log'.WaitsAbove
  origin : ∀ d ∈ more, d ∈ taken ∨ log.waiting.find? d.slot = some d
  waiting : ∀ k d, log'.waiting.find? k = some d → d ∈ taken ∨ log.waiting.find? k = some d
  knows : ∀ k, log'.Knows k ↔ (∃ d ∈ taken, d.slot = k) ∨ log.Knows k

theorem Extends.refl {log : DecisionLog} {ds : List Decision} (h : log.HasConsumed ds)
    (hw : log.WaitsAbove) : log.Extends log ds [] [] where
  consumed := by rwa [List.append_nil]
  waits := hw
  origin := by simp
  waiting := fun _ _ h => .inr h
  knows := by simp

/-- The next slot is consumed first, by a decision taken in or by one that has waited. -/
theorem Extends.cons {log log₁ log' : DecisionLog} {ds more taken : List Decision} {d : Decision}
    (h : log₁.Extends log' (ds ++ [d]) more [])
    (hd : d ∈ taken ∨ log.waiting.find? d.slot = some d)
    (hw : ∀ k e, log₁.waiting.find? k = some e → log.waiting.find? k = some e)
    (hk : ∀ k, log₁.Knows k ↔ (∃ e ∈ taken, e.slot = k) ∨ log.Knows k) :
    log.Extends log' ds (d :: more) taken where
  consumed := by
    rw [List.append_cons]
    exact h.consumed
  waits := h.waits
  origin e he := by
    rcases List.mem_cons.1 he with rfl | he
    · exact hd
    · exact .inr (hw _ e ((h.origin e he).resolve_left List.not_mem_nil))
  waiting k e hke := .inr (hw k e ((h.waiting k e hke).resolve_left List.not_mem_nil))
  knows k := by
    rw [h.knows, hk]
    simp

/-- The log after the decision that waits for the next slot. -/
def consumeWaiting (log : DecisionLog) (slot : UInt64) (d : Decision) : DecisionLog :=
  (consume { log with waiting := log.waiting.erase slot } d).2

theorem find?_consumeWaiting (log : DecisionLog) (slot : UInt64) (d : Decision) (k : UInt64) :
    (log.consumeWaiting slot d).waiting.find? k =
      if k = slot then none else log.waiting.find? k := by
  unfold consumeWaiting
  rw [consume_waiting]
  exact OrderedMap.find?_erase ..

theorem waiting_of_consumeWaiting {log : DecisionLog} {slot : UInt64} {d : Decision} {k : UInt64}
    {e : Decision} (h : (log.consumeWaiting slot d).waiting.find? k = some e) :
    k ≠ slot ∧ log.waiting.find? k = some e := by
  rw [find?_consumeWaiting] at h
  split at h
  · cases h
  · next hne => exact ⟨hne, h⟩

theorem entries_consumeWaiting {log : DecisionLog} {slot : UInt64} {d : Decision}
    {rest : List (UInt64 × Decision)} (he : log.waiting.entries = (slot, d) :: rest) :
    (log.consumeWaiting slot d).waiting.entries = rest := by
  have hsorted := log.waiting.sorted
  rw [he] at hsorted
  have hrest := (List.pairwise_cons.1 hsorted).1
  unfold consumeWaiting
  rw [consume_waiting]
  change log.waiting.entries.filter _ = rest
  rw [he, List.filter_cons_of_neg (by simp [Std.ReflCmp.compare_self])]
  apply List.filter_eq_self.2
  intro e he
  simp [hrest e he]

theorem knows_consumeWaiting {log : DecisionLog} {slot : UInt64} {d : Decision}
    (hd : log.waiting.find? slot = some d) (hs : slot.toNat = log.consumed) (k : UInt64) :
    (log.consumeWaiting slot d).Knows k ↔ log.Knows k := by
  unfold Knows
  rw [find?_consumeWaiting]
  unfold consumeWaiting
  rw [consume_consumed]
  change k.toNat < log.consumed + 1 ∨ _ ↔ _
  by_cases hk : k = slot
  · subst hk
    exact ⟨fun _ => .inr ⟨d, hd⟩, fun _ => .inl (Nat.lt_succ_of_le (Nat.le_of_eq hs))⟩
  · have hne : k.toNat ≠ log.consumed := fun he => hk (UInt64.toNat_inj.1 (he.trans hs.symm))
    rw [if_neg hk, Nat.lt_succ_iff_lt_or_eq, or_iff_left hne]

/-- Draining takes nothing in; it moves waiting decisions to the consumed ones. -/
theorem drain_extends {log : DecisionLog} {entries : List (UInt64 × Decision)}
    {ds : List Decision} (h : log.HasConsumed ds) (he : log.waiting.entries = entries)
    (hw : ∀ k d, log.waiting.find? k = some d → d.slot = k ∧ log.consumed ≤ k.toNat) :
    ∃ more, log.Extends (log.drain entries).2 ds more [] ∧
      Decision.firsts (ds ++ more) = Decision.firsts ds ++ (log.drain entries).1 := by
  induction entries generalizing log ds with
  | nil =>
    refine ⟨[], .refl h ?_, by simp [drain]⟩
    intro k d hk
    rw [OrderedMap.find?_eq_some, he] at hk
    cases hk
  | cons e rest ih =>
    obtain ⟨slot, d⟩ := e
    have hd : log.waiting.find? slot = some d := by
      rw [OrderedMap.find?_eq_some, he]
      exact List.mem_cons_self
    obtain ⟨hslot, hle⟩ := hw slot d hd
    have hsorted := log.waiting.sorted
    rw [he] at hsorted
    have hrest := (List.pairwise_cons.1 hsorted).1
    unfold drain
    by_cases hx : slot.toNat = log.consumed
    · rw [if_pos hx]
      have herased : HasConsumed { log with waiting := log.waiting.erase slot } ds :=
        ⟨h.slots, h.length, h.applied, h.replayed⟩
      obtain ⟨h₁, hready⟩ := herased.consume (hslot ▸ hx)
      have hw₁ : ∀ k e, (log.consumeWaiting slot d).waiting.find? k = some e →
          e.slot = k ∧ (log.consumeWaiting slot d).consumed ≤ k.toNat := by
        intro k e hk
        obtain ⟨hne, hk⟩ := waiting_of_consumeWaiting hk
        obtain ⟨hek, hle⟩ := hw k e hk
        unfold consumeWaiting
        rw [consume_consumed]
        refine ⟨hek, Nat.lt_of_le_of_ne hle fun heq => hne (UInt64.toNat_inj.1 ?_)⟩
        exact heq.symm.trans hx.symm
      obtain ⟨more, hm, hf⟩ := ih h₁ (entries_consumeWaiting he) hw₁
      refine ⟨d :: more, hm.cons (.inr (hslot ▸ hd))
        (fun k e hk => (waiting_of_consumeWaiting hk).2) fun k => ?_, ?_⟩
      · rw [← consumeWaiting, knows_consumeWaiting hd hx]
        simp
      · rw [List.append_cons, hf, hready, List.append_assoc]
    · rw [if_neg hx]
      refine ⟨[], .refl h ?_, by simp⟩
      -- The slots that wait are listed in order, so all of them are beyond the gap.
      have hlt : log.consumed < slot.toNat := Nat.lt_of_le_of_ne hle (Ne.symm hx)
      intro k e hk
      refine ⟨(hw k e hk).1, ?_⟩
      rw [OrderedMap.find?_eq_some, he] at hk
      rcases List.mem_cons.1 hk with hk | hk
      · cases hk
        exact hlt
      · have hks : slot < k := Std.compare_eq_lt.1 (hrest _ hk)
        exact Nat.lt_trans hlt (UInt64.lt_iff_toNat_lt.1 hks)

theorem accept_next {log : DecisionLog} {d : Decision} (hd : d.slot.toNat = log.consumed)
    (hdup : (d.slot.toNat < log.consumed || log.waiting.contains d.slot) = false) :
    (log.accept d).2 = ((log.consume d).2.drain (log.consume d).2.waiting.entries).2 ∧
      (log.accept d).1.ready? =
        (log.consume d).1 ++ ((log.consume d).2.drain (log.consume d).2.waiting.entries).1 := by
  unfold accept
  rw [if_neg (Bool.eq_false_iff.1 hdup), if_neg (hd ▸ Nat.lt_irrefl _)]
  dsimp only
  generalize (log.consume d).1 ++ _ = l
  cases l <;> exact ⟨rfl, rfl⟩

theorem accept_extends_known {log : DecisionLog} {ds : List Decision} {d : Decision}
    (h : log.HasConsumed ds) (hw : log.WaitsAbove)
    (hdup : (d.slot.toNat < log.consumed || log.waiting.contains d.slot) = true) :
    log.Extends (log.accept d).2 ds [] [d] ∧ (log.accept d).1.ready? = [] := by
  unfold accept
  rw [if_pos hdup]
  have hk : log.Knows d.slot := by
    simpa [Knows, OrderedMap.contains_iff] using hdup
  refine ⟨⟨by rwa [List.append_nil], hw, by simp, fun _ _ h => .inr h, ?_⟩, rfl⟩
  intro k
  simp only [List.mem_singleton, exists_eq_left, iff_or_self]
  rintro rfl
  exact hk

/-- A decision further on is kept. -/
theorem accept_extends_ahead {log : DecisionLog} {ds : List Decision} {d : Decision}
    (h : log.HasConsumed ds) (hw : log.WaitsAbove)
    (hdup : (d.slot.toNat < log.consumed || log.waiting.contains d.slot) = false)
    (hlt : log.consumed < d.slot.toNat) :
    log.Extends (log.accept d).2 ds [] [d] ∧ (log.accept d).1.ready? = [] := by
  unfold accept
  rw [if_neg (Bool.eq_false_iff.1 hdup), if_pos hlt]
  have hfind (k : UInt64) : (log.waiting.insert d.slot d).find? k =
      if k = d.slot then some d else log.waiting.find? k := OrderedMap.find?_insert ..
  refine ⟨⟨?_, ?_, by simp, ?_, ?_⟩, rfl⟩
  · rw [List.append_nil]
    exact ⟨h.slots, h.length, h.applied, h.replayed⟩
  · intro k e hk
    rw [hfind] at hk
    split at hk
    · next hkd =>
      cases hk
      exact ⟨hkd.symm, hkd ▸ hlt⟩
    · exact hw k e hk
  · intro k e hk
    rw [hfind] at hk
    split at hk
    · cases hk
      exact .inl (List.mem_singleton_self _)
    · exact .inr hk
  · intro k
    simp only [Knows, hfind, List.mem_singleton, exists_eq_left]
    by_cases hk : k = d.slot
    · simp [hk]
    · simp [hk, Ne.symm hk]

/-- The decision for the next slot is consumed, with those that waited for it. -/
theorem accept_extends_next {log : DecisionLog} {ds : List Decision} {d : Decision}
    (h : log.HasConsumed ds) (hw : log.WaitsAbove)
    (hdup : (d.slot.toNat < log.consumed || log.waiting.contains d.slot) = false)
    (hd : d.slot.toNat = log.consumed) :
    ∃ more, log.Extends (log.accept d).2 ds more [d] ∧
      Decision.firsts (ds ++ more) = Decision.firsts ds ++ (log.accept d).1.ready? := by
  obtain ⟨h₁, hready⟩ := h.consume hd
  have hw₁ : ∀ k e, (log.consume d).2.waiting.find? k = some e →
      e.slot = k ∧ (log.consume d).2.consumed ≤ k.toNat := by
    intro k e hk
    rw [consume_waiting] at hk
    rw [consume_consumed]
    exact hw k e hk
  obtain ⟨more, hm, hf⟩ := drain_extends h₁ rfl hw₁
  have hknows (k : UInt64) : (log.consume d).2.Knows k ↔ d.slot = k ∨ log.Knows k := by
    unfold Knows
    rw [consume_waiting, consume_consumed, Nat.lt_succ_iff_lt_or_eq, ← hd, UInt64.toNat_inj,
      or_assoc, eq_comm, or_left_comm]
  obtain ⟨hlog, hstatus⟩ := accept_next hd hdup
  rw [hlog, hstatus]
  refine ⟨d :: more, hm.cons (.inl (List.mem_singleton_self d))
    (fun k e hk => log.consume_waiting d ▸ hk) fun k => ?_, ?_⟩
  · rw [hknows]
    simp
  · rw [List.append_cons, hf, hready, List.append_assoc]

theorem accept_extends {log : DecisionLog} {ds : List Decision} {d : Decision}
    (h : log.HasConsumed ds) (hw : log.WaitsAbove) :
    ∃ more, log.Extends (log.accept d).2 ds more [d] ∧
      Decision.firsts (ds ++ more) = Decision.firsts ds ++ (log.accept d).1.ready? := by
  by_cases hdup : (d.slot.toNat < log.consumed || log.waiting.contains d.slot) = true
  · obtain ⟨hext, hready⟩ := accept_extends_known h hw hdup
    exact ⟨[], hext, by rw [hready, List.append_nil, List.append_nil]⟩
  · have hdup := Bool.eq_false_iff.2 hdup
    rcases Nat.lt_trichotomy log.consumed d.slot.toNat with hlt | heq | hgt
    · obtain ⟨hext, hready⟩ := accept_extends_ahead h hw hdup hlt
      exact ⟨[], hext, by rw [hready, List.append_nil, List.append_nil]⟩
    · exact accept_extends_next h hw hdup heq.symm
    · simp [hgt] at hdup

theorem HasConsumed.eq_of_slots {log log' : DecisionLog} {ds es : List Decision}
    (h : log.HasConsumed ds) (h' : log'.HasConsumed es) (hn : log.consumed = log'.consumed)
    (hd : ∀ d ∈ ds, ∀ e ∈ es, d.slot = e.slot → d = e) : ds = es := by
  have hlen : ds.length = es.length := by rw [h.length, h'.length, hn]
  apply List.ext_getElem hlen
  intro i hi hi'
  apply hd _ (List.getElem_mem hi) _ (List.getElem_mem hi')
  rw [← UInt64.toNat_inj, h.slots i _ (List.getElem?_eq_getElem hi),
    h'.slots i _ (List.getElem?_eq_getElem hi')]

theorem HasConsumed.consumed_le {log log' : DecisionLog} {ds : List Decision}
    (h : log.HasConsumed ds) (hw : log'.WaitsAbove) (hk : ∀ k, log.Knows k → log'.Knows k) :
    log.consumed ≤ log'.consumed := by
  refine Nat.le_of_not_lt fun hlt => ?_
  have hi : log'.consumed < ds.length := h.length ▸ hlt
  have hslot : ds[log'.consumed].slot.toNat = log'.consumed :=
    h.slots _ _ (List.getElem?_eq_getElem hi)
  exact hw.not_knows_next hslot (hk _ (.inl (hslot.symm ▸ hlt)))

theorem WaitsAbove.find?_eq {log log' : DecisionLog} {D : Decision → Prop} {k : UInt64}
    {d : Decision} (hD : ∀ d e, D d → D e → d.slot = e.slot → d = e) (hw : log.WaitsAbove)
    (hw' : log'.WaitsAbove) (hn : log.consumed = log'.consumed)
    (hd : ∀ k d, log.waiting.find? k = some d → D d)
    (he : ∀ k d, log'.waiting.find? k = some d → D d) (hk : log.Knows k → log'.Knows k)
    (h : log.waiting.find? k = some d) : log'.waiting.find? k = some d := by
  obtain ⟨hs, hlt⟩ := hw k d h
  rcases hk (.inr ⟨d, h⟩) with hlt' | ⟨e, hke⟩
  · exact absurd hlt' (Nat.lt_asymm (hn ▸ hlt))
  · rw [hD d e (hd k d h) (he k e hke) (hs.trans (hw' k e hke).1.symm)]
    exact hke

/-- Logs that know the same slots, and the same decision at each, are the same. -/
theorem eq_of_knows {log log' : DecisionLog} {ds es : List Decision} {D : Decision → Prop}
    (hD : ∀ d e, D d → D e → d.slot = e.slot → d = e)
    (h : log.HasConsumed ds) (hw : log.WaitsAbove)
    (hd : (∀ d ∈ ds, D d) ∧ ∀ k d, log.waiting.find? k = some d → D d)
    (h' : log'.HasConsumed es) (hw' : log'.WaitsAbove)
    (he : (∀ d ∈ es, D d) ∧ ∀ k d, log'.waiting.find? k = some d → D d)
    (hk : ∀ k, log.Knows k ↔ log'.Knows k) : ds = es ∧ log = log' := by
  have hconsumed : log.consumed = log'.consumed :=
    Nat.le_antisymm (h.consumed_le hw' fun k => (hk k).1) (h'.consumed_le hw fun k => (hk k).2)
  have hds : ds = es :=
    h.eq_of_slots h' hconsumed fun d hdd e hee => hD d e (hd.1 d hdd) (he.1 e hee)
  subst hds
  refine ⟨rfl, ?_⟩
  have hwaiting : log.waiting = log'.waiting := by
    apply OrderedMap.ext_find?
    intro k
    apply Option.ext
    intro d
    exact ⟨hw.find?_eq hD hw' hconsumed hd.2 he.2 (hk k).1,
      hw'.find?_eq hD hw hconsumed.symm he.2 hd.2 (hk k).2⟩
  have happlied : log.applied = log'.applied := by
    apply OrderedSet.ext_contains
    intro id
    rw [Bool.eq_iff_iff, h.applied, h'.applied]
  have hreplayed : log.replayed = log'.replayed := by
    have h₁ := h.replayed
    have h₂ := h'.replayed
    omega
  cases log
  cases log'
  cases hconsumed
  cases hwaiting
  cases happlied
  cases hreplayed
  rfl

end DecisionLog
end Confluence
