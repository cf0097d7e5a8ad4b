import Confluence.Proofs.Consensus.DecisionLog

namespace Confluence

/-- The decisions of the slots from 0 on, in slot order, up to the first that was not presented. -/
structure Decision.IsRun (presented run : List Decision) : Prop where
  slots : ∀ (i : Nat) (d : Decision), run[i]? = some d → d ∈ presented ∧ d.slot.toNat = i
  gap : ∀ d ∈ presented, d.slot.toNat ≠ run.length

namespace Decision.IsRun
variable {ds run run' : List Decision}

theorem length_le (h : IsRun ds run) (h' : IsRun ds run') : run.length ≤ run'.length := by
  apply Nat.le_of_not_lt
  intro hlt
  obtain ⟨hmem, hslot⟩ := h.slots run'.length _ (List.getElem?_eq_getElem hlt)
  exact h'.gap _ hmem hslot

theorem unique (hD : ∀ d ∈ ds, ∀ e ∈ ds, d.slot = e.slot → d = e) (h : IsRun ds run)
    (h' : IsRun ds run') : run = run' := by
  apply List.ext_getElem (Nat.le_antisymm (h.length_le h') (h'.length_le h))
  intro i hi hi'
  obtain ⟨hmem, hslot⟩ := h.slots i _ (List.getElem?_eq_getElem hi)
  obtain ⟨hmem', hslot'⟩ := h'.slots i _ (List.getElem?_eq_getElem hi')
  apply hD _ hmem _ hmem'
  rw [← UInt64.toNat_inj, hslot, hslot']

end Decision.IsRun

namespace DecisionLog

/-- Presents decisions one after another: what the log answered to each, and what it has become. -/
def acceptAll (log : DecisionLog) (ds : List Decision) : List DecisionStatus × DecisionLog :=
  ds.foldl (fun (statuses, log) d =>
    let (status, log) := log.accept d
    (statuses ++ [status], log)) ([], log)

variable {log : DecisionLog} {ds es run : List Decision} {statuses : List DecisionStatus}
  {d : Decision}

theorem acceptAll_concat (log : DecisionLog) (ds : List Decision) (d : Decision) :
    log.acceptAll (ds ++ [d]) =
      ((log.acceptAll ds).1 ++ [((log.acceptAll ds).2.accept d).1],
        ((log.acceptAll ds).2.accept d).2) := by
  rw [acceptAll, List.foldl_append]
  rfl

theorem accept_eq_duplicate_iff : (log.accept d).1 = .duplicate ↔ log.Knows d.slot := by
  rw [knows_iff, accept]
  split
  · next hdup => exact iff_of_true rfl hdup
  · next hdup =>
    apply iff_of_false _ hdup
    split
    · simp
    · dsimp only
      split <;> simp

/-- What a log has become that decisions were presented to. It has consumed the decisions `run`. -/
structure Presented (ds : List Decision) (statuses : List DecisionStatus) (log : DecisionLog)
    (run : List Decision) : Prop where
  consumed : log.HasConsumed run
  waits : log.WaitsAbove
  origin : ∀ d ∈ run, d ∈ ds
  waiting : ∀ k d, log.waiting.find? k = some d → d ∈ ds
  knows : ∀ k, log.Knows k ↔ ∃ d ∈ ds, d.slot = k
  handed : statuses.flatMap (·.ready?) = Decision.firsts run
  length : statuses.length = ds.length
  duplicates : ∀ i, statuses[i]? = some .duplicate ↔
    ∃ d, ds[i]? = some d ∧ ∃ e ∈ ds.take i, e.slot = d.slot

theorem presented_nil : Presented [] [] empty [] where
  consumed := hasConsumed_empty
  waits := by
    intro k d h
    cases h
  origin := by simp
  waiting := by
    intro k d h
    cases h
  knows k := by
    apply iff_of_false (not_knows_empty k)
    simp
  handed := rfl
  length := rfl
  duplicates := by simp

theorem Presented.duplicates_concat (h : Presented ds statuses log run) (i : Nat) :
    (statuses ++ [(log.accept d).1])[i]? = some .duplicate ↔
      ∃ e, (ds ++ [d])[i]? = some e ∧ ∃ f ∈ (ds ++ [d]).take i, f.slot = e.slot := by
  rcases Nat.lt_trichotomy i ds.length with hi | rfl | hi
  · rw [List.getElem?_append_left (h.length.symm ▸ hi), List.getElem?_append_left hi,
      List.take_append_of_le_length (Nat.le_of_lt hi)]
    exact h.duplicates i
  · have hlast : (statuses ++ [(log.accept d).1])[ds.length]? = some (log.accept d).1 := by
      rw [← h.length]
      exact List.getElem?_concat_length
    rw [hlast, List.getElem?_concat_length, List.take_left]
    simp only [Option.some.injEq, exists_eq_left']
    exact accept_eq_duplicate_iff.trans (h.knows d.slot)
  · rw [List.getElem?_eq_none (by simp [h.length]; omega), List.getElem?_eq_none (by simp; omega)]
    simp

theorem Presented.accept (h : Presented ds statuses log run) (d : Decision) :
    ∃ more, Presented (ds ++ [d]) (statuses ++ [(log.accept d).1]) (log.accept d).2
      (run ++ more) := by
  obtain ⟨more, hext, hready⟩ := @accept_extends log run d h.consumed h.waits
  have hmem {k : UInt64} {e : Decision} (he : e ∈ [d] ∨ log.waiting.find? k = some e) :
      e ∈ ds ++ [d] := by
    rcases he with he | he
    · exact List.mem_append_right _ he
    · exact List.mem_append_left _ (h.waiting k e he)
  refine ⟨more, hext.consumed, hext.waits, ?_, fun k e he => hmem (hext.waiting k e he), ?_, ?_, ?_,
    h.duplicates_concat⟩
  · intro e he
    rcases List.mem_append.1 he with he | he
    · exact List.mem_append_left _ (h.origin e he)
    · exact hmem (hext.origin e he)
  · intro k
    rw [hext.knows, h.knows]
    simp only [List.mem_append, or_and_right, exists_or]
    exact or_comm
  · rw [List.flatMap_append, List.flatMap_singleton, h.handed, hready]
  · simp [h.length]

theorem presented_acceptAll (ds : List Decision) :
    ∃ run, Presented ds (empty.acceptAll ds).1 (empty.acceptAll ds).2 run := by
  induction ds using List.reverseRecOn with
  | nil => exact ⟨[], presented_nil⟩
  | append_singleton ds d ih =>
    obtain ⟨run, h⟩ := ih
    obtain ⟨more, h⟩ := h.accept d
    rw [acceptAll_concat]
    exact ⟨run ++ more, h⟩

theorem Presented.isRun (h : Presented ds statuses log run) : Decision.IsRun ds run where
  slots i d hi := ⟨h.origin d (List.mem_of_getElem? hi), h.consumed.slots i d hi⟩
  gap d hd hslot := by
    rw [h.consumed.length] at hslot
    exact h.waits.not_knows_next hslot ((h.knows d.slot).2 ⟨d, hd, rfl⟩)

theorem Presented.toNat_nextSlot (h : Presented ds statuses log run)
    (hslots : ∀ d ∈ ds, d.slot.toNat < UInt64.size - 1) : log.nextSlot.toNat = run.length := by
  have hlt : log.consumed < UInt64.size := by
    cases hn : log.consumed with
    | zero => decide
    | succ n =>
      have hi : n < run.length := by
        rw [h.consumed.length, hn]
        exact Nat.lt_succ_self n
      have hslot := h.consumed.slots n _ (List.getElem?_eq_getElem hi)
      have hmax := hslots _ (h.origin _ (List.getElem_mem hi))
      omega
  rw [h.consumed.length]
  exact Nat.mod_eq_of_lt hlt

theorem Presented.find?_waiting (h : Presented ds statuses log run)
    (hD : ∀ d ∈ ds, ∀ e ∈ ds, d.slot = e.slot → d = e) (k : UInt64) :
    log.waiting.find? k = some d ↔ d ∈ ds ∧ d.slot = k ∧ run.length < k.toNat := by
  rw [h.consumed.length]
  constructor
  · intro hk
    obtain ⟨hslot, hlt⟩ := h.waits k d hk
    exact ⟨h.waiting k d hk, hslot, hlt⟩
  · rintro ⟨hd, hslot, hlt⟩
    rcases (h.knows k).2 ⟨d, hd, hslot⟩ with hk | ⟨e, hk⟩
    · exact absurd hk (Nat.lt_asymm hlt)
    · have he : e.slot = d.slot := (h.waits k e hk).1.trans hslot.symm
      rw [← hD e (h.waiting k e hk) d hd he]
      exact hk

theorem Presented.log_eq {log' : DecisionLog} {statuses' : List DecisionStatus}
    {run' : List Decision} (h : Presented ds statuses log run)
    (h' : Presented es statuses' log' run')
    (hD : ∀ d ∈ ds, ∀ e ∈ ds, d.slot = e.slot → d = e) (hes : ∀ d, d ∈ es ↔ d ∈ ds) :
    log' = log := by
  have hD' : ∀ d e, d ∈ ds → e ∈ ds → d.slot = e.slot → d = e := fun d e hd he => hD d hd e he
  have hknows : ∀ k, log'.Knows k ↔ log.Knows k := by
    intro k
    rw [h'.knows, h.knows]
    simp only [hes]
  exact (eq_of_knows hD'
    h'.consumed h'.waits ⟨fun d hd => (hes d).1 (h'.origin d hd),
      fun k d hk => (hes d).1 (h'.waiting k d hk)⟩
    h.consumed h.waits ⟨h.origin, h.waiting⟩ hknows).2

/-- The log is exactly-once and does not depend on the order. Whatever decisions are presented, as
often as may be, it has consumed the run of their slots from 0 on; it has handed out the decisions
of the run in slot order, of every proposal the first one, and counted the others; it keeps exactly
those beyond the first missing slot; and it has answered that a decision is a duplicate exactly
where the slot was presented before. -/
theorem presented_once (hD : ∀ d ∈ ds, ∀ e ∈ ds, d.slot = e.slot → d = e)
    (hslots : ∀ d ∈ ds, d.slot.toNat < UInt64.size - 1) :
    let statuses := (empty.acceptAll ds).1
    let log := (empty.acceptAll ds).2
    (∃ run, Decision.IsRun ds run) ∧
      (∀ run, Decision.IsRun ds run →
        log.nextSlot.toNat = run.length ∧
          statuses.flatMap (·.ready?) = Decision.firsts run ∧
          log.replayed + (Decision.firsts run).length = run.length ∧
          (∀ k d, log.waiting.find? k = some d ↔ d ∈ ds ∧ d.slot = k ∧ run.length < k.toNat) ∧
          ∀ id, log.isProposalApplied id = true ↔ ∃ d ∈ run, d.proposal.id = id) ∧
      (∀ i, statuses[i]? = some .duplicate ↔
        ∃ d, ds[i]? = some d ∧ ∃ e ∈ ds.take i, e.slot = d.slot) ∧
      ∀ es, (∀ d, d ∈ es ↔ d ∈ ds) → (empty.acceptAll es).2 = log := by
  intro statuses log
  obtain ⟨run₀, h⟩ := presented_acceptAll ds
  refine ⟨⟨run₀, h.isRun⟩, ?_, h.duplicates, ?_⟩
  · intro run hrun
    obtain rfl : run = run₀ := hrun.unique hD h.isRun
    refine ⟨h.toNat_nextSlot hslots, h.handed, ?_, fun k d => h.find?_waiting hD k,
      h.consumed.applied⟩
    rw [h.consumed.length]
    exact h.consumed.replayed
  · intro es hes
    obtain ⟨run', h'⟩ := presented_acceptAll es
    exact h.log_eq h' hD hes

/-- A repeated proposal waits behind a gap, two slots are presented twice, and one stays ahead. -/
theorem presented_once_gap :
    let p : Proposal := ⟨Uuid.ofNat 1, "a", [.overwrite "title" "draft"], .empty⟩
    let q : Proposal := ⟨Uuid.ofNat 2, "b", [.overwrite "title" "final"], .empty⟩
    let ds : List Decision := [⟨2, p⟩, ⟨4, q⟩, ⟨0, p⟩, ⟨2, p⟩, ⟨1, q⟩, ⟨0, p⟩]
    let statuses := (empty.acceptAll ds).1
    let log := (empty.acceptAll ds).2
    statuses = [.buffered, .buffered, .ready [⟨0, p⟩], .duplicate, .ready [⟨1, q⟩], .duplicate] ∧
      (log.nextSlot, log.replayed) = (3, 1) ∧
      (empty.acceptAll [⟨0, p⟩, ⟨1, q⟩, ⟨2, p⟩, ⟨4, q⟩]).2 = log ∧
      ∃ run, Decision.IsRun ds run := by
  intro p q ds statuses log
  have hD : ∀ d ∈ ds, ∀ e ∈ ds, d.slot = e.slot → d = e := by decide
  have hslots : ∀ d ∈ ds, d.slot.toNat < UInt64.size - 1 := by decide
  obtain ⟨hrun, _, _, horder⟩ := presented_once hD hslots
  refine ⟨by decide, by decide, horder _ ?_, hrun⟩
  intro d
  simp only [ds, List.mem_cons, List.not_mem_nil, or_false]
  tauto

end DecisionLog
end Confluence
