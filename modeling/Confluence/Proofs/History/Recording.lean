import Mathlib.Data.List.Dedup
import Mathlib.Data.List.Flatten
import Mathlib.Data.List.Induction
import Mathlib.Order.Bounds.Basic
import Confluence.Proofs.History.Frontier

namespace Confluence

theorem VectorClock.find?_of_pos {c : VectorClock}
    (hc : ∀ n count, c.entries.find? n = some count → 0 < count) (n : NodeId) :
    c.entries.find? n = if 0 < c.get n then some (c.get n) else none := by
  unfold VectorClock.get
  cases hn : c.entries.find? n with
  | none => rfl
  | some count => exact (if_pos (hc n count hn)).symm

namespace DeliveryFrontier
variable {f g : DeliveryFrontier} {origin x : NodeId} {sequence k : UInt64}
  {records : List (NodeId × UInt64)}

/-- The frontier in which numbers of origins were recorded one after the other. -/
def recordAll (records : List (NodeId × UInt64)) : DeliveryFrontier :=
  records.foldl (fun f r => (f.record r.1 r.2).2) empty

theorem recordAll_concat (records : List (NodeId × UInt64)) (r : NodeId × UInt64) :
    recordAll (records ++ [r]) = ((recordAll records).record r.1 r.2).2 := List.foldl_concat ..

theorem IsMaximal.record_fst (h : f.IsMaximal) (origin : NodeId) (sequence : UInt64) :
    (f.record origin sequence).1 = !f.hasDelivered origin sequence := by
  unfold DeliveryFrontier.record hasDelivered VectorClock.covers
  dsimp only
  split
  · next hle => simp [hle]
  · next hle =>
    split
    · next hnext =>
      have hw : (f.waiting origin).contains sequence = false := by
        rw [← Bool.not_eq_true]
        intro hw
        have hgap := h origin sequence hw
        have hlt := UInt64.not_le.1 hle
        have hsucc := (eq_add_one_iff hlt).1 hnext
        omega
      simp [hle, hw]
    · simp [hle]

theorem IsMaximal.contains_waiting (h : f.IsMaximal) :
    (f.waiting x).contains k = true ↔ f.hasDelivered x k = true ∧ f.contiguous.get x < k := by
  rw [hasDelivered_iff]
  constructor
  · intro hw
    have hgap := h x k hw
    exact ⟨.inr hw, UInt64.lt_iff_toNat_lt.2 (by omega)⟩
  · rintro ⟨hle | hw, hlt⟩
    · exact absurd hle (UInt64.not_le.2 hlt)
    · exact hw

theorem find?_setWaiting (f : DeliveryFrontier) (origin x : NodeId) (s : OrderedSet UInt64) :
    (f.setWaiting origin s).ahead.find? x =
      if x = origin then if s.isEmpty then none else some s else f.ahead.find? x := by
  unfold setWaiting
  dsimp only
  by_cases hs : s.isEmpty = true
  · rw [if_pos hs, if_pos hs, OrderedMap.find?_erase]
  · rw [if_neg hs, if_neg hs, OrderedMap.find?_insert]

/-- A frontier is in canonical form: its counters are as large as they can be, and it has no entry for
an origin with nothing to count or with nothing that waits. -/
structure IsCanonical (f : DeliveryFrontier) : Prop where
  isMaximal : f.IsMaximal
  counted : ∀ x count, f.contiguous.entries.find? x = some count → 0 < count
  waits : ∀ x numbers, f.ahead.find? x = some numbers → numbers.isEmpty = false

theorem isCanonical_empty : empty.IsCanonical := ⟨nofun, nofun, nofun⟩

theorem IsCanonical.waits_setWaiting (h : f.IsCanonical) {s numbers : OrderedSet UInt64}
    (hf : (f.setWaiting origin s).ahead.find? x = some numbers) : numbers.isEmpty = false := by
  rw [find?_setWaiting] at hf
  split at hf
  · split at hf
    · cases hf
    · next hs =>
      cases hf
      exact Bool.not_eq_true _ ▸ hs
  · exact h.waits x numbers hf

theorem IsCanonical.record (h : f.IsCanonical) (origin : NodeId) (sequence : UInt64) :
    (f.record origin sequence).2.IsCanonical := by
  have hmax := h.isMaximal.record origin sequence
  rcases record_cases f origin sequence with ⟨_, he⟩ | ⟨hs, he⟩ | ⟨_, he⟩
  · rw [he]
    exact h
  · obtain ⟨hle, _, _⟩ := h.isMaximal.absorb_waiting hs
    rw [he] at hmax ⊢
    refine ⟨hmax, ?_, fun x numbers => h.waits_setWaiting⟩
    intro x count hx
    rw [VectorClock.advance, OrderedMap.find?_modify] at hx
    split at hx
    · obtain rfl := Option.some.inj hx
      have hpos := UInt64.le_iff_toNat_le.1 hle
      rw [UInt64.lt_iff_toNat_lt]
      split
      · exact Nat.lt_of_lt_of_le (hs ▸ Nat.succ_pos _) hpos
      · next hlt =>
        have hlt := UInt64.lt_iff_toNat_lt.1 (UInt64.not_le.1 hlt)
        exact Nat.lt_of_le_of_lt (Nat.zero_le _) hlt
    · exact h.counted x count hx
  · rw [he] at hmax ⊢
    exact ⟨hmax, h.counted, fun x numbers => h.waits_setWaiting⟩

theorem isCanonical_recordAll (records : List (NodeId × UInt64)) :
    (recordAll records).IsCanonical := by
  induction records using List.reverseRecOn with
  | nil => exact isCanonical_empty
  | append_singleton records r ih =>
    rw [recordAll_concat]
    exact ih.record r.1 r.2

theorem hasDelivered_recordAll (records : List (NodeId × UInt64)) (x : NodeId) (k : UInt64) :
    (recordAll records).hasDelivered x k = true ↔ k = 0 ∨ (x, k) ∈ records := by
  induction records using List.reverseRecOn with
  | nil =>
    rw [hasDelivered_iff]
    change k ≤ 0 ∨ false = true ↔ _
    simp [UInt64.le_zero_iff]
  | append_singleton records r ih =>
    rw [recordAll_concat, (isCanonical_recordAll records).isMaximal.hasDelivered_record, ih,
      List.mem_append, List.mem_singleton, Prod.ext_iff, or_assoc]

theorem IsCanonical.find?_ahead (h : f.IsCanonical) (x : NodeId) :
    f.ahead.find? x = if (f.waiting x).isEmpty then none else some (f.waiting x) := by
  unfold waiting
  cases hx : f.ahead.find? x with
  | none => rfl
  | some numbers => rw [Option.getD_some, h.waits x numbers hx, if_neg Bool.false_ne_true]

theorem exists_delivered {count : Nat} (hle : count ≤ (f.contiguous.get x).toNat) :
    ∃ number : UInt64, number.toNat = count ∧ f.hasDelivered x number = true := by
  have hcount : (UInt64.ofNat count).toNat = count :=
    UInt64.toNat_ofNat_of_lt' (Nat.lt_of_le_of_lt hle (f.contiguous.get x).toNat_lt_size)
  refine ⟨.ofNat count, hcount, hasDelivered_iff.2 (.inl ?_)⟩
  rw [UInt64.le_iff_toNat_le, hcount]
  exact hle

theorem IsMaximal.get_le (hg : g.IsMaximal)
    (h : ∀ x k, f.hasDelivered x k = true → g.hasDelivered x k = true) (x : NodeId) :
    f.contiguous.get x ≤ g.contiguous.get x := by
  rw [UInt64.le_iff_toNat_le]
  apply hg.le_of_forall
  intro k _ hk
  obtain ⟨number, hnumber, hdelivered⟩ := exists_delivered hk
  exact ⟨number, hnumber, h x number hdelivered⟩

/-- A frontier in canonical form is determined by what has been delivered. -/
theorem IsCanonical.ext (hf : f.IsCanonical) (hg : g.IsCanonical)
    (h : ∀ x k, f.hasDelivered x k = true ↔ g.hasDelivered x k = true) : f = g := by
  have hget (x : NodeId) : f.contiguous.get x = g.contiguous.get x :=
    UInt64.le_antisymm (hg.isMaximal.get_le (fun x k => (h x k).1) x)
      (hf.isMaximal.get_le (fun x k => (h x k).2) x)
  have hwaiting (x : NodeId) : f.waiting x = g.waiting x := by
    apply OrderedSet.ext_contains
    intro k
    rw [Bool.eq_iff_iff, hf.isMaximal.contains_waiting, hg.isMaximal.contains_waiting, h, hget]
  have hcontiguous : f.contiguous.entries = g.contiguous.entries := by
    apply OrderedMap.ext_find?
    intro x
    rw [VectorClock.find?_of_pos hf.counted, VectorClock.find?_of_pos hg.counted, hget]
  have hahead : f.ahead = g.ahead := by
    apply OrderedMap.ext_find?
    intro x
    rw [hf.find?_ahead, hg.find?_ahead, hwaiting]
  obtain ⟨⟨c⟩, ahead⟩ := f
  obtain ⟨⟨d⟩, ahead'⟩ := g
  cases hcontiguous
  cases hahead
  rfl

/-- The numbers that wait, each with its origin. -/
def gaps (f : DeliveryFrontier) : List (NodeId × UInt64) :=
  f.ahead.entries.flatMap fun e => e.2.toList.map (e.1, ·)

theorem length_gaps (f : DeliveryFrontier) : f.gaps.length = f.gapCount := by
  have key : ∀ (l : List (NodeId × OrderedSet UInt64)) (n : Nat),
      (l.map (·.2)).foldl (fun n s => n + s.size) n =
        n + (l.flatMap fun e => e.2.toList.map (e.1, ·)).length := by
    intro l
    induction l with
    | nil => exact fun n => rfl
    | cons e l ih =>
      intro n
      rw [List.map_cons, List.foldl_cons, ih, List.flatMap_cons, List.length_append, List.length_map,
        OrderedSet.length_toList, Nat.add_assoc]
  rw [gapCount, OrderedMap.values, key, Nat.zero_add]
  rfl

theorem mem_gaps {r : NodeId × UInt64} : r ∈ f.gaps ↔ (f.waiting r.1).contains r.2 = true := by
  obtain ⟨x, k⟩ := r
  simp only [gaps, List.mem_flatMap, List.mem_map, Prod.mk.injEq, waiting]
  constructor
  · rintro ⟨e, he, k', hk, rfl, rfl⟩
    rw [OrderedMap.find?_eq_some.2 he, Option.getD_some]
    exact OrderedSet.mem_toList.1 hk
  · intro hk
    cases hx : f.ahead.find? x with
    | none =>
      rw [hx] at hk
      cases hk
    | some numbers =>
      rw [hx] at hk
      exact ⟨(x, numbers), OrderedMap.find?_eq_some.1 hx, k, OrderedSet.mem_toList.2 hk, rfl, rfl⟩

theorem nodup_gaps (f : DeliveryFrontier) : f.gaps.Nodup := by
  apply List.nodup_flatMap.2
  constructor
  · intro e _
    have hnodup : e.2.toList.Nodup := e.2.table.nodup_keys
    exact hnodup.map fun k k' h => congrArg Prod.snd h
  · have hkeys : f.ahead.entries.Pairwise fun e e' => e.1 ≠ e'.1 :=
      List.pairwise_map.1 f.ahead.nodup_keys
    apply hkeys.imp
    intro e e' hne r hr hr'
    obtain ⟨k, _, rfl⟩ := List.mem_map.1 hr
    obtain ⟨k', _, hk'⟩ := List.mem_map.1 hr'
    exact hne (congrArg Prod.fst hk').symm

theorem isGreatest_contiguous (records : List (NodeId × UInt64)) (x : NodeId) :
    IsGreatest {m : Nat | ∀ k, 0 < k → k ≤ m → ∃ s, (x, s) ∈ records ∧ s.toNat = k}
      ((recordAll records).contiguous.get x).toNat := by
  constructor
  · intro k hpos hk
    obtain ⟨number, hnumber, hdelivered⟩ := exists_delivered hk
    rcases (hasDelivered_recordAll records x number).1 hdelivered with rfl | hmem
    · exact absurd hnumber (Nat.ne_of_lt hpos)
    · exact ⟨number, hmem, hnumber⟩
  · intro m hm
    apply (isCanonical_recordAll records).isMaximal.le_of_forall
    intro k hpos hk
    obtain ⟨s, hs, hnat⟩ := hm k hpos hk
    exact ⟨s, hnat, (hasDelivered_recordAll records x s).2 (.inr hs)⟩

/-- A frontier shows which numbers were recorded. -/
structure Shows (f : DeliveryFrontier) (records : List (NodeId × UInt64)) : Prop where
  counter : ∀ x, IsGreatest {m : Nat | ∀ k, 0 < k → k ≤ m → ∃ s, (x, s) ∈ records ∧ s.toNat = k}
    (f.contiguous.get x).toNat
  waiting : ∀ x k, (f.waiting x).contains k = true ↔
    (x, k) ∈ records ∧ f.contiguous.get x < k
  gap : ∀ x k, (f.waiting x).contains k = true → k.toNat ≠ (f.contiguous.get x).toNat + 1
  kept : ∀ x numbers, f.ahead.find? x = some numbers → numbers.isEmpty = false
  gapCount : f.gapCount = (records.dedup.filter fun r => f.contiguous.get r.1 < r.2).length
  delivered : ∀ x k, f.hasDelivered x k = true ↔ k = 0 ∨ (x, k) ∈ records

theorem contains_waiting_recordAll : ((recordAll records).waiting x).contains k = true ↔
    (x, k) ∈ records ∧ (recordAll records).contiguous.get x < k := by
  rw [(isCanonical_recordAll records).isMaximal.contains_waiting, hasDelivered_recordAll]
  apply and_congr_left
  intro hlt
  apply or_iff_right
  rintro rfl
  exact UInt64.not_lt_zero hlt

theorem shows_recordAll (records : List (NodeId × UInt64)) : (recordAll records).Shows records where
  counter := isGreatest_contiguous records
  waiting _ _ := contains_waiting_recordAll
  gap x k hk := by
    have hgap := (isCanonical_recordAll records).isMaximal x k hk
    omega
  kept := (isCanonical_recordAll records).waits
  gapCount := by
    rw [← length_gaps]
    apply List.Perm.length_eq
    apply (List.perm_ext_iff_of_nodup (nodup_gaps _) (records.nodup_dedup.filter _)).2
    intro r
    rw [mem_gaps, contains_waiting_recordAll, List.mem_filter, List.mem_dedup, decide_eq_true_iff]
  delivered := hasDelivered_recordAll records

/-- A frontier is a function of the set of numbers recorded in it. In whatever order, and however often,
numbers of origins are recorded, the frontier shows which ones they are, one more is new just if it is
not zero and was not recorded before, and the same numbers recorded in another order give the same
frontier. -/
theorem canonical_recordAll (records : List (NodeId × UInt64)) :
    (recordAll records).Shows records ∧
      (∀ x k, ((recordAll records).record x k).1 = true ↔ 1 ≤ k ∧ (x, k) ∉ records) ∧
      ∀ records', (∀ r, r ∈ records' ↔ r ∈ records) → recordAll records' = recordAll records := by
  refine ⟨shows_recordAll records, ?_, ?_⟩
  · intro x k
    rw [(isCanonical_recordAll records).isMaximal.record_fst, Bool.not_eq_true', ← Bool.not_eq_true,
      hasDelivered_recordAll, not_or, UInt64.le_iff_toNat_le, ← UInt64.toNat_inj]
    exact and_congr_left fun _ => Nat.pos_iff_ne_zero.symm
  · intro records' h
    apply (isCanonical_recordAll records').ext (isCanonical_recordAll records)
    intro x k
    rw [hasDelivered_recordAll, hasDelivered_recordAll, h]

/-- Two origins with gaps, repetitions and a zero, and the same numbers in another order. -/
theorem canonical_recordAll_shuffled :
    let records : List (NodeId × UInt64) :=
      [("a", 3), ("b", 2), ("a", 1), ("a", 3), ("a", 6), ("a", 2), ("b", 0)]
    let records' : List (NodeId × UInt64) :=
      [("b", 0), ("a", 6), ("a", 2), ("a", 2), ("a", 1), ("b", 2), ("a", 3)]
    (∀ r, r ∈ records' ↔ r ∈ records) ∧ recordAll records' = recordAll records ∧
      (recordAll records).contiguous.get "a" = 3 ∧ (recordAll records).gapCount = 2 ∧
      ((recordAll records).record "a" 4).1 = true ∧
      ((recordAll records).record "a" 6).1 = false := by
  intro records records'
  have hsub : records' ⊆ records ∧ records ⊆ records' := by decide
  have hsame (r : NodeId × UInt64) : r ∈ records' ↔ r ∈ records :=
    ⟨fun h => hsub.1 h, fun h => hsub.2 h⟩
  obtain ⟨hshows, hnew, hcongr⟩ := canonical_recordAll records
  refine ⟨hsame, hcongr records' hsame, by decide +kernel, ?_, ?_, ?_⟩
  · rw [hshows.gapCount]
    decide +kernel
  · rw [hnew]
    decide
  · rw [← Bool.not_eq_true, hnew]
    decide

end DeliveryFrontier
end Confluence
