import Confluence.History
import Confluence.Message
import Confluence.Proofs.Ordered
import Confluence.Proofs.VectorClock

namespace Confluence.DeliveryFrontier

theorem eq_add_one_iff {last n : UInt64} (h : last < n) :
    n = last + 1 ↔ n.toNat = last.toNat + 1 := by
  have hadd := UInt64.toNat_add last 1
  have h1 : (1 : UInt64).toNat = 1 := rfl
  have hlt := UInt64.lt_iff_toNat_lt.1 h
  have hn := n.toNat_lt
  rw [← UInt64.toNat_inj]
  omega

/-- A run of consecutive numbers is taken from the front of an increasing list: its end covers what
is taken, and the next number is not among those that are left. -/
theorem absorb_spec {last : UInt64} {l : List UInt64} (hs : l.Pairwise (· < ·))
    (hl : ∀ k ∈ l, last < k) :
    last ≤ (absorb last l).1 ∧
      (∀ k, k ∈ l ↔ (last < k ∧ k ≤ (absorb last l).1) ∨ k ∈ (absorb last l).2) ∧
      ∀ k ∈ (absorb last l).2, (absorb last l).1.toNat + 1 < k.toNat := by
  induction l generalizing last with
  | nil =>
    refine ⟨UInt64.le_refl _, fun k => ?_, by simp [absorb]⟩
    simp only [absorb, List.not_mem_nil, or_false, false_iff, not_and, UInt64.not_le]
    exact id
  | cons n l ih =>
    obtain ⟨hn, hs⟩ := List.pairwise_cons.1 hs
    have hlast : last < n := hl n List.mem_cons_self
    rw [absorb]
    split
    · next he =>
      obtain ⟨hle, hmem, hrest⟩ := ih hs hn
      refine ⟨UInt64.le_trans (UInt64.le_of_lt hlast) hle, fun k => ?_, hrest⟩
      have hsucc := (eq_add_one_iff hlast).1 he
      have hnext : last < k ↔ k = n ∨ n < k := by
        rw [← UInt64.toNat_inj, UInt64.lt_iff_toNat_lt, UInt64.lt_iff_toNat_lt]
        omega
      rw [List.mem_cons, hmem, hnext]
      constructor
      · rintro (rfl | ⟨h, h'⟩ | h)
        · exact .inl ⟨.inl rfl, hle⟩
        · exact .inl ⟨.inr h, h'⟩
        · exact .inr h
      · rintro (⟨rfl | h, h'⟩ | h)
        · exact .inl rfl
        · exact .inr (.inl ⟨h, h'⟩)
        · exact .inr (.inr h)
    · next he =>
      have hgap : last.toNat + 1 < n.toNat :=
        Nat.lt_of_le_of_ne (UInt64.lt_iff_toNat_lt.1 hlast)
          fun h => he ((eq_add_one_iff hlast).2 h.symm)
      refine ⟨UInt64.le_refl _, fun k => ?_, fun k hk => ?_⟩
      · refine ⟨.inr, ?_⟩
        rintro (⟨h, h'⟩ | h)
        · exact absurd h' (UInt64.not_le.2 h)
        · exact h
      · rcases List.mem_cons.1 hk with rfl | hk
        · exact hgap
        · exact Nat.lt_trans hgap (UInt64.lt_iff_toNat_lt.1 (hn k hk))

theorem waiting_setWaiting (f : DeliveryFrontier) (origin x : NodeId) (s : OrderedSet UInt64) :
    (f.setWaiting origin s).waiting x = if x = origin then s else f.waiting x := by
  unfold setWaiting waiting
  dsimp only
  by_cases hs : s.isEmpty = true
  · rw [if_pos hs, OrderedMap.find?_erase]
    split
    · exact (OrderedSet.eq_empty_of_isEmpty hs).symm
    · rfl
  · rw [if_neg hs, OrderedMap.find?_insert]
    split <;> rfl

/-- The next number of an origin never waits, so the counter is as large as it can be. -/
def IsMaximal (f : DeliveryFrontier) : Prop :=
  ∀ x k, (f.waiting x).contains k = true → (f.contiguous.get x).toNat + 1 < k.toNat

variable {f : DeliveryFrontier} {origin : NodeId} {sequence : UInt64}

/-- An arrival is old, or the next one, or ahead of a gap. -/
theorem record_cases (f : DeliveryFrontier) (origin : NodeId) (sequence : UInt64) :
    (sequence ≤ f.contiguous.get origin ∧ (f.record origin sequence).2 = f) ∨
      (sequence.toNat = (f.contiguous.get origin).toNat + 1 ∧
        (f.record origin sequence).2 =
          { f.setWaiting origin (.ofList (absorb sequence (f.waiting origin).toList).2) with
            contiguous :=
              f.contiguous.advance origin (absorb sequence (f.waiting origin).toList).1 }) ∨
      ((f.contiguous.get origin).toNat + 1 < sequence.toNat ∧
        (f.record origin sequence).2 =
          f.setWaiting origin ((f.waiting origin).insert sequence)) := by
  unfold record
  dsimp only
  split
  · next h => exact .inl ⟨h, rfl⟩
  · next h =>
    have hlt := UInt64.not_le.1 h
    split
    · next he => exact .inr (.inl ⟨(eq_add_one_iff hlt).1 he, rfl⟩)
    · next he =>
      refine .inr (.inr ⟨?_, rfl⟩)
      exact Nat.lt_of_le_of_ne (UInt64.lt_iff_toNat_lt.1 hlt)
        fun hs => he ((eq_add_one_iff hlt).2 hs.symm)

theorem le_record (f : DeliveryFrontier) (origin : NodeId) (sequence : UInt64) :
    f.contiguous ≤ (f.record origin sequence).2.contiguous := by
  rcases record_cases f origin sequence with ⟨_, h⟩ | ⟨_, h⟩ | ⟨_, h⟩
  · rw [h]
  · rw [h]
    exact f.contiguous.le_advance origin _
  · rw [h]
    exact VectorClock.le_refl _

theorem hasDelivered_iff {x : NodeId} {k : UInt64} :
    f.hasDelivered x k = true ↔ k ≤ f.contiguous.get x ∨ (f.waiting x).contains k = true := by
  unfold hasDelivered VectorClock.covers
  rw [Bool.or_eq_true, decide_eq_true_iff]

theorem IsMaximal.absorb_waiting (h : f.IsMaximal)
    (hs : sequence.toNat = (f.contiguous.get origin).toNat + 1) :
    let run := absorb sequence (f.waiting origin).toList
    sequence ≤ run.1 ∧
      (∀ k, (f.waiting origin).contains k = true ↔ (sequence < k ∧ k ≤ run.1) ∨ k ∈ run.2) ∧
      ∀ k ∈ run.2, run.1.toNat + 1 < k.toNat := by
  have hsorted : (f.waiting origin).toList.Pairwise (· < ·) :=
    (OrderedSet.pairwise_toList _).imp Std.compare_eq_lt.1
  have habove : ∀ k ∈ (f.waiting origin).toList, sequence < k := fun k hk =>
    UInt64.lt_iff_toNat_lt.2 (hs ▸ h origin k (OrderedSet.mem_toList.1 hk))
  obtain ⟨hle, hmem, hrest⟩ := absorb_spec hsorted habove
  exact ⟨hle, fun k => OrderedSet.mem_toList.symm.trans (hmem k), hrest⟩

theorem IsMaximal.record (h : f.IsMaximal) (origin : NodeId) (sequence : UInt64) :
    (f.record origin sequence).2.IsMaximal := by
  rcases record_cases f origin sequence with ⟨_, he⟩ | ⟨hs, he⟩ | ⟨hs, he⟩
  · rw [he]
    exact h
  · obtain ⟨hle, _, hrest⟩ := h.absorb_waiting hs
    rw [he]
    intro x k hk
    change ((f.setWaiting origin _).waiting x).contains k = true at hk
    rw [waiting_setWaiting] at hk
    dsimp only
    rw [VectorClock.get_advance]
    by_cases hx : x = origin
    · rw [if_pos hx] at hk ⊢
      rw [if_pos (UInt64.le_iff_toNat_le.2 (by have := UInt64.le_iff_toNat_le.1 hle; omega))]
      exact hrest k (OrderedSet.contains_ofList.1 hk)
    · rw [if_neg hx] at hk ⊢
      exact h x k hk
  · rw [he]
    intro x k hk
    rw [waiting_setWaiting] at hk
    change (f.contiguous.get x).toNat + 1 < k.toNat
    split at hk
    · next hx =>
      subst hx
      rcases OrderedSet.contains_insert.1 hk with rfl | hk
      · exact hs
      · exact h x k hk
    · exact h x k hk

/-- Afterwards what had been delivered has been delivered, and the arrival. -/
theorem IsMaximal.hasDelivered_record (h : f.IsMaximal) {x : NodeId} {k : UInt64} :
    (f.record origin sequence).2.hasDelivered x k = true ↔
      f.hasDelivered x k = true ∨ (x = origin ∧ k = sequence) := by
  rw [hasDelivered_iff, hasDelivered_iff]
  rcases record_cases f origin sequence with ⟨hs, he⟩ | ⟨hs, he⟩ | ⟨hs, he⟩
  · rw [he]
    refine ⟨.inl, ?_⟩
    rintro (hd | ⟨rfl, rfl⟩)
    · exact hd
    · exact .inl hs
  · obtain ⟨hle, hmem, _⟩ := h.absorb_waiting hs
    rw [he]
    change k ≤ (f.contiguous.advance origin _).get x ∨
      ((f.setWaiting origin _).waiting x).contains k = true ↔ _
    rw [waiting_setWaiting, VectorClock.get_advance]
    by_cases hx : x = origin
    · subst hx
      have hle' := UInt64.le_iff_toNat_le.1 hle
      rw [if_pos rfl, if_pos rfl, if_pos (UInt64.le_iff_toNat_le.2 (by omega)),
        OrderedSet.contains_ofList, hmem, UInt64.le_iff_toNat_le, UInt64.le_iff_toNat_le,
        UInt64.lt_iff_toNat_lt, ← UInt64.toNat_inj]
      by_cases hr : k ∈ (absorb sequence (f.waiting x).toList).2
      · simp [hr]
      · simp only [hr, or_false, true_and]
        omega
    · rw [if_neg hx, if_neg hx]
      simp [hx]
  · rw [he, waiting_setWaiting]
    change k ≤ f.contiguous.get x ∨ _ ↔ _
    by_cases hx : x = origin
    · subst hx
      rw [if_pos rfl, OrderedSet.contains_insert]
      simp only [true_and]
      rw [or_left_comm, or_comm (a := k = sequence)]
    · simp [hx]

theorem IsMaximal.le_of_forall (h : f.IsMaximal) {x : NodeId} {count : Nat}
    (hall : ∀ k, 0 < k → k ≤ count →
      ∃ number : UInt64, number.toNat = k ∧ f.hasDelivered x number = true) :
    count ≤ (f.contiguous.get x).toNat := by
  by_contra hlt
  obtain ⟨number, hnumber, hdelivered⟩ :=
    hall ((f.contiguous.get x).toNat + 1) (Nat.succ_pos _) (by omega)
  rcases hasDelivered_iff.1 hdelivered with hle | hw
  · have := UInt64.le_iff_toNat_le.1 hle
    omega
  · have := h x number hw
    omega

/-- The frontier of some updates: the numbers delivered are theirs. -/
structure Reflects (f : DeliveryFrontier) (us : List Update) : Prop where
  isMaximal : f.IsMaximal
  delivered : ∀ x k, 0 < k →
    (f.hasDelivered x k = true ↔ ∃ u ∈ us, u.origin = x ∧ u.sequence = k)

variable {us : List Update}

theorem reflects_empty : empty.Reflects [] where
  isMaximal x k hk := by cases hk
  delivered x k hk := by
    rw [hasDelivered_iff]
    simp only [List.not_mem_nil, false_and, exists_false, iff_false, not_or]
    exact ⟨UInt64.not_le.2 hk, Bool.not_eq_true _ ▸ rfl⟩

theorem Reflects.record (h : f.Reflects us) (u : Update) :
    (f.record u.origin u.sequence).2.Reflects (us ++ [u]) where
  isMaximal := h.isMaximal.record u.origin u.sequence
  delivered x k hk := by
    rw [h.isMaximal.hasDelivered_record, h.delivered x k hk]
    simp only [List.mem_append, List.mem_singleton, or_and_right, exists_or, exists_eq_left]
    rw [eq_comm (a := x), eq_comm (a := k)]

theorem Reflects.exists_of_le (h : f.Reflects us) {x : NodeId} {k : UInt64} (hk : 0 < k)
    (hle : k ≤ f.contiguous.get x) : ∃ u ∈ us, u.origin = x ∧ u.sequence = k :=
  (h.delivered x k hk).1 (hasDelivered_iff.2 (.inl hle))

theorem Reflects.le_of_forall (h : f.Reflects us) {x : NodeId} {count : Nat}
    (hall : ∀ k, 0 < k → k ≤ count → ∃ u ∈ us, u.origin = x ∧ u.sequence.toNat = k) :
    count ≤ (f.contiguous.get x).toNat := by
  apply h.isMaximal.le_of_forall
  intro k hpos hle
  obtain ⟨u, hu, hx, hk⟩ := hall k hpos hle
  have hsequence : 0 < u.sequence := UInt64.lt_iff_toNat_lt.2 (hk ▸ hpos)
  exact ⟨u.sequence, hk, (h.delivered x u.sequence hsequence).2 ⟨u, hu, hx, rfl⟩⟩

end Confluence.DeliveryFrontier
