import Confluence.Proofs.History.Basic
import Confluence.Proofs.VectorClock.Order

namespace Confluence.CausalHistory

/-- What can happen to a history. -/
inductive Change
  | insert (u : Update)
  | prune (stable : VectorClock)

def perform (h : CausalHistory) : Change → CausalHistory
  | .insert u => (h.insert u).2
  | .prune stable => (h.prune stable).2

def performAll (h : CausalHistory) (changes : List Change) : CausalHistory :=
  changes.foldl perform h

/-- Updates are retained under their own identifiers. -/
def IsKeyed (h : CausalHistory) : Prop := ∀ id u, h.get? id = some u → u.id = id

variable {h : CausalHistory} {u : Update} {l : List Update}

theorem isKeyed_empty : empty.IsKeyed := nofun

theorem IsKeyed.perform (hk : h.IsKeyed) (change : Change) : (h.perform change).IsKeyed := by
  intro id u hu
  cases change with
  | insert v =>
    rw [CausalHistory.perform, get?_insert] at hu
    rcases Option.or_eq_some_iff.1 hu with hu | ⟨_, hu⟩
    · exact hk id u hu
    · split at hu
      · next hid =>
        cases hu
        exact hid.symm
      · cases hu
  | prune stable => exact hk id u (get?_of_get?_prune hu)

theorem IsKeyed.performAll (hk : h.IsKeyed) (changes : List Change) :
    (h.performAll changes).IsKeyed := by
  induction changes generalizing h with
  | nil => exact hk
  | cons change changes ih => exact ih (hk.perform change)

theorem IsKeyed.mem_retained (hk : h.IsKeyed) : u ∈ h.retained ↔ h.get? u.id = some u := by
  rw [CausalHistory.mem_retained]
  constructor
  · rintro ⟨id, hu⟩
    rw [hk id u hu]
    exact hu
  · intro hu
    exact ⟨u.id, hu⟩

theorem IsKeyed.nodup_ids (hk : h.IsKeyed) : (h.retained.map (·.id)).Nodup := by
  have hids : h.retained.map (·.id) = h.updates.keys := by
    rw [retained, OrderedMap.values, OrderedMap.keys, List.map_map]
    apply List.map_congr_left
    intro e he
    exact hk e.1 e.2 (OrderedMap.find?_eq_some.2 he)
  rw [hids]
  exact h.updates.nodup_keys

theorem exists_counted (hl : ∀ u ∈ l, u.clock.events < UInt64.size) :
    ∃ counted : List (UInt64 × Update),
      l.mapM (fun u => u.clock.totalEvents.map (·, u)) = .ok counted ∧
      counted.map (·.2) = l ∧ ∀ x ∈ counted, x.1.toNat = x.2.clock.events := by
  induction l with
  | nil => exact ⟨[], rfl, rfl, by simp⟩
  | cons u l ih =>
    obtain ⟨hu, hl⟩ := List.forall_mem_cons.1 hl
    obtain ⟨total, htotal, hevents⟩ := VectorClock.exists_totalEvents hu
    obtain ⟨counted, hcounted, hupdates, hall⟩ := ih hl
    refine ⟨(total, u) :: counted, ?_, ?_, ?_⟩
    · rw [List.mapM_cons, htotal, map_ok, ok_bind, hcounted]
      rfl
    · rw [List.map_cons, hupdates]
    · exact List.forall_mem_cons.2 ⟨hevents, hall⟩

/-- The causal order lists what is retained by the number of events. -/
theorem exists_causalOrder (hsum : ∀ u ∈ h.retained, u.clock.events < UInt64.size) :
    ∃ order, h.causalOrder = .ok order ∧ order.Perm h.retained ∧
      order.Pairwise fun u v => u.clock.events ≤ v.clock.events := by
  unfold causalOrder
  split
  · next hlen =>
    refine ⟨h.retained, rfl, List.Perm.refl _, ?_⟩
    rcases Nat.le_one_iff_eq_zero_or_eq_one.1 hlen with hlen | hlen
    · rw [List.eq_nil_of_length_eq_zero hlen]
      exact .nil
    · obtain ⟨u, hu⟩ := List.length_eq_one_iff.1 hlen
      rw [hu]
      exact List.pairwise_singleton ..
  · obtain ⟨counted, hcounted, hupdates, hall⟩ := exists_counted hsum
    rw [hcounted]
    refine ⟨_, rfl, ?_, ?_⟩
    · rw [← hupdates]
      exact (List.mergeSort_perm counted _).map _
    · have hsorted : (counted.mergeSort fun x y => x.1 ≤ y.1).Pairwise fun x y =>
          decide (x.1 ≤ y.1) = true := by
        apply List.pairwise_mergeSort
        · intro x y z hxy hyz
          exact decide_eq_true (UInt64.le_trans (of_decide_eq_true hxy) (of_decide_eq_true hyz))
        · intro x y
          simpa using UInt64.le_total x.1 y.1
      apply List.pairwise_map.2
      apply hsorted.imp_of_mem
      intro x y hx hy hxy
      rw [← hall x (List.mem_mergeSort.1 hx), ← hall y (List.mem_mergeSort.1 hy)]
      exact UInt64.le_iff_toNat_le.1 (of_decide_eq_true hxy)

/-- The causal order is a linear extension of happening before. Whatever updates have been inserted and
whatever has been pruned, if the events of each retained clock add up to a counter, the order lists
every retained update once, and of two updates the later one did not happen before the earlier one. -/
theorem linear_of_performAll (changes : List Change)
    (hsum : ∀ u ∈ (empty.performAll changes).retained, u.clock.events < UInt64.size) :
    ∃ order, (empty.performAll changes).causalOrder = .ok order ∧
      order.Perm (empty.performAll changes).retained ∧ (order.map (·.id)).Nodup ∧
      order.Pairwise fun u v => v.clock.happenedBefore u.clock = false := by
  obtain ⟨order, horder, hperm, hevents⟩ := exists_causalOrder hsum
  have hkeyed : (empty.performAll changes).IsKeyed := isKeyed_empty.performAll changes
  refine ⟨order, horder, hperm, ?_, ?_⟩
  · exact ((hperm.map _).nodup_iff).2 hkeyed.nodup_ids
  · apply hevents.imp
    intro u v huv
    rw [VectorClock.happenedBefore_eq_false_iff]
    intro hlt
    exact Nat.not_le_of_lt (VectorClock.strictMono_events hlt) huv

theorem pair_sublist_of_pairwise {α : Type} {r : α → α → Prop} {l : List α} {a b : α}
    (h : l.Pairwise r) (ha : a ∈ l) (hb : b ∈ l) (hne : a ≠ b) (hba : ¬ r b a) :
    [a, b].Sublist l := by
  induction h with
  | nil => cases ha
  | @cons x l hx _ ih =>
    rcases List.mem_cons.1 ha with rfl | hal
    · exact (List.singleton_sublist.2 ((List.mem_cons.1 hb).resolve_left hne.symm)).cons_cons a
    · rcases List.mem_cons.1 hb with rfl | hbl
      · exact absurd (hx a hal) hba
      · exact (ih hal hbl).cons x

/-- Identifiers run against the causal order, one clock has a zero entry, and another one covers as many
events as can be counted. The update that happened before all others was pruned. Of two of those that are
left, the one that happened before the other comes first, although its identifier is larger. -/
theorem linear_of_performAll_reversed :
    let u (id : Nat) (origin : NodeId) (clock : List (NodeId × UInt64)) : Update :=
      ⟨Uuid.ofNat id, origin, .ofList clock, []⟩
    let changes : List Change := [.insert (u 9 "a" [("a", 1)]), .insert (u 1 "b" [("a", 2), ("b", 2)]),
      .insert (u 7 "b" [("a", 1), ("b", 1), ("c", 0)]), .insert (u 4 "a" [("a", 2)]),
      .insert (u 2 "z" [("z", 18446744073709551615)]), .prune (.ofList [("a", 1)]),
      .insert (u 3 "b" [("b", 2), ("a", 2)])]
    (∀ v ∈ (empty.performAll changes).retained, v.clock.events < UInt64.size) ∧
      ∃ order, (empty.performAll changes).causalOrder = .ok order ∧
        (order.map (·.id.bits.toNat)).Perm [1, 2, 3, 4, 7] ∧ (order.map (·.id)).Nodup ∧
        (order.Pairwise fun v w => w.clock.happenedBefore v.clock = false) ∧
        [u 7 "b" [("a", 1), ("b", 1), ("c", 0)], u 1 "b" [("a", 2), ("b", 2)]].Sublist order := by
  intro u changes
  have hsum : ∀ v ∈ (empty.performAll changes).retained, v.clock.events < UInt64.size := by
    decide +kernel
  have hids : (empty.performAll changes).retained.map (·.id.bits.toNat) = [1, 2, 3, 4, 7] := by
    decide +kernel
  obtain ⟨order, horder, hperm, hnodup, hlinear⟩ := linear_of_performAll changes hsum
  refine ⟨hsum, order, horder, hids ▸ hperm.map _, hnodup, hlinear, ?_⟩
  have hretained : u 7 "b" [("a", 1), ("b", 1), ("c", 0)] ∈ (empty.performAll changes).retained ∧
      u 1 "b" [("a", 2), ("b", 2)] ∈ (empty.performAll changes).retained := by decide +kernel
  exact pair_sublist_of_pairwise hlinear (hperm.mem_iff.2 hretained.1)
    (hperm.mem_iff.2 hretained.2) (by decide) (by decide +kernel)

end Confluence.CausalHistory
