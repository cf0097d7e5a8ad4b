import Mathlib.Algebra.Order.BigOperators.Group.Finset
import Confluence.Proofs.VectorClock

namespace Confluence.VectorClock
variable {a b c : VectorClock}

/-- Clocks below each other agree without being the same, so the order is not a partial one. -/
instance : Preorder VectorClock where
  le_refl := VectorClock.le_refl
  le_trans _ _ _ := VectorClock.le_trans

theorem hasBelow_eq_false_iff : a.hasBelow b = false ↔ b ≤ a := by
  rw [Bool.eq_false_iff, Ne, hasBelow_iff, not_exists]
  exact forall_congr' fun _ => UInt64.not_lt

theorem happenedBefore_iff_lt : a.happenedBefore b = true ↔ a < b := by
  rw [lt_iff_le_not_ge, ← hasBelow_eq_false_iff, ← hasBelow_eq_false_iff, happenedBefore, relation]
  cases a.hasBelow b <;> cases b.hasBelow a <;> decide

theorem happenedBefore_eq_false_iff : a.happenedBefore b = false ↔ ¬ a < b := by
  rw [← happenedBefore_iff_lt, Bool.not_eq_true]

theorem agrees_iff_le : a.agrees b = true ↔ a ≤ b ∧ b ≤ a := by
  rw [← hasBelow_eq_false_iff, ← hasBelow_eq_false_iff, agrees, relation]
  cases a.hasBelow b <;> cases b.hasBelow a <;> decide

theorem isConcurrentWith_iff : a.isConcurrentWith b = true ↔ ¬ a ≤ b ∧ ¬ b ≤ a := by
  rw [← hasBelow_eq_false_iff, ← hasBelow_eq_false_iff, isConcurrentWith, relation]
  cases a.hasBelow b <;> cases b.hasBelow a <;> decide

theorem isConcurrentWith_comm (a b : VectorClock) :
    a.isConcurrentWith b = b.isConcurrentWith a := by
  rw [Bool.eq_iff_iff, isConcurrentWith_iff, isConcurrentWith_iff, and_comm]

theorem isConcurrentWith_or_agrees (hab : ¬ a < b) (hba : ¬ b < a) :
    a.isConcurrentWith b = true ∨ a.agrees b = true := by
  rw [isConcurrentWith_iff, agrees_iff_le]
  rw [lt_iff_le_not_ge] at hab hba
  tauto

theorem relation_eq_after_iff : a.relation b = .after ↔ b.happenedBefore a = true := by
  unfold happenedBefore relation
  cases a.hasBelow b <;> cases b.hasBelow a <;> decide

/-- What the place of one clock relative to another says of their counters. -/
def Places (a b : VectorClock) : CausalOrder → Prop
  | .before => (∀ n, a.get n ≤ b.get n) ∧ ∃ n, a.get n < b.get n
  | .after => (∀ n, b.get n ≤ a.get n) ∧ ∃ n, b.get n < a.get n
  | .concurrent => (∃ n, a.get n < b.get n) ∧ ∃ n, b.get n < a.get n
  | .equal => ∀ n, a.get n = b.get n

theorem relation_eq_iff (a b : VectorClock) (o : CausalOrder) : a.relation b = o ↔ a.Places b o := by
  cases o with
  | before => exact decide_eq_true_iff.symm.trans happenedBefore_iff
  | after => exact relation_eq_after_iff.trans happenedBefore_iff
  | concurrent =>
    have hbelow (x y : VectorClock) : ¬ y ≤ x ↔ ∃ n, x.get n < y.get n := by
      rw [← hasBelow_iff, ← hasBelow_eq_false_iff, Bool.not_eq_false]
    exact decide_eq_true_iff.symm.trans
      (isConcurrentWith_iff.trans (and_comm.trans (and_congr (hbelow a b) (hbelow b a))))
  | equal => exact decide_eq_true_iff.symm.trans agrees_iff

/-- The number of events that a clock covers, however large. -/
def events (c : VectorClock) : Nat := c.entries.values.foldl (fun n count => n + count.toNat) 0

theorem get_eq_zero {n : NodeId} (h : n ∉ c.nodes) : c.get n = 0 := by
  have hnone : c.entries.find? n = none := by
    cases hf : c.entries.find? n with
    | none => rfl
    | some count => exact absurd (OrderedMap.mem_keys.2 (OrderedMap.contains_iff.2 ⟨count, hf⟩)) h
  rw [get, hnone, Option.getD_none]

theorem events_eq_sum {s : Finset NodeId} (h : ∀ n ∈ c.nodes, n ∈ s) :
    c.events = ∑ n ∈ s, (c.get n).toNat := by
  have hcounts : c.entries.values.map (·.toNat) = c.nodes.map fun n => (c.get n).toNat := by
    rw [OrderedMap.values, nodes, OrderedMap.keys, List.map_map, List.map_map]
    apply List.map_congr_left
    intro e he
    rw [Function.comp_apply, Function.comp_apply, get, OrderedMap.find?_eq_some.2 he, Option.getD_some]
  have hnodup : c.nodes.Nodup := c.entries.nodup_keys
  calc
    c.events = (c.entries.values.map (·.toNat)).sum := by
      rw [events, List.sum_eq_foldl, List.foldl_map]
    _ = ∑ n ∈ c.nodes.toFinset, (c.get n).toNat := by
      rw [hcounts, List.sum_toFinset _ hnodup]
    _ = ∑ n ∈ s, (c.get n).toNat := by
      apply Finset.sum_subset
      · intro n hn
        exact h n (List.mem_toFinset.1 hn)
      · intro n _ hn
        rw [get_eq_zero fun hc => hn (List.mem_toFinset.2 hc)]
        rfl

theorem strictMono_events : StrictMono events := by
  intro a b hab
  obtain ⟨hle, n, hn⟩ := happenedBefore_iff.1 (happenedBefore_iff_lt.2 hab)
  have hb : n ∈ b.nodes := by
    by_contra hb
    rw [get_eq_zero hb] at hn
    exact absurd (UInt64.lt_iff_toNat_lt.1 hn) (Nat.not_lt_zero _)
  let s := a.nodes.toFinset ∪ b.nodes.toFinset
  have ha : a.events = ∑ n ∈ s, (a.get n).toNat := events_eq_sum fun n hn =>
    Finset.mem_union_left _ (List.mem_toFinset.2 hn)
  have hs : b.events = ∑ n ∈ s, (b.get n).toNat := events_eq_sum fun n hn =>
    Finset.mem_union_right _ (List.mem_toFinset.2 hn)
  rw [ha, hs]
  apply Finset.sum_lt_sum
  · intro m _
    exact UInt64.le_iff_toNat_le.1 (hle m)
  · exact ⟨n, Finset.mem_union_right _ (List.mem_toFinset.2 hb), UInt64.lt_iff_toNat_lt.1 hn⟩

theorem le_foldl_add (start : Nat) (l : List UInt64) :
    start ≤ l.foldl (fun n count => n + count.toNat) start := by
  induction l generalizing start with
  | nil => exact Nat.le_refl start
  | cons count l ih => exact Nat.le_trans (Nat.le_add_right start _) (ih _)

theorem foldlM_checkedAdd {l : List UInt64} {start : UInt64}
    (h : l.foldl (fun n count => n + count.toNat) start.toNat < UInt64.size) :
    ∃ total, l.foldlM checkedAdd start = .ok total ∧
      total.toNat = l.foldl (fun n count => n + count.toNat) start.toNat := by
  induction l generalizing start with
  | nil => exact ⟨start, rfl, rfl⟩
  | cons count l ih =>
    have hlt : start.toNat + count.toNat < UInt64.size := Nat.lt_of_le_of_lt (le_foldl_add _ l) h
    have hadd := checkedAdd_eq_ok hlt
    rw [List.foldl_cons, ← toNat_checkedAdd hadd] at h ⊢
    rw [List.foldlM_cons, hadd]
    exact ih h

theorem exists_totalEvents (h : c.events < UInt64.size) :
    ∃ total, c.totalEvents = .ok total ∧ total.toNat = c.events :=
  foldlM_checkedAdd h

end Confluence.VectorClock
