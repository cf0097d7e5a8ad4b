import Mathlib.Order.Bounds.Basic
import Confluence.Proofs.VectorClock.Order

namespace Confluence

/-- How the second of two clocks stands to the first. -/
def CausalOrder.swap : CausalOrder → CausalOrder
  | .before => .after
  | .after => .before
  | .concurrent => .concurrent
  | .equal => .equal

namespace VectorClock
variable {a b c a' b' t : VectorClock} {n : NodeId}

theorem relation_swap (a b : VectorClock) : b.relation a = (a.relation b).swap := by
  unfold relation
  cases a.hasBelow b <;> cases b.hasBelow a <;> rfl

theorem dominates_iff : a.dominates b = true ↔ b ≤ a := by
  rw [← hasBelow_eq_false_iff, dominates, relation]
  cases a.hasBelow b <;> cases b.hasBelow a <;> decide

theorem happenedBefore_trans (hab : a.happenedBefore b = true) (hbc : b.happenedBefore c = true) :
    a.happenedBefore c = true :=
  happenedBefore_iff_lt.2 ((happenedBefore_iff_lt.1 hab).trans (happenedBefore_iff_lt.1 hbc))

theorem happenedBefore_asymm (hab : a.happenedBefore b = true) : b.happenedBefore a = false :=
  happenedBefore_eq_false_iff.2 (happenedBefore_iff_lt.1 hab).asymm

theorem merge_le_iff : a.merge b ≤ c ↔ a ≤ c ∧ b ≤ c :=
  ⟨fun h => ⟨(le_merge_left a b).trans h, (le_merge_right a b).trans h⟩, fun h => merge_le h.1 h.2⟩

theorem le_minWith_iff : c ≤ a.minWith b ↔ c ≤ a ∧ c ≤ b := by
  simp only [le_iff_toNat, toNat_get_minWith, Nat.le_min, forall_and]

theorem isLeast_merge (a b : VectorClock) :
    IsLeast {x : VectorClock | x.dominates a = true ∧ x.dominates b = true} (a.merge b) := by
  simp only [dominates_iff]
  constructor
  · exact merge_le_iff.1 le_rfl
  · intro x hx
    exact merge_le_iff.2 hx

theorem isGreatest_minWith (a b : VectorClock) :
    IsGreatest {x : VectorClock | a.dominates x = true ∧ b.dominates x = true} (a.minWith b) := by
  simp only [dominates_iff]
  constructor
  · exact le_minWith_iff.1 le_rfl
  · intro x hx
    exact le_minWith_iff.2 hx

theorem subsumes_eq_dominates (a b : VectorClock) :
    JoinLattice.subsumes a b = a.dominates b := by
  rw [Bool.eq_iff_iff, dominates_iff]
  change (a.merge b).agrees a = true ↔ b ≤ a
  rw [agrees_iff_le, merge_le_iff]
  constructor
  · intro h
    exact h.1.2
  · intro h
    exact ⟨⟨le_rfl, h⟩, le_merge_left a b⟩

theorem lt_of_tick (h : a.tick n = .ok t) : a < t := by
  have hcount := toNat_get_tick h
  apply happenedBefore_iff_lt.1
  apply happenedBefore_iff.2
  constructor
  · apply le_iff_toNat.2
    intro m
    rw [hcount m]
    exact Nat.le_add_right _ _
  · use n
    rw [UInt64.lt_iff_toNat_lt, hcount n, if_pos rfl]
    exact Nat.lt_succ_self _

/-- The laws of three clocks: how they are compared, what is made of them, and how they move on. -/
structure Laws (a b c : VectorClock) : Prop where
  relation : ∀ o, a.relation b = o ↔ a.Places b o
  swap : b.relation a = (a.relation b).swap
  dominates : a.dominates b = true ↔ ∀ n, b.get n ≤ a.get n
  dominates_refl : a.dominates a = true
  dominates_trans : a.dominates b = true → b.dominates c = true → a.dominates c = true
  happenedBefore_irrefl : a.happenedBefore a = false
  happenedBefore_asymm : a.happenedBefore b = true → b.happenedBefore a = false
  happenedBefore_trans :
    a.happenedBefore b = true → b.happenedBefore c = true → a.happenedBefore c = true
  merge : IsLeast {x : VectorClock | x.dominates a = true ∧ x.dominates b = true} (a.merge b)
  minWith : IsGreatest {x : VectorClock | a.dominates x = true ∧ b.dominates x = true} (a.minWith b)
  subsumes : JoinLattice.subsumes a b = a.dominates b
  tick : ∀ n, (a.get n).toNat + 1 < UInt64.size → ∃ t, a.tick n = .ok t ∧
    a.happenedBefore t = true ∧ (t.get n).toNat = (a.get n).toNat + 1 ∧
    ∀ m, m ≠ n → t.entries.find? m = a.entries.find? m

theorem laws (a b c : VectorClock) : a.Laws b c where
  relation := relation_eq_iff a b
  swap := relation_swap a b
  dominates := dominates_iff
  dominates_refl := dominates_iff.2 le_rfl
  dominates_trans hab hbc :=
    dominates_iff.2 ((dominates_iff.1 hbc).trans (dominates_iff.1 hab))
  happenedBefore_irrefl := happenedBefore_eq_false_iff.2 (lt_irrefl a)
  happenedBefore_asymm := VectorClock.happenedBefore_asymm
  happenedBefore_trans := VectorClock.happenedBefore_trans
  merge := isLeast_merge a b
  minWith := isGreatest_minWith a b
  subsumes := subsumes_eq_dominates a b
  tick n hn := by
    obtain ⟨t, ht⟩ := exists_tick hn
    have hcount := toNat_get_tick ht n
    rw [if_pos rfl] at hcount
    exact ⟨t, ht, happenedBefore_iff_lt.2 (lt_of_tick ht), hcount, fun m hm => find?_tick ht hm⟩

/-- Two clocks do as well as two others: they are compared alike, and what is made of them agrees. -/
structure Alike (a b a' b' : VectorClock) : Prop where
  relation : a.relation b = a'.relation b'
  agrees : a.agrees b = a'.agrees b'
  dominates : a.dominates b = a'.dominates b'
  happenedBefore : a.happenedBefore b = a'.happenedBefore b'
  isConcurrentWith : a.isConcurrentWith b = a'.isConcurrentWith b'
  subsumes : JoinLattice.subsumes a b = JoinLattice.subsumes a' b'
  merge : (a.merge b).agrees (a'.merge b') = true
  minWith : (a.minWith b).agrees (a'.minWith b') = true
  tick : ∀ n t, a.tick n = .ok t → ∃ t', a'.tick n = .ok t' ∧ t.agrees t' = true

theorem relation_congr (ha : a.agrees a' = true) (hb : b.agrees b' = true) :
    a.relation b = a'.relation b' := by
  rw [relation_eq_iff]
  have hplace := (relation_eq_iff a' b' _).1 rfl
  have ha := agrees_iff.1 ha
  have hb := agrees_iff.1 hb
  generalize a'.relation b' = o at hplace
  cases o <;> simpa only [Places, ha, hb] using hplace

theorem merge_congr (ha : a.agrees a' = true) (hb : b.agrees b' = true) :
    (a.merge b).agrees (a'.merge b') = true := by
  apply agrees_iff.2
  intro n
  apply UInt64.toNat_inj.1
  rw [toNat_get_merge, toNat_get_merge, agrees_iff.1 ha, agrees_iff.1 hb]

theorem minWith_congr (ha : a.agrees a' = true) (hb : b.agrees b' = true) :
    (a.minWith b).agrees (a'.minWith b') = true := by
  apply agrees_iff.2
  intro n
  apply UInt64.toNat_inj.1
  rw [toNat_get_minWith, toNat_get_minWith, agrees_iff.1 ha, agrees_iff.1 hb]

theorem exists_tick_of_agrees (ha : a.agrees a' = true) (h : a.tick n = .ok t) :
    ∃ t', a'.tick n = .ok t' ∧ t.agrees t' = true := by
  have hget := agrees_iff.1 ha
  have hlt : (a'.get n).toNat + 1 < UInt64.size := by
    have hcount := toNat_get_tick h n
    rw [if_pos rfl, hget] at hcount
    exact hcount ▸ (t.get n).toNat_lt_size
  obtain ⟨t', h'⟩ := exists_tick hlt
  refine ⟨t', h', agrees_iff.2 fun m => ?_⟩
  apply UInt64.toNat_inj.1
  rw [toNat_get_tick h, toNat_get_tick h', hget]

theorem alike (ha : a.agrees a' = true) (hb : b.agrees b' = true) : a.Alike b a' b' where
  relation := relation_congr ha hb
  agrees := by rw [VectorClock.agrees, VectorClock.agrees, relation_congr ha hb]
  dominates := by rw [VectorClock.dominates, VectorClock.dominates, relation_congr ha hb]
  happenedBefore := by
    rw [VectorClock.happenedBefore, VectorClock.happenedBefore, relation_congr ha hb]
  isConcurrentWith := by
    rw [VectorClock.isConcurrentWith, VectorClock.isConcurrentWith, relation_congr ha hb]
  subsumes := by
    rw [subsumes_eq_dominates, subsumes_eq_dominates, VectorClock.dominates, VectorClock.dominates,
      relation_congr ha hb]
  merge := merge_congr ha hb
  minWith := minWith_congr ha hb
  tick _ _ := exists_tick_of_agrees ha

/-- Vector clocks are a lattice up to zero entries, and comparing them is its order: merge and minimum
are the bounds of two clocks, a tick goes strictly up, and clocks that agree may stand for each
other. -/
theorem laws_up_to_zeros (a b c : VectorClock) :
    a.Laws b c ∧
      ∀ a' b' : VectorClock, a.agrees a' = true → b.agrees b' = true → a.Alike b a' b' :=
  ⟨laws a b c, fun _ _ => alike⟩

/-- Concurrent clocks with zero entries on either side. -/
theorem laws_up_to_zeros_observed :
    let a : VectorClock := .ofList [("x", 3), ("z", 0)]
    let b : VectorClock := .ofList [("x", 1), ("y", 2)]
    let a' : VectorClock := .ofList [("x", 3)]
    let b' : VectorClock := .ofList [("w", 0), ("x", 1), ("y", 2)]
    a ≠ a' ∧ b ≠ b' ∧ a.relation b = .concurrent ∧ a'.relation b' = .concurrent ∧
      (a.merge b).agrees (a'.merge b') = true ∧ (a.minWith b).agrees (a'.minWith b') = true ∧
      (a.merge b).dominates b = true ∧ a.dominates (a.minWith b) = true ∧
      ∃ t, a.tick "z" = .ok t ∧ a.happenedBefore t = true := by
  intro a b a' b'
  have ha : a.agrees a' = true := by decide +kernel
  have hb : b.agrees b' = true := by decide +kernel
  have hab : a.relation b = .concurrent := by decide +kernel
  obtain ⟨hlaws, hcongr⟩ := laws_up_to_zeros a b (a.merge b)
  have halike := hcongr a' b' ha hb
  obtain ⟨t, ht, hbefore, _⟩ := hlaws.tick "z" (by decide +kernel)
  exact ⟨by decide +kernel, by decide +kernel, hab, halike.relation ▸ hab, halike.merge,
    halike.minWith, hlaws.merge.1.2, hlaws.minWith.1.1, t, ht, hbefore⟩

end VectorClock
end Confluence
