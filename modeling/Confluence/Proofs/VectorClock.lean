import Confluence.Proofs.Fault
import Confluence.Proofs.Ordered
import Confluence.VectorClock

namespace Confluence.VectorClock

theorem get_advance (c : VectorClock) (n m : NodeId) (count : UInt64) :
    (c.advance n count).get m =
      if m = n then if c.get n ≤ count then count else c.get n else c.get m := by
  unfold advance get
  rw [OrderedMap.find?_modify]
  split <;> rfl

@[simp] theorem get_observe (c : VectorClock) (n m : NodeId) : (c.observe n).get m = c.get m := by
  unfold observe
  rw [get_advance]
  by_cases hm : m = n
  · subst hm
    rw [if_pos rfl]
    split
    · next h => exact (UInt64.le_zero_iff.1 h).symm
    · rfl
  · rw [if_neg hm]

theorem toNat_get_foldl_advance (l : List (NodeId × UInt64)) (c : VectorClock) (n : NodeId) :
    ((l.foldl (fun c e => c.advance e.1 e.2) c).get n).toNat =
      l.foldl (fun m e => if e.1 = n then max m e.2.toNat else m) (c.get n).toNat := by
  induction l generalizing c with
  | nil => rfl
  | cons e l ih =>
    rw [List.foldl_cons, List.foldl_cons, ih, get_advance]
    congr 1
    by_cases hn : n = e.1
    · subst hn
      rw [if_pos rfl, if_pos rfl]
      split
      · next h =>
        have h := UInt64.le_iff_toNat_le.1 h
        omega
      · next h =>
        have h := UInt64.le_iff_toNat_le.1 (UInt64.le_of_lt (UInt64.not_le.1 h))
        omega
    · rw [if_neg hn, if_neg (Ne.symm hn)]

theorem toNat_get_merge (a b : VectorClock) (n : NodeId) :
    ((a.merge b).get n).toNat = max (a.get n).toNat (b.get n).toNat := by
  unfold merge
  rw [toNat_get_foldl_advance]
  have key : ∀ (l : List (NodeId × UInt64)) (m : Nat), (l.map (·.1)).Nodup →
      l.foldl (fun m e => if e.1 = n then max m e.2.toNat else m) m =
        max m (((l.find? fun e : NodeId × UInt64 => compare n e.1 == Ordering.eq).map
          Prod.snd).getD 0).toNat := by
    intro l
    induction l with
    | nil => simp
    | cons e l ih =>
      intro m hl
      obtain ⟨he, hl⟩ := List.nodup_cons.1 hl
      rw [List.foldl_cons, ih _ hl]
      by_cases hn : e.1 = n
      · subst hn
        have hnone : l.find? (fun x => compare e.1 x.1 == .eq) = none := by
          refine List.find?_eq_none.2 ?_
          intro x hx hc
          have hxe := Std.LawfulEqCmp.eq_of_compare (beq_iff_eq.1 hc)
          exact he (List.mem_map.2 ⟨x, hx, hxe.symm⟩)
        rw [hnone, List.find?_cons_of_pos (by simp [Std.ReflCmp.compare_self])]
        simp
      · rw [if_neg hn, List.find?_cons_of_neg]
        simpa [Std.LawfulEqCmp.compare_eq_iff_eq] using Ne.symm hn
  exact key _ _ b.entries.nodup_keys

theorem hasBelow_iff {a b : VectorClock} : a.hasBelow b = true ↔ ∃ n, a.get n < b.get n := by
  unfold hasBelow
  rw [List.any_eq_true]
  constructor
  · rintro ⟨n, _, h⟩
    exact ⟨n, of_decide_eq_true h⟩
  · rintro ⟨n, h⟩
    refine ⟨n, ?_, decide_eq_true h⟩
    refine OrderedMap.mem_keys.2 (OrderedMap.contains_iff.2 ?_)
    cases hb : b.entries.find? n with
    | some k => exact ⟨k, rfl⟩
    | none =>
      have h0 : b.get n = 0 := by rw [get, hb, Option.getD_none]
      rw [h0] at h
      exact absurd (UInt64.lt_iff_toNat_lt.1 h) (Nat.not_lt_zero _)

theorem agrees_iff {a b : VectorClock} : a.agrees b = true ↔ ∀ n, a.get n = b.get n := by
  have hr : a.agrees b = true ↔ a.hasBelow b = false ∧ b.hasBelow a = false := by
    unfold agrees relation
    cases a.hasBelow b <;> cases b.hasBelow a <;> decide
  rw [hr, Bool.eq_false_iff, Bool.eq_false_iff, Ne, Ne, hasBelow_iff, hasBelow_iff]
  constructor
  · rintro ⟨hab, hba⟩ n
    exact UInt64.le_antisymm (UInt64.not_lt.1 fun h => hba ⟨n, h⟩)
      (UInt64.not_lt.1 fun h => hab ⟨n, h⟩)
  · intro h
    refine ⟨?_, ?_⟩ <;> rintro ⟨n, hn⟩ <;> exact UInt64.lt_irrefl _ (h n ▸ hn)

/-- A clock is below another one if all its counters are. -/
instance : LE VectorClock := ⟨fun a b => ∀ n, a.get n ≤ b.get n⟩

theorem le_iff_toNat {a b : VectorClock} : a ≤ b ↔ ∀ n, (a.get n).toNat ≤ (b.get n).toNat :=
  forall_congr' fun _ => UInt64.le_iff_toNat_le

@[refl] protected theorem le_refl (a : VectorClock) : a ≤ a := fun _ => UInt64.le_refl _

protected theorem le_trans {a b c : VectorClock} (hab : a ≤ b) (hbc : b ≤ c) : a ≤ c :=
  fun n => UInt64.le_trans (hab n) (hbc n)

theorem empty_le (a : VectorClock) : empty ≤ a := fun _ => UInt64.zero_le

theorem le_advance (c : VectorClock) (n : NodeId) (count : UInt64) : c ≤ c.advance n count := by
  intro m
  rw [get_advance]
  split
  · next hm =>
    subst hm
    split
    · assumption
    · exact UInt64.le_refl _
  · exact UInt64.le_refl _

theorem le_merge_left (a b : VectorClock) : a ≤ a.merge b := by
  refine le_iff_toNat.2 fun n => ?_
  rw [toNat_get_merge]
  exact Nat.le_max_left ..

theorem le_merge_right (a b : VectorClock) : b ≤ a.merge b := by
  refine le_iff_toNat.2 fun n => ?_
  rw [toNat_get_merge]
  exact Nat.le_max_right ..

theorem merge_le {a b c : VectorClock} (ha : a ≤ c) (hb : b ≤ c) : a.merge b ≤ c := by
  refine le_iff_toNat.2 fun n => ?_
  rw [toNat_get_merge]
  exact Nat.max_le.2 ⟨le_iff_toNat.1 ha n, le_iff_toNat.1 hb n⟩

theorem happenedBefore_iff {a b : VectorClock} :
    a.happenedBefore b = true ↔ a ≤ b ∧ ∃ n, a.get n < b.get n := by
  have hr : a.happenedBefore b = true ↔ a.hasBelow b = true ∧ ¬ b.hasBelow a = true := by
    unfold happenedBefore relation
    cases a.hasBelow b <;> cases b.hasBelow a <;> decide
  rw [hr, hasBelow_iff, hasBelow_iff, and_comm, not_exists]
  exact and_congr_left fun _ => forall_congr' fun _ => UInt64.not_lt

theorem toNat_get_tick {c c' : VectorClock} {n : NodeId} (h : c.tick n = .ok c') (m : NodeId) :
    (c'.get m).toNat = (c.get m).toNat + if m = n then 1 else 0 := by
  obtain ⟨count, hcount, rfl⟩ := map_eq_ok h
  unfold get
  rw [OrderedMap.find?_insert]
  by_cases hm : m = n
  · subst hm
    rw [if_pos rfl, if_pos rfl, Option.getD_some]
    exact toNat_checkedAdd hcount
  · rw [if_neg hm, if_neg hm]
    rfl

theorem find?_tick {c c' : VectorClock} {n m : NodeId} (h : c.tick n = .ok c') (hm : m ≠ n) :
    c'.entries.find? m = c.entries.find? m := by
  obtain ⟨count, _, rfl⟩ := map_eq_ok h
  rw [OrderedMap.find?_insert, if_neg hm]

theorem exists_tick {c : VectorClock} {n : NodeId} (h : (c.get n).toNat + 1 < UInt64.size) :
    ∃ c', c.tick n = .ok c' := by
  have hadd : checkedAdd (c.get n) 1 = .ok (c.get n + 1) := if_pos h
  rw [tick, hadd]
  exact ⟨_, rfl⟩

theorem tick_eq_error {c : VectorClock} {n : NodeId} {f : Fault} :
    c.tick n = .error f ↔ f = .overflow ∧ (c.get n).toNat + 1 = UInt64.size := by
  have hlt := (c.get n).toNat_lt_size
  unfold tick checkedAdd
  split
  · next h =>
    constructor
    · intro hf
      cases hf
    · intro hf
      exact absurd hf.2 (Nat.ne_of_lt h)
  · next h =>
    constructor
    · intro hf
      cases hf
      exact ⟨rfl, Nat.le_antisymm hlt (Nat.not_lt.1 h)⟩
    · intro hf
      rw [hf.1]
      rfl

theorem toNat_get_minWith (a b : VectorClock) (n : NodeId) :
    ((a.minWith b).get n).toNat = min (a.get n).toNat (b.get n).toNat := by
  have hmin (count : UInt64) :
      (if count ≤ b.get n then count else b.get n).toNat = min count.toNat (b.get n).toNat := by
    split
    · next h => exact (Nat.min_eq_left (UInt64.le_iff_toNat_le.1 h)).symm
    · next h =>
      exact (Nat.min_eq_right (UInt64.le_iff_toNat_le.1 (UInt64.le_of_lt (UInt64.not_le.1 h)))).symm
  unfold minWith get
  rw [OrderedMap.find?_filterMap]
  cases ha : a.entries.find? n with
  | none => exact (Nat.zero_min _).symm
  | some count =>
    rw [Option.bind_some, Option.getD_some, ← get, ← hmin count]
    generalize (if count ≤ b.get n then count else b.get n) = least
    by_cases h : 0 < least
    · simp [h]
    · simp [UInt64.le_zero_iff.1 (UInt64.not_lt.1 h)]

/-- One clock holds another: it has an entry for every entry of the other, and none is smaller. -/
def Holds (a b : VectorClock) : Prop :=
  ∀ n count, b.entries.find? n = some count → ∃ own, a.entries.find? n = some own ∧ count ≤ own

namespace Holds
variable {a b c : VectorClock} {n : NodeId}

theorem refl (a : VectorClock) : a.Holds a := fun _ count h => ⟨count, h, UInt64.le_refl _⟩

theorem trans (hab : a.Holds b) (hbc : b.Holds c) : a.Holds c := by
  intro n count h
  obtain ⟨k, hk, hle⟩ := hbc n count h
  obtain ⟨l, hl, hle'⟩ := hab n k hk
  exact ⟨l, hl, UInt64.le_trans hle hle'⟩

theorem contains (h : a.Holds b) (hn : b.entries.contains n = true) :
    a.entries.contains n = true := by
  obtain ⟨count, hcount⟩ := OrderedMap.contains_iff.1 hn
  obtain ⟨own, hown, _⟩ := h n count hcount
  exact OrderedMap.contains_iff.2 ⟨own, hown⟩

end Holds

theorem find?_advance (c : VectorClock) (n : NodeId) (count : UInt64) :
    ∃ own, (c.advance n count).entries.find? n = some own ∧ count ≤ own := by
  rw [advance, OrderedMap.find?_modify, if_pos rfl]
  split
  · exact ⟨_, rfl, UInt64.le_refl _⟩
  · next h => exact ⟨_, rfl, UInt64.le_of_lt (UInt64.not_le.1 h)⟩

theorem holds_advance (c : VectorClock) (n : NodeId) (count : UInt64) :
    (c.advance n count).Holds c := by
  intro m k h
  rw [advance, OrderedMap.find?_modify]
  split
  · next hm =>
    rw [← hm, h, Option.getD_some]
    split
    · next hle => exact ⟨_, rfl, hle⟩
    · exact ⟨_, rfl, UInt64.le_refl _⟩
  · exact ⟨k, h, UInt64.le_refl _⟩

theorem advance_eq_self {c : VectorClock} {n : NodeId} {count own : UInt64}
    (h : c.entries.find? n = some own) (hle : count ≤ own) : c.advance n count = c := by
  rw [advance]
  congr 1
  apply OrderedMap.ext_find?
  intro m
  rw [OrderedMap.find?_modify]
  split
  · next hm =>
    rw [hm, h, Option.getD_some]
    split
    · next hge => rw [UInt64.le_antisymm hle hge]
    · rfl
  · rfl

theorem observe_eq_self {c : VectorClock} {n : NodeId} (h : c.entries.contains n = true) :
    c.observe n = c := by
  obtain ⟨own, hown⟩ := OrderedMap.contains_iff.1 h
  exact advance_eq_self hown UInt64.zero_le

theorem contains_observe (c : VectorClock) (n : NodeId) :
    (c.observe n).entries.contains n = true := by
  obtain ⟨own, hown, _⟩ := c.find?_advance n 0
  exact OrderedMap.contains_iff.2 ⟨own, hown⟩

theorem holds_foldl_advance (l : List (NodeId × UInt64)) (c : VectorClock) :
    (l.foldl (fun c e => c.advance e.1 e.2) c).Holds c := by
  induction l generalizing c with
  | nil => exact .refl c
  | cons e l ih => exact (ih _).trans (c.holds_advance e.1 e.2)

theorem holds_merge_left (a b : VectorClock) : (a.merge b).Holds a := holds_foldl_advance _ a

theorem holds_merge_right (a b : VectorClock) : (a.merge b).Holds b := by
  have key : ∀ (l : List (NodeId × UInt64)) (c : VectorClock), ∀ e ∈ l, ∃ own,
      (l.foldl (fun c e => c.advance e.1 e.2) c).entries.find? e.1 = some own ∧ e.2 ≤ own := by
    intro l
    induction l with
    | nil => simp
    | cons e l ih =>
      intro c f hf
      rcases List.mem_cons.1 hf with rfl | hf
      · obtain ⟨k, hk, hle⟩ := c.find?_advance f.1 f.2
        obtain ⟨own, hown, hle'⟩ := holds_foldl_advance l _ f.1 k hk
        exact ⟨own, hown, UInt64.le_trans hle hle'⟩
      · exact ih _ f hf
  intro n count h
  exact key b.entries.entries a (n, count) (OrderedMap.find?_eq_some.1 h)

/-- Merging a clock that is held already changes nothing, not even zero entries. -/
theorem Holds.merge_eq {a b : VectorClock} (h : a.Holds b) : a.merge b = a := by
  have key : ∀ l : List (NodeId × UInt64),
      (∀ e ∈ l, ∃ own, a.entries.find? e.1 = some own ∧ e.2 ≤ own) →
        l.foldl (fun c e => c.advance e.1 e.2) a = a := by
    intro l
    induction l with
    | nil => simp
    | cons e l ih =>
      intro hl
      obtain ⟨⟨own, hown, hle⟩, hl⟩ := List.forall_mem_cons.1 hl
      rw [List.foldl_cons, advance_eq_self hown hle]
      exact ih hl
  apply key
  intro e he
  exact h e.1 e.2 (OrderedMap.find?_eq_some.2 he)

theorem holds_tick {c c' : VectorClock} {n : NodeId} (h : c.tick n = .ok c') : c'.Holds c := by
  obtain ⟨count, hcount, rfl⟩ := map_eq_ok h
  intro m k hk
  rw [OrderedMap.find?_insert]
  split
  · next hm =>
    have hget : c.get n = k := by rw [get, ← hm, hk, Option.getD_some]
    have hle : k.toNat ≤ count.toNat := by
      have := toNat_checkedAdd hcount
      rw [hget] at this
      omega
    exact ⟨count, rfl, UInt64.le_iff_toNat_le.2 hle⟩
  · exact ⟨k, hk, UInt64.le_refl _⟩

end Confluence.VectorClock
