import Confluence.Lattice
import Confluence.Proofs.Ordered
import Confluence.Proofs.VectorClock.Lattice

namespace Confluence

/-- Joins are least upper bounds, and to agree is to be below each other. -/
class LawfulJoinLattice (α : Type) [JoinLattice α] [Preorder α] : Prop where
  bottom_le : ∀ a : α, JoinLattice.bottom ≤ a
  join_le_iff : ∀ {a b c : α}, JoinLattice.join a b ≤ c ↔ a ≤ c ∧ b ≤ c
  agree_iff : ∀ {a b : α}, JoinLattice.agree a b = true ↔ a ≤ b ∧ b ≤ a

namespace JoinLattice
export LawfulJoinLattice (bottom_le join_le_iff agree_iff)

/-- One value subsumes another just if it is above it, and joining all of a list gives the least value
that is above all elements. Up to a relation of sameness, the result depends only on which elements
there are, and the parts of a list may be joined apart. -/
structure JoinsAll (α : Type) [JoinLattice α] [LE α] (same : α → α → Prop) : Prop where
  covers : ∀ a b : α, subsumes a b = true ↔ b ≤ a
  upper : ∀ xs : List α, ∀ x ∈ xs, subsumes (joinAll xs) x = true
  least : ∀ (xs : List α) (b : α), (∀ x ∈ xs, subsumes b x = true) → subsumes b (joinAll xs) = true
  congr : ∀ xs ys : List α, (∀ x ∈ xs, ∃ y ∈ ys, same x y) → (∀ y ∈ ys, ∃ x ∈ xs, same x y) →
    same (joinAll xs) (joinAll ys)
  append : ∀ xs ys : List α, same (joinAll (xs ++ ys)) (join (joinAll xs) (joinAll ys))

/-- Observing an element joins the value that has this element alone, and tells whether it was missing. -/
def Observes {α β : Type} [JoinLattice α] (observe : α → β → Bool × α) (single : β → α) : Prop :=
  ∀ a x, (observe a x).2 = join a (single x) ∧
    ((observe a x).1 = true ↔ subsumes a (single x) = false)

section Laws
variable {α : Type} [JoinLattice α] [Preorder α] [LawfulJoinLattice α] {a b x : α} {xs ys : List α}

theorem le_join_left (a b : α) : a ≤ join a b := (join_le_iff.1 le_rfl).1

theorem le_join_right (a b : α) : b ≤ join a b := (join_le_iff.1 le_rfl).2

theorem subsumes_iff : subsumes a b = true ↔ b ≤ a := by
  rw [subsumes, agree_iff, join_le_iff]
  constructor
  · intro h
    exact h.1.2
  · intro h
    exact ⟨⟨le_rfl, h⟩, le_join_left a b⟩

theorem foldl_join_le_iff : xs.foldl join a ≤ b ↔ a ≤ b ∧ ∀ x ∈ xs, x ≤ b := by
  induction xs generalizing a with
  | nil => simp
  | cons x xs ih => rw [List.foldl_cons, ih, join_le_iff, List.forall_mem_cons, and_assoc]

theorem joinAll_le_iff : joinAll xs ≤ b ↔ ∀ x ∈ xs, x ≤ b :=
  foldl_join_le_iff.trans (and_iff_right (bottom_le b))

theorem le_joinAll (hx : x ∈ xs) : x ≤ joinAll xs := joinAll_le_iff.1 le_rfl x hx

theorem joinAll_mono (h : ∀ x ∈ xs, ∃ y ∈ ys, x ≤ y) : joinAll xs ≤ joinAll ys := by
  apply joinAll_le_iff.2
  intro x hx
  obtain ⟨y, hy, hle⟩ := h x hx
  exact hle.trans (le_joinAll hy)

theorem agree_joinAll_append (xs ys : List α) :
    agree (joinAll (xs ++ ys)) (join (joinAll xs) (joinAll ys)) = true := by
  have hiff (c : α) : joinAll (xs ++ ys) ≤ c ↔ join (joinAll xs) (joinAll ys) ≤ c := by
    rw [join_le_iff, joinAll_le_iff, joinAll_le_iff, joinAll_le_iff, List.forall_mem_append]
  exact agree_iff.2 ⟨(hiff _).2 le_rfl, (hiff _).1 le_rfl⟩

theorem joinsAll {same : α → α → Prop} (hsame : ∀ a b, same a b ↔ agree a b = true) :
    JoinsAll α same where
  covers _ _ := subsumes_iff
  upper xs x hx := subsumes_iff.2 (le_joinAll hx)
  least xs b hb := subsumes_iff.2 (joinAll_le_iff.2 fun x hx => subsumes_iff.1 (hb x hx))
  congr xs ys hxs hys := by
    apply (hsame _ _).2
    apply agree_iff.2
    constructor
    · apply joinAll_mono
      intro x hx
      obtain ⟨y, hy, hxy⟩ := hxs x hx
      exact ⟨y, hy, (agree_iff.1 ((hsame x y).1 hxy)).1⟩
    · apply joinAll_mono
      intro y hy
      obtain ⟨x, hx, hxy⟩ := hys y hy
      exact ⟨x, hx, (agree_iff.1 ((hsame x y).1 hxy)).2⟩
  append xs ys := (hsame _ _).2 (agree_joinAll_append xs ys)

end Laws

section Equality
variable {α : Type} [JoinLattice α] [PartialOrder α] [LawfulJoinLattice α] {a b : α}

theorem join_eq_left (h : b ≤ a) : join a b = a :=
  le_antisymm (join_le_iff.2 ⟨le_rfl, h⟩) (le_join_left a b)

theorem join_eq_right (h : a ≤ b) : join a b = b :=
  le_antisymm (join_le_iff.2 ⟨h, le_rfl⟩) (le_join_right a b)

end Equality

end JoinLattice

namespace VectorClock

instance : LawfulJoinLattice VectorClock where
  bottom_le := VectorClock.empty_le
  join_le_iff := merge_le_iff
  agree_iff := agrees_iff_le

end VectorClock

namespace Maximum
variable {a b c m : Maximum} {value : Int64}

/-- A register is below another one that has observed something at least as large. -/
instance : LE Maximum := ⟨fun a b => ∀ x, a.value = some x → ∃ y, b.value = some y ∧ x ≤ y⟩

theorem empty_le (m : Maximum) : empty ≤ m := nofun

theorem of_le_iff : of value ≤ m ↔ ∃ current, m.value = some current ∧ value ≤ current := by
  constructor
  · intro h
    exact h value rfl
  · rintro h x hx
    cases hx
    exact h

theorem of_le_of_iff {x y : Int64} : of x ≤ of y ↔ x ≤ y := by
  rw [of_le_iff]
  simp [of]

theorem eq_empty_or_of (m : Maximum) : m = empty ∨ ∃ value, m = of value := by
  obtain ⟨value⟩ := m
  cases value with
  | none => exact .inl rfl
  | some value => exact .inr ⟨value, rfl⟩

theorem le_empty_iff : m ≤ empty ↔ m = empty := by
  constructor
  · intro h
    rcases m.eq_empty_or_of with rfl | ⟨value, rfl⟩
    · rfl
    · obtain ⟨_, hvalue, _⟩ := of_le_iff.1 h
      cases hvalue
  · rintro rfl
    exact empty_le empty

instance : PartialOrder Maximum where
  le_refl _ x hx := ⟨x, hx, Int64.le_refl x⟩
  le_trans a b c hab hbc x hx := by
    obtain ⟨y, hy, hxy⟩ := hab x hx
    obtain ⟨z, hz, hyz⟩ := hbc y hy
    exact ⟨z, hz, Int64.le_trans hxy hyz⟩
  le_antisymm a b hab hba := by
    rcases a.eq_empty_or_of with rfl | ⟨x, rfl⟩
    · exact (le_empty_iff.1 hba).symm
    · rcases b.eq_empty_or_of with rfl | ⟨y, rfl⟩
      · exact le_empty_iff.1 hab
      · rw [Int64.le_antisymm (of_le_of_iff.1 hab) (of_le_of_iff.1 hba)]

theorem le_or_le (a b : Maximum) : a ≤ b ∨ b ≤ a := by
  rcases a.eq_empty_or_of with rfl | ⟨x, rfl⟩
  · exact .inl (empty_le b)
  · rcases b.eq_empty_or_of with rfl | ⟨y, rfl⟩
    · exact .inr (empty_le _)
    · exact (Int64.le_total x y).imp of_le_of_iff.2 of_le_of_iff.2

theorem join_cases (a b : Maximum) : a ≤ b ∧ a.join b = b ∨ b ≤ a ∧ a.join b = a := by
  rcases a.eq_empty_or_of with rfl | ⟨x, rfl⟩
  · exact .inl ⟨empty_le b, rfl⟩
  · rcases b.eq_empty_or_of with rfl | ⟨y, rfl⟩
    · exact .inr ⟨empty_le _, rfl⟩
    · by_cases hxy : x ≤ y
      · exact .inl ⟨of_le_of_iff.2 hxy, if_pos hxy⟩
      · have hyx := Int64.le_of_lt (Int64.not_le.1 hxy)
        exact .inr ⟨of_le_of_iff.2 hyx, if_neg hxy⟩

theorem join_le_iff : a.join b ≤ c ↔ a ≤ c ∧ b ≤ c := by
  rcases join_cases a b with ⟨hle, hjoin⟩ | ⟨hle, hjoin⟩
  · rw [hjoin]
    exact ⟨fun h => ⟨hle.trans h, h⟩, fun h => h.2⟩
  · rw [hjoin]
    exact ⟨fun h => ⟨h, hle.trans h⟩, fun h => h.1⟩

instance : LawfulJoinLattice Maximum where
  bottom_le := empty_le
  join_le_iff := join_le_iff
  agree_iff := beq_iff_eq.trans le_antisymm_iff

theorem observe_of_le (h : of value ≤ m) : m.observe value = (false, m) := by
  obtain ⟨current, hm, hle⟩ := of_le_iff.1 h
  rw [observe, hm]
  exact if_pos hle

theorem observe_of_not_le (h : ¬ of value ≤ m) : m.observe value = (true, of value) := by
  unfold observe
  split
  · next current hm => exact if_neg fun hle => h (of_le_iff.2 ⟨current, hm, hle⟩)
  · rfl

theorem observes : JoinLattice.Observes observe of := by
  intro m value
  by_cases h : of value ≤ m
  · rw [observe_of_le h]
    exact ⟨(JoinLattice.join_eq_left h).symm, by simp [JoinLattice.subsumes_iff.2 h]⟩
  · have hle : m ≤ of value := (le_or_le m (of value)).resolve_right h
    have hs : JoinLattice.subsumes m (of value) = false :=
      Bool.eq_false_iff.2 (mt JoinLattice.subsumes_iff.1 h)
    rw [observe_of_not_le h]
    exact ⟨(JoinLattice.join_eq_right hle).symm, by simp [hs]⟩

end Maximum

namespace OrderedSet
variable {α : Type} [Ord α] [Std.TransOrd α] [Std.LawfulEqOrd α] {s t u : OrderedSet α} {x : α}

/-- A set is below another one if its members are among those of the other. -/
instance : PartialOrder (OrderedSet α) where
  le s t := ∀ x, s.contains x = true → t.contains x = true
  le_refl _ _ hx := hx
  le_trans _ _ _ hst htu x hx := htu x (hst x hx)
  le_antisymm _ _ hst hts := ext_contains fun x => Bool.eq_iff_iff.2 ⟨hst x, hts x⟩

theorem union_le_iff : s.union t ≤ u ↔ s ≤ u ∧ t ≤ u := by
  constructor
  · intro h
    exact ⟨fun x hx => h x (contains_union.2 (.inl hx)), fun x hx => h x (contains_union.2 (.inr hx))⟩
  · rintro ⟨hs, ht⟩ x hx
    exact (contains_union.1 hx).elim (hs x) (ht x)

theorem singleton_le_iff : singleton x ≤ s ↔ s.contains x = true := by
  constructor
  · intro h
    exact h x (contains_singleton.2 rfl)
  · intro h y hy
    rw [contains_singleton.1 hy]
    exact h

end OrderedSet

namespace Members

instance : LawfulJoinLattice Members where
  bottom_le _ _ hx := absurd hx Bool.false_ne_true
  join_le_iff := OrderedSet.union_le_iff
  agree_iff := beq_iff_eq.trans le_antisymm_iff

theorem observes : JoinLattice.Observes observe OrderedSet.singleton := by
  intro s x
  constructor
  · exact (s.union_singleton x).symm
  · change (!s.contains x) = true ↔ _
    rw [Bool.not_eq_true', ← Bool.not_eq_true, ← Bool.not_eq_true, JoinLattice.subsumes_iff,
      OrderedSet.singleton_le_iff]

end Members

namespace JoinLattice

/-- In every lattice of the library the join of a list is the least upper bound of its elements, in
whatever order and however often they are listed, and observing one element joins it. Clocks are the
same if they agree, zero entries or not; registers and sets are the same if they are equal. -/
theorem joinAll_laws :
    JoinsAll VectorClock (fun a b => a.agrees b = true) ∧ JoinsAll Maximum (· = ·) ∧
      JoinsAll Members (· = ·) ∧ Observes Maximum.observe Maximum.of ∧
      Observes Members.observe OrderedSet.singleton :=
  ⟨joinsAll fun _ _ => Iff.rfl, joinsAll fun _ _ => beq_iff_eq.symm, joinsAll fun _ _ => beq_iff_eq.symm,
    Maximum.observes, Members.observes⟩

/-- Lists with repetitions, in other orders, of clocks with other zero entries. -/
theorem joinAll_laws_shuffled :
    let clocks : List VectorClock :=
      [.ofList [("a", 1)], .ofList [("b", 2), ("c", 0)], .ofList [("a", 1)]]
    let clocks' : List VectorClock := [.ofList [("b", 2)], .ofList [("a", 1), ("d", 0)]]
    let registers : List Maximum := [.of 3, .empty, .of (-7), .of 3]
    let registers' : List Maximum := [.of (-7), .of 3, .of (-7), .empty]
    let sets : List Members := [.ofList ["x", "y"], .ofList ["z", "x"]]
    (joinAll clocks).agrees (joinAll clocks') = true ∧ joinAll clocks ≠ joinAll clocks' ∧
      joinAll registers = joinAll registers' ∧ subsumes (joinAll registers) (.of (-7)) = true ∧
      joinAll (sets ++ sets.reverse) = join (joinAll sets) (joinAll sets.reverse) ∧
      ((Maximum.of 3).observe 3).2 = join (.of 3) (.of 3) ∧
      (Members.observe (joinAll sets) "z").2 = join (joinAll sets) (.singleton "z") := by
  intro clocks clocks' registers registers' sets
  obtain ⟨hclocks, hregisters, hsets, hmaximum, hmembers⟩ := joinAll_laws
  exact ⟨hclocks.congr clocks clocks' (by decide +kernel) (by decide +kernel), by decide +kernel,
    hregisters.congr registers registers' (by decide +kernel) (by decide +kernel),
    hregisters.upper registers (.of (-7)) (by decide +kernel), hsets.append sets sets.reverse,
    (hmaximum (.of 3) 3).1, (hmembers (joinAll sets) "z").1⟩

end JoinLattice
end Confluence
