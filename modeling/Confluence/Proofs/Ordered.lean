import Mathlib.Data.List.Nodup
import Confluence.Ordered

namespace Confluence.OrderedMap
variable {α β : Type} [Ord α] [Std.TransOrd α] [Std.LawfulEqOrd α]

omit [Std.LawfulEqOrd α] in
theorem nodup_keys (m : OrderedMap α β) : m.keys.Nodup := by
  refine List.pairwise_map.2 (m.sorted.imp ?_)
  intro x y hxy he
  have hself : compare y.1 y.1 = .eq := Std.ReflCmp.compare_self
  rw [he, hself] at hxy
  cases hxy

omit [Std.LawfulEqOrd α] in
theorem key_inj {m : OrderedMap α β} {k : α} {v w : β} (hv : (k, v) ∈ m.entries)
    (hw : (k, w) ∈ m.entries) : v = w := by
  have h := List.inj_on_of_nodup_map m.nodup_keys hv hw rfl
  cases h
  rfl

theorem find?_eq_some {m : OrderedMap α β} {k : α} {v : β} :
    m.find? k = some v ↔ (k, v) ∈ m.entries := by
  unfold find?
  constructor
  · intro h
    obtain ⟨e, he, rfl⟩ := Option.map_eq_some_iff.1 h
    have hk : compare k e.1 = .eq := by simpa using List.find?_some he
    rw [Std.LawfulEqCmp.eq_of_compare hk]
    exact List.mem_of_find?_eq_some he
  · intro h
    cases hf : m.entries.find? (fun e => compare k e.1 == .eq) with
    | none =>
      have hn := List.find?_eq_none.1 hf _ h
      simp [Std.ReflCmp.compare_self] at hn
    | some e =>
      have hk : compare k e.1 = .eq := by simpa using List.find?_some hf
      have he := List.mem_of_find?_eq_some hf
      have hke := Std.LawfulEqCmp.eq_of_compare hk
      exact congrArg some (key_inj (show (k, e.2) ∈ m.entries from hke ▸ he) h)

theorem ext_find? {m n : OrderedMap α β} (h : ∀ k, m.find? k = n.find? k) : m = n := by
  apply ext
  have hd (l : OrderedMap α β) : l.entries.Nodup :=
    l.sorted.imp fun hxy he => by simp [he, Std.ReflCmp.compare_self] at hxy
  have hp : m.entries.Perm n.entries := by
    apply (List.perm_ext_iff_of_nodup (hd m) (hd n)).2
    intro ⟨k, v⟩
    rw [← find?_eq_some, ← find?_eq_some, h]
  refine hp.eq_of_pairwise ?_ m.sorted n.sorted
  intro x y _ _ hxy hyx
  have hs : compare y.1 x.1 = (compare x.1 y.1).swap := Std.OrientedCmp.eq_swap
  rw [hs, hxy] at hyx
  cases hyx

omit [Std.TransOrd α] [Std.LawfulEqOrd α] in
@[simp] theorem find?_empty (k : α) : (empty : OrderedMap α β).find? k = none := rfl

omit [Std.LawfulEqOrd α] in
theorem find?_eq_none_of_lt {k : α} {e : α × β} {l : List (α × β)}
    (hlt : compare k e.1 = .lt) (he : ∀ x ∈ l, compare e.1 x.1 = .lt) :
    (e :: l).find? (fun e => compare k e.1 == .eq) = none := by
  refine List.find?_eq_none.2 ?_
  intro x hx
  have hkx : compare k x.1 = .lt := by
    rcases List.mem_cons.1 hx with rfl | hx
    · exact hlt
    · exact Std.TransCmp.lt_trans hlt (he x hx)
  simp [hkx]

theorem find?_alterEntries [DecidableEq α] {k k' : α} {f : Option β → β} {l : List (α × β)}
    (hl : l.Pairwise fun x y => compare x.1 y.1 = .lt) :
    ((alterEntries k f l).find? fun e => compare k' e.1 == .eq).map (·.2) =
      if k' = k then some (f ((l.find? fun e => compare k e.1 == .eq).map (·.2)))
      else (l.find? fun e => compare k' e.1 == .eq).map (·.2) := by
  induction l with
  | nil =>
    by_cases hk : k' = k
    · simp [alterEntries, hk, Std.ReflCmp.compare_self]
    · simp [alterEntries, hk, Std.LawfulEqCmp.compare_eq_iff_eq]
  | cons e l ih =>
    obtain ⟨he, hl⟩ := List.pairwise_cons.1 hl
    have hl := ih hl
    unfold alterEntries
    split
    · next hlt =>
      rw [find?_eq_none_of_lt hlt he]
      by_cases hk : k' = k
      · simp [hk, Std.ReflCmp.compare_self]
      · have hc : (compare k' k == .eq) = false := by
          simpa [Std.LawfulEqCmp.compare_eq_iff_eq] using hk
        rw [List.find?_cons_of_neg (by simp [hc]), if_neg hk]
    · next heq =>
      have heq := Std.LawfulEqCmp.eq_of_compare heq
      by_cases hk : k' = k
      · simp [hk, heq, Std.ReflCmp.compare_self]
      · simp [← heq, hk, Std.LawfulEqCmp.compare_eq_iff_eq]
    · next hgt =>
      have hne : (compare k e.1 == .eq) = false := by simp [hgt]
      simp only [List.find?_cons, hne]
      cases hc : compare k' e.1 == .eq with
      | false => exact hl
      | true =>
        have hk' := Std.LawfulEqCmp.eq_of_compare (beq_iff_eq.1 hc)
        have hk : k' ≠ k := by
          rintro rfl
          rw [hne] at hc
          cases hc
        simp [hk]

theorem find?_alter [DecidableEq α] (m : OrderedMap α β) (k k' : α) (f : Option β → β) :
    (m.alter k f).find? k' = if k' = k then some (f (m.find? k)) else m.find? k' :=
  find?_alterEntries m.sorted

@[simp] theorem find?_insert [DecidableEq α] (m : OrderedMap α β) (k k' : α) (v : β) :
    (m.insert k v).find? k' = if k' = k then some v else m.find? k' := find?_alter ..

theorem insert_entries_perm [DecidableEq α] {m : OrderedMap α β} {k : α} {v : β}
    (h : m.find? k = none) : (m.insert k v).entries.Perm ((k, v) :: m.entries) := by
  have hd (l : OrderedMap α β) : l.entries.Nodup := List.Nodup.of_map _ l.nodup_keys
  refine (List.perm_ext_iff_of_nodup (hd _) (List.nodup_cons.2 ⟨?_, hd m⟩)).2 ?_
  · rw [← find?_eq_some, h]
    simp
  · intro ⟨k', w⟩
    rw [List.mem_cons, ← find?_eq_some, ← find?_eq_some, find?_insert]
    by_cases hk : k' = k
    · simp [hk, h, eq_comm]
    · simp [hk]

theorem size_insert [DecidableEq α] {m : OrderedMap α β} {k : α} {v : β} (h : m.find? k = none) :
    (m.insert k v).size = m.size + 1 := (insert_entries_perm h).length_eq

omit [Std.TransOrd α] [Std.LawfulEqOrd α] in
theorem length_values (m : OrderedMap α β) : m.values.length = m.size := List.length_map _

@[simp] theorem find?_modify [DecidableEq α] (m : OrderedMap α β) (k k' : α) (d : β) (f : β → β) :
    (m.modify k d f).find? k' = if k' = k then some (f ((m.find? k).getD d)) else m.find? k' :=
  find?_alter ..

@[simp] theorem find?_filter (m : OrderedMap α β) (p : α → β → Bool) (k : α) :
    (m.filter p).find? k = (m.find? k).filter (p k) := by
  apply Option.ext
  intro v
  rw [find?_eq_some, Option.filter_eq_some_iff, find?_eq_some]
  exact List.mem_filter

@[simp] theorem find?_filterMap {γ : Type} (m : OrderedMap α β) (f : α → β → Option γ) (k : α) :
    (m.filterMap f).find? k = (m.find? k).bind (f k) := by
  apply Option.ext
  intro v
  rw [find?_eq_some, Option.bind_eq_some_iff, filterMap]
  simp only [List.mem_filterMap, Option.map_eq_some_iff, find?_eq_some]
  constructor
  · rintro ⟨e, he, w, hw, h⟩
    cases h
    exact ⟨e.2, he, hw⟩
  · rintro ⟨w, he, hw⟩
    exact ⟨(k, w), he, v, hw, rfl⟩

@[simp] theorem find?_erase [DecidableEq α] (m : OrderedMap α β) (k k' : α) :
    (m.erase k).find? k' = if k' = k then none else m.find? k' := by
  rw [erase, find?_filter]
  by_cases hk : k' = k
  · simp [hk, Std.ReflCmp.compare_self]
  · have hc : (compare k k' != .eq) = true := by
      simpa [Std.LawfulEqCmp.compare_eq_iff_eq] using Ne.symm hk
    cases m.find? k' <;> simp [hk, hc]

omit [Std.TransOrd α] [Std.LawfulEqOrd α] in
theorem contains_iff {m : OrderedMap α β} {k : α} :
    m.contains k = true ↔ ∃ v, m.find? k = some v := Option.isSome_iff_exists

theorem mem_values {m : OrderedMap α β} {v : β} : v ∈ m.values ↔ ∃ k, m.find? k = some v := by
  simp [values, find?_eq_some]

theorem mem_keys {m : OrderedMap α β} {k : α} : k ∈ m.keys ↔ m.contains k = true := by
  simp [keys, contains_iff, find?_eq_some]

theorem eq_empty_iff {m : OrderedMap α β} : m = empty ↔ ∀ k, m.find? k = none :=
  ⟨fun h k => h ▸ find?_empty k, fun h => ext_find? fun k => h k⟩

omit [Std.TransOrd α] [Std.LawfulEqOrd α] in
theorem popFirst?_eq_some {m rest : OrderedMap α β} {e : α × β} :
    m.popFirst? = some (e, rest) ↔ m.entries = e :: rest.entries := by
  obtain ⟨l, hl⟩ := m
  cases l with
  | nil => simp [popFirst?]
  | cons x l =>
    simp only [popFirst?, Option.some.injEq, Prod.mk.injEq, List.cons.injEq]
    exact and_congr_right fun _ => ⟨fun h => h ▸ rfl, fun h => ext h⟩

theorem lt_of_popFirst? {m rest : OrderedMap α β} {k k' : α} {v v' : β}
    (h : m.popFirst? = some ((k, v), rest)) (hf : rest.find? k' = some v') : compare k k' = .lt := by
  have hs := m.sorted
  rw [popFirst?_eq_some.1 h] at hs
  exact (List.pairwise_cons.1 hs).1 _ (find?_eq_some.1 hf)

theorem find?_of_popFirst? [DecidableEq α] {m rest : OrderedMap α β} {k : α} {v : β}
    (h : m.popFirst? = some ((k, v), rest)) (k' : α) :
    rest.find? k' = if k' = k then none else m.find? k' := by
  split
  · next hk =>
    subst hk
    refine Option.eq_none_iff_forall_ne_some.2 fun w hw => ?_
    have hself : compare k' k' = .eq := Std.ReflCmp.compare_self
    rw [lt_of_popFirst? h hw] at hself
    cases hself
  · next hk =>
    apply Option.ext
    intro w
    rw [find?_eq_some, find?_eq_some, popFirst?_eq_some.1 h, List.mem_cons, or_iff_right]
    rintro ⟨rfl, _⟩
    exact hk rfl

omit [Std.TransOrd α] [Std.LawfulEqOrd α] in
theorem popFirst?_eq_none {m : OrderedMap α β} : m.popFirst? = none ↔ m = empty := by
  obtain ⟨l, hl⟩ := m
  cases l with
  | nil => simp [popFirst?, empty]
  | cons e l => simp [popFirst?, empty]

omit [Std.TransOrd α] [Std.LawfulEqOrd α] in
theorem isEmpty_iff {m : OrderedMap α β} : m.isEmpty = true ↔ m = empty := by
  rw [isEmpty, List.isEmpty_iff]
  exact ⟨fun h => OrderedMap.ext h, fun h => congrArg entries h⟩

omit [Std.TransOrd α] [Std.LawfulEqOrd α] in
theorem alterEntries_eq_append [Std.OrientedOrd α] {k : α} {f : Option β → β} {l : List (α × β)}
    (h : ∀ e ∈ l, compare e.1 k = .lt) : alterEntries k f l = l ++ [(k, f none)] := by
  induction l with
  | nil => rfl
  | cons e l ih =>
    obtain ⟨he, hl⟩ := List.forall_mem_cons.1 h
    have hgt : compare k e.1 = .gt := Std.OrientedCmp.gt_iff_lt.2 he
    unfold alterEntries
    rw [hgt]
    exact congrArg (e :: ·) (ih hl)

omit [Std.LawfulEqOrd α] in
theorem entries_foldl_insert {m : OrderedMap α β} {l : List (α × β)}
    (h : (m.entries ++ l).Pairwise fun x y => compare x.1 y.1 = .lt) :
    (l.foldl (fun m e => m.insert e.1 e.2) m).entries = m.entries ++ l := by
  induction l generalizing m with
  | nil => exact (List.append_nil _).symm
  | cons e l ih =>
    have hlast : (m.insert e.1 e.2).entries = m.entries ++ [e] :=
      alterEntries_eq_append fun x hx => (List.pairwise_append.1 h).2.2 x hx e List.mem_cons_self
    rw [List.append_cons, ← hlast] at h
    rw [List.foldl_cons, ih h, hlast, ← List.append_cons]

omit [Std.LawfulEqOrd α] in
theorem ofList_entries (m : OrderedMap α β) : ofList m.entries = m :=
  ext (entries_foldl_insert m.sorted)

theorem find?_foldl_insert [DecidableEq α] {m : OrderedMap α β} {l : List (α × β)} {f : α → β}
    (h : ∀ e ∈ l, e.2 = f e.1) (k : α) : (l.foldl (fun m e => m.insert e.1 e.2) m).find? k =
      if k ∈ l.map Prod.fst then some (f k) else m.find? k := by
  induction l generalizing m with
  | nil => rfl
  | cons e l ih =>
    obtain ⟨he, hl⟩ := List.forall_mem_cons.1 h
    rw [List.foldl_cons, ih hl, find?_insert, he]
    by_cases hk : k = e.1
    · simp [hk]
    · have hmem : k ∈ l.map Prod.fst ↔ k ∈ (e :: l).map Prod.fst := by
        rw [List.map_cons, List.mem_cons, or_iff_right hk]
      rw [if_neg hk]
      exact if_congr hmem rfl rfl

end Confluence.OrderedMap

namespace Confluence.OrderedSet
variable {α : Type} [Ord α]

@[simp] theorem contains_empty (x : α) : (empty : OrderedSet α).contains x = false := rfl

variable [Std.TransOrd α] [Std.LawfulEqOrd α]

theorem ext_contains {s t : OrderedSet α} (h : ∀ x, s.contains x = t.contains x) : s = t := by
  cases s with
  | mk m =>
    cases t with
    | mk n =>
      congr 1
      apply OrderedMap.ext_find?
      intro x
      have hx : (m.find? x).isSome = (n.find? x).isSome := h x
      cases hm : m.find? x <;> cases hn : n.find? x <;> simp_all

theorem contains_insert {s : OrderedSet α} {x y : α} :
    (s.insert x).contains y = true ↔ y = x ∨ s.contains y = true := by
  classical
  unfold insert contains OrderedMap.contains
  rw [OrderedMap.find?_insert]
  by_cases hy : y = x <;> simp [hy]

theorem size_insert [DecidableEq α] {s : OrderedSet α} {x : α} (h : ¬ s.contains x = true) :
    (s.insert x).size = s.size + 1 :=
  OrderedMap.size_insert (Option.not_isSome_iff_eq_none.1 h)

theorem contains_foldl_insert {s : OrderedSet α} {l : List α} {y : α} :
    (l.foldl insert s).contains y = true ↔ y ∈ l ∨ s.contains y = true := by
  induction l generalizing s with
  | nil => simp
  | cons x l ih =>
    rw [List.foldl_cons, ih, contains_insert, List.mem_cons]
    constructor
    · rintro (h | h | h)
      · exact .inl (.inr h)
      · exact .inl (.inl h)
      · exact .inr h
    · rintro ((h | h) | h)
      · exact .inr (.inl h)
      · exact .inl h
      · exact .inr (.inr h)

theorem contains_ofList {l : List α} {x : α} : (ofList l).contains x = true ↔ x ∈ l := by
  unfold ofList
  rw [contains_foldl_insert]
  simp

theorem mem_toList {s : OrderedSet α} {x : α} : x ∈ s.toList ↔ s.contains x = true :=
  OrderedMap.mem_keys

theorem contains_union {s t : OrderedSet α} {x : α} :
    (s.union t).contains x = true ↔ s.contains x = true ∨ t.contains x = true := by
  rw [union, contains_foldl_insert, mem_toList, or_comm]

theorem contains_singleton {x y : α} : (singleton x).contains y = true ↔ y = x := by
  rw [singleton, contains_insert, contains_empty]
  exact or_iff_left Bool.false_ne_true

omit [Std.LawfulEqOrd α] in
theorem union_singleton (s : OrderedSet α) (x : α) : s.union (singleton x) = s.insert x := rfl

theorem ofList_toList (s : OrderedSet α) : ofList s.toList = s :=
  ext_contains fun _ => Bool.eq_iff_iff.2 (contains_ofList.trans mem_toList)

omit [Std.TransOrd α] [Std.LawfulEqOrd α] in
theorem length_toList (s : OrderedSet α) : s.toList.length = s.size := List.length_map _

omit [Std.TransOrd α] [Std.LawfulEqOrd α] in
theorem pairwise_toList (s : OrderedSet α) : s.toList.Pairwise fun x y => compare x y = .lt :=
  List.pairwise_map.2 s.table.sorted

omit [Std.TransOrd α] [Std.LawfulEqOrd α] in
theorem eq_empty_of_isEmpty {s : OrderedSet α} (h : s.isEmpty = true) : s = empty := by
  obtain ⟨⟨l, hl⟩⟩ := s
  obtain rfl : l = [] := List.isEmpty_iff.1 h
  rfl

end Confluence.OrderedSet
