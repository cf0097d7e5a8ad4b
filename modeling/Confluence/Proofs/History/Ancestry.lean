import Mathlib.Logic.Relation
import Mathlib.Order.Preorder.Finite
import Confluence.Proofs.History.Order

namespace Confluence.CausalHistory
variable {h : CausalHistory} {id : UpdateId} {t u v : Update} {stable : VectorClock}

theorem mem_heads :
    u ∈ h.heads ↔ u ∈ h.retained ∧ ∀ v ∈ h.retained, u.clock.happenedBefore v.clock = false := by
  rw [heads, List.mem_filter, Bool.not_eq_true', List.any_eq_false]
  exact and_congr_right fun _ => forall₂_congr fun _ _ => (Bool.not_eq_true _).to_iff

theorem predecessors_of_get? (ht : h.get? id = some t) :
    h.predecessors id = h.retained.filter fun u => u.clock.happenedBefore t.clock := by
  rw [predecessors, ht]

theorem concurrentWith_of_get? (ht : h.get? id = some t) :
    h.concurrentWith id = h.retained.filter fun u => u.clock.isConcurrentWith t.clock := by
  rw [concurrentWith, ht]

theorem mem_predecessors : u ∈ h.predecessors id ↔
    ∃ t, h.get? id = some t ∧ u ∈ h.retained ∧ u.clock < t.clock := by
  cases ht : h.get? id with
  | none => simp [predecessors, ht]
  | some t => simp [predecessors_of_get? ht, VectorClock.happenedBefore_iff_lt]

theorem mem_concurrentWith : u ∈ h.concurrentWith id ↔
    ∃ t, h.get? id = some t ∧ u ∈ h.retained ∧ u.clock.isConcurrentWith t.clock = true := by
  cases ht : h.get? id with
  | none => simp [concurrentWith, ht]
  | some t => simp [concurrentWith_of_get? ht]

theorem exists_head (hu : u ∈ h.retained) :
    u ∈ h.heads ∨ ∃ v ∈ h.heads, u.clock.happenedBefore v.clock = true := by
  let clocks := (h.retained.map (·.clock)).toFinset
  have hmem {v : Update} (hv : v ∈ h.retained) : v.clock ∈ clocks :=
    List.mem_toFinset.2 (List.mem_map_of_mem hv)
  obtain ⟨c, hle, hmax⟩ := clocks.exists_le_maximal (hmem hu)
  obtain ⟨v, hv, rfl⟩ := List.mem_map.1 (List.mem_toFinset.1 hmax.prop)
  have hlast (w : Update) (hw : w ∈ h.retained) : ¬ v.clock < w.clock := hmax.not_gt (hmem hw)
  by_cases hlt : u.clock < v.clock
  · refine .inr ⟨v, mem_heads.2 ⟨hv, ?_⟩, VectorClock.happenedBefore_iff_lt.2 hlt⟩
    intro w hw
    exact VectorClock.happenedBefore_eq_false_iff.2 (hlast w hw)
  · -- the clock of the update agrees with a last one, so nothing is above it either
    have hge : v.clock ≤ u.clock := by
      by_contra hge
      exact hlt (lt_of_le_not_ge hle hge)
    refine .inl (mem_heads.2 ⟨hu, ?_⟩)
    intro w hw
    rw [VectorClock.happenedBefore_eq_false_iff]
    intro huw
    exact hlast w hw (lt_of_le_of_lt hge huw)

theorem IsKeyed.mem_predecessors (hk : h.IsKeyed) (hv : v ∈ h.retained) :
    u ∈ h.predecessors v.id ↔ u ∈ h.retained ∧ u.clock < v.clock := by
  rw [CausalHistory.mem_predecessors, hk.mem_retained.1 hv]
  simp

theorem IsKeyed.mem_concurrentWith (hk : h.IsKeyed) (hv : v ∈ h.retained) :
    u ∈ h.concurrentWith v.id ↔
      u ∈ h.retained ∧ u.clock.isConcurrentWith v.clock = true := by
  rw [CausalHistory.mem_concurrentWith, hk.mem_retained.1 hv]
  simp

theorem IsKeyed.predecessors_trans (hk : h.IsKeyed) (hv : v ∈ h.predecessors id)
    (hu : u ∈ h.predecessors v.id) : u ∈ h.predecessors id := by
  obtain ⟨t, ht, hretained, hvt⟩ := CausalHistory.mem_predecessors.1 hv
  obtain ⟨hu, huv⟩ := (hk.mem_predecessors hretained).1 hu
  exact CausalHistory.mem_predecessors.2 ⟨t, ht, hu, lt_trans huv hvt⟩

theorem IsKeyed.acyclic (hk : h.IsKeyed) (u : Update) :
    ¬ Relation.TransGen (fun u v => u ∈ h.predecessors v.id) u u := by
  have htrans : IsTrans Update fun u v => u ∈ h.predecessors v.id :=
    ⟨fun _ _ _ huv hvw => hk.predecessors_trans hvw huv⟩
  rw [Relation.transGen_eq_self]
  intro hu
  obtain ⟨_, _, hretained, _⟩ := CausalHistory.mem_predecessors.1 hu
  exact lt_irrefl _ ((hk.mem_predecessors hretained).1 hu).2

theorem filter_order_perm {α : Type} (f : α → CausalOrder) (l : List α) :
    (l.filter (f · = .equal) ++ l.filter (f · = .before) ++ l.filter (f · = .after) ++
      l.filter (f · = .concurrent)).Perm l := by
  induction l with
  | nil => exact .nil
  | cons a l ih =>
    cases ha : f a with
    | equal => simpa [ha] using ih
    | before =>
      rw [List.append_assoc, List.append_assoc] at ih
      have hmiddle := List.perm_middle.trans (ih.cons a)
      simpa [ha] using hmiddle
    | after =>
      rw [List.append_assoc] at ih
      have hmiddle := List.perm_middle.trans (ih.cons a)
      simpa [ha] using hmiddle
    | concurrent =>
      have hmiddle := List.perm_middle.trans (ih.cons a)
      simpa [ha] using hmiddle

theorem IsKeyed.successors_of_get? (hk : h.IsKeyed) (ht : h.get? id = some t) :
    (h.retained.filter fun u => t ∈ h.predecessors u.id) =
      h.retained.filter fun u => u.clock.relation t.clock = .after := by
  apply List.filter_congr
  intro u hu
  rw [decide_eq_decide, hk.mem_predecessors hu, VectorClock.relation_eq_after_iff,
    VectorClock.happenedBefore_iff_lt]
  exact and_iff_right (CausalHistory.mem_retained.2 ⟨id, ht⟩)

theorem IsKeyed.split_perm (hk : h.IsKeyed) (ht : h.get? id = some t) :
    ((h.retained.filter fun u => u.clock.agrees t.clock) ++ h.predecessors id ++
      (h.retained.filter fun u => t ∈ h.predecessors u.id) ++ h.concurrentWith id).Perm
        h.retained := by
  rw [predecessors_of_get? ht, concurrentWith_of_get? ht, hk.successors_of_get? ht]
  exact filter_order_perm (fun u => u.clock.relation t.clock) h.retained

/-- The queries of a history describe one directed graph without cycles. -/
structure IsDag (h : CausalHistory) : Prop where
  distinct : (h.retained.map (·.id)).Nodup
  head : ∀ u ∈ h.retained, u ∈ h.heads ∨ ∃ v ∈ h.heads, u.clock.happenedBefore v.clock = true
  last : ∀ u ∈ h.heads, u ∈ h.retained ∧
    ∀ v ∈ h.retained, u.clock.happenedBefore v.clock = false
  apart : ∀ u ∈ h.heads, ∀ v ∈ h.heads,
    u.clock.isConcurrentWith v.clock = true ∨ u.clock.agrees v.clock = true
  /-- Each update is in one of the parts, and in no two. -/
  split : ∀ id t, h.get? id = some t →
    (t ∈ h.retained.filter fun u => u.clock.agrees t.clock) ∧
    ((h.retained.filter fun u => u.clock.agrees t.clock) ++ h.predecessors id ++
      (h.retained.filter fun u => t ∈ h.predecessors u.id) ++ h.concurrentWith id).Perm h.retained
  trans : ∀ id u v, v ∈ h.predecessors id → u ∈ h.predecessors v.id → u ∈ h.predecessors id
  acyclic : ∀ u, ¬ Relation.TransGen (fun u v => u ∈ h.predecessors v.id) u u
  symm : ∀ u ∈ h.retained, ∀ v ∈ h.retained, u ∈ h.concurrentWith v.id → v ∈ h.concurrentWith u.id

theorem IsKeyed.isDag (hk : h.IsKeyed) : h.IsDag where
  distinct := hk.nodup_ids
  head _ := exists_head
  last _ := mem_heads.1
  apart u hu v hv := by
    obtain ⟨hu, hulast⟩ := mem_heads.1 hu
    obtain ⟨hv, hvlast⟩ := mem_heads.1 hv
    apply VectorClock.isConcurrentWith_or_agrees
    · exact VectorClock.happenedBefore_eq_false_iff.1 (hulast v hv)
    · exact VectorClock.happenedBefore_eq_false_iff.1 (hvlast u hu)
  split id t ht := by
    have hself : t.clock.agrees t.clock = true := VectorClock.agrees_iff.2 fun _ => rfl
    exact ⟨List.mem_filter.2 ⟨CausalHistory.mem_retained.2 ⟨id, ht⟩, hself⟩, hk.split_perm ht⟩
  trans _ _ _ := hk.predecessors_trans
  acyclic := hk.acyclic
  symm u hu v hv h := by
    rw [hk.mem_concurrentWith hv] at h
    rw [hk.mem_concurrentWith hu, VectorClock.isConcurrentWith_comm]
    exact ⟨hv, h.2⟩

/-- What the queries of a history answer, by the counters of the clocks. -/
structure Answers (h : CausalHistory) : Prop where
  heads : ∀ u, u ∈ h.heads ↔
    u ∈ h.retained ∧ ∀ v ∈ h.retained, ¬ u.clock.Places v.clock .before
  equal : ∀ t u : Update, u ∈ (h.retained.filter fun u => u.clock.agrees t.clock) ↔
    u ∈ h.retained ∧ u.clock.Places t.clock .equal
  predecessors : ∀ id t, h.get? id = some t → ∀ u, u ∈ h.predecessors id ↔
    u ∈ h.retained ∧ u.clock.Places t.clock .before
  successors : ∀ id t, h.get? id = some t → ∀ u,
    u ∈ (h.retained.filter fun u => t ∈ h.predecessors u.id) ↔
      u ∈ h.retained ∧ u.clock.Places t.clock .after
  concurrent : ∀ id t, h.get? id = some t → ∀ u, u ∈ h.concurrentWith id ↔
    u ∈ h.retained ∧ u.clock.Places t.clock .concurrent

theorem mem_filter_relation {l : List Update} {c : VectorClock} {o : CausalOrder} :
    u ∈ (l.filter fun u => u.clock.relation c = o) ↔ u ∈ l ∧ u.clock.Places c o := by
  rw [List.mem_filter, decide_eq_true_iff, VectorClock.relation_eq_iff]

theorem IsKeyed.answers (hk : h.IsKeyed) : h.Answers where
  heads u := by
    rw [mem_heads]
    refine and_congr_right fun _ => forall₂_congr fun v _ => ?_
    rw [VectorClock.happenedBefore, decide_eq_false_iff_not, VectorClock.relation_eq_iff]
  equal t u := mem_filter_relation
  predecessors id t ht u := by
    rw [predecessors_of_get? ht]
    exact mem_filter_relation
  successors id t ht u := by
    rw [hk.successors_of_get? ht]
    exact mem_filter_relation
  concurrent id t ht u := by
    rw [concurrentWith_of_get? ht]
    exact mem_filter_relation

theorem retained_prune (h : CausalHistory) (stable : VectorClock) :
    (h.prune stable).2.retained =
      h.retained.filter fun u => !stable.covers u.origin u.sequence := by
  rw [retained, retained, OrderedMap.values, OrderedMap.values, List.filter_map]
  rfl

/-- A collection takes out the updates that are covered and tells how many there were; among the others
the graph stays as it is. -/
structure Collects (h : CausalHistory) (stable : VectorClock) : Prop where
  retained : (h.prune stable).2.retained =
    h.retained.filter fun u => !stable.covers u.origin u.sequence
  removed : (h.prune stable).1 =
    (h.retained.filter fun u => stable.covers u.origin u.sequence).length
  pruned : (h.prune stable).2.pruned = h.pruned + (h.prune stable).1
  predecessors : ∀ u ∈ (h.prune stable).2.retained, (h.prune stable).2.predecessors u.id =
    (h.predecessors u.id).filter fun v => !stable.covers v.origin v.sequence
  concurrent : ∀ u ∈ (h.prune stable).2.retained, (h.prune stable).2.concurrentWith u.id =
    (h.concurrentWith u.id).filter fun v => !stable.covers v.origin v.sequence

theorem IsKeyed.collects (hk : h.IsKeyed) (stable : VectorClock) : h.Collects stable where
  retained := retained_prune h stable
  removed := by
    change h.updates.size - (h.prune stable).2.updates.size = _
    rw [← length_retained, ← length_retained, retained_prune,
      List.length_eq_length_filter_add fun u => stable.covers u.origin u.sequence]
    exact Nat.add_sub_cancel ..
  pruned := rfl
  predecessors u hu := by
    have hu : (h.prune stable).2.get? u.id = some u :=
      (hk.perform (.prune stable)).mem_retained.1 hu
    rw [predecessors_of_get? hu, predecessors_of_get? (get?_of_get?_prune hu), retained_prune,
      List.filter_comm]
  concurrent u hu := by
    have hu : (h.prune stable).2.get? u.id = some u :=
      (hk.perform (.prune stable)).mem_retained.1 hu
    rw [concurrentWith_of_get? hu, concurrentWith_of_get? (get?_of_get?_prune hu), retained_prune,
      List.filter_comm]

/-- Whatever updates have been inserted, with whatever clocks, and whatever has been pruned, the queries
of the history describe one directed graph without cycles, which is that of the counters of the clocks,
and the next collection takes just the covered updates out of it. -/
theorem isDag_of_performAll (changes : List Change) :
    (empty.performAll changes).IsDag ∧ (empty.performAll changes).Answers ∧
      ∀ stable, (empty.performAll changes).Collects stable := by
  have hkeyed : (empty.performAll changes).IsKeyed := isKeyed_empty.performAll changes
  exact ⟨hkeyed.isDag, hkeyed.answers, hkeyed.collects⟩

/-- Two updates are concurrent, a third one comes after both, a fourth one agrees with it but for a zero
entry, and a fifth one stands apart. A collection takes one of the first two. -/
theorem isDag_of_performAll_collected :
    let u (id : Nat) (origin : NodeId) (clock : List (NodeId × UInt64)) : Update :=
      ⟨Uuid.ofNat id, origin, .ofList clock, []⟩
    let h := empty.performAll [.insert (u 3 "a" [("a", 2), ("b", 1)]), .insert (u 1 "a" [("a", 1)]),
      .insert (u 2 "b" [("b", 1)]), .insert (u 4 "b" [("a", 2), ("b", 1), ("c", 0)]),
      .insert (u 5 "c" [("c", 1)])]
    let stable : VectorClock := .ofList [("a", 1)]
    h.heads.map (·.id) = [3, 4, 5].map Uuid.ofNat ∧
      (h.predecessors (Uuid.ofNat 3)).map (·.id) = [1, 2].map Uuid.ofNat ∧
      (h.concurrentWith (Uuid.ofNat 1)).map (·.id) = [2, 5].map Uuid.ofNat ∧
      (∃ v ∈ h.heads, (u 1 "a" [("a", 1)]).clock.happenedBefore v.clock = true) ∧
      (u 2 "b" [("b", 1)]).clock.Places (VectorClock.ofList [("a", 2), ("b", 1)]) .before ∧
      (h.prune stable).1 = 1 ∧ (h.prune stable).2.retained.length = 4 ∧
      ((h.prune stable).2.predecessors (Uuid.ofNat 3)).map (·.id) = [Uuid.ofNat 2] := by
  intro u h stable
  obtain ⟨hdag, hanswers, hcollects⟩ := isDag_of_performAll
    [.insert (u 3 "a" [("a", 2), ("b", 1)]), .insert (u 1 "a" [("a", 1)]),
      .insert (u 2 "b" [("b", 1)]), .insert (u 4 "b" [("a", 2), ("b", 1), ("c", 0)]),
      .insert (u 5 "c" [("c", 1)])]
  have hfirst : u 1 "a" [("a", 1)] ∈ h.retained ∧ u 1 "a" [("a", 1)] ∉ h.heads := by decide +kernel
  have hlast : h.get? (Uuid.ofNat 3) = some (u 3 "a" [("a", 2), ("b", 1)]) ∧
      u 3 "a" [("a", 2), ("b", 1)] ∈ (h.prune stable).2.retained ∧
      u 2 "b" [("b", 1)] ∈ h.predecessors (Uuid.ofNat 3) := by decide +kernel
  refine ⟨by decide +kernel, by decide +kernel, by decide +kernel,
    (hdag.head _ hfirst.1).resolve_left hfirst.2,
    ((hanswers.predecessors _ _ hlast.1 _).1 hlast.2.2).2, ?_, ?_, ?_⟩
  · rw [(hcollects stable).removed]
    decide +kernel
  · rw [(hcollects stable).retained]
    decide +kernel
  · rw [(hcollects stable).predecessors (u 3 "a" [("a", 2), ("b", 1)]) hlast.2.1]
    decide +kernel

end Confluence.CausalHistory
