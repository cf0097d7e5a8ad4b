import Mathlib.Algebra.GroupWithZero.Nat
import Confluence.Proofs.State.Absorption

namespace Confluence

theorem eraseDups_concat {α : Type} [DecidableEq α] (l : List α) (x : α) :
    (l ++ [x]).eraseDups = if x ∈ l then l.eraseDups else l.eraseDups ++ [x] := by
  rw [List.eraseDups_append]
  by_cases h : x ∈ l <;> simp [List.removeAll, List.eraseDups_cons, h]

theorem nodup_eraseDups {α : Type} [DecidableEq α] (l : List α) : l.eraseDups.Nodup := by
  induction l using List.reverseRecOn with
  | nil => exact .nil
  | append_singleton l x ih =>
    rw [eraseDups_concat]
    split
    · exact ih
    · next h =>
      rw [← List.concat_eq_append]
      exact (List.nodup_concat ..).2 ⟨mt List.mem_eraseDups.1 h, ih⟩

/-- How many operations of an update take effect once and are not joined. -/
def Update.counted (c : Classifier) (u : Update) : Nat :=
  u.operations.countP fun op => c.classifyOperation op ≠ .semilattice

namespace ReplicaState
variable {s t : ReplicaState} {c : Classifier} {mode : MergeMode} {u v : Update}
  {us vs ws : List Update}

theorem mergeAll_concat (s : ReplicaState) (c : Classifier) (mode : MergeMode) (us : List Update)
    (u : Update) :
    s.mergeAll c mode (us ++ [u]) =
      (((s.mergeAll c mode us).1.merge c mode u).1,
        (s.mergeAll c mode us).2.add ((s.mergeAll c mode us).1.merge c mode u).2) := by
  unfold mergeAll
  rw [List.foldl_append]
  rfl

theorem mergeAll_fst (s : ReplicaState) (c : Classifier) (mode : MergeMode) (us : List Update) :
    (s.mergeAll c mode us).1 = us.foldl (fun s u => (s.merge c mode u).1) s := by
  induction us using List.reverseRecOn with
  | nil => rfl
  | append_singleton us u ih => rw [mergeAll_concat, List.foldl_append, ← ih]; rfl

theorem mergeAll_append (s : ReplicaState) (c : Classifier) (mode : MergeMode)
    (us vs : List Update) :
    (s.mergeAll c mode (us ++ vs)).1 = ((s.mergeAll c mode us).1.mergeAll c mode vs).1 := by
  simp only [mergeAll_fst, List.foldl_append]

theorem absorbs_mergeAll (hc : c.Registered) (s : ReplicaState) (mode : MergeMode) (hu : u ∈ us) :
    (s.mergeAll c mode us).1.Absorbs c u := by
  induction us using List.reverseRecOn with
  | nil => cases hu
  | append_singleton us v ih =>
    rw [mergeAll_concat]
    rcases List.mem_append.1 hu with hu | hu
    · exact (ih hu).merge hc mode v
    · rw [List.mem_singleton.1 hu]
      exact absorbs_merge hc _ mode v

theorem mergeAll_eraseDups (hc : c.Registered) (s : ReplicaState) (us : List Update) :
    (s.mergeAll c .deduplicated us).1 = (s.mergeAll c .deduplicated us.eraseDups).1 ∧
      (s.mergeAll c .deduplicated us).2.applied =
        (s.mergeAll c .deduplicated us.eraseDups).2.applied := by
  induction us using List.reverseRecOn with
  | nil => exact ⟨rfl, rfl⟩
  | append_singleton us u ih =>
    rw [eraseDups_concat]
    split
    · next hu =>
      obtain ⟨hstate, happlied⟩ := (absorbs_mergeAll hc s .deduplicated hu).merge_eq
      rw [mergeAll_concat, hstate]
      exact ⟨ih.1, (congrArg (_ + ·) happlied).trans ih.2⟩
    · rw [mergeAll_concat, mergeAll_concat, ← ih.1]
      exact ⟨rfl, congrArg (· + _) ih.2⟩

theorem contains_merge_of_ne {id : UpdateId} (h : u.id ≠ id) (k : Key) :
    ((s.merge c mode u).1.get k).applied.contains id = (s.get k).applied.contains id := by
  rw [Bool.eq_iff_iff, merge_eq_remainder, contains_performAll]
  exact or_iff_right fun he => h (Update.eq_id_of_stamp (u := s.remainder c mode u) he)

theorem remainder_congr
    (h : ∀ k, (t.get k).applied.contains u.id = (s.get k).applied.contains u.id) :
    t.remainder c mode u = s.remainder c mode u := by
  have hdrops (op : Operation) : t.Drops c mode u.id op ↔ s.Drops c mode u.id op := by
    unfold Drops
    rw [h]
  exact congrArg (fun ops => { u with operations := ops })
    (List.filter_congr fun op _ => decide_eq_decide.2 (not_congr (hdrops op)))

theorem merge_merge (h : u.id ≠ v.id) :
    ((s.merge c mode u).1.merge c mode v).1 =
      s.performAll ((s.remainder c mode u).effects c ++ (s.remainder c mode v).effects c) := by
  rw [merge_eq_remainder (s.merge c mode u).1, remainder_congr (contains_merge_of_ne h),
    merge_eq_remainder s, performAll_append]

theorem isAssignFree_remainder (h : u.IsAssignFree) : (s.remainder c mode u).IsAssignFree :=
  fun op hop => h op (List.mem_filter.1 hop).1

theorem merge_comm (h : u.id ≠ v.id) (hu : u.IsAssignFree) (hv : v.IsAssignFree) :
    ((s.merge c mode u).1.merge c mode v).1 = ((s.merge c mode v).1.merge c mode u).1 := by
  rw [merge_merge h, merge_merge h.symm]
  apply performAll_perm List.perm_append_comm
  intro k
  rw [Effect.assigned_append, Effect.assigned_append,
    Effect.assigned_update (isAssignFree_remainder hu),
    Effect.assigned_update (isAssignFree_remainder hv)]

theorem mergeAll_perm (hids : ∀ u ∈ us, ∀ v ∈ us, u.id = v.id → u = v)
    (hfree : ∀ u ∈ us, u.IsAssignFree) (h : us.Perm vs) :
    (s.mergeAll c mode us).1 = (s.mergeAll c mode vs).1 := by
  rw [mergeAll_fst, mergeAll_fst]
  apply h.foldl_eq'
  intro u hu v hv t
  by_cases huv : u.id = v.id
  · rw [hids u hu v hv huv]
  · exact merge_comm huv (hfree u hu) (hfree v hv)

theorem mergeAll_congr (hc : c.Registered) (hids : ∀ u ∈ us, ∀ v ∈ us, u.id = v.id → u = v)
    (hfree : ∀ u ∈ us, u.IsAssignFree) (h : ∀ u, u ∈ us ↔ u ∈ vs) :
    (s.mergeAll c .deduplicated us).1 = (s.mergeAll c .deduplicated vs).1 := by
  rw [(mergeAll_eraseDups hc s us).1, (mergeAll_eraseDups hc s vs).1]
  apply mergeAll_perm
  · intro u hu v hv
    exact hids u (List.mem_eraseDups.1 hu) v (List.mem_eraseDups.1 hv)
  · intro u hu
    exact hfree u (List.mem_eraseDups.1 hu)
  · apply (List.perm_ext_iff_of_nodup (nodup_eraseDups us) (nodup_eraseDups vs)).2
    intro u
    rw [List.mem_eraseDups, List.mem_eraseDups, h]

/-- What is merged depends on the set of updates alone. Of updates that assign nothing, and of which
an identifier names one, two streams of the same ones make the same state of any state, in whatever
order and however often they come. So merging is commutative, associative and idempotent. -/
theorem mergeAll_eq_of_mem {U : Update → Prop} (hc : c.Registered)
    (hids : ∀ u v, U u → U v → u.id = v.id → u = v) (hfree : ∀ u, U u → u.IsAssignFree)
    (hus : ∀ u ∈ us, U u) (hvs : ∀ u ∈ vs, U u) (hws : ∀ u ∈ ws, U u) (s : ReplicaState) :
    let merged (s : ReplicaState) (us : List Update) := (s.mergeAll c .deduplicated us).1
    ((∀ u, u ∈ us ↔ u ∈ vs) → merged s us = merged s vs) ∧
      merged s (us ++ vs) = merged s (vs ++ us) ∧
      merged (merged (merged s us) vs) ws = merged (merged (merged s vs) ws) us ∧
      merged s (us ++ us) = merged s us := by
  have hcongr {us vs : List Update} (hus : ∀ u ∈ us, U u) (h : ∀ u, u ∈ us ↔ u ∈ vs) :
      (s.mergeAll c .deduplicated us).1 = (s.mergeAll c .deduplicated vs).1 :=
    mergeAll_congr hc (fun u hu v hv => hids u v (hus u hu) (hus v hv))
      (fun u hu => hfree u (hus u hu)) h
  have happend {us vs : List Update} (hus : ∀ u ∈ us, U u) (hvs : ∀ u ∈ vs, U u) :
      ∀ u ∈ us ++ vs, U u := fun u hu => (List.mem_append.1 hu).elim (hus u) (hvs u)
  refine ⟨hcongr hus, hcongr (happend hus hvs) fun u => ?_, ?_, hcongr (happend hus hus) fun u => ?_⟩
  · rw [List.mem_append, List.mem_append, or_comm]
  · simp only [← mergeAll_append]
    apply hcongr (happend (happend hus hvs) hws)
    intro u
    simp only [List.mem_append]
    rw [or_assoc, or_comm]
  · rw [List.mem_append, or_self]

/-- One key of the state at the start has seen an update and another one has not, and a counter wraps
around. -/
theorem mergeAll_eq_of_mem_partly :
    let u : Update := ⟨Uuid.ofNat 1, "x", .ofList [("x", 1)],
      [.increment "edits" 2, .increment "likes" 5, .maximum "score" 3]⟩
    let v : Update := ⟨Uuid.ofNat 2, "y", .ofList [("y", 1)],
      [.insert "tags" "new", .increment "likes" Int64.maxValue]⟩
    let s := (empty.merge .standard .deduplicated { u with operations := [.increment "edits" 2] }).1
    let merged (us : List Update) := (s.mergeAll .standard .deduplicated us).1
    ((merged [u, v, u]).get "edits").counter = some 2 ∧
      ((merged [u, v, u]).get "likes").counter = some (Int64.minValue + 4) ∧
      merged [u, v, u] = merged [v, u] ∧ merged [u, v] = merged [v, u] ∧
      merged ([u, v] ++ [u, v]) = merged [u, v] := by
  intro u v s merged
  have hids : ∀ x y, x ∈ [u, v] → y ∈ [u, v] → x.id = y.id → x = y := by
    simp only [List.mem_cons, List.not_mem_nil, or_false]
    rintro x y (rfl | rfl) (rfl | rfl) h
    · rfl
    · exact absurd h (by decide)
    · exact absurd h (by decide)
    · rfl
  have hfree : ∀ x, x ∈ [u, v] → x.IsAssignFree := by
    simp [u, v, Update.IsAssignFree, Operation.increment, Operation.insert, Operation.maximum,
      Payload.value?]
  have hset (us vs : List Update) (hus : ∀ x ∈ us, x ∈ [u, v]) (hvs : ∀ x ∈ vs, x ∈ [u, v]) :=
    mergeAll_eq_of_mem (U := (· ∈ [u, v])) .standard hids hfree hus hvs hvs s
  refine ⟨by decide +kernel, by decide +kernel, ?_, ?_, ?_⟩
  · exact (hset [u, v, u] [v, u] (by simp) (by simp)).1 (by simp [or_comm])
  · exact (hset [u, v] [v, u] (by simp) (by simp)).1 (by simp [or_comm])
  · exact (hset [u, v] [u, v] (by simp) (by simp)).2.2.2

theorem length_operations (s : ReplicaState) (c : Classifier) (mode : MergeMode) (u : Update) :
    (s.merge c mode u).2.joined + (s.merge c mode u).2.applied +
      (s.merge c mode u).2.deduplicated = u.operations.length := by
  rw [merge_eq_remainder]
  dsimp only [tally]
  induction u.operations with
  | nil => rfl
  | cons op ops ih =>
    rw [List.countP_cons, List.countP_cons, List.countP_cons, List.length_cons, ← ih]
    by_cases hj : c.classifyOperation op = .semilattice
    · have hd : ¬ s.Drops c mode u.id op := fun hd => hd.1 hj
      simp only [hj, hd, ne_eq, not_true_eq_false, false_and, decide_false, decide_true,
        Bool.false_eq_true, if_true, if_false]
      omega
    · by_cases hd : s.Drops c mode u.id op
      · simp only [hj, hd, ne_eq, not_false_eq_true, not_true_eq_false, and_false, decide_false,
          decide_true, Bool.false_eq_true, if_true, if_false]
        omega
      · simp only [hj, hd, ne_eq, not_false_eq_true, and_self, decide_false, decide_true,
          Bool.false_eq_true, if_true, if_false]
        omega

theorem applied_of_fresh (h : ∀ k, ¬ (s.get k).applied.contains u.id) :
    (s.merge c mode u).2.applied = u.counted c := by
  rw [merge_eq_remainder]
  apply List.countP_congr
  intro op _
  have hd : ¬ s.Drops c mode u.id op := fun hd => h _ hd.2.2
  simp [hd]

/-- Different updates that no key has seen have all their effects. -/
theorem mergeAll_of_fresh (mode : MergeMode) (hids : us.Pairwise fun u v => u.id ≠ v.id)
    (h : ∀ u ∈ us, ∀ k, ¬ (s.get k).applied.contains u.id) :
    (s.mergeAll c mode us).1 = s.performAll (us.flatMap (·.effects c)) ∧
      (s.mergeAll c mode us).2.applied = (us.map (·.counted c)).sum := by
  induction us using List.reverseRecOn with
  | nil => exact ⟨rfl, rfl⟩
  | append_singleton us u ih =>
    obtain ⟨hids, _, hlast⟩ := List.pairwise_append.1 hids
    obtain ⟨hstate, happlied⟩ := ih hids fun v hv => h v (List.mem_append_left _ hv)
    -- The updates before it have stamped no key with this one.
    have hu : ∀ k, ¬ ((s.mergeAll c mode us).1.get k).applied.contains u.id := by
      intro k hk
      rw [hstate, contains_performAll] at hk
      rcases hk with hk | hk
      · obtain ⟨v, hv, hk⟩ := List.mem_flatMap.1 hk
        exact hlast v hv u (List.mem_singleton_self u) (Update.eq_id_of_stamp hk)
      · exact h u (List.mem_append_right _ (List.mem_singleton_self u)) k hk
    rw [mergeAll_concat]
    constructor
    · rw [merge_eq hu, hstate, List.flatMap_append, List.flatMap_singleton, performAll_append]
    · rw [List.map_append, List.sum_append, List.map_singleton, List.sum_singleton, ← happlied,
        ← applied_of_fresh hu]
      rfl

theorem get_performAll_effects (s : ReplicaState) (c : Classifier) (us : List Update) (k : Key) :
    { (s.performAll (us.flatMap (·.effects c))).get k with applied := (s.get k).applied } =
      (s.applyDecided (us.flatMap (·.operations))).get k := by
  have hwrites := Effect.payloads_onKey_writes k (us.flatMap (·.operations))
  have hpayloads := payloads_history c us [] k
  rw [List.flatMap_nil, List.append_nil, List.flatMap_nil, List.append_nil] at hpayloads
  have hstamps : Effect.stamps (Effect.onKey k ((us.flatMap (·.operations)).map Operation.effect)) =
      [] := by
    apply List.filterMap_eq_nil_iff.2
    intro e he
    obtain ⟨op, _, he⟩ := List.mem_map.1 (Effect.mem_onKey.1 he)
    cases he
    rfl
  rw [applyDecided_eq, get_performAll, get_performAll, KeyState.performAll_eq,
    KeyState.performAll_eq, hwrites, hpayloads, hstamps]
  rfl

/-- Deduplication removes exactly the redeliveries. A stream of updates of which an identifier names
one, and of which no key has seen any, has the effect of its first occurrences merged without a look
at the stamps: but for the stamps, that of all their operations, each applied once. Those that are
not joined are counted as applied once, and every merge counts every operation. -/
theorem mergeAll_eq_unchecked (hc : c.Registered)
    (hids : ∀ u ∈ us, ∀ v ∈ us, u.id = v.id → u = v)
    (hfresh : ∀ u ∈ us, ∀ k, (s.get k).applied.contains u.id = false) :
    let merged := s.mergeAll c .deduplicated us
    merged.1 = (s.mergeAll c .unchecked us.eraseDups).1 ∧
      (∀ k, { merged.1.get k with applied := (s.get k).applied } =
        (s.applyDecided (us.eraseDups.flatMap (·.operations))).get k) ∧
      merged.2.applied = (us.eraseDups.map (·.counted c)).sum ∧
      ∀ (t : ReplicaState) (mode : MergeMode) (u : Update),
        let report := (t.merge c mode u).2
        report.joined + report.applied + report.deduplicated = u.operations.length := by
  intro merged
  have hdistinct : us.eraseDups.Pairwise fun u v => u.id ≠ v.id := by
    apply List.Pairwise.imp_of_mem _ (nodup_eraseDups us)
    intro u v hu hv hne he
    exact hne (hids u (List.mem_eraseDups.1 hu) v (List.mem_eraseDups.1 hv) he)
  have hnew : ∀ u ∈ us.eraseDups, ∀ k, ¬ (s.get k).applied.contains u.id := by
    intro u hu k
    simp [hfresh u (List.mem_eraseDups.1 hu) k]
  obtain ⟨hstate, happlied⟩ := mergeAll_eraseDups hc s us
  obtain ⟨hdedup, hcount⟩ := @mergeAll_of_fresh s c us.eraseDups .deduplicated hdistinct hnew
  obtain ⟨hunchecked, _⟩ := @mergeAll_of_fresh s c us.eraseDups .unchecked hdistinct hnew
  have hmerged : merged.1 = s.performAll (us.eraseDups.flatMap (·.effects c)) :=
    hstate.trans hdedup
  refine ⟨hmerged.trans hunchecked.symm, ?_, happlied.trans hcount, fun t => length_operations t c⟩
  intro k
  rw [hmerged]
  exact get_performAll_effects s c us.eraseDups k

/-- Two deltas of an update are on one key, registers are assigned in the order of first occurrences,
and a kind is not registered. -/
theorem mergeAll_eq_unchecked_assigned :
    let u : Update := ⟨Uuid.ofNat 1, "x", .ofList [("x", 1)],
      [.increment "edits" 2, .overwrite "title" "draft", .decrement "edits" 5, .maximum "score" 3]⟩
    let v : Update := ⟨Uuid.ofNat 2, "y", .ofList [("y", 1)],
      [.overwrite "title" "final", ⟨"score", "raise", .maximum 4⟩]⟩
    let s := (empty.merge .standard .deduplicated
      ⟨Uuid.ofNat 3, "z", .ofList [("z", 1)], [.increment "edits" 10]⟩).1
    let merged := s.mergeAll .standard .deduplicated [u, v, u, v]
    merged.1 = (s.mergeAll .standard .unchecked [u, v]).1 ∧
      (merged.1.get "edits").counter = some 7 ∧ (merged.1.get "title").register = some "final" ∧
      merged.2.applied = 5 ∧ merged.2.deduplicated = 5 := by
  intro u v s merged
  have hids : ∀ x ∈ [u, v, u, v], ∀ y ∈ [u, v, u, v], x.id = y.id → x = y := by decide +kernel
  have hfresh : ∀ x ∈ [u, v, u, v], ∀ k, (s.get k).applied.contains x.id = false := by
    intro x hx k
    have hne : ∀ x ∈ [u, v, u, v], Uuid.ofNat 3 ≠ x.id := by decide
    exact contains_merge_of_ne (s := empty) (hne x hx) k
  have hfirst : [u, v, u, v].eraseDups = [u, v] := by decide +kernel
  have h := mergeAll_eq_unchecked .standard hids hfresh
  rw [hfirst] at h
  exact ⟨h.1, by decide +kernel, by decide +kernel, by decide +kernel, by decide +kernel⟩

end ReplicaState
end Confluence
