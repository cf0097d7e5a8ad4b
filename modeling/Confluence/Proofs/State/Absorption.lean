import Confluence.Proofs.Classifier
import Confluence.Proofs.State.History

namespace Confluence

namespace KeyState
variable {s : KeyState} {p : Payload}

theorem apply_perform (s : KeyState) (e : Effect) (hp : p.value? = none) :
    (s.perform e).apply p = (s.apply p).perform e := by
  have h : s.performAll [e, .write p] = s.performAll [.write p, e] := by
    apply performAll_perm (List.Perm.swap _ _ _)
    cases e with
    | write q => simp [Effect.payloads, Effect.payload?, List.filterMap_cons, hp]
    | stamp id => rfl
  exact h

theorem apply_apply (s : KeyState) (hp : Signature.naturalFor p.shape = .semilattice) :
    (s.apply p).apply p = s.apply p := by
  cases p with
  | delta amount => cases hp
  | assign value => cases hp
  | maximum candidate =>
    have h : s.maximum.raise [candidate, candidate] = s.maximum.raise [candidate] :=
      raise_eq_of_mem (by simp)
    exact congrArg (fun m => { s with maximum := m }) h
  | insert member =>
    have h : [member, member].foldl .insert s.members = [member].foldl .insert s.members :=
      foldl_insert_eq_of_mem (by simp)
    exact congrArg (fun m => { s with members := m }) h

theorem foldl_apply_perm {ps qs : List Payload} (h : ps.Perm qs)
    (hv : ps.filterMap Payload.value? = qs.filterMap Payload.value?) :
    ps.foldl apply s = qs.foldl apply s := by
  rw [← performAll_writes, ← performAll_writes]
  apply performAll_perm (h.map _)
  rw [Effect.payloads_map_write, Effect.payloads_map_write, hv]

theorem apply_foldl_of_apply (later : List Payload) (hp : p.value? = none) (hs : s.apply p = s) :
    (later.foldl apply s).apply p = later.foldl apply s := by
  induction later generalizing s with
  | nil => exact hs
  | cons q later ih =>
    apply ih
    exact (apply_perform s (.write q) hp).trans (congrArg (·.apply q) hs)

end KeyState

namespace ReplicaState
variable {s : ReplicaState} {c : Classifier} {mode : MergeMode} {u v : Update} {op : Operation}
  {es : List (Key × Effect)}

theorem apply_performAll (es : List (Key × Effect)) (hop : op.payload.value? = none) :
    (s.performAll es).apply op = (s.apply op).performAll es := by
  have h : s.performAll (es ++ [op.effect]) = s.performAll (op.effect :: es) := by
    apply performAll_perm (List.perm_append_singleton _ _)
    intro k
    have hk : Effect.assigned k [op.effect] = [] := by
      apply List.filterMap_eq_nil_iff.2
      intro p hp
      rw [← List.map_singleton, Effect.payloads_onKey_writes] at hp
      obtain ⟨op', hop', rfl⟩ := List.mem_map.1 hp
      rw [List.mem_singleton.1 (List.mem_filter.1 hop').1]
      exact hop
    rw [Effect.assigned_append, ← List.singleton_append (l := es), Effect.assigned_append, hk,
      List.append_nil, List.nil_append]
  rw [performAll_append] at h
  exact h

theorem apply_apply (s : ReplicaState) (hop : Signature.naturalFor op.shape = .semilattice) :
    (s.apply op).apply op = s.apply op := by
  apply ext_get?
  intro k
  unfold apply
  rw [get?_modify, get_modify, get?_modify]
  split
  · rw [if_pos rfl, KeyState.apply_apply _ hop]
  · rfl

theorem apply_of_mem_effects (hop : Signature.naturalFor op.shape = .semilattice)
    (hv : op.payload.value? = none) (he : op.effect ∈ es) :
    (s.performAll es).apply op = s.performAll es := by
  obtain ⟨before, after, rfl⟩ := List.append_of_mem he
  have hs : s.performAll (before ++ op.effect :: after) =
      ((s.performAll before).apply op).performAll after := performAll_append ..
  rw [hs, apply_performAll after hv, apply_apply _ hop]

theorem applyDecided_eq_self {ops : List Operation} (h : ∀ op ∈ ops, s.apply op = s) :
    s.applyDecided ops = s := by
  induction ops with
  | nil => rfl
  | cons op ops ih =>
    unfold applyDecided
    rw [List.foldl_cons, h op List.mem_cons_self]
    exact ih fun op hop => h op (List.mem_cons_of_mem _ hop)

theorem contains_merge_new (h : ∀ k, ¬ (s.get k).applied.contains u.id) (k : Key) :
    ((s.merge c mode u).1.get k).applied.contains u.id = true ↔
      ∃ op ∈ u.operations, op.key = k ∧ c.classifyOperation op ≠ .semilattice := by
  rw [ReplicaState.merge_eq h, contains_performAll, or_iff_left (h k), ← Update.mem_stampedKeys,
    Update.effects, List.mem_append]
  constructor
  · rintro (hw | hs)
    · obtain ⟨op, _, he⟩ := List.mem_map.1 hw
      cases he
    · obtain ⟨k', hk, he⟩ := List.mem_map.1 hs
      cases he
      exact hk
  · exact fun hk => .inr (List.mem_map_of_mem hk)

/-- All that an update can bring is there: what it joins, and its stamp on every other key. -/
structure Absorbs (s : ReplicaState) (c : Classifier) (u : Update) : Prop where
  joined : ∀ op ∈ u.operations, c.classifyOperation op = .semilattice → s.apply op = s
  stamped : ∀ op ∈ u.operations, c.classifyOperation op ≠ .semilattice →
    (s.get op.key).applied.contains u.id = true

theorem Absorbs.performAll (h : s.Absorbs c u) (hc : c.Registered) (es : List (Key × Effect)) :
    (s.performAll es).Absorbs c u where
  joined op hop hj := by
    rw [apply_performAll es (hc.value?_eq_none (by simp [hj])), h.joined op hop hj]
  stamped op hop hj := contains_performAll.2 (.inr (h.stamped op hop hj))

theorem Absorbs.merge (h : s.Absorbs c u) (hc : c.Registered) (mode : MergeMode) (v : Update) :
    (s.merge c mode v).1.Absorbs c u := by
  rw [merge_eq_remainder]
  exact h.performAll hc _

theorem contains_merge (s : ReplicaState) (mode : MergeMode) (hop : op ∈ u.operations)
    (hj : c.classifyOperation op ≠ .semilattice) :
    ((s.merge c mode u).1.get op.key).applied.contains u.id = true := by
  rw [merge_eq_remainder]
  dsimp only
  rw [contains_performAll]
  by_cases hd : s.Drops c mode u.id op
  · exact .inr hd.2.2
  · left
    apply List.mem_append_right
    have hkey : op.key ∈ (s.remainder c mode u).stampedKeys c :=
      Update.mem_stampedKeys.2 ⟨op, List.mem_filter.2 ⟨hop, decide_eq_true hd⟩, rfl, hj⟩
    exact List.mem_map_of_mem hkey

theorem absorbs_merge (hc : c.Registered) (s : ReplicaState) (mode : MergeMode) (u : Update) :
    (s.merge c mode u).1.Absorbs c u := by
  constructor
  · intro op hop hj
    rw [merge_eq_remainder]
    dsimp only
    have hg : c.classifyOperation op ≠ .generic := by simp [hj]
    have hn := hc.eq_naturalFor hg
    rw [hj] at hn
    apply apply_of_mem_effects hn.symm (hc.value?_eq_none hg)
    apply List.mem_append_left
    apply List.mem_map_of_mem
    exact List.mem_filter.2 ⟨hop, decide_eq_true fun hd => hd.1 hj⟩
  · intro op hop hj
    exact contains_merge s mode hop hj

/-- Nothing of an update that is absorbed takes effect again: it joins what is there, and all else is
dropped. -/
theorem Absorbs.merge_eq (h : s.Absorbs c u) :
    (s.merge c .deduplicated u).1 = s ∧ (s.merge c .deduplicated u).2.applied = 0 := by
  rw [merge_eq_remainder]
  have hdrops : ∀ op ∈ u.operations, c.classifyOperation op ≠ .semilattice →
      s.Drops c .deduplicated u.id op := fun op hop hj => ⟨hj, rfl, h.stamped op hop hj⟩
  have hrest : ∀ op ∈ (s.remainder c .deduplicated u).operations,
      op ∈ u.operations ∧ c.classifyOperation op = .semilattice := by
    intro op hop
    obtain ⟨hop, hd⟩ := List.mem_filter.1 hop
    refine ⟨hop, ?_⟩
    by_contra hj
    exact of_decide_eq_true hd (hdrops op hop hj)
  constructor
  · have hkeys : (s.remainder c .deduplicated u).stampedKeys c = [] := by
      apply List.eq_nil_iff_forall_not_mem.2
      intro k hk
      obtain ⟨op, hop, _, hj⟩ := Update.mem_stampedKeys.1 hk
      exact hj (hrest op hop).2
    rw [Update.effects, hkeys, List.map_nil, List.append_nil, ← applyDecided_eq]
    apply applyDecided_eq_self
    intro op hop
    exact h.joined op (hrest op hop).1 (hrest op hop).2
  · apply List.countP_eq_zero.2
    intro op hop
    simp only [decide_eq_true_eq, not_and, not_not]
    exact hdrops op hop

end ReplicaState
end Confluence
