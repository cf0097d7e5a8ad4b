import Confluence.Message
import Confluence.Proofs.State.Merge

namespace Confluence

def Operation.payloadsOn (k : Key) (ops : List Operation) : List Payload :=
  (ops.filter fun op => op.key = k).map (·.payload)

theorem Operation.payloadsOn_append (k : Key) (ops ops' : List Operation) :
    payloadsOn k (ops ++ ops') = payloadsOn k ops ++ payloadsOn k ops' := by
  simp [payloadsOn]

def Update.IsAssignFree (u : Update) : Prop := ∀ op ∈ u.operations, op.payload.value? = none

def Decision.effects (d : Decision) : List (Key × Effect) :=
  d.proposal.operations.map Operation.effect

/-- The state after some updates and then some decisions. -/
def ReplicaState.ofHistory (c : Classifier) (us : List Update) (ds : List Decision) :
    ReplicaState :=
  empty.performAll (us.flatMap (·.effects c) ++ ds.flatMap Decision.effects)

theorem Update.mem_stampedKeys {c : Classifier} {u : Update} {k : Key} :
    k ∈ u.stampedKeys c ↔
      ∃ op ∈ u.operations, op.key = k ∧ c.classifyOperation op ≠ .semilattice := by
  rw [stampedKeys, OrderedSet.mem_toList, OrderedSet.contains_ofList, List.mem_map]
  apply exists_congr
  intro op
  rw [List.mem_filter, decide_eq_true_iff, and_assoc]
  exact and_congr_right fun _ => and_comm

namespace Effect

theorem onKey_writes (k : Key) (ops : List Operation) :
    onKey k (ops.map Operation.effect) = (Operation.payloadsOn k ops).map .write := by
  rw [onKey, List.filter_map, List.map_map, Operation.payloadsOn, List.map_map]
  rfl

theorem onKey_stamps {ks : List Key} (h : ks.Nodup) (k : Key) (id : UpdateId) :
    onKey k (ks.map (·, .stamp id)) = if k ∈ ks then [.stamp id] else [] := by
  have hfilter : ks.filter (fun k' => decide (k' = k)) = if k ∈ ks then [k] else [] := by
    rw [List.filter_eq, h.count]
    split <;> rfl
  rw [onKey, List.filter_map, List.map_map]
  apply (congrArg (List.map _) hfilter).trans
  split <;> rfl

theorem payloads_onKey_writes (k : Key) (ops : List Operation) :
    payloads (onKey k (ops.map Operation.effect)) = Operation.payloadsOn k ops := by
  rw [onKey_writes, payloads_map_write]

theorem payloads_append (es fs : List Effect) : payloads (es ++ fs) = payloads es ++ payloads fs :=
  List.filterMap_append

theorem onKey_update (k : Key) (c : Classifier) (u : Update) :
    onKey k (u.effects c) = (Operation.payloadsOn k u.operations).map .write ++
      if ∃ op ∈ u.operations, op.key = k ∧ c.classifyOperation op ≠ .semilattice then
        [.stamp u.id] else [] := by
  have hnodup : (u.stampedKeys c).Nodup := OrderedMap.nodup_keys _
  rw [Update.effects, onKey_append, onKey_writes, onKey_stamps hnodup]
  simp only [Update.mem_stampedKeys]

theorem payloads_onKey_flatMap {α : Type} {k : Key} {f : α → List (Key × Effect)}
    {g : α → List Operation} (h : ∀ a, payloads (onKey k (f a)) = Operation.payloadsOn k (g a))
    (l : List α) : payloads (onKey k (l.flatMap f)) = Operation.payloadsOn k (l.flatMap g) := by
  induction l with
  | nil => rfl
  | cons a l ih =>
    rw [List.flatMap_cons, List.flatMap_cons, onKey_append, payloads_append, h, ih,
      Operation.payloadsOn_append]

theorem payloads_onKey_update (k : Key) (c : Classifier) (u : Update) :
    payloads (onKey k (u.effects c)) = Operation.payloadsOn k u.operations := by
  rw [onKey_update, payloads_append, payloads_map_write]
  split <;> exact List.append_nil _

theorem payloads_onKey_decision (k : Key) (d : Decision) :
    payloads (onKey k d.effects) = Operation.payloadsOn k d.proposal.operations :=
  payloads_onKey_writes k d.proposal.operations

theorem assigned_update {u : Update} (h : u.IsAssignFree) (k : Key) (c : Classifier) :
    assigned k (u.effects c) = [] := by
  unfold assigned
  rw [payloads_onKey_update, List.filterMap_eq_nil_iff]
  intro p hp
  obtain ⟨op, hop, rfl⟩ := List.mem_map.1 hp
  exact h op (List.mem_filter.1 hop).1

theorem assigned_updates {us : List Update} (h : ∀ u ∈ us, u.IsAssignFree) (k : Key)
    (c : Classifier) : assigned k (us.flatMap (·.effects c)) = [] := by
  induction us with
  | nil => rfl
  | cons u us ih =>
    rw [List.flatMap_cons, assigned_append, assigned_update (h u List.mem_cons_self),
      ih fun v hv => h v (List.mem_cons_of_mem _ hv)]
    rfl

end Effect

namespace ReplicaState
variable {c : Classifier} {us vs : List Update} {ds : List Decision} {u : Update}

/-- Merging an update that no key has seen, key by key: the payloads on a key in order, and a stamp
unless all of them join. -/
theorem get?_merge_new {s : ReplicaState} {mode : MergeMode}
    (h : ∀ k, ¬ (s.get k).applied.contains u.id) (k : Key) :
    (s.merge c mode u).1.get? k =
      if ∀ op ∈ u.operations, op.key ≠ k then s.get? k
      else
        let written := (Operation.payloadsOn k u.operations).foldl .apply (s.get k)
        some (if ∃ op ∈ u.operations, op.key = k ∧ c.classifyOperation op ≠ .semilattice then
          written.stamp u.id else written) := by
  rw [merge_eq h, get?_performAll, get_performAll]
  by_cases hk : ∀ op ∈ u.operations, op.key ≠ k
  · have hnone : Effect.onKey k (u.effects c) = [] := by
      have hp : Operation.payloadsOn k u.operations = [] := by
        simpa [Operation.payloadsOn] using hk
      have hs : ¬ ∃ op ∈ u.operations, op.key = k ∧ c.classifyOperation op ≠ .semilattice :=
        fun ⟨op, hop, he, _⟩ => hk op hop he
      rw [Effect.onKey_update, hp, if_neg hs]
      rfl
    rw [if_pos hk, hnone]
    unfold get
    cases s.get? k <;> rfl
  · have hp : Operation.payloadsOn k u.operations ≠ [] := by
      simpa [Operation.payloadsOn] using hk
    rw [if_neg hk, if_pos, Effect.onKey_update]
    · rw [KeyState.performAll_append, KeyState.performAll_writes]
      split <;> rfl
    · rw [Effect.onKey_update]
      simp [hp]

theorem payloads_history (c : Classifier) (us : List Update) (ds : List Decision) (k : Key) :
    Effect.payloads (Effect.onKey k (us.flatMap (·.effects c) ++ ds.flatMap Decision.effects)) =
      Operation.payloadsOn k
        (us.flatMap (·.operations) ++ ds.flatMap (·.proposal.operations)) := by
  rw [Effect.onKey_append, Effect.payloads_append, Operation.payloadsOn_append,
    Effect.payloads_onKey_flatMap (Effect.payloads_onKey_update k c),
    Effect.payloads_onKey_flatMap (Effect.payloads_onKey_decision k)]

theorem reflects_ofHistory (c : Classifier) (us : List Update) (ds : List Decision) (k : Key) :
    ((ofHistory c us ds).get k).Reflects (Operation.payloadsOn k
      (us.flatMap (·.operations) ++ ds.flatMap (·.proposal.operations))) := by
  rw [← payloads_history c us ds k, ofHistory, get_performAll]
  exact KeyState.reflects_performAll _

theorem stamped_ofHistory {k : Key} {id : UpdateId}
    (h : ((ofHistory c us ds).get k).applied.contains id = true) : ∃ u ∈ us, u.id = id := by
  rcases contains_performAll.1 h with h | h
  · rcases List.mem_append.1 h with h | h
    · obtain ⟨u, hu, h⟩ := List.mem_flatMap.1 h
      exact ⟨u, hu, Update.eq_id_of_stamp h⟩
    · obtain ⟨d, _, h⟩ := List.mem_flatMap.1 h
      obtain ⟨op, _, h⟩ := List.mem_map.1 h
      cases h
  · cases h

theorem ofHistory_perm (hp : us.Perm vs) (h : ∀ u ∈ us, u.IsAssignFree) :
    ofHistory c us ds = ofHistory c vs ds := by
  apply performAll_perm ((hp.flatMap_right _).append_right _)
  intro k
  rw [Effect.assigned_append, Effect.assigned_append, Effect.assigned_updates h,
    Effect.assigned_updates fun v hv => h v (hp.mem_iff.2 hv)]

theorem merge_ofHistory {mode : MergeMode} (hu : u.IsAssignFree) (hn : ∀ v ∈ us, v.id ≠ u.id) :
    ((ofHistory c us ds).merge c mode u).1 = ofHistory c (us ++ [u]) ds := by
  rw [merge_eq]
  · unfold ofHistory
    rw [← performAll_append, List.flatMap_append, List.flatMap_singleton, List.append_assoc,
      List.append_assoc]
    apply performAll_perm (List.perm_append_comm.append_left _)
    intro k
    simp only [Effect.assigned_append, Effect.assigned_update hu, List.nil_append, List.append_nil]
  · intro k hk
    obtain ⟨v, hv, he⟩ := stamped_ofHistory hk
    exact hn v hv he

theorem applyDecided_ofHistory (d : Decision) :
    (ofHistory c us ds).applyDecided d.proposal.operations = ofHistory c us (ds ++ [d]) := by
  rw [applyDecided_eq]
  unfold ofHistory
  rw [← performAll_append, List.append_assoc, List.flatMap_append, List.flatMap_singleton]
  rfl

theorem foldl_applyDecided_ofHistory (es : List Decision) :
    es.foldl (fun s d => s.applyDecided d.proposal.operations) (ofHistory c us ds) =
      ofHistory c us (ds ++ es) := by
  induction es generalizing ds with
  | nil => rw [List.append_nil]; rfl
  | cons d es ih => rw [List.foldl_cons, applyDecided_ofHistory, ih, List.append_assoc]; rfl

end ReplicaState
end Confluence
