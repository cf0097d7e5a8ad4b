import Confluence.Proofs.State.Effect

namespace Confluence

/-- The effects on one key, in order. -/
def Effect.onKey (k : Key) (es : List (Key × Effect)) : List Effect :=
  (es.filter fun e => e.1 = k).map (·.2)

/-- The values that some effects assign to the register of a key, in order. -/
def Effect.assigned (k : Key) (es : List (Key × Effect)) : List String :=
  (Effect.payloads (Effect.onKey k es)).filterMap Payload.value?

def Operation.effect (op : Operation) : Key × Effect := (op.key, .write op.payload)

namespace Effect

theorem onKey_append (k : Key) (es fs : List (Key × Effect)) :
    onKey k (es ++ fs) = onKey k es ++ onKey k fs := by
  simp [onKey]

theorem assigned_append (k : Key) (es fs : List (Key × Effect)) :
    assigned k (es ++ fs) = assigned k es ++ assigned k fs := by
  simp [assigned, onKey_append, payloads]

theorem mem_onKey {k : Key} {es : List (Key × Effect)} {e : Effect} :
    e ∈ onKey k es ↔ (k, e) ∈ es := by
  simp only [onKey, List.mem_map, List.mem_filter, decide_eq_true_eq]
  constructor
  · rintro ⟨⟨k', e'⟩, ⟨h, rfl⟩, rfl⟩
    exact h
  · exact fun h => ⟨(k, e), ⟨h, rfl⟩, rfl⟩

end Effect

namespace ReplicaState

@[ext] theorem ext_get? {s t : ReplicaState} (h : ∀ k, s.get? k = t.get? k) : s = t := by
  cases s
  cases t
  exact congrArg ReplicaState.mk (OrderedMap.ext_find? h)

theorem get?_modify (s : ReplicaState) (k k' : Key) (f : KeyState → KeyState) :
    (s.modify k f).get? k' = if k' = k then some (f (s.get k)) else s.get? k' :=
  OrderedMap.find?_modify ..

theorem get_modify (s : ReplicaState) (k k' : Key) (f : KeyState → KeyState) :
    (s.modify k f).get k' = if k' = k then f (s.get k) else s.get k' := by
  unfold get
  rw [get?_modify]
  split <;> rfl

def perform (s : ReplicaState) (e : Key × Effect) : ReplicaState := s.modify e.1 (·.perform e.2)

def performAll (s : ReplicaState) (es : List (Key × Effect)) : ReplicaState := es.foldl perform s

theorem performAll_append (s : ReplicaState) (es fs : List (Key × Effect)) :
    s.performAll (es ++ fs) = (s.performAll es).performAll fs := List.foldl_append

theorem get_performAll (s : ReplicaState) (es : List (Key × Effect)) (k : Key) :
    (s.performAll es).get k = (s.get k).performAll (Effect.onKey k es) := by
  induction es generalizing s with
  | nil => rfl
  | cons e es ih =>
    change ((s.perform e).performAll es).get k = _
    rw [ih, perform, get_modify]
    by_cases hk : e.1 = k
    · subst hk
      simp only [Effect.onKey, decide_true, List.filter_cons_of_pos, List.map_cons, ↓reduceIte]
      rfl
    · simp only [Effect.onKey, hk, Ne.symm hk, decide_false, Bool.false_eq_true,
        not_false_eq_true, List.filter_cons_of_neg, ↓reduceIte]

/-- A key has a state if it had one before or if some effect addresses it. -/
theorem get?_performAll (s : ReplicaState) (es : List (Key × Effect)) (k : Key) :
    (s.performAll es).get? k =
      if (s.get? k).isSome || !(Effect.onKey k es).isEmpty then some ((s.performAll es).get k)
      else none := by
  have hget (t : ReplicaState) (h : (t.get? k).isSome) : t.get? k = some (t.get k) := by
    obtain ⟨v, hv⟩ := Option.isSome_iff_exists.1 h
    rw [get, hv]
    rfl
  have hsome : (((s.performAll es).get? k).isSome) =
      ((s.get? k).isSome || !(Effect.onKey k es).isEmpty) := by
    induction es generalizing s with
    | nil => simp [performAll, Effect.onKey]
    | cons e es ih =>
      change (((s.perform e).performAll es).get? k).isSome = _
      rw [ih, perform, get?_modify]
      by_cases hk : e.1 = k
      · simp [Effect.onKey, hk]
      · simp [Effect.onKey, hk, Ne.symm hk]
  rw [← hsome]
  split
  · next h => exact hget _ h
  · next h => simpa using h

theorem contains_performAll {s : ReplicaState} {es : List (Key × Effect)} {k : Key} {id : UpdateId} :
    ((s.performAll es).get k).applied.contains id = true ↔
      (k, .stamp id) ∈ es ∨ (s.get k).applied.contains id = true := by
  rw [get_performAll, KeyState.performAll_eq, OrderedSet.contains_foldl_insert]
  apply or_congr_left
  rw [Effect.stamps, List.mem_filterMap]
  constructor
  · rintro ⟨e, he, hid⟩
    cases e with
    | write p => cases hid
    | stamp i =>
      cases hid
      exact Effect.mem_onKey.1 he
  · exact fun h => ⟨.stamp id, Effect.mem_onKey.2 h, rfl⟩

theorem performAll_perm {s : ReplicaState} {es fs : List (Key × Effect)} (h : es.Perm fs)
    (ha : ∀ k, Effect.assigned k es = Effect.assigned k fs) : s.performAll es = s.performAll fs := by
  apply ext_get?
  intro k
  have hk : (Effect.onKey k es).Perm (Effect.onKey k fs) := (h.filter _).map _
  rw [get?_performAll, get?_performAll, get_performAll, get_performAll,
    KeyState.performAll_perm hk (ha k), hk.isEmpty_eq]

theorem applyDecided_eq (s : ReplicaState) (ops : List Operation) :
    s.applyDecided ops = s.performAll (ops.map Operation.effect) := by
  unfold applyDecided performAll
  rw [List.foldl_map]
  rfl

end ReplicaState

/-- The keys on which an update has operations that take effect once, in order. -/
def Update.stampedKeys (c : Classifier) (u : Update) : List Key :=
  (OrderedSet.ofList ((u.operations.filter fun op => c.classifyOperation op ≠ .semilattice).map
    (·.key))).toList

/-- What an update does to a state that has not seen it before. -/
def Update.effects (c : Classifier) (u : Update) : List (Key × Effect) :=
  u.operations.map Operation.effect ++ (u.stampedKeys c).map (·, .stamp u.id)

theorem Update.eq_id_of_stamp {c : Classifier} {u : Update} {k : Key} {id : UpdateId}
    (h : (k, .stamp id) ∈ u.effects c) : u.id = id := by
  rcases List.mem_append.1 h with h | h
  · obtain ⟨op, _, h⟩ := List.mem_map.1 h
    cases h
  · obtain ⟨k', _, h⟩ := List.mem_map.1 h
    cases h
    rfl

namespace MergeReport

theorem add_assoc (a b c : MergeReport) : (a.add b).add c = a.add (b.add c) := by
  simp [add, Nat.add_assoc]

@[simp] theorem empty_add (a : MergeReport) : empty.add a = a := by simp [add, empty]

end MergeReport

namespace ReplicaState

/-- An operation of an update has no effect if the key is stamped with the update already. -/
def Drops (s : ReplicaState) (c : Classifier) (mode : MergeMode) (id : UpdateId) (op : Operation) :
    Prop :=
  c.classifyOperation op ≠ .semilattice ∧ mode = .deduplicated ∧
    (s.get op.key).applied.contains id = true

instance (s : ReplicaState) (c : Classifier) (mode : MergeMode) (id : UpdateId) (op : Operation) :
    Decidable (s.Drops c mode id op) :=
  inferInstanceAs (Decidable (_ ∧ _ ∧ _))

/-- How the operations of an update are counted. -/
def tally (s : ReplicaState) (c : Classifier) (mode : MergeMode) (id : UpdateId)
    (ops : List Operation) : MergeReport where
  applied := ops.countP fun op => c.classifyOperation op ≠ .semilattice ∧ ¬ s.Drops c mode id op
  joined := ops.countP fun op => c.classifyOperation op = .semilattice
  deduplicated := ops.countP fun op => s.Drops c mode id op
  unexpectedGeneric := ops.countP fun op => c.classifyOperation op = .generic

theorem tally_cons (s : ReplicaState) (c : Classifier) (mode : MergeMode) (id : UpdateId)
    (op : Operation) (ops : List Operation) :
    s.tally c mode id (op :: ops) = (s.tally c mode id [op]).add (s.tally c mode id ops) := by
  simp [tally, MergeReport.add, List.countP_cons, Nat.add_comm]

/-- The part of an update that has an effect. -/
def remainder (s : ReplicaState) (c : Classifier) (mode : MergeMode) (u : Update) : Update :=
  { u with operations := u.operations.filter fun op => ¬ s.Drops c mode u.id op }

theorem applied_apply (s : ReplicaState) (op : Operation) (k : Key) :
    ((s.apply op).get k).applied = (s.get k).applied := by
  unfold apply
  rw [get_modify]
  split
  · next hk =>
    subst hk
    cases op.payload <;> rfl
  · rfl

theorem modify_of_stamped {s : ReplicaState} {k : Key} {id : UpdateId}
    (h : (s.get k).applied.contains id = true) : (s.modify k fun t => t) = s := by
  apply ext_get?
  intro k'
  rw [get?_modify]
  split
  · next hk =>
    subst hk
    unfold get at h ⊢
    cases hs : s.get? k' with
    | none =>
      rw [hs] at h
      cases h
    | some t => rfl
  · rfl

end ReplicaState

namespace MergeProgress
variable {s : ReplicaState} {id : UpdateId} {mode : MergeMode} {c : Classifier} {p : MergeProgress}

theorem step_annotate (hp : ∀ k, (p.state.get k).applied = (s.get k).applied) (op : Operation) :
    step id mode p (c.annotate op) =
      { state := if s.Drops c mode id op then p.state else p.state.apply op
        report := p.report.add (s.tally c mode id [op])
        counted := if c.classifyOperation op = .semilattice ∨ s.Drops c mode id op then p.counted
          else p.counted.insert op.key } := by
  have hsig : (c.annotate op).signature = c.classifyOperation op := rfl
  have hop : (c.annotate op).operation = op := rfl
  unfold step
  simp only [hsig, hop]
  by_cases hj : c.classifyOperation op = .semilattice
  · simp [hj, ReplicaState.Drops, ReplicaState.tally]
  · by_cases hd : mode = .deduplicated ∧ (s.get op.key).applied.contains id = true
    · have hdrop : s.Drops c mode id op := ⟨hj, hd⟩
      have hm := ReplicaState.modify_of_stamped ((congrArg (·.contains id) (hp op.key)).trans hd.2)
      rw [if_neg hj, if_pos (by rwa [hp]), if_pos hdrop, if_pos (Or.inr hdrop), hm]
      simp [hj, hdrop, ReplicaState.tally, List.countP_cons]
    · have hdrop : ¬ s.Drops c mode id op := fun h => hd h.2
      rw [if_neg hj, if_neg (by rwa [hp]), if_neg hdrop, if_neg (not_or.2 ⟨hj, hdrop⟩)]
      simp [hj, hdrop, ReplicaState.tally, List.countP_cons]

theorem foldl_step {ops : List Operation}
    (hp : ∀ k, (p.state.get k).applied = (s.get k).applied) :
    (ops.map c.annotate).foldl (step id mode) p =
      { state := p.state.performAll
          ((ops.filter fun op => ¬ s.Drops c mode id op).map Operation.effect)
        report := p.report.add (s.tally c mode id ops)
        counted := (((ops.filter fun op => ¬ s.Drops c mode id op).filter fun op =>
          c.classifyOperation op ≠ .semilattice).map (·.key)).foldl .insert p.counted } := by
  induction ops generalizing p with
  | nil => rfl
  | cons op ops ih =>
    rw [List.map_cons, List.foldl_cons, step_annotate hp, ih, s.tally_cons c mode id op ops,
      MergeReport.add_assoc]
    · by_cases hd : s.Drops c mode id op
      · simp [hd]
      · by_cases hj : c.classifyOperation op = .semilattice
        · simp only [hd, hj, not_false_eq_true, decide_true, List.filter_cons_of_pos, or_false,
            ne_eq, not_true_eq_false, decide_false, Bool.false_eq_true, List.filter_cons_of_neg,
            if_true, if_false]
          rfl
        · simp only [hd, hj, not_false_eq_true, decide_true, List.filter_cons_of_pos, or_false,
            ne_eq, if_false]
          rfl
    · intro k
      dsimp only
      split
      · exact hp k
      · rw [ReplicaState.applied_apply, hp]

end MergeProgress

namespace ReplicaState
variable {s : ReplicaState} {c : Classifier} {mode : MergeMode} {u : Update}

theorem merge_eq_remainder (s : ReplicaState) (c : Classifier) (mode : MergeMode) (u : Update) :
    s.merge c mode u =
      (s.performAll ((s.remainder c mode u).effects c), s.tally c mode u.id u.operations) := by
  unfold merge
  dsimp only
  rw [@MergeProgress.foldl_step s u.id mode c ⟨s, .empty, .empty⟩ u.operations fun _ => rfl,
    Update.effects, performAll_append, MergeReport.empty_add]
  congr 1
  exact (List.foldl_map (g := perform) (f := fun k : Key => (k, Effect.stamp u.id))).symm

theorem remainder_eq_self (h : ∀ k, ¬ (s.get k).applied.contains u.id) :
    s.remainder c mode u = u := by
  unfold remainder
  rw [List.filter_eq_self.2]
  intro op _
  exact decide_eq_true fun hd => h _ hd.2.2

theorem merge_eq (h : ∀ k, ¬ (s.get k).applied.contains u.id) :
    (s.merge c mode u).1 = s.performAll (u.effects c) := by
  rw [merge_eq_remainder, remainder_eq_self h]

end ReplicaState
end Confluence
