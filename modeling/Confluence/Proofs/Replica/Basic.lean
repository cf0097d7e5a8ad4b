import Mathlib.Logic.Relation
import Confluence.Proofs.State.Absorption
import Confluence.Proofs.VectorClock
import Confluence.Replica

namespace Confluence.Replica
variable {r r' : Replica} {c : Classifier} {u : Update} {id : UpdateId}

theorem integrate_of_applied (h : r.hasApplied u.id = true) :
    r.integrate c u = (.duplicate, r) :=
  if_pos h

theorem integrate_of_new (h : ¬ r.hasApplied u.id = true) :
    r.integrate c u =
      (.merged (r.absorb c u).1, { (r.absorb c u).2 with clock := r.clock.merge u.clock }) :=
  if_neg h

theorem hasApplied_absorb (r : Replica) (c : Classifier) (u : Update) (id : UpdateId) :
    (r.absorb c u).2.hasApplied id = true ↔ id = u.id ∨ r.hasApplied id = true :=
  OrderedSet.contains_insert

/-- The kinds of change that a replica goes through. -/
inductive Step (c : Classifier) : Replica → Replica → Prop
  | absorb (r : Replica) (u : Update) : Step c r (r.absorb c u).2
  | apply (r : Replica) (operations : List Operation) : Step c r (r.applyDecided operations)
  | advance (r : Replica) (clock : VectorClock) : Step c r { r with clock }
  | prune (r : Replica) (stable : VectorClock) : Step c r (r.prune stable).2

abbrev Steps (c : Classifier) : Replica → Replica → Prop := Relation.ReflTransGen (Step c)

/-- The identifiers on the keys of the state are those of updates that were applied. -/
def StampsKnown (r : Replica) : Prop :=
  ∀ k id, (r.state.get k).applied.contains id = true → r.hasApplied id = true

theorem stampsKnown_new (id : NodeId) : (new id).StampsKnown := by
  intro k id h
  cases h

theorem Step.hasApplied (h : Step c r r') (ha : r.hasApplied id = true) :
    r'.hasApplied id = true := by
  cases h with
  | absorb u => exact (hasApplied_absorb r c u id).2 (.inr ha)
  | apply operations => exact ha
  | advance clock => exact ha
  | prune stable => exact ha

/-- A stamp on a key is there to stay. -/
theorem Step.stamped {k : Key} (h : Step c r r')
    (hk : (r.state.get k).applied.contains id = true) :
    (r'.state.get k).applied.contains id = true := by
  cases h with
  | absorb u =>
    unfold Replica.absorb
    rw [ReplicaState.merge_eq_remainder, ReplicaState.contains_performAll]
    exact .inr hk
  | apply operations =>
    unfold applyDecided
    rw [ReplicaState.applyDecided_eq, ReplicaState.contains_performAll]
    exact .inr hk
  | advance clock => exact hk
  | prune stable => exact hk

theorem Step.absorbs (h : Step c r r') (hc : c.Registered) (hu : r.state.Absorbs c u) :
    r'.state.Absorbs c u := by
  cases h with
  | absorb v => exact hu.merge hc .deduplicated v
  | apply operations =>
    unfold applyDecided
    rw [ReplicaState.applyDecided_eq]
    exact hu.performAll hc _
  | advance clock => exact hu
  | prune stable => exact hu

theorem Step.stampsKnown (h : Step c r r') (hr : r.StampsKnown) : r'.StampsKnown := by
  cases h with
  | absorb u =>
    intro k id hid
    rw [hasApplied_absorb]
    unfold Replica.absorb at hid
    rw [ReplicaState.merge_eq_remainder, ReplicaState.contains_performAll] at hid
    rcases hid with hid | hid
    · exact .inl (Update.eq_id_of_stamp hid).symm
    · exact .inr (hr k id hid)
  | apply operations =>
    intro k id hid
    unfold applyDecided at hid
    rw [ReplicaState.applyDecided_eq, ReplicaState.contains_performAll] at hid
    rcases hid with hid | hid
    · obtain ⟨op, _, he⟩ := List.mem_map.1 hid
      cases he
    · exact hr k id hid
  | advance clock => exact hr
  | prune stable => exact hr

theorem Steps.hasApplied (h : Steps c r r') (ha : r.hasApplied id = true) :
    r'.hasApplied id = true := by
  induction h with
  | refl => exact ha
  | tail _ hs ih => exact hs.hasApplied ih

theorem Steps.stamped {k : Key} (h : Steps c r r')
    (hk : (r.state.get k).applied.contains id = true) :
    (r'.state.get k).applied.contains id = true := by
  induction h with
  | refl => exact hk
  | tail _ hs ih => exact hs.stamped ih

theorem Steps.absorbs (h : Steps c r r') (hc : c.Registered) (hu : r.state.Absorbs c u) :
    r'.state.Absorbs c u := by
  induction h with
  | refl => exact hu
  | tail _ hs ih => exact hs.absorbs hc ih

theorem Steps.stampsKnown (h : Steps c r r') (hr : r.StampsKnown) : r'.StampsKnown := by
  induction h with
  | refl => exact hr
  | tail _ hs ih => exact hs.stampsKnown ih

theorem Step.steps (h : Step c r r') : Steps c r r' := .single h

/-- A commit makes an update of what is liftable and absorbs it, if anything is liftable. -/
theorem commit_eq_ok {d : Decomposition} {ids ids' : IdSupply} {v : Option Update}
    (h : r.commit c d ids = .ok (v, r', ids')) :
    (d.liftable = [] ∧ v = none ∧ r' = r ∧ ids' = ids) ∨
      ∃ u, d.liftable ≠ [] ∧ r.clock.tick r.id = .ok u.clock ∧ u.id = ids.draw.1 ∧ u.origin = r.id ∧
        u.operations = d.liftable.map (·.operation) ∧ v = some u ∧
        r' = ({ r with clock := u.clock }.absorb c u).2 ∧ ids' = ids.draw.2 := by
  unfold commit at h
  split at h
  · next hl =>
    cases h
    exact .inl ⟨List.isEmpty_iff.1 hl, rfl, rfl, rfl⟩
  · next hl =>
    obtain ⟨clock, ht, h⟩ := bind_eq_ok h
    cases h
    exact .inr ⟨_, mt List.isEmpty_iff.2 hl, ht, rfl, rfl, rfl, rfl, rfl, rfl⟩

theorem exists_commit (h : (r.clock.get r.id).toNat + 1 < UInt64.size) (c : Classifier)
    (d : Decomposition) (ids : IdSupply) : ∃ v r' ids', r.commit c d ids = .ok (v, r', ids') := by
  unfold commit
  split
  · exact ⟨_, _, _, rfl⟩
  · obtain ⟨clock, ht⟩ := VectorClock.exists_tick h
    rw [ht]
    exact ⟨_, _, _, rfl⟩

/-- A commit fails only where there is something to commit and no number left for it. -/
theorem commit_eq_error {d : Decomposition} {ids : IdSupply} {f : Fault} :
    r.commit c d ids = .error f ↔
      d.liftable ≠ [] ∧ f = .overflow ∧ (r.clock.get r.id).toNat + 1 = UInt64.size := by
  unfold commit
  split
  · next hl =>
    constructor
    · intro h
      cases h
    · intro h
      exact absurd (List.isEmpty_iff.1 hl) h.1
  · next hl =>
    rw [← VectorClock.tick_eq_error]
    cases ht : r.clock.tick r.id with
    | ok clock =>
      constructor
      · intro h
        cases h
      · intro h
        cases h.2
    | error g =>
      constructor
      · intro h
        cases h
        exact ⟨mt List.isEmpty_iff.2 hl, rfl⟩
      · intro h
        cases h.2
        rfl

theorem integrate_steps (r : Replica) (c : Classifier) (u : Update) :
    Steps c r (r.integrate c u).2 := by
  by_cases ha : r.hasApplied u.id = true
  · rw [integrate_of_applied ha]
  · rw [integrate_of_new ha]
    exact (Step.absorb r u).steps.tail (.advance _ _)

end Confluence.Replica
