import Confluence.Proofs.Replica.Basic

namespace Confluence.Replica

/-- What can be asked of a replica. -/
inductive Action
  | commit (d : Decomposition)
  | integrate (u : Update)
  | applyDecided (operations : List Operation)
  | observeNode (node : NodeId)
  | prune (stable : VectorClock)

/-- A replica and the updates that it has met, committed or brought to it, the first one first. -/
structure Journal where
  replica : Replica
  ids : IdSupply
  met : List Update

namespace Journal
variable {c : Classifier} {j j' : Journal} {a : Action} {actions : List Action} {u : Update}

def new (id : NodeId) (ids : IdSupply) : Journal := ⟨.new id, ids, []⟩

def perform (c : Classifier) (j : Journal) : Action → Except Fault Journal
  | .commit d => (j.replica.commit c d j.ids).map fun (u, replica, ids) =>
    ⟨replica, ids, j.met ++ u.toList⟩
  | .integrate u => .ok ⟨(j.replica.integrate c u).2, j.ids, j.met ++ [u]⟩
  | .applyDecided operations => .ok { j with replica := j.replica.applyDecided operations }
  | .observeNode node => .ok { j with replica := j.replica.observeNode node }
  | .prune stable => .ok { j with replica := (j.replica.prune stable).2 }

/-- Performs actions in order, unless there is a fault. -/
def performAll (c : Classifier) (j : Journal) (actions : List Action) : Except Fault Journal :=
  actions.foldlM (perform c) j

/-- The replica knows the updates it has met, and its state holds all of them. -/
structure Recorded (j : Journal) (c : Classifier) : Prop where
  applied : ∀ id, j.replica.hasApplied id = true ↔ ∃ u ∈ j.met, u.id = id
  absorbed : ∀ u ∈ j.met, j.replica.state.Absorbs c u

theorem recorded_new (id : NodeId) (ids : IdSupply) : (new id ids).Recorded c where
  applied := by simp [new, Replica.new, hasApplied]
  absorbed := by simp [new]

theorem Recorded.keep {r : Replica} {ids : IdSupply} (h : j.Recorded c) (hc : c.Registered)
    (hr : Steps c j.replica r) (ha : r.applied = j.replica.applied) :
    Recorded ⟨r, ids, j.met⟩ c where
  applied id := by
    unfold hasApplied
    rw [ha]
    exact h.applied id
  absorbed u hu := hr.absorbs hc (h.absorbed u hu)

/-- An update that is absorbed is recorded with those before. -/
theorem Recorded.absorb {ids : IdSupply} (h : j.Recorded c) (hc : c.Registered) (u : Update)
    (clock clock' : VectorClock) :
    Recorded ⟨{ ({ j.replica with clock }.absorb c u).2 with clock := clock' }, ids, j.met ++ [u]⟩
      c where
  applied id := by
    apply (hasApplied_absorb { j.replica with clock } c u id).trans
    apply (or_congr_right (h.applied id)).trans
    simp [or_comm, eq_comm]
  absorbed v hv := by
    rcases List.mem_append.1 hv with hv | hv
    · exact (h.absorbed v hv).merge hc .deduplicated u
    · rw [List.mem_singleton.1 hv]
      exact ReplicaState.absorbs_merge hc _ .deduplicated u

/-- An update that is dropped is the one that was met before under its identifier. -/
theorem Recorded.integrate {ids : IdSupply} (h : j.Recorded c) (hc : c.Registered)
    (hids : ∀ v ∈ j.met, v.id = u.id → v = u) :
    Recorded ⟨(j.replica.integrate c u).2, ids, j.met ++ [u]⟩ c := by
  by_cases ha : j.replica.hasApplied u.id = true
  · rw [integrate_of_applied ha]
    obtain ⟨v, hv, hid⟩ := (h.applied u.id).1 ha
    obtain rfl := hids v hv hid
    have hmem (w : Update) : w ∈ j.met ++ [v] ↔ w ∈ j.met := by
      rw [List.mem_append, List.mem_singleton]
      exact or_iff_left_of_imp fun hw => hw ▸ hv
    constructor
    · intro id
      simp only [hmem]
      exact h.applied id
    · intro w hw
      exact h.absorbed w ((hmem w).1 hw)
  · rw [integrate_of_new ha]
    exact h.absorb hc u j.replica.clock _

theorem met_perform (h : j.perform c a = .ok j') : j.met <+: j'.met := by
  cases a with
  | commit d =>
    obtain ⟨⟨v, r, ids⟩, _, rfl⟩ := map_eq_ok h
    exact List.prefix_append _ _
  | integrate u =>
    cases h
    exact List.prefix_append _ _
  | applyDecided operations =>
    cases h
    exact List.prefix_rfl
  | observeNode node =>
    cases h
    exact List.prefix_rfl
  | prune stable =>
    cases h
    exact List.prefix_rfl

theorem Recorded.perform (h : j.Recorded c) (hc : c.Registered) (hp : j.perform c a = .ok j')
    (hids : ∀ u ∈ j'.met, ∀ v ∈ j'.met, u.id = v.id → u = v) : j'.Recorded c := by
  cases a with
  | commit d =>
    obtain ⟨⟨v, r, ids⟩, hr, rfl⟩ := map_eq_ok hp
    rcases commit_eq_ok hr with ⟨_, rfl, rfl, _⟩ | ⟨u, _, _, _, _, _, rfl, rfl, _⟩
    · change Recorded ⟨j.replica, ids, j.met ++ []⟩ c
      rw [List.append_nil]
      exact h.keep hc .refl rfl
    · exact h.absorb hc u u.clock _
  | integrate u =>
    cases hp
    apply h.integrate hc
    intro v hv
    exact hids v (List.mem_append_left _ hv) u (List.mem_append_right _ (List.mem_singleton_self u))
  | applyDecided operations =>
    cases hp
    exact h.keep hc (Step.apply _ operations).steps rfl
  | observeNode node =>
    cases hp
    exact h.keep hc (Step.advance _ _).steps rfl
  | prune stable =>
    cases hp
    exact h.keep hc (Step.prune _ stable).steps rfl

theorem met_performAll (h : j.performAll c actions = .ok j') : j.met <+: j'.met := by
  induction actions generalizing j with
  | nil =>
    cases h
    exact List.prefix_rfl
  | cons a actions ih =>
    obtain ⟨mid, hmid, h⟩ := bind_eq_ok h
    exact (met_perform hmid).trans (ih h)

theorem Recorded.performAll (h : j.Recorded c) (hc : c.Registered)
    (hp : j.performAll c actions = .ok j')
    (hids : ∀ u ∈ j'.met, ∀ v ∈ j'.met, u.id = v.id → u = v) : j'.Recorded c := by
  induction actions generalizing j with
  | nil =>
    cases hp
    exact h
  | cons a actions ih =>
    obtain ⟨mid, hmid, hp⟩ := bind_eq_ok hp
    have hmet := (met_performAll hp).subset
    exact ih (h.perform hc hmid fun u hu v hv => hids u (hmet hu) v (hmet hv)) hp

/-- Dropping a known update whole loses nothing. Whatever was asked of a replica, an update that it
has committed, or that was brought to it, is dropped when it comes again; and merging it into the
state operation by operation would leave the state as it is and count nothing as applied. -/
theorem merge_of_met {id : NodeId} {ids : IdSupply} (hc : c.Registered)
    (hp : (new id ids).performAll c actions = .ok j)
    (hids : ∀ u ∈ j.met, ∀ v ∈ j.met, u.id = v.id → u = v) (hu : u ∈ j.met) :
    (j.replica.state.merge c .deduplicated u).1 = j.replica.state ∧
      (j.replica.state.merge c .deduplicated u).2.applied = 0 ∧
      j.replica.integrate c u = (.duplicate, j.replica) := by
  have hrec : j.Recorded c := (recorded_new id ids).performAll hc hp hids
  obtain ⟨hstate, happlied⟩ := (hrec.absorbed u hu).merge_eq
  exact ⟨hstate, happlied, integrate_of_applied ((hrec.applied u.id).2 ⟨u, hu, rfl⟩)⟩

/-- Two deltas of a commit are on one key, decisions write to the same components, one update is known
from a peer and has been pruned, and one is brought twice. -/
theorem merge_of_met_pruned :
    let t : Transaction := [.increment "edits" 2, .decrement "edits" 5, .maximum "score" 3]
    let v : Update := ⟨Uuid.ofNat 7, "b", .ofList [("b", 1)],
      [.increment "edits" 1, .insert "tags" "new", .maximum "score" 9]⟩
    let actions : List Action := [.commit (Classifier.standard.decompose .keyWide .empty t),
      .integrate v, .applyDecided [.increment "edits" 10, .maximum "score" 12,
        .overwrite "title" "draft"],
      .observeNode "c", .prune (.ofList [("a", 1), ("b", 1)]), .integrate v]
    ∃ j u, (new "a" (.ofStream Uuid.ofNat)).performAll .standard actions = .ok j ∧
      j.met = [u, v, v] ∧ u.operations = t ∧ j.replica.history.retained = [] ∧
      (j.replica.state.get "edits").counter = some 8 ∧
      (j.replica.state.merge .standard .deduplicated u).1 = j.replica.state ∧
      (j.replica.state.merge .standard .deduplicated v).1 = j.replica.state ∧
      j.replica.integrate .standard u = (.duplicate, j.replica) := by
  intro t v actions
  let u : Update := ⟨Uuid.ofNat 0, "a", .ofList [("a", 1)], t⟩
  obtain ⟨j, hp, hj⟩ := @exists_of_endsWith _ _
    ((new "a" (.ofStream Uuid.ofNat)).performAll .standard actions)
    (fun j => j.met = [u, v, v] ∧ j.replica.history.retained = [] ∧
      (j.replica.state.get "edits").counter = some 8) (by decide +kernel)
  obtain ⟨hmet, hretained, hcounter⟩ := of_decide_eq_true hj
  have hids : ∀ x ∈ j.met, ∀ y ∈ j.met, x.id = y.id → x = y := by
    rw [hmet]
    decide +kernel
  have hu := merge_of_met .standard hp hids (u := u) (by simp [hmet])
  have hv := merge_of_met .standard hp hids (u := v) (by simp [hmet])
  exact ⟨j, u, hp, hmet, rfl, hretained, hcounter, hu.1, hv.1, hu.2.2⟩

end Journal
end Confluence.Replica
