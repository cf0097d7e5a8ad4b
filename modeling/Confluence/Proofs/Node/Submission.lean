import Confluence.Proofs.Decomposition
import Confluence.Proofs.Node.Run

namespace Confluence

/-- The state of a key after the operations on it that one update commits: their payloads in order, and
the mark of the update if one of them is Abelian. -/
def KeyState.commit (s : KeyState) (id : UpdateId) (operations : List ClassifiedOperation) :
    KeyState :=
  let written := operations.foldl (fun s x => s.apply x.operation.payload) s
  if ∃ x ∈ operations, x.signature = .abelian then written.stamp id else written

/-- The identifiers that a submission has taken are new to the node. -/
def Submission.IsFresh (s : Submission) (n : Node) : Prop :=
  (∀ u, s.update = some u → n.replica.hasApplied u.id = false) ∧
    ∀ p, s.proposal = some p → n.pending.contains p.id = false

namespace Node
variable {n n' : Node} {t : Transaction} {s : Submission} {u : Update} {p : Proposal}
  {x : ClassifiedOperation}

/-- An update commits the lifted operations, in their order, by one event of the node. -/
structure Commits (n : Node) (lifted : List ClassifiedOperation) (u : Update) (n' : Node) :
    Prop where
  operations : u.operations = lifted.map (·.operation)
  origin : u.origin = n.id
  clock : u.clock = n'.clock
  own : (n'.clock.get n.id).toNat = (n.clock.get n.id).toNat + 1
  others : ∀ x, x ≠ n.id → n'.clock.entries.find? x = n.clock.entries.find? x
  /-- Nothing but the lifted operations has an effect on the state. -/
  keys : ∀ k, n'.state.get? k =
    if ∀ x ∈ lifted, x.key ≠ k then n.state.get? k
    else some ((n.state.get k).commit u.id (lifted.filter fun x => x.key = k))
  marked : ∀ k, (n'.state.get k).applied.contains u.id = true ↔
    ∃ x ∈ lifted, x.key = k ∧ x.signature = .abelian
  applied : ∀ id, n'.replica.hasApplied id = true ↔ id = u.id ∨ n.replica.hasApplied id = true
  history : n'.history = (n.history.insert u).2
  stability : n'.stability = n.stability.updateLocal n'.history.delivered.contiguous

/-- A proposal has the coordinated operations, in their order, and is one more that is pending. -/
structure Proposes (n : Node) (coordinated : List ClassifiedOperation)
    (retainedLocal : Option UpdateId) (p : Proposal) (n' : Node) : Prop where
  operations : p.operations = coordinated.map (·.operation)
  origin : p.origin = n.id
  clock : p.clock = n'.clock
  new : n.pending.find? p.id = none
  pending : ∀ id, n'.pending.find? id =
    if id = p.id then some ⟨p, coordinated, retainedLocal⟩ else n.pending.find? id

/-- What a submission does to a node, as the split of the transaction has it. -/
structure Carries (n : Node) (t : Transaction) (s : Submission) (n' : Node) : Prop where
  decomposition : s.decomposition = n.decompose t
  kept : n'.id = n.id ∧ n'.config = n.config ∧ n'.classifier = n.classifier ∧
    n'.decisions = n.decisions
  noUpdate : (n.decompose t).liftable = [] →
    s.update = none ∧ n'.replica = n.replica ∧ n'.stability = n.stability
  update : (n.decompose t).liftable ≠ [] →
    ∃ u, s.update = some u ∧ n.Commits (n.decompose t).liftable u n'
  noProposal : (n.decompose t).coordinated = [] →
    s.proposal = none ∧ s.ack = .localAck ∧ n'.pending = n.pending
  proposal : (n.decompose t).coordinated ≠ [] →
    ∃ p, s.proposal = some p ∧ s.ack = .pending p.id ∧
      n.Proposes (n.decompose t).coordinated (s.update.map (·.id)) p n'

theorem classify_of_mem_liftable (hx : x ∈ (n.decompose t).liftable) :
    n.classifier.classifyOperation x.operation = x.signature ∧ x.signature ≠ .generic := by
  obtain ⟨op, _, hop, rfl⟩ := Classifier.mem_liftable.1 hx
  exact ⟨rfl, fun hg => hop (.inl hg)⟩

theorem exists_not_semilattice_iff (k : Key) :
    (∃ op ∈ (n.decompose t).liftable.map (·.operation), op.key = k ∧
        n.classifier.classifyOperation op ≠ .semilattice) ↔
      ∃ x ∈ (n.decompose t).liftable, x.key = k ∧ x.signature = .abelian := by
  have habelian (x : ClassifiedOperation) (hx : x ∈ (n.decompose t).liftable) :
      n.classifier.classifyOperation x.operation ≠ .semilattice ↔ x.signature = .abelian := by
    obtain ⟨hs, hg⟩ := classify_of_mem_liftable hx
    rw [hs]
    revert hg
    cases x.signature <;> decide
  constructor
  · rintro ⟨op, hop, hk, hj⟩
    obtain ⟨x, hx, rfl⟩ := List.mem_map.1 hop
    exact ⟨x, hx, hk, (habelian x hx).1 hj⟩
  · rintro ⟨x, hx, hk, hs⟩
    exact ⟨x.operation, List.mem_map_of_mem hx, hk, (habelian x hx).2 hs⟩

theorem commit_filter_liftable (key : KeyState) (id : UpdateId) (k : Key) :
    key.commit id ((n.decompose t).liftable.filter fun x => x.key = k) =
      let operations := (n.decompose t).liftable.map (·.operation)
      let written := (Operation.payloadsOn k operations).foldl .apply key
      if ∃ op ∈ operations, op.key = k ∧ n.classifier.classifyOperation op ≠ .semilattice then
        written.stamp id else written := by
  have hwritten : Operation.payloadsOn k ((n.decompose t).liftable.map (·.operation)) =
      ((n.decompose t).liftable.filter fun x => x.key = k).map (·.operation.payload) := by
    rw [Operation.payloadsOn, List.filter_map, List.map_map]
    rfl
  dsimp only
  rw [KeyState.commit, hwritten, List.foldl_map]
  simp only [exists_not_semilattice_iff, List.mem_filter, decide_eq_true_eq, and_assoc]

theorem Submits.commits (h : n.Submits t s n') (hn : n.replica.StampsKnown)
    (hu : s.update = some u) (hfresh : n.replica.hasApplied u.id = false) :
    n.Commits (n.decompose t).liftable u n' := by
  obtain ⟨hops, horigin, htick, hr⟩ := h.update u hu
  rw [h.decomposition] at hops
  have hclock : n'.clock = u.clock := congrArg Replica.clock hr
  have hstate : n'.state = (n.state.merge n.classifier .deduplicated u).1 :=
    congrArg Replica.state hr
  -- The state does not know the update either, for what keys are stamped with was applied.
  have hnew : ∀ k, ¬ (n.state.get k).applied.contains u.id = true := by
    intro k hk
    cases hfresh.symm.trans (hn k u.id hk)
  constructor
  · exact hops
  · exact horigin
  · exact hclock.symm
  · rw [hclock, VectorClock.toNat_get_tick htick, if_pos rfl]
  · intro x hx
    rw [hclock]
    exact VectorClock.find?_tick htick hx
  · intro k
    rw [hstate, ReplicaState.get?_merge_new hnew, hops, commit_filter_liftable]
    simp only [List.forall_mem_map]
    rfl
  · intro k
    rw [hstate, ReplicaState.contains_merge_new hnew, hops, exists_not_semilattice_iff]
  · intro id
    rw [hr]
    exact Replica.hasApplied_absorb _ _ u id
  · exact congrArg Replica.history hr
  · have hstability := h.stability
    rw [hu] at hstability
    exact hstability

theorem submit_clock {ids ids' : IdSupply} (h : n.submit t ids = .ok (s, n', ids'))
    (hp : s.proposal = some p) : p.clock = n'.clock := by
  unfold submit at h
  obtain ⟨⟨u, m, mid⟩, _, h⟩ := bind_eq_ok h
  dsimp only at h
  unfold propose at h
  split at h
  · cases h
    cases hp
  · cases h
    cases hp
    rfl

theorem Submits.proposes (h : n.Submits t s n') (hp : s.proposal = some p)
    (hclock : p.clock = n'.clock) (hfresh : n.pending.contains p.id = false) :
    n.Proposes (n.decompose t).coordinated (s.update.map (·.id)) p n' := by
  obtain ⟨hops, horigin, hpending⟩ := h.proposal p hp
  rw [h.decomposition] at hops hpending
  refine ⟨hops, horigin, hclock, ?_, ?_⟩
  · simpa [OrderedMap.contains] using hfresh
  · intro id
    rw [hpending, OrderedMap.find?_insert]

theorem carries_of_submit {ids ids' : IdSupply} (h : n.submit t ids = .ok (s, n', ids'))
    (hn : n.replica.StampsKnown) (hfresh : s.IsFresh n) : n.Carries t s n' := by
  have hs := submit_eq_ok h
  obtain ⟨hupdate, hproposal⟩ := submit_isSplit h
  rw [hs.decomposition] at hupdate hproposal
  refine ⟨hs.decomposition, hs.kept, ?_, ?_, ?_, ?_⟩
  · intro hl
    rw [if_pos hl, Option.map_eq_none_iff] at hupdate
    refine ⟨hupdate, (hs.noUpdate hupdate).2, ?_⟩
    have hstability := hs.stability
    rw [hupdate] at hstability
    exact hstability
  · intro hl
    rw [if_neg hl, Option.map_eq_some_iff] at hupdate
    obtain ⟨u, hu, _⟩ := hupdate
    exact ⟨u, hu, hs.commits hn hu (hfresh.1 u hu)⟩
  · intro hc
    rw [if_pos hc, Option.map_eq_none_iff] at hproposal
    refine ⟨hproposal, ?_, (hs.noProposal hproposal).2⟩
    rw [Submission.ack, hproposal]
  · intro hc
    rw [if_neg hc, Option.map_eq_some_iff] at hproposal
    obtain ⟨p, hp, _⟩ := hproposal
    refine ⟨p, hp, ?_, hs.proposes hp (submit_clock h hp) (hfresh.2 p hp)⟩
    rw [Submission.ack, hp]

theorem exists_submit (h : (n.clock.get n.id).toNat + 1 < UInt64.size) (t : Transaction)
    (ids : IdSupply) : ∃ s n' ids', n.submit t ids = .ok (s, n', ids') := by
  obtain ⟨u, r, mid, hc⟩ := Replica.exists_commit h n.classifier (n.decompose t) ids
  unfold submit commitLocal
  dsimp only
  rw [hc]
  exact ⟨_, _, _, rfl⟩

/-- Whatever a node has done since it was new, and unless its own counter is the largest there is, it
takes every transaction, and what the submission does is what the split of the transaction says. -/
theorem exists_submit_carries {id : NodeId} {c : Classifier} {config : NodeConfig}
    {ids ids' : IdSupply} {actions : List Action}
    (h : actAll (new id c config, ids) actions = .ok (n, ids'))
    (hclock : (n.clock.get n.id).toNat + 1 < UInt64.size) (t : Transaction) (supply : IdSupply) :
    ∃ s n' supply', n.submit t supply = .ok (s, n', supply') ∧ (s.IsFresh n → n.Carries t s n') := by
  obtain ⟨s, n', supply', hs⟩ := exists_submit hclock t supply
  have hstamps : n.replica.StampsKnown :=
    (actAll_moves h).replica.stampsKnown (Replica.stampsKnown_new id)
  exact ⟨s, n', supply', hs, carries_of_submit hs hstamps⟩

/-- Two deltas and a maximum are lifted; of the rest, one operation is generic and one is held by a
proposal that is pending. -/
theorem exists_submit_carries_mixed :
    let v : Update := ⟨Uuid.ofNat 7, "b", .ofList [("b", 1)], [.increment "edits" 1]⟩
    let actions : List Action := [.submit [.overwrite "title" "draft"], .receive (.update v)]
    let t : Transaction := [.increment "edits" 2, .maximum "title" 4, .maximum "score" 3,
      .overwrite "notes" "none", .decrement "edits" 5]
    ∃ n ids s n' ids',
      actAll (new "a" .standard .default, .ofStream Uuid.ofNat) actions = .ok (n, ids) ∧
      (n.clock.get n.id).toNat + 1 < UInt64.size ∧ n.submit t ids = .ok (s, n', ids') ∧
      s.IsFresh n ∧ n.Carries t s n' ∧
      (n.decompose t).liftable.map (·.operation) =
        [.increment "edits" 2, .maximum "score" 3, .decrement "edits" 5] ∧
      (n.decompose t).coordinated.map (·.operation) =
        [.maximum "title" 4, .overwrite "notes" "none"] ∧
      (n'.state.get "edits").counter = some (-2) := by
  intro v actions t
  obtain ⟨⟨n, ids⟩, ⟨s, n', ids'⟩, h, hs, ht⟩ := @exists_pair_of_endsWith _ _ _
    (actAll (new "a" .standard .default, .ofStream Uuid.ofNat) actions)
    (fun m => m.1.submit t m.2)
    (fun r => (r.1.1.clock.get r.1.1.id).toNat + 1 < UInt64.size ∧
      (∀ u ∈ r.2.1.update, r.1.1.replica.hasApplied u.id = false) ∧
      (∀ p ∈ r.2.1.proposal, r.1.1.pending.contains p.id = false) ∧
      (r.1.1.decompose t).liftable.map (·.operation) =
        [.increment "edits" 2, .maximum "score" 3, .decrement "edits" 5] ∧
      (r.1.1.decompose t).coordinated.map (·.operation) =
        [.maximum "title" 4, .overwrite "notes" "none"] ∧
      (r.2.2.1.state.get "edits").counter = some (-2)) (by decide +kernel)
  obtain ⟨hclock, hupdate, hproposal, hlifted, hcoordinated, hcounter⟩ := of_decide_eq_true ht
  have hfresh : s.IsFresh n := ⟨fun u hu => hupdate u hu, fun p hp => hproposal p hp⟩
  obtain ⟨_, _, _, hs', hcarries⟩ := exists_submit_carries h hclock t ids
  cases hs.symm.trans hs'
  exact ⟨n, ids, s, n', ids', h, hclock, hs, hfresh, hcarries hfresh, hlifted, hcoordinated,
    hcounter⟩

end Node
end Confluence
