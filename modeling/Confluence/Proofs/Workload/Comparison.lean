import Confluence.Proofs.Cluster.Unresolved
import Confluence.Proofs.Workload.Generate
import Confluence.Proofs.Workload.Run

namespace Confluence.Workload
variable {w : WorkloadConfig} {policy : EscalationPolicy} {ids ids' : IdSupply} {h h' mid : Chronicle}
  {i : Nat} {x : Transaction} {s : Submission}

/-- Among the operations there is an overwrite of the key. -/
def Overwrites (ops : List Operation) (k : Key) : Prop := ∃ op ∈ ops, op.key = k ∧ op.IsOverwrite

instance (ops : List Operation) (k : Key) : Decidable (Overwrites ops k) :=
  inferInstanceAs (Decidable (∃ op ∈ ops, op.key = k ∧ op.IsOverwrite))

theorem not_overwrites_iff {ops : List Operation} (hd : ∀ op ∈ ops, IsDrawn op) (k : Key) :
    ¬ Overwrites ops k ↔
      ∀ op ∈ ops, op.key = k → Classifier.standard.classifyOperation op ≠ .generic := by
  constructor
  · intro hno op hop hk hg
    exact hno ⟨op, hop, hk, (hd op hop).generic_iff.1 hg⟩
  · rintro hall ⟨op, hop, hk, ho⟩
    exact hall op hop hk ((hd op hop).generic_iff.2 ho)

theorem requests_commands (w : WorkloadConfig) :
    (commands w).filterMap (·.request?) = submissions w := by
  have hone : ∀ x, (commandsFor w.batch x).filterMap (·.request?) = [x.1] := by
    intro x
    unfold commandsFor
    split <;> rfl
  unfold commands
  rw [List.filterMap_append, List.filterMap_flatMap, List.flatMap_congr fun x _ => hone x,
    ← List.map_eq_flatMap, List.zipIdx_map_fst]
  exact List.append_nil _

theorem addNode_notMem_commands (w : WorkloadConfig) : .addNode ∉ commands w := by
  unfold commands commandsFor
  intro h
  rcases List.mem_append.1 h with h | h
  · obtain ⟨x, _, h⟩ := List.mem_flatMap.1 h
    split at h <;> simp at h
  · simp at h

theorem requests_perform (hp : perform w policy ids = .ok h) : h.requests = submissions w :=
  (Chronicle.requests_performAll hp).trans (requests_commands w)

theorem isDrawn_operations (hp : perform w policy ids = .ok h) :
    ∀ op ∈ h.operations, IsDrawn op := by
  intro op hop
  rw [h.operations_eq, requests_perform hp] at hop
  obtain ⟨x, hx, hop⟩ := List.mem_flatMap.1 hop
  exact isDrawn_submissions w x hx op hop

theorem uniform_operations (hp : perform w policy ids = .ok h) :
    Classifier.standard.Uniform h.operations := by
  intro a ha b hb
  exact (isDrawn_operations hp a ha).commutesWith (isDrawn_operations hp b hb)

theorem size_of_submits (hs : h.Submits mid i x s) (hp : perform w policy ids = .ok h)
    (hids : h.ids.Nodup) : mid.cluster.size = max w.nodes 1 := by
  obtain ⟨before, hb, hmid, _⟩ := hs.exists_node hp hids
  have hjoin : .addNode ∉ before := fun hmem =>
    addNode_notMem_commands w (hb.subset (List.mem_append_left _ hmem))
  rw [Chronicle.length_performAll (Chronicle.sound_new ..) hmid hjoin]
  simp [Cluster.size, Chronicle.new, Cluster.new, clusterConfig]

theorem isDrawn_of_submits (hs : h.Submits mid i x s) (hp : perform w policy ids = .ok h) :
    ∀ op ∈ x, IsDrawn op := fun op hop =>
  isDrawn_operations hp op (List.mem_flatMap.2 ⟨⟨x, s⟩, hs.mem_submissions, hop⟩)

theorem isDrawn_of_unresolved (hs : h.Submits mid i x s) (hp : perform w policy ids = .ok h)
    (hids : h.ids.Nodup) {p : Proposal} (hu : p ∈ mid.unresolved i) :
    ∀ op ∈ p.operations, IsDrawn op := by
  intro op hop
  obtain ⟨_, _, hmid, hrun, _⟩ := hs.exists_node hp hids
  obtain ⟨y, hy, hop⟩ := Chronicle.exists_submission_of_unresolved hmid hrun.ids hu hop
  exact isDrawn_operations hp op
    (List.mem_flatMap.2 ⟨y, (Chronicle.submissions_of_past hs.past).subset hy, hop⟩)

theorem lifted_of_conflictingPairs (hs : h.Submits mid i x s)
    (hp : perform w .conflictingPairs ids = .ok h) (hids : h.ids.Nodup) :
    Submitted.lifted ⟨x, s⟩ = x.filter fun op => ¬ op.IsOverwrite := by
  rw [hs.lifted_conflictingPairs hp hids (uniform_operations hp) rfl]
  apply List.filter_congr
  intro op hop
  rw [decide_eq_decide]
  exact not_congr (isDrawn_of_submits hs hp op hop).generic_iff

theorem lifted_of_keyWide (hs : h.Submits mid i x s) (hp : perform w .keyWide ids = .ok h)
    (hids : h.ids.Nodup) :
    Submitted.lifted ⟨x, s⟩ = x.filter fun op : Operation =>
      ¬ Overwrites x op.key ∧ ∀ p ∈ mid.unresolved i, ¬ Overwrites p.operations op.key := by
  rw [hs.lifted_keyWide hp hids (uniform_operations hp) rfl]
  apply List.filter_congr
  intro op _
  rw [decide_eq_decide, not_overwrites_iff (isDrawn_of_submits hs hp)]
  apply and_congr_right
  intro _
  apply forall₂_congr
  intro p hu
  exact (not_overwrites_iff (isDrawn_of_unresolved hs hp hids hu) op.key).symm

/-- Two runs of a workload compare like with like. -/
structure Compares (w : WorkloadConfig) (h h' : Chronicle) : Prop where
  /-- Both submit the same to the same nodes in the same order. -/
  requests : h.requests = submissions w ∧ h'.requests = submissions w
  /-- Whenever they submit, there are as many nodes as the positions were drawn for. -/
  nodes : (∀ x ∈ submissions w, x.1 < max w.nodes 1) ∧
    ∀ mid i x s, h.Submits mid i x s ∨ h'.Submits mid i x s → mid.cluster.size = max w.nodes 1
  /-- The first one lifts an operation unless its key is overwritten, in the same transaction or in an
  unresolved proposal of the node. -/
  keyWide : ∀ mid i x s, h.Submits mid i x s →
    Submitted.lifted ⟨x, s⟩ = x.filter fun op : Operation =>
      ¬ Overwrites x op.key ∧ ∀ p ∈ mid.unresolved i, ¬ Overwrites p.operations op.key
  /-- The second one lifts an operation unless it is an overwrite. -/
  conflictingPairs : ∀ mid i x s, h'.Submits mid i x s →
    Submitted.lifted ⟨x, s⟩ = x.filter fun op => ¬ op.IsOverwrite
  /-- They count the same operations, and the second one has lifted no fewer of them. -/
  operations : h.cluster.stats.operations = h'.cluster.stats.operations
  lifted : h.cluster.stats.lifted ≤ h'.cluster.stats.lifted

/-- The runs of a workload under the two policies compare like with like, whatever the workload. -/
theorem compares_of_run (hp : perform w .keyWide ids = .ok h)
    (hp' : perform w .conflictingPairs ids' = .ok h') (hids : h.ids.Nodup) (hids' : h'.ids.Nodup) :
    run w .keyWide ids = .ok ((account h).stats .keyWide, h.cluster.ids) ∧
      run w .conflictingPairs ids' =
        .ok ((account h').stats .conflictingPairs, h'.cluster.ids) ∧
      Compares w h h' := by
  have ht := (Chronicle.ledger hp hids).tallied
  have ht' := (Chronicle.ledger hp' hids').tallied
  refine ⟨by rw [run_eq, hp]; rfl, by rw [run_eq, hp']; rfl, ?_⟩
  constructor
  · exact ⟨requests_perform hp, requests_perform hp'⟩
  · refine ⟨origin_lt w, ?_⟩
    rintro mid i x s (hs | hs)
    · exact size_of_submits hs hp hids
    · exact size_of_submits hs hp' hids'
  · intro mid i x s hs
    exact lifted_of_keyWide hs hp hids
  · intro mid i x s hs
    exact lifted_of_conflictingPairs hs hp' hids'
  · have ho : h.cluster.stats.operations = h.operations.length := ht.operations
    have ho' : h'.cluster.stats.operations = h'.operations.length := ht'.operations
    rw [ho, ho', h.operations_eq, h'.operations_eq, requests_perform hp, requests_perform hp']
  · have hw := @Chronicle.widens (clusterConfig w .keyWide) .standard ids ids' _ _ _ hp hp' hids hids'
    exact hw.lifted_le ht ht'

/-- An increment shares its key with an overwrite, and at the same node the next one finds it still
unresolved. -/
theorem compares_of_run_unresolved :
    let w : WorkloadConfig := ⟨2, 2, 2, 0.4, 1, 3, 4, .reliable⟩
    ∃ h h' : Chronicle, perform w .keyWide (.ofStream Uuid.ofNat) = .ok h ∧
      perform w .conflictingPairs (.ofStream fun k => Uuid.ofNat (k + 100)) = .ok h' ∧
      h.ids.Nodup ∧ h'.ids.Nodup ∧ Compares w h h' ∧
      (h.cluster.stats.operations, h.cluster.stats.lifted) = (3, 0) ∧
      (h'.cluster.stats.operations, h'.cluster.stats.lifted) = (3, 2) := by
  intro w
  obtain ⟨h, hp, ht⟩ := @exists_of_endsWith _ _ (perform w .keyWide (.ofStream Uuid.ofNat))
    (fun h => h.ids.Nodup ∧ (h.cluster.stats.operations, h.cluster.stats.lifted) = (3, 0))
    (by decide +kernel)
  obtain ⟨h', hp', ht'⟩ := @exists_of_endsWith _ _
    (perform w .conflictingPairs (.ofStream fun k => Uuid.ofNat (k + 100)))
    (fun h => h.ids.Nodup ∧ (h.cluster.stats.operations, h.cluster.stats.lifted) = (3, 2))
    (by decide +kernel)
  obtain ⟨hids, hn⟩ := of_decide_eq_true ht
  obtain ⟨hids', hn'⟩ := of_decide_eq_true ht'
  exact ⟨h, h', hp, hp', hids, hids', (compares_of_run hp hp' hids hids').2.2, hn, hn'⟩

end Confluence.Workload
