import Mathlib.Data.List.Basic
import Confluence.Node
import Confluence.Proofs.Classifier

namespace Confluence

namespace PendingIndex

theorem entries_foldl_add (l : List (ProposalId × List ClassifiedOperation))
    (index : PendingIndex) :
    (l.foldl (fun index e => index.add e.1 e.2) index).entries =
      index.entries ++ l.flatMap fun e => e.2.map fun c => ⟨e.1, c.key, c.signature⟩ := by
  induction l generalizing index with
  | nil => exact (List.append_nil _).symm
  | cons e l ih =>
    rw [List.foldl_cons, ih, List.flatMap_cons, ← List.append_assoc]
    rfl

end PendingIndex

/-- What is pending on a key are the operations on it of the proposals that are pending. -/
theorem Node.mem_onKey_pendingIndex {n : Node} {k : Key} {e : PendingEntry} :
    e ∈ n.pendingIndex.onKey k ↔ e.key = k ∧ ∃ p, n.pending.find? e.proposal = some p ∧
      ∃ c ∈ p.classified, c.key = e.key ∧ c.signature = e.signature := by
  have hentries : n.pendingIndex.entries = n.pending.entries.flatMap fun e =>
      e.2.classified.map fun c => ⟨e.1, c.key, c.signature⟩ := by
    have h := PendingIndex.entries_foldl_add
      (n.pending.entries.map fun e => (e.1, e.2.classified)) .empty
    rw [List.foldl_map, List.flatMap_map] at h
    exact h
  unfold PendingIndex.onKey
  rw [List.mem_filter, hentries, List.mem_flatMap, and_comm, decide_eq_true_iff]
  apply and_congr_right
  intro _
  constructor
  · rintro ⟨⟨id, p⟩, hp, he⟩
    obtain ⟨c, hc, rfl⟩ := List.mem_map.1 he
    exact ⟨p, OrderedMap.find?_eq_some.2 hp, c, hc, rfl, rfl⟩
  · rintro ⟨p, hp, c, hc, hk, hs⟩
    refine ⟨(e.proposal, p), OrderedMap.find?_eq_some.1 hp, List.mem_map.2 ⟨c, hc, ?_⟩⟩
    rw [hk, hs]

theorem Signature.ne_generic_of_commutesWith {s t : Signature} (h : s.commutesWith t = true) :
    t ≠ .generic := by
  rintro rfl
  cases s <;> cases h

namespace EscalationPolicy
variable {s : Signature} {together : List Signature} {pending pending' : List PendingEntry}

theorem keyWide_eq_none : keyWide.reason? s together pending = none ↔
    s ≠ .generic ∧ (∀ e ∈ pending, e.signature ≠ .generic) ∧
      (∀ other ∈ together, s.commutesWith other = true) ∧
      ∀ e ∈ pending, e.signature.isLiftable = true → s.commutesWith e.signature = true := by
  unfold reason? pendingConflict?
  split
  · next hs => simp [hs]
  · next hs => simp [hs]

theorem conflictingPairs_eq_none : conflictingPairs.reason? s together pending = none ↔
    s ≠ .generic ∧
      (∀ other ∈ together, other.isLiftable = true → s.commutesWith other = true) ∧
      ∀ e ∈ pending, e.signature.isLiftable = true → s.commutesWith e.signature = true := by
  unfold reason? pendingConflict?
  split
  · next hs => simp [hs]
  · next hs => simp [hs]

theorem conflictingPairs_eq_none_of_commutes
    (ht : s ≠ .generic → ∀ other ∈ together, other ≠ .generic → s.commutesWith other = true)
    (hp : s ≠ .generic → ∀ e ∈ pending, e.signature ≠ .generic →
      s.commutesWith e.signature = true) :
    conflictingPairs.reason? s together pending = none ↔ s ≠ .generic := by
  rw [conflictingPairs_eq_none]
  constructor
  · exact And.left
  · intro hs
    exact ⟨hs, fun other ho hl => ht hs other ho (of_decide_eq_true hl),
      fun e he hl => hp hs e he (of_decide_eq_true hl)⟩

theorem keyWide_eq_none_of_commutes
    (ht : s ≠ .generic → ∀ other ∈ together, other ≠ .generic → s.commutesWith other = true)
    (hp : s ≠ .generic → ∀ e ∈ pending, e.signature ≠ .generic →
      s.commutesWith e.signature = true) :
    keyWide.reason? s together pending = none ↔
      s ≠ .generic ∧ (∀ other ∈ together, other ≠ .generic) ∧
        ∀ e ∈ pending, e.signature ≠ .generic := by
  rw [keyWide_eq_none]
  constructor
  · rintro ⟨hs, hpend, htog, _⟩
    exact ⟨hs, fun other ho => Signature.ne_generic_of_commutesWith (htog other ho), hpend⟩
  · rintro ⟨hs, htog, hpend⟩
    exact ⟨hs, hpend, fun other ho => ht hs other ho (htog other ho),
      fun e he _ => hp hs e he (hpend e he)⟩

theorem reason?_of_keyWide (hp : ∀ e' ∈ pending', ∃ e ∈ pending, e.signature = e'.signature)
    (h : keyWide.reason? s together pending = none) :
    conflictingPairs.reason? s together pending' = none := by
  obtain ⟨hs, _, ht, hpend⟩ := keyWide_eq_none.1 h
  apply conflictingPairs_eq_none.2
  refine ⟨hs, fun other ho _ => ht other ho, ?_⟩
  intro e' he'
  obtain ⟨e, he, hse⟩ := hp e' he'
  rw [← hse]
  exact hpend e he

end EscalationPolicy

namespace Classifier
variable {c : Classifier} {policy : EscalationPolicy} {pending pending' : PendingIndex}
  {t : Transaction}

/-- Why an operation of a transaction has to be coordinated. -/
def reasonIn? (c : Classifier) (policy : EscalationPolicy) (pending : PendingIndex)
    (t : Transaction) (op : ClassifiedOperation) : Option EscalationReason :=
  policy.reason? op.signature
    (((t.map c.annotate).filter fun other => other.key = op.key).map (·.signature))
    (pending.onKey op.key)

theorem routes_decompose (c : Classifier) (policy : EscalationPolicy) (pending : PendingIndex)
    (t : Transaction) :
    (c.decompose policy pending t).routes =
      (t.map c.annotate).map fun op => ⟨op, c.reasonIn? policy pending t op⟩ := rfl

theorem operations_decompose (c : Classifier) (policy : EscalationPolicy)
    (pending : PendingIndex) (t : Transaction) :
    (c.decompose policy pending t).routes.map (·.operation) = t.map c.annotate := by
  rw [routes_decompose, List.map_map]
  exact List.map_id _

theorem positions_decompose (c : Classifier) (policy : EscalationPolicy)
    (pending : PendingIndex) (t : Transaction) :
    (c.decompose policy pending t).routes.map (·.operation.operation) = t := by
  have h := congrArg (List.map (·.operation)) (operations_decompose c policy pending t)
  rw [List.map_map, List.map_map] at h
  exact h.trans (List.map_id _)

theorem liftable_decompose (c : Classifier) (policy : EscalationPolicy) (pending : PendingIndex)
    (t : Transaction) :
    (c.decompose policy pending t).liftable =
      (t.map c.annotate).filter fun op => (c.reasonIn? policy pending t op).isNone := by
  unfold Decomposition.liftable
  rw [routes_decompose, List.filter_map, List.map_map]
  exact List.map_id _

theorem coordinated_decompose (c : Classifier) (policy : EscalationPolicy)
    (pending : PendingIndex) (t : Transaction) :
    (c.decompose policy pending t).coordinated =
      (t.map c.annotate).filter fun op => (c.reasonIn? policy pending t op).isSome := by
  unfold Decomposition.coordinated
  rw [routes_decompose, List.filter_map, List.map_map]
  exact List.map_id _

theorem map_operation_liftable {p : Operation → Prop} [DecidablePred p]
    (h : ∀ op ∈ t, c.reasonIn? policy pending t (c.annotate op) = none ↔ p op) :
    (c.decompose policy pending t).liftable.map (·.operation) = t.filter p := by
  rw [liftable_decompose, List.filter_map, List.map_map]
  apply (List.map_id _).trans
  apply List.filter_congr
  intro op hop
  rw [Bool.eq_iff_iff, decide_eq_true_iff]
  exact Option.isNone_iff_eq_none.trans (h op hop)

theorem mem_together {k : Key} {σ : Signature} :
    σ ∈ ((t.map c.annotate).filter fun other => other.key = k).map (·.signature) ↔
      ∃ op ∈ t, op.key = k ∧ c.classifyOperation op = σ := by
  constructor
  · intro h
    obtain ⟨other, ho, rfl⟩ := List.mem_map.1 h
    obtain ⟨hmem, hk⟩ := List.mem_filter.1 ho
    obtain ⟨op, hop, rfl⟩ := List.mem_map.1 hmem
    exact ⟨op, hop, of_decide_eq_true hk, rfl⟩
  · rintro ⟨op, hop, hk, rfl⟩
    exact List.mem_map.2 ⟨c.annotate op,
      List.mem_filter.2 ⟨List.mem_map_of_mem hop, decide_eq_true hk⟩, rfl⟩

/-- No algebraic operation of the transaction is in conflict with another algebraic one on its key, of
the transaction or pending. -/
def IsConflictFree (c : Classifier) (pending : PendingIndex) (t : Transaction) : Prop :=
  ∀ op ∈ t, c.classifyOperation op ≠ .generic →
    (∀ other ∈ t, other.key = op.key → c.classifyOperation other ≠ .generic →
      (c.classifyOperation op).commutesWith (c.classifyOperation other) = true) ∧
    ∀ e ∈ pending.onKey op.key, e.signature ≠ .generic →
      (c.classifyOperation op).commutesWith e.signature = true

theorem IsConflictFree.together (h : c.IsConflictFree pending t) {op : Operation} (hop : op ∈ t)
    (hg : c.classifyOperation op ≠ .generic) :
    ∀ other ∈ ((t.map c.annotate).filter fun other => other.key = op.key).map (·.signature),
      other ≠ .generic → (c.classifyOperation op).commutesWith other = true := by
  intro other ho hne
  obtain ⟨b, hb, hk, rfl⟩ := mem_together.1 ho
  exact (h op hop hg).1 b hb hk hne

theorem IsConflictFree.liftable_conflictingPairs (h : c.IsConflictFree pending t) :
    (c.decompose .conflictingPairs pending t).liftable.map (·.operation) =
      t.filter fun op => c.classifyOperation op ≠ .generic := by
  apply map_operation_liftable
  intro op hop
  exact EscalationPolicy.conflictingPairs_eq_none_of_commutes (h.together hop)
    fun hg => (h op hop hg).2

theorem IsConflictFree.liftable_keyWide (h : c.IsConflictFree pending t) :
    (c.decompose .keyWide pending t).liftable.map (·.operation) =
      t.filter fun op : Operation =>
        (∀ other ∈ t, other.key = op.key → c.classifyOperation other ≠ .generic) ∧
          ∀ e ∈ pending.onKey op.key, e.signature ≠ .generic := by
  apply map_operation_liftable
  intro op hop
  apply (EscalationPolicy.keyWide_eq_none_of_commutes (h.together hop)
    fun hg => (h op hop hg).2).trans
  constructor
  · rintro ⟨_, ht, hp⟩
    exact ⟨fun other ho hk => ht _ (mem_together.2 ⟨other, ho, hk, rfl⟩), hp⟩
  · rintro ⟨ht, hp⟩
    refine ⟨ht op hop rfl, ?_, hp⟩
    intro σ hσ
    obtain ⟨other, ho, hk, rfl⟩ := mem_together.1 hσ
    exact ht other ho hk

end Classifier

namespace Decomposition

/-- The operation at the position is lifted. -/
def Lifts (d : Decomposition) (i : Nat) : Prop := ∃ r, d.routes[i]? = some r ∧ r.reason = none

/-- Of the same operations in the same order, the second decomposition lifts all that the first one
lifts, and coordinates no others. -/
structure Widens (d d' : Decomposition) : Prop where
  operations : d.routes.map (·.operation) = d'.routes.map (·.operation)
  lifts : ∀ i, d.Lifts i → d'.Lifts i
  liftable : d.liftable.Sublist d'.liftable
  coordinated : ∀ c ∈ d'.coordinated, c ∈ d.coordinated

end Decomposition

/-- One transaction under both policies, with more pending for the key-wide one. -/
theorem Classifier.decompose_widens {c : Classifier} {pending pending' : PendingIndex}
    (t : Transaction) (hp : ∀ k, ∀ e' ∈ pending'.onKey k, ∃ e ∈ pending.onKey k,
      e.signature = e'.signature) :
    (c.decompose .keyWide pending t).Widens (c.decompose .conflictingPairs pending' t) := by
  have hreason : ∀ op, c.reasonIn? .keyWide pending t op = none →
      c.reasonIn? .conflictingPairs pending' t op = none := fun op =>
    EscalationPolicy.reason?_of_keyWide (hp op.key)
  constructor
  · rw [operations_decompose, operations_decompose]
  · rintro i ⟨r, hr, hn⟩
    rw [routes_decompose, List.getElem?_map] at hr
    obtain ⟨op, hop, rfl⟩ := Option.map_eq_some_iff.1 hr
    refine ⟨⟨op, c.reasonIn? .conflictingPairs pending' t op⟩, ?_, hreason op hn⟩
    rw [routes_decompose, List.getElem?_map, hop]
    rfl
  · rw [liftable_decompose, liftable_decompose]
    apply List.monotone_filter_right
    intro op hn
    exact Option.isNone_iff_eq_none.2 (hreason op (Option.isNone_iff_eq_none.1 hn))
  · intro op hop
    rw [coordinated_decompose] at hop ⊢
    obtain ⟨hmem, hsome⟩ := List.mem_filter.1 hop
    refine List.mem_filter.2 ⟨hmem, ?_⟩
    rw [Option.isSome_iff_ne_none] at hsome ⊢
    exact mt (hreason op) hsome

end Confluence
