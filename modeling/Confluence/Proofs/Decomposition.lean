import Confluence.Proofs.Escalation

namespace Confluence

/-- Whether operations of the first signature wait for agreement because of one of the second
signature on their key. -/
def EscalationPolicy.Opposes : EscalationPolicy → Signature → Signature → Prop
  | .keyWide, s, other => s.commutesWith other = false
  | .conflictingPairs, s, other => other ≠ .generic ∧ s ≠ other

instance (policy : EscalationPolicy) (s other : Signature) : Decidable (policy.Opposes s other) :=
  match policy with
  | .keyWide => inferInstanceAs (Decidable (_ = _))
  | .conflictingPairs => inferInstanceAs (Decidable (_ ∧ _))

/-- The operation is generic, or some operation on its key stands against it, in the transaction or
pending. -/
def Classifier.MustCoordinate (c : Classifier) (policy : EscalationPolicy) (pending : PendingIndex)
    (t : Transaction) (op : Operation) : Prop :=
  c.classifyOperation op = .generic ∨
    (∃ other ∈ t, other.key = op.key ∧
      policy.Opposes (c.classifyOperation op) (c.classifyOperation other)) ∨
    ∃ e ∈ pending.entries, e.key = op.key ∧ policy.Opposes (c.classifyOperation op) e.signature

instance (c : Classifier) (policy : EscalationPolicy) (pending : PendingIndex) (t : Transaction) :
    DecidablePred (c.MustCoordinate policy pending t) := fun _ =>
  inferInstanceAs (Decidable (_ ∨ (∃ other ∈ t, _ ∧ _) ∨ ∃ e ∈ pending.entries, _ ∧ _))

/-- What a reason says of an operation of a transaction. -/
def EscalationReason.IsTrue (c : Classifier) (policy : EscalationPolicy) (pending : PendingIndex)
    (t : Transaction) (op : Operation) : EscalationReason → Prop
  | .generic => c.classifyOperation op = .generic
  | .mixedSignatures other =>
    (∃ op' ∈ t, op'.key = op.key ∧ c.classifyOperation op' = other) ∧
      policy.Opposes (c.classifyOperation op) other
  | .pendingGeneric id => policy = .keyWide ∧ ⟨id, op.key, .generic⟩ ∈ pending.entries
  | .pendingConflict id other =>
    ⟨id, op.key, other⟩ ∈ pending.entries ∧ other ≠ .generic ∧ c.classifyOperation op ≠ other

theorem Signature.commutesWith_iff {s other : Signature} (hs : s ≠ .generic) :
    s.commutesWith other = true ↔ s = other := by
  simp [commutesWith, isLiftable, hs]

namespace EscalationPolicy
variable {policy : EscalationPolicy} {s other : Signature} {together : List Signature}
  {pending : List PendingEntry} {r : EscalationReason}

theorem opposes_of_ne (hs : s ≠ .generic) (ho : policy = .keyWide ∨ other ≠ .generic)
    (hne : s ≠ other) : policy.Opposes s other := by
  cases policy with
  | keyWide => exact Bool.eq_false_iff.2 (mt (Signature.commutesWith_iff hs).1 hne)
  | conflictingPairs => exact ⟨ho.resolve_left (by simp), hne⟩

theorem reason?_eq_none : policy.reason? s together pending = none ↔
    s ≠ .generic ∧ (∀ other ∈ together, ¬ policy.Opposes s other) ∧
      ∀ e ∈ pending, ¬ policy.Opposes s e.signature := by
  cases policy with
  | keyWide =>
    rw [keyWide_eq_none]
    simp only [Opposes, Bool.not_eq_false]
    constructor
    · rintro ⟨hs, hgeneric, ht, hp⟩
      exact ⟨hs, ht, fun e he => hp e he (decide_eq_true (hgeneric e he))⟩
    · rintro ⟨hs, ht, hp⟩
      exact ⟨hs, fun e he => Signature.ne_generic_of_commutesWith (hp e he), ht,
        fun e he _ => hp e he⟩
  | conflictingPairs =>
    rw [conflictingPairs_eq_none]
    apply and_congr_right
    intro hs
    simp only [Opposes, Signature.commutesWith_iff hs, Signature.isLiftable, decide_eq_true_eq,
      not_and, not_not]

theorem exists_of_find?_map {α β : Type} {l : List α} {p : α → Bool} {f : α → β} {b : β}
    (h : (l.find? p).map f = some b) : ∃ a ∈ l, p a = true ∧ f a = b := by
  obtain ⟨a, ha, hb⟩ := Option.map_eq_some_iff.1 h
  exact ⟨a, List.mem_of_find?_eq_some ha, List.find?_some ha, hb⟩

theorem pendingConflict?_eq_some (hs : s ≠ .generic) (h : pendingConflict? s pending = some r) :
    ∃ e ∈ pending, e.signature ≠ .generic ∧ s ≠ e.signature ∧
      r = .pendingConflict e.proposal e.signature := by
  obtain ⟨e, he, hp, rfl⟩ := exists_of_find?_map h
  obtain ⟨hl, hc⟩ := Bool.and_eq_true_iff.1 hp
  refine ⟨e, he, of_decide_eq_true hl, ?_, rfl⟩
  intro heq
  rw [(Signature.commutesWith_iff hs).2 heq] at hc
  cases hc

/-- The four kinds of reasons, and what each says of the signatures that were looked at. -/
theorem reason?_eq_some (h : policy.reason? s together pending = some r) :
    (s = .generic ∧ r = .generic) ∨
      (∃ other ∈ together, policy.Opposes s other ∧ r = .mixedSignatures other) ∨
      (policy = .keyWide ∧ ∃ e ∈ pending, e.signature = .generic ∧ r = .pendingGeneric e.proposal) ∨
      ∃ e ∈ pending, e.signature ≠ .generic ∧ s ≠ e.signature ∧
        r = .pendingConflict e.proposal e.signature := by
  unfold reason? at h
  split at h
  · next hs => exact .inl ⟨hs, (Option.some.inj h).symm⟩
  · next hs =>
    cases policy with
    | keyWide =>
      simp only [Option.orElse_eq_orElse, Option.orElse_eq_or, Option.or_eq_some_iff] at h
      rcases h with h | ⟨_, h | ⟨_, h⟩⟩
      · obtain ⟨e, he, hg, rfl⟩ := exists_of_find?_map h
        exact .inr (.inr (.inl ⟨rfl, e, he, of_decide_eq_true hg, rfl⟩))
      · obtain ⟨other, ho, hc, rfl⟩ := exists_of_find?_map h
        exact .inr (.inl ⟨other, ho, by simpa [Opposes] using hc, rfl⟩)
      · exact .inr (.inr (.inr (pendingConflict?_eq_some hs h)))
    | conflictingPairs =>
      simp only [Option.orElse_eq_orElse, Option.orElse_eq_or, Option.or_eq_some_iff] at h
      rcases h with h | ⟨_, h⟩
      · obtain ⟨other, ho, hc, rfl⟩ := exists_of_find?_map h
        obtain ⟨hl, hc⟩ := Bool.and_eq_true_iff.1 hc
        refine .inr (.inl ⟨other, ho, ⟨of_decide_eq_true hl, ?_⟩, rfl⟩)
        intro heq
        rw [(Signature.commutesWith_iff hs).2 heq] at hc
        cases hc
      · exact .inr (.inr (.inr (pendingConflict?_eq_some hs h)))

end EscalationPolicy

theorem PendingIndex.mem_onKey {index : PendingIndex} {k : Key} {e : PendingEntry} :
    e ∈ index.onKey k ↔ e ∈ index.entries ∧ e.key = k := by
  rw [onKey, List.mem_filter, decide_eq_true_iff]

namespace Classifier
variable {c : Classifier} {policy : EscalationPolicy} {pending : PendingIndex} {t : Transaction}
  {op op' : Operation} {x y : ClassifiedOperation} {r : EscalationReason}

theorem reasonIn?_eq_none :
    c.reasonIn? policy pending t (c.annotate op) = none ↔ ¬ c.MustCoordinate policy pending t op := by
  rw [reasonIn?, EscalationPolicy.reason?_eq_none, MustCoordinate, not_or, not_or]
  apply and_congr_right
  intro _
  constructor
  · rintro ⟨ht, hp⟩
    constructor
    · rintro ⟨other, ho, hk, hopp⟩
      exact ht _ (mem_together.2 ⟨other, ho, hk, rfl⟩) hopp
    · rintro ⟨e, he, hk, hopp⟩
      exact hp e (PendingIndex.mem_onKey.2 ⟨he, hk⟩) hopp
  · rintro ⟨ht, hp⟩
    constructor
    · intro σ hσ hopp
      obtain ⟨other, ho, hk, rfl⟩ := mem_together.1 hσ
      exact ht ⟨other, ho, hk, hopp⟩
    · intro e he hopp
      obtain ⟨he, hk⟩ := PendingIndex.mem_onKey.1 he
      exact hp ⟨e, he, hk, hopp⟩

theorem isSome_reasonIn? :
    (c.reasonIn? policy pending t (c.annotate op)).isSome = true ↔
      c.MustCoordinate policy pending t op := by
  rw [Option.isSome_iff_ne_none, Ne, reasonIn?_eq_none, not_not]

theorem isTrue_of_reasonIn? (h : c.reasonIn? policy pending t (c.annotate op) = some r) :
    r.IsTrue c policy pending t op := by
  rcases EscalationPolicy.reason?_eq_some h with
    ⟨hs, rfl⟩ | ⟨other, ho, hopp, rfl⟩ | ⟨hpolicy, e, he, hg, rfl⟩ | ⟨e, he, hg, hne, rfl⟩
  · exact hs
  · exact ⟨mem_together.1 ho, hopp⟩
  · obtain ⟨he, hk⟩ := PendingIndex.mem_onKey.1 he
    obtain ⟨id, key, signature⟩ := e
    cases hk
    cases hg
    exact ⟨hpolicy, he⟩
  · obtain ⟨he, hk⟩ := PendingIndex.mem_onKey.1 he
    obtain ⟨id, key, signature⟩ := e
    cases hk
    exact ⟨he, hg, hne⟩

theorem liftable_eq_filter (c : Classifier) (policy : EscalationPolicy) (pending : PendingIndex)
    (t : Transaction) :
    (c.decompose policy pending t).liftable =
      (t.filter fun op => ¬ c.MustCoordinate policy pending t op).map c.annotate := by
  rw [liftable_decompose, List.filter_map]
  congr 1
  apply List.filter_congr
  intro op _
  rw [Bool.eq_iff_iff, decide_eq_true_iff, ← reasonIn?_eq_none]
  exact Option.isNone_iff_eq_none

theorem coordinated_eq_filter (c : Classifier) (policy : EscalationPolicy) (pending : PendingIndex)
    (t : Transaction) :
    (c.decompose policy pending t).coordinated =
      (t.filter fun op => c.MustCoordinate policy pending t op).map c.annotate := by
  rw [coordinated_decompose, List.filter_map]
  congr 1
  apply List.filter_congr
  intro op _
  rw [Bool.eq_iff_iff, decide_eq_true_iff]
  exact isSome_reasonIn?

theorem mem_liftable : x ∈ (c.decompose policy pending t).liftable ↔
    ∃ op ∈ t, ¬ c.MustCoordinate policy pending t op ∧ c.annotate op = x := by
  simp [liftable_eq_filter, and_assoc]

theorem mem_coordinated : x ∈ (c.decompose policy pending t).coordinated ↔
    ∃ op ∈ t, c.MustCoordinate policy pending t op ∧ c.annotate op = x := by
  simp [coordinated_eq_filter, and_assoc]

theorem escalations_decompose (c : Classifier) (policy : EscalationPolicy) (pending : PendingIndex)
    (t : Transaction) :
    (c.decompose policy pending t).escalations = t.zipIdx.filterMap fun y =>
      (c.reasonIn? policy pending t (c.annotate y.1)).map (⟨y.2, y.1, ·⟩) := by
  rw [Decomposition.escalations, routes_decompose, List.map_map, List.zipIdx_map,
    List.filterMap_map]
  rfl

theorem map_escalations (c : Classifier) (policy : EscalationPolicy) (pending : PendingIndex)
    (t : Transaction) :
    (c.decompose policy pending t).escalations.map (fun e => (e.operation, e.index)) =
      t.zipIdx.filter fun y => c.MustCoordinate policy pending t y.1 := by
  rw [escalations_decompose, List.map_filterMap, ← List.filterMap_eq_filter]
  apply List.filterMap_congr
  intro y _
  rw [Option.map_map, Option.guard]
  cases hr : c.reasonIn? policy pending t (c.annotate y.1) with
  | none => simp [reasonIn?_eq_none.1 hr]
  | some r => simp [isSome_reasonIn?.1 (Option.isSome_of_eq_some hr)]

theorem operations_escalations (c : Classifier) (policy : EscalationPolicy)
    (pending : PendingIndex) (t : Transaction) :
    (c.decompose policy pending t).escalations.map (·.operation) =
      (c.decompose policy pending t).coordinated.map (·.operation) := by
  have hpairs := congrArg (List.map Prod.fst) (map_escalations c policy pending t)
  rw [List.map_map] at hpairs
  calc (c.decompose policy pending t).escalations.map (·.operation)
    _ = (t.zipIdx.filter fun y => c.MustCoordinate policy pending t y.1).map Prod.fst := hpairs
    _ = (t.zipIdx.map Prod.fst).filter fun op => c.MustCoordinate policy pending t op :=
      by rw [List.filter_map]; rfl
    _ = t.filter fun op => c.MustCoordinate policy pending t op := by rw [List.zipIdx_map_fst]
    _ = (c.decompose policy pending t).coordinated.map (·.operation) := by
      rw [coordinated_eq_filter, List.map_map]
      exact (List.map_id _).symm

theorem pairwise_escalations (c : Classifier) (policy : EscalationPolicy) (pending : PendingIndex)
    (t : Transaction) :
    (c.decompose policy pending t).escalations.Pairwise fun e e' => e.index < e'.index := by
  have hpos : t.zipIdx.Pairwise fun y y' => y.2 < y'.2 := by
    rw [← List.pairwise_map (f := Prod.snd) (R := (· < ·)), List.zipIdx_map_snd]
    exact List.pairwise_lt_range'
  have hpairs : ((c.decompose policy pending t).escalations.map fun e =>
      (e.operation, e.index)).Pairwise fun y y' => y.2 < y'.2 := by
    rw [map_escalations]
    exact hpos.filter _
  exact (List.pairwise_map (R := fun y y' : Operation × Nat => y.2 < y'.2)).1 hpairs

theorem isTrue_of_mem_escalations {e : Escalation}
    (he : e ∈ (c.decompose policy pending t).escalations) :
    e.reason.IsTrue c policy pending t e.operation := by
  rw [escalations_decompose] at he
  obtain ⟨y, _, he⟩ := List.mem_filterMap.1 he
  obtain ⟨r, hr, rfl⟩ := Option.map_eq_some_iff.1 he
  exact isTrue_of_reasonIn? hr

theorem MustCoordinate.congr (h : c.MustCoordinate policy pending t op) (hk : op.key = op'.key)
    (hs : c.classifyOperation op = c.classifyOperation op') :
    c.MustCoordinate policy pending t op' := by
  rw [MustCoordinate, ← hk, ← hs]
  exact h

theorem classifyOperation_eq_of_lifted (h : ¬ c.MustCoordinate policy pending t op) (hop' : op' ∈ t)
    (hk : op.key = op'.key) (hs' : policy = .keyWide ∨ c.classifyOperation op' ≠ .generic) :
    c.classifyOperation op = c.classifyOperation op' := by
  have hs : c.classifyOperation op ≠ .generic := fun hg => h (.inl hg)
  by_contra hne
  exact h (.inr (.inl ⟨op', hop', hk.symm, EscalationPolicy.opposes_of_ne hs hs' hne⟩))

theorem key_ne_of_coordinated (hx : x ∈ (c.decompose policy pending t).liftable)
    (hy : y ∈ (c.decompose policy pending t).coordinated)
    (hs : policy = .keyWide ∨ y.signature ≠ .generic) : x.key ≠ y.key := by
  obtain ⟨op, _, hop, rfl⟩ := mem_liftable.1 hx
  obtain ⟨op', hop', hmust, rfl⟩ := mem_coordinated.1 hy
  intro hk
  exact hop (hmust.congr hk.symm (classifyOperation_eq_of_lifted hop hop' hk hs).symm)

theorem commutesWith_of_mem_liftable (hx : x ∈ (c.decompose policy pending t).liftable)
    (hy : y ∈ (c.decompose policy pending t).liftable) (hk : x.key = y.key) :
    x.signature.commutesWith y.signature = true := by
  obtain ⟨op, _, hop, rfl⟩ := mem_liftable.1 hx
  obtain ⟨op', hop', hlifted, rfl⟩ := mem_liftable.1 hy
  have hs : c.classifyOperation op ≠ .generic := fun hg => hop (.inl hg)
  have hs' : c.classifyOperation op' ≠ .generic := fun hg => hlifted (.inl hg)
  exact (Signature.commutesWith_iff hs).2 (classifyOperation_eq_of_lifted hop hop' hk (.inr hs'))

end Classifier

/-- A decomposition follows the pairwise rule. -/
structure Decomposition.IsPairwise (d : Decomposition) (c : Classifier) (policy : EscalationPolicy)
    (pending : PendingIndex) (t : Transaction) : Prop where
  /-- Every operation goes one of the two ways, by the rule, and both parts keep the order. -/
  liftable : d.liftable =
    (t.filter fun op => ¬ c.MustCoordinate policy pending t op).map c.annotate
  coordinated : d.coordinated =
    (t.filter fun op => c.MustCoordinate policy pending t op).map c.annotate
  parts : (d.liftable ++ d.coordinated).Perm (t.map c.annotate)
  /-- The escalations are the coordinated operations at their positions, which increase. -/
  escalations : d.escalations.map (fun e => (e.operation, e.index)) =
    t.zipIdx.filter fun y => c.MustCoordinate policy pending t y.1
  operations : d.escalations.map (·.operation) = d.coordinated.map (·.operation)
  increasing : d.escalations.Pairwise fun e e' => e.index < e'.index
  commute : ∀ x ∈ d.liftable, ∀ y ∈ d.liftable, x.key = y.key →
    x.signature.commutesWith y.signature = true
  /-- There is one way for all operations on a key, or for all of them that are not generic. -/
  keyWide : policy = .keyWide → ∀ x ∈ d.liftable, ∀ y ∈ d.coordinated, x.key ≠ y.key
  conflictingPairs : policy = .conflictingPairs → ∀ x ∈ d.liftable, ∀ y ∈ d.coordinated,
    y.signature ≠ .generic → x.key ≠ y.key
  reasons : ∀ e ∈ d.escalations, e.reason.IsTrue c policy pending t e.operation

/-- Decomposition computes the pairwise rule, for every table of kinds, either policy, and whatever
is pending. -/
theorem Classifier.isPairwise_decompose (c : Classifier) (policy : EscalationPolicy)
    (pending : PendingIndex) (t : Transaction) :
    (c.decompose policy pending t).IsPairwise c policy pending t where
  liftable := liftable_eq_filter c policy pending t
  coordinated := coordinated_eq_filter c policy pending t
  parts := (Decomposition.liftable_append_coordinated _).trans
    (.of_eq (operations_decompose c policy pending t))
  escalations := map_escalations c policy pending t
  operations := operations_escalations c policy pending t
  increasing := pairwise_escalations c policy pending t
  commute _ hx _ hy := commutesWith_of_mem_liftable hx hy
  keyWide hpolicy _ hx _ hy := key_ne_of_coordinated hx hy (.inl hpolicy)
  conflictingPairs _ _ hx _ hy hs := key_ne_of_coordinated hx hy (.inr hs)
  reasons _ he := isTrue_of_mem_escalations he

example :
    let pending : PendingIndex :=
      ⟨[⟨Uuid.ofNat 1, "score", .abelian⟩, ⟨Uuid.ofNat 2, "tags", .generic⟩]⟩
    let t : Transaction := [.increment "edits" 2, .maximum "score" 5, .insert "tags" "new",
      .overwrite "edits" "none"]
    let escalated (policy : EscalationPolicy) :=
      (Classifier.standard.decompose policy pending t).escalations.map fun e => (e.index, e.reason)
    escalated .keyWide = [(0, .mixedSignatures .generic), (1, .pendingConflict (Uuid.ofNat 1) .abelian),
        (2, .pendingGeneric (Uuid.ofNat 2)), (3, .generic)] ∧
      escalated .conflictingPairs =
        [(1, .pendingConflict (Uuid.ofNat 1) .abelian), (3, .generic)] := by
  decide +kernel

end Confluence
