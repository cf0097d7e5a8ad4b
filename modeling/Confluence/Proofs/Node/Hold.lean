import Mathlib.Data.List.Nodup
import Confluence.Proofs.Decomposition
import Confluence.Proofs.Node.Run

namespace Confluence

/-- The proposal stands against lifting an operation: it has an algebraic one of another signature on
the key, or, under the key-wide policy, a generic one. -/
def Proposal.Holds (p : Proposal) (c : Classifier) (policy : EscalationPolicy) (op : Operation) :
    Prop :=
  ∃ x ∈ p.operations, x.key = op.key ∧
    ((c.classifyOperation x ≠ .generic ∧ c.classifyOperation x ≠ c.classifyOperation op) ∨
      (policy = .keyWide ∧ c.classifyOperation x = .generic))

theorem Classifier.decompose_congr (c : Classifier) (policy : EscalationPolicy)
    {pending pending' : PendingIndex} {t : Transaction}
    (h : ∀ op ∈ t, pending.onKey op.key = pending'.onKey op.key) :
    c.decompose policy pending t = c.decompose policy pending' t := by
  have hroutes : (c.decompose policy pending t).routes = (c.decompose policy pending' t).routes := by
    rw [routes_decompose, routes_decompose, List.map_map, List.map_map]
    apply List.map_congr_left
    intro op hop
    have hreason : c.reasonIn? policy pending t (c.annotate op) =
        c.reasonIn? policy pending' t (c.annotate op) :=
      congrArg (policy.reason? _ _) (h op hop)
    exact congrArg (Route.mk _) hreason
  exact congrArg Decomposition.mk hroutes

namespace Node
variable {n n' : Node} {s s' mid : Node × IdSupply} {a : Action} {actions rest : List Action}
  {t : Transaction} {submission : Submission} {id : ProposalId} {e : PendingProposal}
  {p : Proposal}

/-- The action reports the outcome of the proposal, whatever it is. -/
def Action.completes (a : Action) (id : ProposalId) : Bool :=
  match a with
  | .complete id' _ => id = id'
  | _ => false

theorem actAll_append :
    actAll s (actions ++ rest) = .ok s' ↔
      ∃ mid, actAll s actions = .ok mid ∧ actAll mid rest = .ok s' := by
  unfold actAll
  rw [List.foldlM_append]
  constructor
  · exact bind_eq_ok
  · rintro ⟨mid, h, h'⟩
    rw [h, ok_bind, h']

/-- What an action does to the proposals that are pending. -/
theorem pending_act : act s a = .ok s' →
    match a with
    | .submit t => ∃ submission, s.1.submit t s.2 = .ok (submission, s'.1, s'.2)
    | .complete id _ => ∀ q, s'.1.pending.find? q = if q = id then none else s.1.pending.find? q
    | _ => s'.1.pending = s.1.pending := by
  intro h
  cases a with
  | submit transaction =>
    obtain ⟨⟨submission, n, ids⟩, hs, rfl⟩ := map_eq_ok h
    exact ⟨submission, hs⟩
  | receive m =>
    cases h
    exact (s.1.receive_rest m).2.2.2
  | complete id outcome =>
    intro q
    rw [act] at h
    split at h
    · next result n hc =>
      cases h
      rw [(complete_rest hc).2.2.1, OrderedMap.find?_erase]
    · next hc =>
      cases h
      split
      · next hq => exact hq ▸ complete_eq_error hc
      · rfl
  | registerPeer peer =>
    cases h
    rfl
  | collectGarbage =>
    cases h
    rfl

theorem find?_pending_act (h : act s a = .ok s') (hid : id ∉ s'.2.drawnSince s.2) :
    s'.1.pending.find? id = if a.completes id then none else s.1.pending.find? id := by
  have hpending := pending_act h
  cases a with
  | submit transaction =>
    obtain ⟨submission, hs⟩ := hpending
    have hsub := submit_eq_ok hs
    change s'.1.pending.find? id = s.1.pending.find? id
    cases hp : submission.proposal with
    | none => rw [(hsub.noProposal hp).2]
    | some p =>
      have hne : id ≠ p.id := by
        rintro rfl
        exact hid ((submit_draws hs).2 p hp)
      rw [(hsub.proposal p hp).2.2, OrderedMap.find?_insert, if_neg hne]
  | complete id' outcome =>
    rw [hpending, Action.completes]
    simp only [decide_eq_true_eq]
  | receive m => exact congrArg (OrderedMap.find? · id) hpending
  | registerPeer peer => exact congrArg (OrderedMap.find? · id) hpending
  | collectGarbage => exact congrArg (OrderedMap.find? · id) hpending

theorem find?_pending_actAll (h : actAll s actions = .ok s') (hid : id ∉ s'.2.drawnSince s.2) :
    s'.1.pending.find? id =
      if actions.any (·.completes id) then none else s.1.pending.find? id := by
  induction actions generalizing s with
  | nil =>
    cases h
    rfl
  | cons a actions ih =>
    obtain ⟨mid, hmid, h⟩ := bind_eq_ok h
    rw [IdSupply.drawnSince_eq_append (actAll_moves h).ids (act_moves hmid).ids,
      List.mem_append, not_or] at hid
    rw [ih h hid.2, find?_pending_act hmid hid.1, List.any_cons]
    cases a.completes id <;> simp

/-- The entry of a pending proposal has its operations, as the node classifies them. -/
def PendingClassified (n : Node) : Prop :=
  ∀ id e, n.pending.find? id = some e →
    e.classified = e.proposal.operations.map n.classifier.annotate

theorem Submits.classified (h : n.Submits t submission n') (hp : submission.proposal = some p) :
    (submission.pendingEntry p).classified = p.operations.map n.classifier.annotate := by
  have hcoordinated := n.classifier.coordinated_eq_filter n.config.escalation n.pendingIndex t
  rw [(h.proposal p hp).1, List.map_map, Submission.pendingEntry, h.decomposition, decompose,
    hcoordinated, List.map_map]
  rfl

theorem PendingClassified.act (h : s.1.PendingClassified) (ha : act s a = .ok s') :
    s'.1.PendingClassified := by
  have hpending := pending_act ha
  intro id e he
  rw [(act_moves ha).classifier]
  cases a with
  | submit transaction =>
    obtain ⟨submission, hs⟩ := hpending
    have hsub := submit_eq_ok hs
    rcases hsub.find?_pending he with hold | ⟨p, hp, _, rfl⟩
    · exact h id e hold
    · exact hsub.classified hp
  | complete id' outcome =>
    rw [hpending] at he
    split at he
    · cases he
    · exact h id e he
  | receive m => exact h id e (hpending ▸ he)
  | registerPeer peer => exact h id e (hpending ▸ he)
  | collectGarbage => exact h id e (hpending ▸ he)

theorem PendingClassified.actAll (h : s.1.PendingClassified) (ha : actAll s actions = .ok s') :
    s'.1.PendingClassified := by
  induction actions generalizing s with
  | nil =>
    cases ha
    exact h
  | cons a actions ih =>
    obtain ⟨mid, hmid, ha⟩ := bind_eq_ok ha
    exact ih (h.act hmid) ha

theorem pendingClassified_new (id : NodeId) (c : Classifier) (config : NodeConfig) :
    (new id c config).PendingClassified := by
  intro id e he
  cases he

theorem PendingClassified.mustCoordinate (h : n.PendingClassified)
    (he : n.pending.find? id = some e) {op : Operation}
    (hop : e.proposal.Holds n.classifier n.config.escalation op) :
    n.classifier.MustCoordinate n.config.escalation n.pendingIndex t op := by
  obtain ⟨x, hx, hk, hcase⟩ := hop
  by_cases hs : n.classifier.classifyOperation op = .generic
  · exact .inl hs
  · have hentry : (⟨id, x.key, n.classifier.classifyOperation x⟩ : PendingEntry) ∈
        n.pendingIndex.onKey op.key := by
      rw [mem_onKey_pendingIndex]
      refine ⟨hk, e, he, n.classifier.annotate x, ?_, rfl, rfl⟩
      rw [h id e he]
      exact List.mem_map_of_mem hx
    refine .inr (.inr ⟨_, (PendingIndex.mem_onKey.1 hentry).1, hk, ?_⟩)
    rcases hcase with ⟨hx, hne⟩ | ⟨hpolicy, hx⟩
    · exact EscalationPolicy.opposes_of_ne hs (.inr hx) hne.symm
    · refine EscalationPolicy.opposes_of_ne hs (.inl hpolicy) ?_
      rw [hx]
      exact hs

theorem PendingClassified.not_holds (h : n.PendingClassified) (he : n.pending.find? id = some e)
    (hs : n.Submits t submission n') {u : Update} (hu : submission.update = some u) {op : Operation}
    (hop : op ∈ u.operations) : ¬ e.proposal.Holds n.classifier n.config.escalation op := by
  intro hholds
  rw [(hs.update u hu).1, hs.decomposition] at hop
  obtain ⟨x, hx, rfl⟩ := List.mem_map.1 hop
  obtain ⟨op, _, hlifted, rfl⟩ := Classifier.mem_liftable.1 hx
  exact hlifted (h.mustCoordinate he hholds)

theorem PendingClassified.onKey_eq_nil (h : n.PendingClassified) {k : Key}
    (hk : ∀ id e, n.pending.find? id = some e → ∀ x ∈ e.proposal.operations, x.key ≠ k) :
    n.pendingIndex.onKey k = [] := by
  rw [List.eq_nil_iff_forall_not_mem]
  intro y hy
  obtain ⟨rfl, e, he, c, hc, hck, _⟩ := mem_onKey_pendingIndex.1 hy
  rw [h _ e he] at hc
  obtain ⟨x, hx, rfl⟩ := List.mem_map.1 hc
  exact hk _ e he x hx hck

/-- The submission is the node's answer to the transaction after the actions. -/
def Answers (s : Node × IdSupply) (actions : List Action) (t : Transaction)
    (submission : Submission) : Prop :=
  ∃ mid n ids, actAll s actions = .ok mid ∧ mid.1.submit t mid.2 = .ok (submission, n, ids)

/-- A proposal that was made is pending, as it was made, exactly until it is completed. -/
theorem find?_pending_of_answers {before after : List Action}
    (h : actAll s (before ++ .submit t :: after) = .ok s') (hids : (s'.2.drawnSince s.2).Nodup)
    (ha : Answers s before t submission) (hp : submission.proposal = some p) :
    s'.1.pending.find? p.id = if after.any (·.completes p.id) then none
      else some (submission.pendingEntry p) := by
  obtain ⟨mid, n, ids, hbefore, hs⟩ := ha
  obtain ⟨_, hbefore', h⟩ := actAll_append.1 h
  cases hbefore.symm.trans hbefore'
  obtain ⟨made, hmade, hafter⟩ := bind_eq_ok h
  rw [act, hs] at hmade
  cases hmade
  have hfirst := (actAll_moves hbefore).ids
  obtain ⟨hmid, hdraws⟩ := submit_draws hs
  have hlast := (actAll_moves hafter).ids
  -- The identifier was drawn by the submission, and therefore by none that follows.
  have hid : p.id ∉ s'.2.drawnSince ids := by
    rw [IdSupply.drawnSince_eq_append (hlast.trans hmid) hfirst,
      IdSupply.drawnSince_eq_append hlast hmid] at hids
    have hdisjoint := List.disjoint_of_nodup_append (List.Nodup.of_append_right hids)
    exact hdisjoint (hdraws p hp)
  rw [find?_pending_actAll hafter hid, ((submit_eq_ok hs).proposal p hp).2.2,
    OrderedMap.find?_insert, if_pos rfl]
  rfl

/-- Unresolved proposals hold their keys. Whatever a node has done since it was new, a proposal that
it has made is pending until it is completed, and with it what is in conflict with it is never
lifted; a transaction on whose keys nothing is pending is split as by the new node. -/
theorem pending_until_completed {id : NodeId} {c : Classifier} {config : NodeConfig}
    {ids ids' : IdSupply} {actions : List Action}
    (h : actAll (new id c config, ids) actions = .ok (n, ids'))
    (hids : (ids'.drawnSince ids).Nodup) :
    (∀ before t after submission p, actions = before ++ .submit t :: after →
      Answers (new id c config, ids) before t submission → submission.proposal = some p →
        n.pending.find? p.id = (if after.any (·.completes p.id) then none
          else some (submission.pendingEntry p)) ∧
        (after.any (·.completes p.id) = false →
          ∀ t' supply next n' supply' u, n.submit t' supply = .ok (next, n', supply') →
            next.update = some u → ∀ op ∈ u.operations, ¬ p.Holds c config.escalation op)) ∧
    ∀ t' supply next n' supply', n.submit t' supply = .ok (next, n', supply') →
      (∀ q e, n.pending.find? q = some e → ∀ x ∈ e.proposal.operations, ∀ op ∈ t',
        x.key ≠ op.key) →
      next.IsSplit ∧ next.decomposition = (new id c config).decompose t' := by
  have hclassified := (pendingClassified_new id c config).actAll (s := (_, ids)) h
  obtain ⟨_, hconfig, hclassifier, _, _⟩ := actAll_moves h
  change n.config = config at hconfig
  change n.classifier = c at hclassifier
  constructor
  · rintro before t after submission p rfl ha hp
    have hfind := find?_pending_of_answers h hids ha hp
    refine ⟨hfind, ?_⟩
    intro hopen t' supply next n' supply' u hs hu op hop
    rw [hopen] at hfind
    rw [← hclassifier, ← hconfig]
    exact hclassified.not_holds hfind (submit_eq_ok hs) hu hop
  · intro t' supply next n' supply' hs hk
    refine ⟨submit_isSplit hs, ?_⟩
    rw [(submit_eq_ok hs).decomposition, decompose, decompose, hconfig, hclassifier]
    apply c.decompose_congr
    intro op hop
    exact hclassified.onKey_eq_nil fun q e he x hx => hk q e he x hx op hop

/-- A proposal whose decision was received in between and whose outcome is a failure; one that was only
made because of the first, and holds the key after it; and a transaction on other keys. -/
theorem pending_until_completed_chained :
    let p : Proposal :=
      ⟨Uuid.ofNat 1, "a", [.overwrite "title" "draft"], .ofList [("a", 1)]⟩
    let q : Proposal := ⟨Uuid.ofNat 2, "a", [.maximum "title" 5], .ofList [("a", 1)]⟩
    let actions : List Action := [.submit [.increment "edits" 3, .overwrite "title" "draft"],
      .submit [.maximum "title" 5], .receive (.decided ⟨0, p⟩),
      .complete p.id (.error (.unavailable p.id 3 0))]
    let mixed : Transaction := [.increment "title" 1, .increment "edits" 4]
    let other : Transaction := [.maximum "edits" 9, .overwrite "edits" "none"]
    ∃ n ids, actAll (new "a" .standard .default, .ofStream Uuid.ofNat) actions = .ok (n, ids) ∧
      n.pending.find? p.id = none ∧
      n.pending.find? q.id = some ⟨q, [⟨.maximum "title" 5, .semilattice⟩], none⟩ ∧
      (∃ next n' ids' u, n.submit mixed ids = .ok (next, n', ids') ∧ next.update = some u ∧
        .increment "title" 1 ∉ u.operations) ∧
      ∃ next n' ids', n.submit other ids = .ok (next, n', ids') ∧
        next.decomposition = (new "a" .standard .default).decompose other := by
  intro p q actions mixed other
  let start : Node × IdSupply := (new "a" .standard .default, .ofStream Uuid.ofNat)
  let first : Transaction := [.increment "edits" 3, .overwrite "title" "draft"]
  let second : Transaction := [.maximum "title" 5]
  obtain ⟨⟨s₁, _, _⟩, hs₁, hp⟩ := @exists_of_endsWith _ _ (start.1.submit first start.2)
    (fun r => r.1.proposal = some p) (by decide +kernel)
  obtain ⟨m, ⟨s₂, _, _⟩, hm, hs₂, ht₂⟩ := @exists_pair_of_endsWith _ _ _
    (actAll start [.submit first]) (fun m => m.1.submit second m.2)
    (fun r => r.2.1.proposal = some q ∧
      r.2.1.pendingEntry q = ⟨q, [⟨.maximum "title" 5, .semilattice⟩], none⟩) (by decide +kernel)
  obtain ⟨hq, hentry⟩ := of_decide_eq_true ht₂
  obtain ⟨⟨n, ids⟩, ⟨s₃, n₃, ids₃⟩, h, hs₃, ht₃⟩ := @exists_pair_of_endsWith _ _ _
    (actAll start actions) (fun m => m.1.submit mixed m.2)
    (fun r => (r.1.2.drawnSince start.2).Nodup ∧ r.2.1.update.isSome = true ∧
      ∀ e ∈ r.1.1.pending.values, ∀ x ∈ e.proposal.operations, ∀ op ∈ other, x.key ≠ op.key)
    (by decide +kernel)
  obtain ⟨hids, hu, hkeys⟩ := of_decide_eq_true ht₃
  obtain ⟨u, hu⟩ := Option.isSome_iff_exists.1 hu
  obtain ⟨⟨n', ids'⟩, ⟨s₄, n₄, ids₄⟩, h', hs₄, _⟩ := @exists_pair_of_endsWith _ _ _
    (actAll start actions) (fun m => m.1.submit other m.2) (fun _ => true) (by decide +kernel)
  cases h.symm.trans h'
  obtain ⟨hpending, hsplit⟩ := pending_until_completed h hids
  have hfirst := (hpending [] first _ s₁ p rfl ⟨start, _, _, rfl, hs₁⟩ (of_decide_eq_true hp)).1
  obtain ⟨hsecond, hheld⟩ := hpending [.submit first] second _ s₂ q rfl ⟨m, _, _, hm, hs₂⟩ hq
  rw [hentry] at hsecond
  refine ⟨n, ids, h, hfirst, hsecond, ⟨s₃, n₃, ids₃, u, hs₃, hu, ?_⟩, s₄, n₄, ids₄, hs₄, ?_⟩
  · intro hop
    refine hheld (by decide +kernel) mixed ids s₃ n₃ ids₃ u hs₃ hu _ hop ?_
    exact ⟨.maximum "title" 5, List.mem_singleton_self _, rfl, .inl ⟨by decide, by decide⟩⟩
  · refine (hsplit other ids s₄ n₄ ids₄ hs₄ ?_).2
    intro k e he
    exact hkeys e (OrderedMap.mem_values.2 ⟨k, he⟩)

end Node
end Confluence
