import Confluence.Proofs.Node.Basic

namespace Confluence

namespace IdSupply
variable {ids mid rest : IdSupply}

/-- One supply is what another has become by drawing from it. -/
structure Continues (rest ids : IdSupply) : Prop where
  stream : rest.stream = ids.stream
  drawn : ids.drawn ≤ rest.drawn

theorem Continues.refl (ids : IdSupply) : ids.Continues ids := ⟨rfl, Nat.le_refl _⟩

theorem Continues.trans (h : rest.Continues mid) (h' : mid.Continues ids) : rest.Continues ids :=
  ⟨h.stream.trans h'.stream, Nat.le_trans h'.drawn h.drawn⟩

theorem continues_draw (ids : IdSupply) : ids.draw.2.Continues ids := ⟨rfl, Nat.le_succ _⟩

/-- The identifiers that were drawn since an earlier state of a supply. -/
def drawnSince (rest ids : IdSupply) : List Uuid :=
  (List.range' ids.drawn (rest.drawn - ids.drawn)).map rest.stream

theorem mem_drawnSince {u : Uuid} : u ∈ rest.drawnSince ids ↔
    ∃ k, ids.drawn ≤ k ∧ k < rest.drawn ∧ rest.stream k = u := by
  rw [drawnSince, List.mem_map]
  apply exists_congr
  intro k
  rw [List.mem_range'_1, ← and_assoc]
  apply and_congr_left
  intro _
  omega

theorem drawnSince_eq_append (h : rest.Continues mid) (h' : mid.Continues ids) :
    rest.drawnSince ids = mid.drawnSince ids ++ rest.drawnSince mid := by
  have hd := h.drawn
  have hd' := h'.drawn
  have hrange : List.range' ids.drawn (rest.drawn - ids.drawn) =
      List.range' ids.drawn (mid.drawn - ids.drawn) ++
        List.range' mid.drawn (rest.drawn - mid.drawn) := by
    rw [← Nat.add_sub_cancel' hd', Nat.add_sub_cancel_left, List.range'_append_1]
    congr 1
    omega
  rw [drawnSince, hrange, List.map_append, drawnSince, drawnSince, h.stream]

end IdSupply

namespace Node

/-- What the owner of a node can have it do. -/
inductive Action
  | submit (transaction : Transaction)
  | receive (m : Message)
  | complete (id : ProposalId) (outcome : Except NodeError Decision)
  | registerPeer (peer : NodeId)
  | collectGarbage

/-- Performs an action; the outcome of an unknown proposal is refused and changes nothing. -/
def act (s : Node × IdSupply) : Action → Except Fault (Node × IdSupply)
  | .submit transaction => (s.1.submit transaction s.2).map fun (_, n, ids) => (n, ids)
  | .receive m => .ok ((s.1.receive m).2, s.2)
  | .complete id outcome =>
    match s.1.complete id outcome with
    | .ok (_, n) => .ok (n, s.2)
    | .error _ => .ok s
  | .registerPeer peer => .ok (s.1.registerPeer peer, s.2)
  | .collectGarbage => .ok (s.1.collectGarbage.2, s.2)

/-- Performs actions in order, unless there is a fault. -/
def actAll (s : Node × IdSupply) (actions : List Action) : Except Fault (Node × IdSupply) :=
  actions.foldlM act s

variable {n n' : Node} {s s' : Node × IdSupply} {a : Action} {actions : List Action}

/-- What stays of a node, and how its replica and the supply of identifiers move. -/
structure Moves (s s' : Node × IdSupply) : Prop where
  id : s'.1.id = s.1.id
  config : s'.1.config = s.1.config
  classifier : s'.1.classifier = s.1.classifier
  replica : Replica.Steps s.1.classifier s.1.replica s'.1.replica
  ids : s'.2.Continues s.2

theorem Moves.refl (s : Node × IdSupply) : Moves s s := ⟨rfl, rfl, rfl, .refl, .refl _⟩

theorem Moves.trans {s'' : Node × IdSupply} (h : Moves s s') (h' : Moves s' s'') : Moves s s'' where
  id := h'.id.trans h.id
  config := h'.config.trans h.config
  classifier := h'.classifier.trans h.classifier
  replica := h.replica.trans (h.classifier ▸ h'.replica)
  ids := h'.ids.trans h.ids

theorem foldl_applyDecided_steps (c : Classifier) (ds : List Decision) (r : Replica) :
    Replica.Steps c r (ds.foldl (fun r d => r.applyDecided d.proposal.operations) r) := by
  induction ds generalizing r with
  | nil => exact .refl
  | cons d ds ih => exact .head (.apply r d.proposal.operations) (ih _)

theorem acceptDecision_steps (n : Node) (d : Decision) :
    Replica.Steps n.classifier n.replica (n.acceptDecision d).2.replica := by
  rw [acceptDecision_snd]
  have h := foldl_applyDecided_steps n.classifier (n.decisions.accept d).1.ready? n.replica
  rw [foldl_applyDecided] at h
  exact h

theorem receive_steps (n : Node) (m : Message) :
    Replica.Steps n.classifier n.replica (n.receive m).2.replica := by
  cases m with
  | update u =>
    rw [receive_update_snd]
    exact n.replica.integrate_steps n.classifier u
  | decided d =>
    rw [receive_decided_snd]
    exact n.acceptDecision_steps d
  | join x => exact (Replica.Step.advance _ _).steps
  | frontier x f => exact (Replica.Step.advance _ _).steps

theorem Submits.steps {t : Transaction} {submission : Submission} (h : n.Submits t submission n') :
    Replica.Steps n.classifier n.replica n'.replica := by
  cases hu : submission.update with
  | none =>
    rw [(h.noUpdate hu).2]
  | some u =>
    obtain ⟨_, _, _, hr⟩ := h.update u hu
    rw [hr]
    exact (Replica.Step.advance _ _).steps.tail (.absorb _ u)

/-- The proposal of a submission has an identifier that the submission draws. -/
theorem submit_draws {t : Transaction} {ids rest : IdSupply} {submission : Submission}
    (h : n.submit t ids = .ok (submission, n', rest)) :
    rest.Continues ids ∧ ∀ p, submission.proposal = some p → p.id ∈ rest.drawnSince ids := by
  unfold submit at h
  obtain ⟨⟨u, m, mid⟩, hc, h⟩ := bind_eq_ok h
  obtain ⟨⟨v, r, mid'⟩, hr, he⟩ := map_eq_ok hc
  cases he
  have hmid : mid.Continues ids := by
    rcases Replica.commit_eq_ok hr with ⟨_, _, _, rfl⟩ | ⟨_, _, _, _, _, _, _, _, rfl⟩
    · exact .refl _
    · exact ids.continues_draw
  dsimp only at h
  unfold propose at h
  split at h
  · cases h
    exact ⟨hmid, by simp⟩
  · cases h
    refine ⟨mid.continues_draw.trans hmid, ?_⟩
    intro p hp
    cases hp
    exact IdSupply.mem_drawnSince.2 ⟨mid.drawn, hmid.drawn, Nat.lt_succ_self _, rfl⟩

theorem complete_moves {id : ProposalId} {outcome : Except NodeError Decision}
    {result : CommitResult} (h : n.complete id outcome = .ok (result, n')) (ids : IdSupply) :
    Moves (n, ids) (n', ids) := by
  obtain ⟨hid, hclassifier, _⟩ := complete_rest h
  refine ⟨hid, complete_config h, hclassifier, ?_, .refl ids⟩
  have hcase := (complete_eq_ok h).2
  cases outcome with
  | ok d =>
    rw [hcase.2]
    exact acceptDecision_steps { n with pending := n.pending.erase id } d
  | error reason =>
    rw [hcase.2]

theorem act_moves (h : act s a = .ok s') : Moves s s' := by
  cases a with
  | submit transaction =>
    obtain ⟨⟨submission, n, ids⟩, hs, rfl⟩ := map_eq_ok h
    have hsub := submit_eq_ok hs
    exact ⟨hsub.kept.1, hsub.kept.2.1, hsub.kept.2.2.1, hsub.steps, (submit_draws hs).1⟩
  | receive m =>
    cases h
    obtain ⟨hid, hconfig, hclassifier, _⟩ := s.1.receive_rest m
    exact ⟨hid, hconfig, hclassifier, s.1.receive_steps m, .refl _⟩
  | complete id outcome =>
    rw [act] at h
    split at h
    · next result n hc =>
      cases h
      exact complete_moves hc s.2
    · cases h
      exact .refl _
  | registerPeer peer =>
    cases h
    exact ⟨rfl, rfl, rfl, (Replica.Step.advance _ _).steps, .refl _⟩
  | collectGarbage =>
    cases h
    exact ⟨rfl, rfl, rfl, (Replica.Step.prune _ _).steps, .refl _⟩

theorem actAll_moves (h : actAll s actions = .ok s') : Moves s s' := by
  induction actions generalizing s with
  | nil =>
    cases h
    exact .refl _
  | cons a actions ih =>
    obtain ⟨mid, hmid, h⟩ := bind_eq_ok h
    exact (act_moves hmid).trans (ih h)

/-- What can be asked of a node: besides actions, the commit of a split that it need not have made
itself. -/
inductive Call
  | act (a : Action)
  | commit (d : Decomposition)

def call (s : Node × IdSupply) : Call → Except Fault (Node × IdSupply)
  | .act a => act s a
  | .commit d => (s.1.commitLocal d s.2).map fun (_, n, ids) => (n, ids)

def callAll (s : Node × IdSupply) (calls : List Call) : Except Fault (Node × IdSupply) :=
  calls.foldlM call s

variable {x : Call} {calls later : List Call}

theorem callAll_append :
    callAll s (calls ++ later) = .ok s' ↔
      ∃ mid, callAll s calls = .ok mid ∧ callAll mid later = .ok s' := by
  unfold callAll
  rw [List.foldlM_append]
  constructor
  · exact bind_eq_ok
  · rintro ⟨mid, h, h'⟩
    rw [h, ok_bind, h']

theorem commitLocal_moves {d : Decomposition} {ids ids' : IdSupply} {v : Option Update}
    (h : n.commitLocal d ids = .ok (v, n', ids')) : Moves (n, ids) (n', ids') := by
  obtain ⟨hid, hconfig, hclassifier, _, _, hsome, hnone, _⟩ := commitLocal_eq_ok h
  unfold commitLocal at h
  obtain ⟨⟨w, r, rest⟩, hc, he⟩ := map_eq_ok h
  cases he
  refine ⟨hid, hconfig, hclassifier, ?_, ?_⟩
  · cases v with
    | none => rw [(hnone rfl).2]
    | some v =>
      obtain ⟨_, _, _, hr⟩ := hsome v rfl
      rw [hr]
      exact (Replica.Step.advance _ _).steps.tail (.absorb _ v)
  · rcases Replica.commit_eq_ok hc with ⟨_, _, _, rfl⟩ | ⟨_, _, _, _, _, _, _, _, rfl⟩
    · exact .refl _
    · exact ids.continues_draw

theorem call_moves (h : call s x = .ok s') : Moves s s' := by
  cases x with
  | act a => exact act_moves h
  | commit d =>
    obtain ⟨⟨v, n, ids⟩, hc, rfl⟩ := map_eq_ok h
    exact commitLocal_moves hc

theorem callAll_moves (h : callAll s calls = .ok s') : Moves s s' := by
  induction calls generalizing s with
  | nil =>
    cases h
    exact .refl _
  | cons x calls ih =>
    obtain ⟨mid, hmid, h⟩ := bind_eq_ok h
    exact (call_moves hmid).trans (ih h)

end Node
end Confluence
