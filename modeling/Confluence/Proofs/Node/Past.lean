import Confluence.Proofs.Node.Basic
import Confluence.Proofs.State.History

namespace Confluence

inductive Change
  | merge (u : Update)
  | apply (d : Decision)
  deriving DecidableEq

namespace Change

def update? : Change → Option Update
  | merge u => some u
  | apply _ => none

def decision? : Change → Option Decision
  | merge _ => none
  | apply d => some d

def updates (es : List Change) : List Update := es.filterMap update?

def decisions (es : List Change) : List Decision := es.filterMap decision?

theorem updates_append (es fs : List Change) : updates (es ++ fs) = updates es ++ updates fs :=
  List.filterMap_append

theorem decisions_append (es fs : List Change) :
    decisions (es ++ fs) = decisions es ++ decisions fs :=
  List.filterMap_append

theorem updates_map_apply (ds : List Decision) : updates (ds.map apply) = [] := by
  simp [updates, update?, List.filterMap_map, Function.comp_def]

theorem decisions_map_apply (ds : List Decision) : decisions (ds.map apply) = ds := by
  simp [decisions, decision?, List.filterMap_map, Function.comp_def]

theorem updates_map_merge (us : List Update) : updates (us.map merge) = us := by
  simp [updates, update?, List.filterMap_map, Function.comp_def]

theorem decisions_map_merge (us : List Update) : decisions (us.map merge) = [] := by
  simp [decisions, decision?, List.filterMap_map, Function.comp_def]

/-- The operations of an update or of a decision, in order. -/
def operations : Change → List Operation
  | merge u => u.operations
  | apply d => d.proposal.operations

/-- What a change does to a state that has not seen it before. -/
def effects (c : Classifier) : Change → List (Key × Effect)
  | merge u => u.effects c
  | apply d => d.effects

theorem effects_perm (c : Classifier) (es : List Change) :
    (es.flatMap (·.effects c)).Perm
      ((updates es).flatMap (·.effects c) ++ (decisions es).flatMap Decision.effects) := by
  induction es with
  | nil => exact .nil
  | cons e es ih =>
    rw [List.flatMap_cons]
    cases e with
    | merge u =>
      change (u.effects c ++ _).Perm ((u.effects c ++ _) ++ _)
      rw [List.append_assoc]
      exact ih.append_left _
    | apply d =>
      change (d.effects ++ _).Perm (_ ++ (d.effects ++ _))
      exact (ih.append_left _).trans (List.perm_append_comm_assoc ..)

theorem payloads_onKey_effects (k : Key) (c : Classifier) (es : List Change) :
    Effect.payloads (Effect.onKey k (es.flatMap (·.effects c))) =
      Operation.payloadsOn k (es.flatMap (·.operations)) :=
  Effect.payloads_onKey_flatMap (fun
    | merge u => Effect.payloads_onKey_update k c u
    | apply d => Effect.payloads_onKey_decision k d) es

theorem mem_updates_of_stamp {c : Classifier} {es : List Change} {k : Key} {id : UpdateId}
    (h : (k, .stamp id) ∈ es.flatMap (·.effects c)) : ∃ u ∈ updates es, u.id = id := by
  obtain ⟨e, he, h⟩ := List.mem_flatMap.1 h
  cases e with
  | merge u => exact ⟨u, List.mem_filterMap.2 ⟨_, he, rfl⟩, Update.eq_id_of_stamp h⟩
  | apply d =>
    obtain ⟨op, _, h⟩ := List.mem_map.1 h
    cases h

theorem assigned_effects {es : List Change} (h : ∀ u ∈ updates es, u.IsAssignFree) (k : Key)
    (c : Classifier) :
    Effect.assigned k (es.flatMap (·.effects c)) =
      Effect.assigned k ((decisions es).flatMap Decision.effects) := by
  induction es with
  | nil => rfl
  | cons e es ih =>
    rw [List.flatMap_cons, Effect.assigned_append]
    cases e with
    | merge u =>
      rw [ih fun v hv => h v (List.mem_cons_of_mem _ hv)]
      exact congrArg (· ++ _) (Effect.assigned_update (h u List.mem_cons_self) k c)
    | apply d =>
      rw [ih h]
      exact (Effect.assigned_append ..).symm

def perform (c : Classifier) (s : ReplicaState) : Change → ReplicaState
  | merge u => (s.merge c .deduplicated u).1
  | apply d => s.applyDecided d.proposal.operations

end Change

namespace ReplicaState

def replay (c : Classifier) (es : List Change) : ReplicaState := es.foldl (Change.perform c) .empty

theorem replay_append (c : Classifier) (es fs : List Change) :
    replay c (es ++ fs) = fs.foldl (Change.perform c) (replay c es) :=
  List.foldl_append

theorem replay_eq_performAll {c : Classifier} {es : List Change}
    (hids : ((Change.updates es).map (·.id)).Nodup) :
    replay c es = empty.performAll (es.flatMap (·.effects c)) := by
  induction es using List.reverseRecOn with
  | nil => rfl
  | append_singleton es e ih =>
    rw [Change.updates_append, List.map_append] at hids
    rw [replay_append, ih hids.of_append_left, List.flatMap_append, List.flatMap_singleton,
      performAll_append]
    cases e with
    | merge u =>
      -- The updates before it have stamped no key with this one.
      refine merge_eq fun k hk => ?_
      rcases contains_performAll.1 hk with hk | hk
      · obtain ⟨v, hv, he⟩ := Change.mem_updates_of_stamp hk
        apply List.disjoint_of_nodup_append hids (List.mem_map_of_mem hv)
        rw [he]
        exact List.mem_map_of_mem (List.mem_singleton_self u)
      · cases hk
    | apply d => exact applyDecided_eq ..

theorem reflects_replay {c : Classifier} {es : List Change}
    (hids : ((Change.updates es).map (·.id)).Nodup) (k : Key) :
    ((replay c es).get k).Reflects (Operation.payloadsOn k (es.flatMap (·.operations))) := by
  rw [← Change.payloads_onKey_effects k c, replay_eq_performAll hids, get_performAll]
  exact KeyState.reflects_performAll _

theorem register_replay {c : Classifier} {es : List Change}
    (hfree : ∀ u ∈ Change.updates es, u.IsAssignFree)
    (hids : ((Change.updates es).map (·.id)).Nodup) (k : Key) :
    ((replay c es).get k).register =
      ((Operation.payloadsOn k ((Change.decisions es).flatMap (·.proposal.operations))).filterMap
        Payload.value?).getLast? := by
  rw [(reflects_replay hids k).register, ← Change.payloads_onKey_effects k c,
    ← Effect.payloads_onKey_flatMap (Effect.payloads_onKey_decision k)]
  exact congrArg _ (Change.assigned_effects hfree k c)

theorem replay_eq_ofHistory {c : Classifier} {es : List Change}
    (hfree : ∀ u ∈ Change.updates es, u.IsAssignFree)
    (hids : ((Change.updates es).map (·.id)).Nodup) :
    replay c es = ofHistory c (Change.updates es) (Change.decisions es) := by
  rw [replay_eq_performAll hids]
  refine performAll_perm (Change.effects_perm c es) fun k => ?_
  rw [Change.assigned_effects hfree, Effect.assigned_append, Effect.assigned_updates hfree,
    List.nil_append]

end ReplicaState

namespace Node

def changes (n : Node) : Message → List Change
  | .update u => if n.replica.hasApplied u.id then [] else [.merge u]
  | .decided d => (n.decisions.accept d).1.ready?.map .apply
  | _ => []

theorem updates_changes_outcome (n : Node) (outcome : Except NodeError Decision) :
    Change.updates (outcome.toOption.toList.flatMap fun d => n.changes (.decided d)) = [] := by
  cases outcome with
  | ok d =>
    rw [Except.toOption, Option.toList_some, List.flatMap_singleton]
    exact Change.updates_map_apply _
  | error reason => rfl

/-- The changes in the life of a node make its state, and it knows the updates among them. -/
structure Lived (n : Node) (es : List Change) : Prop where
  state : n.state = .replay n.classifier es
  applied : ∀ id, n.replica.hasApplied id = true ↔ ∃ u ∈ Change.updates es, u.id = id

variable {n n' : Node} {es : List Change}

theorem Lived.merge {u : Update} (h : n.Lived es) (hc : n'.classifier = n.classifier)
    (hs : n'.state = (n.state.merge n.classifier .deduplicated u).1)
    (ha : ∀ id, n'.replica.hasApplied id = true ↔ id = u.id ∨ n.replica.hasApplied id = true) :
    n'.Lived (es ++ [.merge u]) where
  state := by
    rw [hs, hc, h.state, ReplicaState.replay_append]
    rfl
  applied id := by
    rw [ha, h.applied, Change.updates_append]
    simp [Change.updates, Change.update?, or_comm, eq_comm]

theorem Lived.acceptDecision (h : n.Lived es) (d : Decision) :
    (n.acceptDecision d).2.Lived (es ++ n.changes (.decided d)) where
  state := by
    rw [acceptDecision_snd]
    change List.foldl _ n.state _ = _
    rw [h.state, ReplicaState.replay_append]
    exact (List.foldl_map (g := Change.perform n.classifier) (f := Change.apply)).symm
  applied id := by
    rw [acceptDecision_snd, Change.updates_append]
    unfold changes
    rw [Change.updates_map_apply, List.append_nil]
    exact h.applied id

theorem Lived.receive (h : n.Lived es) (m : Message) :
    (n.receive m).2.Lived (es ++ n.changes m) := by
  cases m with
  | update u =>
    have hr := receive_update_snd n u
    obtain ⟨_, _, hc, _⟩ := receive_rest n (.update u)
    by_cases ha : n.replica.hasApplied u.id = true
    · rw [Replica.integrate_of_applied ha] at hr
      have hchanges : n.changes (.update u) = [] := if_pos ha
      rw [hchanges, List.append_nil]
      refine ⟨?_, ?_⟩
      · unfold Node.state
        rw [hr, hc]
        exact h.state
      · rw [hr]
        exact h.applied
    · rw [Replica.integrate_of_new ha] at hr
      have hchanges : n.changes (.update u) = [.merge u] := if_neg ha
      rw [hchanges]
      refine h.merge hc ?_ ?_
      · unfold Node.state
        rw [hr]
        rfl
      · rw [hr]
        exact Replica.hasApplied_absorb n.replica n.classifier u
  | decided d =>
    rw [receive_decided_snd]
    exact h.acceptDecision d
  | join x => exact ⟨h.state.trans (congrArg _ (List.append_nil _).symm), by
      rw [show n.changes (.join x) = [] from rfl, List.append_nil]
      exact h.applied⟩
  | frontier x f => exact ⟨h.state.trans (congrArg _ (List.append_nil _).symm), by
      rw [show n.changes (.frontier x f) = [] from rfl, List.append_nil]
      exact h.applied⟩

theorem Lived.submit {t : Transaction} {s : Submission} (h : n.Lived es) (hs : n.Submits t s n') :
    n'.Lived (es ++ s.update.toList.map .merge) := by
  cases hu : s.update with
  | none =>
    obtain ⟨_, hr⟩ := hs.noUpdate hu
    refine ⟨?_, ?_⟩
    · unfold Node.state
      rw [hr, hs.kept.2.2.1]
      exact h.state.trans (congrArg _ (List.append_nil _).symm)
    · rw [hr]
      simpa using h.applied
  | some u =>
    obtain ⟨_, _, _, hr⟩ := hs.update u hu
    refine h.merge hs.kept.2.2.1 ?_ ?_
    · unfold Node.state
      rw [hr]
      rfl
    · rw [hr]
      exact Replica.hasApplied_absorb { n.replica with clock := u.clock } n.classifier u

end Node
end Confluence
