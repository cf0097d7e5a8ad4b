import Confluence.Proofs.Classifier
import Confluence.Proofs.Cluster.Order
import Confluence.Proofs.History.Basic

namespace Confluence

namespace Trace

def updates (t : Trace) : List Update := t.submissions.filterMap fun s => s.submission.update

def proposals (t : Trace) : List Proposal := t.submissions.filterMap fun s => s.submission.proposal

def ids (t : Trace) : List Uuid := t.submissions.flatMap (·.ids)

theorem ids_perm (t : Trace) :
    (t.updates.map (·.id) ++ t.proposals.map (·.id)).Perm t.ids := by
  unfold updates proposals ids
  induction t.submissions with
  | nil => exact .nil
  | cons s l ih =>
    have hs : s.ids = (s.submission.update.map (·.id)).toList ++
      (s.submission.proposal.map (·.id)).toList := rfl
    rw [List.flatMap_cons, hs]
    cases hu : s.submission.update <;> cases hp : s.submission.proposal
    · simpa [hu, hp] using ih
    · simpa [hu, hp] using List.perm_middle.trans (ih.cons _)
    · simpa [hu, hp] using ih
    · simpa [hu, hp] using List.perm_middle.trans (ih.cons _)

theorem nodup_updates {t : Trace} (h : t.ids.Nodup) : (t.updates.map (·.id)).Nodup :=
  List.Nodup.of_append_left (t.ids_perm.nodup_iff.2 h)

theorem nodup_proposals {t : Trace} (h : t.ids.Nodup) : (t.proposals.map (·.id)).Nodup :=
  List.Nodup.of_append_right (t.ids_perm.nodup_iff.2 h)

theorem eq_of_update_id {t : Trace} (h : t.ids.Nodup) {u v : Update} (hu : u ∈ t.updates)
    (hv : v ∈ t.updates) (he : u.id = v.id) : u = v :=
  List.inj_on_of_nodup_map (nodup_updates h) hu hv he

theorem eq_of_proposal_id {t : Trace} (h : t.ids.Nodup) {p q : Proposal} (hp : p ∈ t.proposals)
    (hq : q ∈ t.proposals) (he : p.id = q.id) : p = q :=
  List.inj_on_of_nodup_map (nodup_proposals h) hp hq he

end Trace

theorem Node.Submits.isAssignFree {n n' : Node} {x : Transaction} {s : Submission} {u : Update}
    (hs : n.Submits x s n') (hc : n.classifier.Registered) (hu : s.update = some u) :
    u.IsAssignFree := by
  intro op hop
  rw [(hs.update u hu).1] at hop
  obtain ⟨op', hop', rfl⟩ := List.mem_map.1 hop
  rw [hs.decomposition] at hop'
  exact hc.liftable_value? hop'

namespace World
variable {w w' : World} {i : Nat} {n : Node}

theorem Step.submissions (hs : Step w w') : w.submissions <+: w'.submissions := by
  cases hs with
  | submit _ _ _ => exact List.prefix_append _ _
  | _ => exact List.prefix_rfl

theorem Steps.submissions (hs : Steps w w') : w.submissions <+: w'.submissions := by
  induction hs with
  | refl => exact List.prefix_rfl
  | tail _ hstep ih => exact ih.trans hstep.submissions

theorem Step.classifier (hs : Step w w') : w'.classifier = w.classifier := by
  cases hs <;> rfl

theorem Step.nodup_ids (hs : Step w w') (h : w'.ids.Nodup) : w.ids.Nodup := by
  obtain ⟨new, hnew⟩ := hs.submissions
  refine h.sublist ?_
  unfold Trace.ids
  rw [← hnew, List.flatMap_append]
  exact List.sublist_append_left _ _

theorem Steps.nodup_ids (hs : Steps w w') (h : w'.ids.Nodup) : w.ids.Nodup := by
  induction hs with
  | refl => exact h
  | tail _ hstep ih => exact ih (hstep.nodup_ids h)

/-- Every update that is around was committed, and no node merges one twice. -/
structure Sourced (w : World) : Prop where
  names : ∀ (i : Nat) (n : Node), w.nodes[i]? = some n → n.id = Cluster.nodeName i
  classifiers : ∀ (i : Nat) (n : Node), w.nodes[i]? = some n → n.classifier = w.classifier
  sent : ∀ e ∈ w.transit, ∀ u, e.message = .update u → u ∈ w.updates
  retained : ∀ (i : Nat) (n : Node), w.nodes[i]? = some n → ∀ (id : UpdateId) (u : Update),
    n.history.get? id = some u → u.id = id ∧ u ∈ w.updates
  merged : ∀ i, ∀ u ∈ Change.updates (w.changesAt i), u ∈ w.updates
  distinct : ∀ i, ((Change.updates (w.changesAt i)).map (·.id)).Nodup

/-- Besides, the updates leave registers to the log, as those of registered kinds do. -/
structure Informed (w : World) : Prop extends Sourced w where
  free : ∀ u ∈ w.updates, u.IsAssignFree

theorem IsNew.updates (h : w.IsNew) : w.updates = [] := by
  unfold Trace.updates
  rw [h.submissions]
  rfl

theorem IsNew.sourced (h : w.IsNew) : w.Sourced := by
  have hc (i : Nat) : Change.updates (w.changesAt i) = [] := by
    unfold Trace.changesAt
    rw [h.changes]
    rfl
  refine ⟨fun i n hi => (h.nodes i n hi).id, fun i n hi => (h.nodes i n hi).classifier, ?_, ?_, ?_,
    ?_⟩
  · rw [h.transit]
    simp
  · intro i n hi id u hg
    rw [(h.nodes i n hi).history] at hg
    cases hg
  · intro i u hi
    rw [hc] at hi
    cases hi
  · intro i
    rw [hc]
    exact .nil

theorem IsNew.informed (h : w.IsNew) : w.Informed where
  toSourced := h.sourced
  free := by
    rw [h.updates]
    simp

theorem Ordered.hasApplied (h : w.Ordered) (hi : w.nodes[i]? = some n) (id : UpdateId) :
    n.replica.hasApplied id = true ↔ ∃ u ∈ Change.updates (w.changesAt i), u.id = id :=
  (h.nodes i n hi).2.1.applied id

theorem Informed.state (h : w.Informed) (ho : w.Ordered) (hi : w.nodes[i]? = some n) :
    n.state = .ofHistory w.classifier (Change.updates (w.changesAt i))
      (w.log.take n.decisions.consumed) := by
  obtain ⟨_, hl, hd⟩ := ho.nodes i n hi
  rw [hl.state, h.classifiers i n hi, ReplicaState.replay_eq_ofHistory
    (fun u hu => h.free u (h.merged i u hu)) (h.distinct i), hd]

theorem updates_concat (t : Trace) (x : Submitted) :
    { t with submissions := t.submissions ++ [x] }.updates =
      t.updates ++ x.submission.update.toList := by
  unfold Trace.updates
  rw [List.filterMap_append]
  congr 1

theorem Sourced.advance {n' : Node} (h : w.Sourced) (es : List Change)
    (hi : w.nodes[i]? = some n) (hid : n'.id = n.id) (hc : n'.classifier = n.classifier)
    (hr : ∀ (id : UpdateId) (u : Update), n'.history.get? id = some u →
      u.id = id ∧ u ∈ w.updates)
    (hm : ∀ u ∈ Change.updates es, u ∈ w.updates)
    (hd : ((Change.updates (w.changesAt i) ++ Change.updates es).map (·.id)).Nodup) :
    { w with nodes := w.nodes.set i n', changes := w.changes ++ es.map (i, ·) }.Sourced where
  names j m hj := by
    rcases getElem?_set_node hi hj with ⟨rfl, rfl⟩ | ⟨_, hj⟩
    · exact hid.trans (h.names j n hi)
    · exact h.names j m hj
  classifiers j m hj := by
    rcases getElem?_set_node hi hj with ⟨rfl, rfl⟩ | ⟨_, hj⟩
    · exact hc.trans (h.classifiers j n hi)
    · exact h.classifiers j m hj
  sent := h.sent
  retained j m hj := by
    rcases getElem?_set_node hi hj with ⟨rfl, rfl⟩ | ⟨_, hj⟩
    · exact hr
    · exact h.retained j m hj
  merged j u hu := by
    rw [changesAt_append, Change.updates_append] at hu
    rcases List.mem_append.1 hu with hu | hu
    · exact h.merged j u hu
    · split at hu
      · exact hm u hu
      · cases hu
  distinct j := by
    rw [changesAt_append, Change.updates_append]
    split
    · next he => exact he ▸ hd
    · rw [show Change.updates [] = [] from rfl, List.append_nil]
      exact h.distinct j

theorem Sourced.carry {t new : List (Envelope Message)} (h : w.Sourced)
    (ht : Carries t new w.transit)
    (hnew : ∀ e ∈ new, ∀ u, e.message = .update u → u ∈ w.updates) :
    { w with transit := t }.Sourced where
  names := h.names
  classifiers := h.classifiers
  sent e he := by
    rcases (ht e).1 he with he | he
    · exact hnew e he
    · exact h.sent e he
  retained := h.retained
  merged := h.merged
  distinct := h.distinct

theorem Sourced.arrive {t : List (Envelope Message)} {e : Envelope Message} (h : w.Sourced)
    (ht : Carries w.transit [e] t) : { w with transit := t }.Sourced where
  names := h.names
  classifiers := h.classifiers
  sent x hx := h.sent x ((ht x).2 (.inr hx))
  retained := h.retained
  merged := h.merged
  distinct := h.distinct

theorem Sourced.commit {x : Submitted} (h : w.Sourced) :
    { w with submissions := w.submissions ++ [x] }.Sourced where
  names := h.names
  classifiers := h.classifiers
  sent e he u hu := by
    rw [updates_concat]
    exact List.mem_append_left _ (h.sent e he u hu)
  retained i n hi id u hg := by
    rw [updates_concat]
    obtain ⟨hid, hu⟩ := h.retained i n hi id u hg
    exact ⟨hid, List.mem_append_left _ hu⟩
  merged i u hu := by
    rw [updates_concat]
    exact List.mem_append_left _ (h.merged i u hu)
  distinct := h.distinct

theorem updates_changes (n : Node) (m : Message) :
    Change.updates (n.changes m) = [] ∨
      ∃ u, m = .update u ∧ Change.updates (n.changes m) = [u] ∧ ¬ n.replica.hasApplied u.id := by
  cases m with
  | update u =>
    unfold Node.changes
    dsimp only
    split
    · exact .inl rfl
    · next ha => exact .inr ⟨u, rfl, rfl, ha⟩
  | decided d => exact .inl (Change.updates_map_apply _)
  | join x => exact .inl rfl
  | frontier x f => exact .inl rfl

theorem Sourced.distinct_concat (h : w.Sourced) (ho : w.Ordered) (hi : w.nodes[i]? = some n)
    {u : Update} (hn : ¬ n.replica.hasApplied u.id) :
    ((Change.updates (w.changesAt i) ++ [u]).map (·.id)).Nodup := by
  rw [List.map_append]
  refine List.nodup_append.2 ⟨h.distinct i, List.nodup_singleton _, ?_⟩
  intro a ha b hb he
  obtain ⟨v, hv, rfl⟩ := List.mem_map.1 ha
  rw [List.map_singleton, List.mem_singleton] at hb
  exact hn ((ho.hasApplied hi _).2 ⟨v, hv, he.trans hb⟩)

theorem Sourced.not_applied (h : w.Sourced) (ho : w.Ordered) (hi : w.nodes[i]? = some n)
    {x : Submitted} {u : Update} (hu : x.submission.update = some u)
    (hids : ({ w.toTrace with submissions := w.submissions ++ [x] } : Trace).ids.Nodup) :
    ¬ n.replica.hasApplied u.id := by
  intro ha
  obtain ⟨v, hv, he⟩ := (ho.hasApplied hi u.id).1 ha
  have hn := Trace.nodup_updates hids
  rw [updates_concat, hu, Option.toList_some, List.map_append] at hn
  apply List.disjoint_of_nodup_append hn (List.mem_map_of_mem (h.merged i v hv))
  rw [he]
  exact List.mem_map_of_mem (List.mem_singleton_self u)

theorem Sourced.mem_of_retained (h : w.Sourced) {u : Update} (hn : n ∈ w.nodes)
    (hu : u ∈ n.retainedUpdates) : u ∈ w.updates := by
  obtain ⟨i, hi⟩ := List.getElem?_of_mem hn
  obtain ⟨id, hg⟩ := CausalHistory.mem_retained.1 hu
  exact (h.retained i n hi id u hg).2

theorem Sourced.mem_of_welcome (h : w.Sourced) {leader : NodeId} {e : Envelope Message}
    {u : Update} (he : e ∈ w.welcome leader n) (hu : e.message = .update u) : u ∈ w.updates := by
  rcases message_welcome he with hm | ⟨m, hm, v, hv, he⟩ | ⟨_, _, hm⟩
  · cases hm.symm.trans hu
  · cases he.symm.trans hu
    exact h.mem_of_retained hm hv
  · cases hm.symm.trans hu

theorem Sourced.deliver {e : Envelope Message} {t : List (Envelope Message)} (h : w.Sourced)
    (ho : w.Ordered) (hi : w.nodes[i]? = some n) (ht : Carries w.transit [e] t) :
    { w with
      nodes := w.nodes.set i (n.receive e.message).2
      transit := t
      changes := w.changes ++ (n.changes e.message).map (i, ·) }.Sourced := by
  have he : e ∈ w.transit := (ht e).2 (.inl (List.mem_singleton_self e))
  obtain ⟨hid, _, hclassifier, _⟩ := n.receive_rest e.message
  have hchanges := updates_changes n e.message
  have hretained : ∀ (id : UpdateId) (u : Update),
      (n.receive e.message).2.history.get? id = some u → u.id = id ∧ u ∈ w.updates := by
    intro id u hg
    rcases Node.get?_of_get?_receive hg with hg | ⟨hm, hid⟩
    · exact h.retained i n hi id u hg
    · exact ⟨hid, h.sent e he u hm⟩
  apply (h.arrive ht).advance _ hi hid hclassifier hretained
  · intro u hu
    rcases hchanges with hnil | ⟨v, hv, hone, _⟩
    · rw [hnil] at hu
      cases hu
    · rw [hone, List.mem_singleton] at hu
      exact hu ▸ h.sent e he v hv
  · rcases hchanges with hnil | ⟨v, _, hone, ha⟩
    · rw [hnil, List.append_nil]
      exact h.distinct i
    · rw [hone]
      exact h.distinct_concat ho hi ha

theorem Sourced.submit {n' : Node} {x : Transaction} {s : Submission}
    {t : List (Envelope Message)} (h : w.Sourced) (ho : w.Ordered) (hi : w.nodes[i]? = some n)
    (hs : n.Submits x s n')
    (ht : Carries t (s.update.toList.flatMap fun u => w.toOthers n (.update u)) w.transit)
    (hids : ({ w.toTrace with
      submissions := w.submissions ++ [Submitted.mk x s] } : Trace).ids.Nodup) :
    { w with
      nodes := w.nodes.set i n'
      transit := t
      submissions := w.submissions ++ [Submitted.mk x s]
      changes := w.changes ++ (s.update.toList.map Change.merge).map (i, ·) }.Sourced := by
  have hcommit := h.commit (x := ⟨x, s⟩)
  have hmem : ∀ u, s.update = some u → u ∈ ({ w with
      submissions := w.submissions ++ [Submitted.mk x s] } : World).updates := by
    intro u hu
    rw [updates_concat]
    exact List.mem_append_right _ (Option.mem_toList.2 hu)
  have hsent : { w with
      submissions := w.submissions ++ [Submitted.mk x s], transit := t }.Sourced := by
    apply hcommit.carry ht
    intro e he u hu
    obtain ⟨v, hv, he⟩ := List.mem_flatMap.1 he
    rw [toOthers_message he] at hu
    cases hu
    exact hmem u (Option.mem_toList.1 hv)
  apply hsent.advance (s.update.toList.map .merge) hi hs.kept.1 hs.kept.2.2.1
  · intro id u hg
    rcases hs.get?_of_get?_history hg with hg | ⟨hu, hid⟩
    · exact hcommit.retained i n hi id u hg
    · exact ⟨hid, hmem u hu⟩
  · intro u hu
    rw [Change.updates_map_merge] at hu
    exact hmem u (Option.mem_toList.1 hu)
  · rw [Change.updates_map_merge]
    cases hu : s.update with
    | none =>
      rw [Option.toList_none, List.append_nil]
      exact h.distinct i
    | some u => exact h.distinct_concat ho hi (h.not_applied ho hi hu hids)

theorem Sourced.complete {q : QueuedProposal} {outcome : Except NodeError Decision}
    {n' : Node} {result : CommitResult} {t : List (Envelope Message)} (h : w.Sourced)
    (hi : w.nodes[q.origin]? = some n)
    (hc : n.complete q.proposal.id outcome = .ok (result, n'))
    (ht : Carries t (w.report n outcome) w.transit) :
    { w with
      nodes := w.nodes.set q.origin n'
      transit := t
      changes := w.changes ++
        (outcome.toOption.toList.flatMap fun d => n.changes (.decided d)).map
          (q.origin, ·) }.Sourced := by
  obtain ⟨hid, hclassifier, _, _, hhistory⟩ := Node.complete_rest hc
  have hes := n.updates_changes_outcome outcome
  have hsent : { w with transit := t }.Sourced := by
    apply h.carry ht
    intro e he u hu
    cases outcome with
    | ok d =>
      rw [toOthers_message he] at hu
      cases hu
    | error reason => cases he
  apply hsent.advance _ hi hid hclassifier (hhistory.symm ▸ h.retained _ n hi)
  · rw [hes]
    simp
  · rw [hes, List.append_nil]
    exact h.distinct q.origin

theorem Sourced.collect (h : w.Sourced) {collected : Nat} :
    { w with nodes := w.nodes.map fun n : Node => n.collectGarbage.2, collected }.Sourced where
  names i n hi := by
    rw [List.getElem?_map] at hi
    obtain ⟨m, hm, rfl⟩ := Option.map_eq_some_iff.1 hi
    exact h.names i m hm
  classifiers i n hi := by
    rw [List.getElem?_map] at hi
    obtain ⟨m, hm, rfl⟩ := Option.map_eq_some_iff.1 hi
    exact h.classifiers i m hm
  sent := h.sent
  retained i n hi id u hg := by
    rw [List.getElem?_map] at hi
    obtain ⟨m, hm, rfl⟩ := Option.map_eq_some_iff.1 hi
    exact h.retained i m hm id u (CausalHistory.get?_of_get?_prune hg)
  merged := h.merged
  distinct := h.distinct

theorem Sourced.join {leader : NodeId} {late : Prop} {t : List (Envelope Message)}
    (h : w.Sourced) (ht : Carries t (w.welcome leader w.newcomer) w.transit) :
    { w with nodes := w.nodes ++ [w.newcomer], transit := t, late }.Sourced where
  names i n hi := by
    rcases getElem?_concat_node hi with ⟨rfl, rfl⟩ | hi
    · exact w.newcomer_isNew.id
    · exact h.names i n hi
  classifiers i n hi := by
    rcases getElem?_concat_node hi with ⟨rfl, rfl⟩ | hi
    · exact w.newcomer_isNew.classifier
    · exact h.classifiers i n hi
  sent := (h.carry ht fun _ he _ hu => h.mem_of_welcome he hu).sent
  retained i n hi id u hg := by
    rcases getElem?_concat_node hi with ⟨rfl, rfl⟩ | hi
    · rw [w.newcomer_isNew.history] at hg
      cases hg
    · exact h.retained i n hi id u hg
  merged := h.merged
  distinct := h.distinct

theorem Sourced.step (h : w.Sourced) (ho : w.Ordered) (hs : Step w w') (hids : w'.ids.Nodup) :
    w'.Sourced := by
  cases hs with
  | send hnew ht =>
    apply h.carry ht
    intro e he u hu
    have hm := (hnew e he).2
    rw [hu] at hm
    obtain ⟨n, hn, hr⟩ := hm
    exact h.mem_of_retained hn hr
  | discard _ ht => exact h.arrive ht
  | deliver hi _ ht => exact h.deliver ho hi ht
  | submit hi hsub ht =>
    have hs := h.submit ho hi (Node.submit_eq_ok hsub) ht hids
    exact ⟨hs.names, hs.classifiers, hs.sent, hs.retained, hs.merged, hs.distinct⟩
  | decide _ _ => exact ⟨h.names, h.classifiers, h.sent, h.retained, h.merged, h.distinct⟩
  | complete _ hi hcomplete ht =>
    have hs := h.complete hi hcomplete ht
    exact ⟨hs.names, hs.classifiers, hs.sent, hs.retained, hs.merged, hs.distinct⟩
  | ignore _ _ _ => exact ⟨h.names, h.classifiers, h.sent, h.retained, h.merged, h.distinct⟩
  | collect => exact h.collect
  | join ht => exact h.join ht

theorem Informed.step (h : w.Informed) (ho : w.Ordered) (hc : w.classifier.Registered)
    (hs : Step w w') (hids : w'.ids.Nodup) : w'.Informed where
  toSourced := h.toSourced.step ho hs hids
  free := by
    cases hs with
    | @submit i n n' x s ids ids' t hi hsub ht =>
      intro u hu
      have hu : u ∈ ({ w.toTrace with
        submissions := w.submissions ++ [⟨x, s⟩] } : Trace).updates := hu
      rw [updates_concat] at hu
      rcases List.mem_append.1 hu with hu | hu
      · exact h.free u hu
      · exact (Node.submit_eq_ok hsub).isAssignFree ((h.classifiers i n hi).symm ▸ hc)
          (Option.mem_toList.1 hu)
    | _ => exact h.free

end World
end Confluence
