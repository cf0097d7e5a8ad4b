import Confluence.Proofs.Cluster.Simulation
import Confluence.Proofs.Consensus.Follow

namespace Confluence

theorem Node.receive_follows {n : Node} {m : Message} {log : List Decision}
    (h : n.decisions.Follows log) (hlog : Decision.IsLog log) (hm : ∀ d, m = .decided d → d ∈ log) :
    (n.receive m).2.decisions.Follows log ∧
      log.take (n.receive m).2.decisions.consumed =
        log.take n.decisions.consumed ++ Change.decisions (n.changes m) := by
  rw [receive_decisions]
  cases m with
  | decided d =>
    obtain ⟨hf, ht, _⟩ := h.accept hlog (hm d rfl)
    refine ⟨hf, ht.trans ?_⟩
    unfold changes
    rw [Change.decisions_map_apply]
  | update u =>
    refine ⟨h, ?_⟩
    unfold changes
    dsimp only
    split <;> exact (List.append_nil _).symm
  | _ => exact ⟨h, (List.append_nil _).symm⟩

/-- The changes of the state of the node at a position. -/
def Trace.changesAt (t : Trace) (index : Nat) : List Change :=
  (t.changes.filter fun e => e.1 = index).map (·.2)

theorem Node.complete_follows {n n' : Node} {id : ProposalId} {outcome : Except NodeError Decision}
    {result : CommitResult} {log : List Decision} (h : n.decisions.Follows log)
    (hlog : Decision.IsLog log) (hd : ∀ d, outcome = .ok d → d ∈ log)
    (hc : n.complete id outcome = .ok (result, n')) :
    n'.decisions.Follows log ∧
      log.take n'.decisions.consumed = log.take n.decisions.consumed ++
        Change.decisions (outcome.toOption.toList.flatMap fun d => n.changes (.decided d)) := by
  rw [complete_decisions hc]
  cases outcome with
  | ok d =>
    obtain ⟨hf, htake, _⟩ := h.accept hlog (hd d rfl)
    rw [Except.toOption, Option.toList_some, List.flatMap_singleton]
    exact ⟨hf, htake.trans (congrArg _ (Change.decisions_map_apply _).symm)⟩
  | error reason => exact ⟨h, (List.append_nil _).symm⟩

theorem Node.Lived.complete {n n' : Node} {es : List Change} {id : ProposalId}
    {outcome : Except NodeError Decision} {result : CommitResult} (h : n.Lived es)
    (hc : n.complete id outcome = .ok (result, n')) :
    n'.Lived (es ++ outcome.toOption.toList.flatMap fun d => n.changes (.decided d)) := by
  have hcase := (complete_eq_ok hc).2
  have hl : Node.Lived { n with pending := n.pending.erase id } es := ⟨h.state, h.applied⟩
  cases outcome with
  | ok d =>
    rw [Except.toOption, Option.toList_some, List.flatMap_singleton, hcase.2]
    exact hl.acceptDecision d
  | error reason =>
    have hnil : es ++ (Except.error reason : Except NodeError Decision).toOption.toList.flatMap
        (fun d => n.changes (.decided d)) = es := List.append_nil es
    rw [hnil, hcase.2]
    exact hl

theorem Node.IsNew.follows {n : Node} {id : NodeId} {c : Classifier} (h : n.IsNew id c)
    (log : List Decision) :
    n.decisions.Follows log ∧ n.Lived [] ∧
      Change.decisions [] = log.take n.decisions.consumed := by
  rw [h.decisions]
  refine ⟨DecisionLog.follows_empty _, ⟨h.state, ?_⟩, List.take_zero.symm⟩
  unfold Replica.hasApplied
  rw [h.applied]
  simp [Change.updates]

namespace World

/-- All decisions are from one log, every node has lived through its changes, and the decisions among
these are a prefix of the log. -/
structure Ordered (w : World) : Prop where
  isLog : Decision.IsLog w.log
  sent : ∀ e ∈ w.transit, ∀ d, e.message = .decided d → d ∈ w.log
  decided : ∀ q d, (q, .ok d) ∈ w.outcomes → d ∈ w.log
  nodes : ∀ (i : Nat) (n : Node), w.nodes[i]? = some n → n.decisions.Follows w.log ∧
    n.Lived (w.changesAt i) ∧
    Change.decisions (w.changesAt i) = w.log.take n.decisions.consumed
  positions : ∀ e ∈ w.changes, e.1 < w.nodes.length

variable {w w' : World} {i j : Nat} {n n' m : Node} {t new : List (Envelope Message)}

theorem IsNew.ordered (h : w.IsNew) : w.Ordered where
  isLog := h.log ▸ Decision.isLog_nil
  sent e he := by rw [h.transit] at he; cases he
  decided q d hq := by rw [h.outcomes] at hq; cases hq
  nodes i n hi := by
    have hc : w.changesAt i = [] := by
      unfold Trace.changesAt
      rw [h.changes]
      rfl
    rw [hc, h.log]
    exact (h.nodes i n hi).follows []
  positions e he := by rw [h.changes] at he; cases he

theorem getElem?_set_node (hi : w.nodes[i]? = some n) (hj : (w.nodes.set i n')[j]? = some m) :
    (j = i ∧ m = n') ∨ (j ≠ i ∧ w.nodes[j]? = some m) := by
  by_cases he : j = i
  · subst he
    rw [Cluster.getElem?_set_self' hi] at hj
    exact .inl ⟨rfl, (Option.some.inj hj).symm⟩
  · rw [List.getElem?_set_ne (Ne.symm he)] at hj
    exact .inr ⟨he, hj⟩

theorem getElem?_concat_node {l : List Node} (hj : (l ++ [n])[j]? = some m) :
    (j = l.length ∧ m = n) ∨ l[j]? = some m := by
  rcases Nat.lt_or_ge j l.length with hlt | hge
  · rw [List.getElem?_append_left hlt] at hj
    exact .inr hj
  · rw [List.getElem?_append_right hge, List.getElem?_singleton] at hj
    split at hj
    · cases hj
      exact .inl ⟨by omega, rfl⟩
    · cases hj

theorem changesAt_append {t : Trace} {es : List Change} (i j : Nat) :
    { t with changes := t.changes ++ es.map (i, ·) }.changesAt j =
      t.changesAt j ++ if i = j then es else [] := by
  unfold Trace.changesAt
  rw [List.filter_append, List.map_append]
  congr 1
  by_cases he : i = j <;> simp [he, List.filter_map, Function.comp_def]

theorem Ordered.advance (h : w.Ordered) (es : List Change) (hi : w.nodes[i]? = some n)
    (hf : n'.decisions.Follows w.log) (hl : n'.Lived (w.changesAt i ++ es))
    (hes : w.log.take n'.decisions.consumed =
      w.log.take n.decisions.consumed ++ Change.decisions es) :
    { w with nodes := w.nodes.set i n', changes := w.changes ++ es.map (i, ·) }.Ordered where
  isLog := h.isLog
  sent := h.sent
  decided := h.decided
  nodes j m hj := by
    rw [changesAt_append]
    rcases getElem?_set_node hi hj with ⟨rfl, rfl⟩ | ⟨hne, hj⟩
    · rw [if_pos rfl, Change.decisions_append, (h.nodes j n hi).2.2]
      exact ⟨hf, hl, hes.symm⟩
    · rw [if_neg (Ne.symm hne), List.append_nil]
      exact h.nodes j m hj
  positions e he := by
    rw [List.length_set]
    rcases List.mem_append.1 he with he | he
    · exact h.positions e he
    · obtain ⟨d, _, rfl⟩ := List.mem_map.1 he
      exact (List.getElem?_eq_some_iff.1 hi).1

theorem Ordered.carry (h : w.Ordered) (ht : Carries t new w.transit)
    (hnew : ∀ e ∈ new, ∀ d, e.message = .decided d → d ∈ w.log) :
    { w with transit := t }.Ordered where
  isLog := h.isLog
  sent e he := by
    rcases (ht e).1 he with he | he
    · exact hnew e he
    · exact h.sent e he
  decided := h.decided
  nodes := h.nodes
  positions := h.positions

theorem Ordered.arrive (h : w.Ordered) {e : Envelope Message} (ht : Carries w.transit [e] t) :
    { w with transit := t }.Ordered where
  isLog := h.isLog
  sent x hx := h.sent x ((ht x).2 (.inr hx))
  decided := h.decided
  nodes := h.nodes
  positions := h.positions

theorem toOthers_message {e : Envelope Message} {m : Message} (he : e ∈ w.toOthers n m) :
    e.message = m := by
  obtain ⟨_, _, rfl⟩ := List.mem_map.1 he
  rfl

theorem message_welcome {leader : NodeId} {e : Envelope Message} (he : e ∈ w.welcome leader n) :
    e.message = n.joinAnnouncement ∨
      (∃ m ∈ w.nodes, ∃ u ∈ m.retainedUpdates, e.message = .update u) ∨
      ∃ d ∈ w.log, e.message = .decided d := by
  rcases List.mem_append.1 he with he | he
  · rcases List.mem_append.1 he with he | he
    · exact .inl (toOthers_message he)
    · obtain ⟨r, hr, rfl⟩ := List.mem_map.1 he
      obtain ⟨m, hm, hr⟩ := List.mem_flatMap.1 hr
      obtain ⟨u, hu, rfl⟩ := List.mem_map.1 hr
      exact .inr (.inl ⟨m, hm, u, hu, rfl⟩)
  · obtain ⟨d, hd, rfl⟩ := List.mem_map.1 he
    exact .inr (.inr ⟨d, hd, rfl⟩)

theorem mem_welcome_decided {leader : NodeId} {e : Envelope Message} {d : Decision}
    (he : e ∈ w.welcome leader n) (hd : e.message = .decided d) : d ∈ w.log := by
  rcases message_welcome he with hm | ⟨_, _, _, _, hm⟩ | ⟨d', hd', hm⟩
  · cases hm.symm.trans hd
  · cases hm.symm.trans hd
  · cases hm.symm.trans hd
    exact hd'

theorem Ordered.changesAt_of_le (h : w.Ordered) (hi : w.nodes.length ≤ i) : w.changesAt i = [] := by
  unfold Trace.changesAt
  rw [List.map_eq_nil_iff, List.filter_eq_nil_iff]
  intro e he
  have := h.positions e he
  simp only [decide_eq_true_eq]
  omega

theorem Ordered.submit {x : Transaction} {s : Submission} (h : w.Ordered)
    (hi : w.nodes[i]? = some n) (hs : n.Submits x s n')
    (ht : Carries t (s.update.toList.flatMap fun u => w.toOthers n (.update u)) w.transit) :
    { w with
      nodes := w.nodes.set i n'
      transit := t
      changes := w.changes ++ (s.update.toList.map Change.merge).map (i, ·) }.Ordered := by
  have hdec : n'.decisions = n.decisions := hs.kept.2.2.2
  obtain ⟨hf, hl, _⟩ := h.nodes i n hi
  have hc : { w with transit := t }.Ordered := by
    apply h.carry ht
    intro e he d hd
    obtain ⟨u, _, he⟩ := List.mem_flatMap.1 he
    rw [toOthers_message he] at hd
    cases hd
  apply hc.advance (s.update.toList.map .merge) hi (hdec ▸ hf) (hl.submit hs)
  rw [Change.decisions_map_merge, List.append_nil, hdec]

theorem Ordered.decide {log : List Decision} {results : List (Except NodeError Decision)}
    (h : w.Ordered) (hdec : w.Decides log results) :
    { w with log, queued := [], outcomes := w.queued.zip results }.Ordered where
  isLog := hdec.isLog
  sent e he d hd := hdec.grows.subset (h.sent e he d hd)
  decided q d hq := by
    obtain ⟨i, hi⟩ := List.getElem?_of_mem hq
    obtain ⟨hqi, hr⟩ := List.getElem?_zip_eq_some.1 hi
    exact (hdec.decided i q d hqi hr).1
  nodes i n hi := by
    obtain ⟨hf, hl, ha⟩ := h.nodes i n hi
    refine ⟨hf.grow hdec.grows, hl, ?_⟩
    obtain ⟨new, rfl⟩ := hdec.grows
    rw [List.take_append_of_le_length hf.consumed_le]
    exact ha
  positions := h.positions

theorem Ordered.complete {q : QueuedProposal} {outcome : Except NodeError Decision}
    {rest : List (QueuedProposal × Except NodeError Decision)} {result : CommitResult}
    (h : w.Ordered) (hout : w.outcomes = (q, outcome) :: rest)
    (hi : w.nodes[q.origin]? = some n) (hc : n.complete q.proposal.id outcome = .ok (result, n'))
    (ht : Carries t (w.report n outcome) w.transit) :
    { w with
      nodes := w.nodes.set q.origin n'
      transit := t
      outcomes := rest
      changes := w.changes ++
        (outcome.toOption.toList.flatMap fun d => n.changes (.decided d)).map
          (q.origin, ·) }.Ordered := by
  have hd : ∀ d, outcome = .ok d → d ∈ w.log := by
    rintro d rfl
    exact h.decided q d (hout ▸ List.mem_cons_self)
  obtain ⟨hf, hl, _⟩ := h.nodes _ n hi
  obtain ⟨hf', htake⟩ := Node.complete_follows hf h.isLog hd hc
  have hsent : { w with transit := t }.Ordered := by
    apply h.carry ht
    intro e he d hm
    cases outcome with
    | ok d' =>
      rw [toOthers_message he] at hm
      cases hm
      exact hd d rfl
    | error reason => cases he
  have ha := hsent.advance _ hi hf' (hl.complete hc) htake
  exact ⟨ha.isLog, ha.sent, fun q d hq => h.decided q d (hout ▸ List.mem_cons_of_mem _ hq),
    ha.nodes, ha.positions⟩

theorem Ordered.collect (h : w.Ordered) {collected : Nat} :
    { w with nodes := w.nodes.map fun n : Node => n.collectGarbage.2, collected }.Ordered where
  isLog := h.isLog
  sent := h.sent
  decided := h.decided
  nodes i n hi := by
    rw [List.getElem?_map] at hi
    obtain ⟨m, hm, rfl⟩ := Option.map_eq_some_iff.1 hi
    obtain ⟨hf, hl, hc⟩ := h.nodes i m hm
    exact ⟨hf, ⟨hl.state, hl.applied⟩, hc⟩
  positions e he := by
    rw [List.length_map]
    exact h.positions e he

theorem Ordered.join {leader : NodeId} {late : Prop} (h : w.Ordered)
    (ht : Carries t (w.welcome leader w.newcomer) w.transit) :
    { w with nodes := w.nodes ++ [w.newcomer], transit := t, late }.Ordered where
  isLog := h.isLog
  sent := (h.carry ht fun _ he _ hd => mem_welcome_decided he hd).sent
  decided := h.decided
  nodes i n hi := by
    rcases getElem?_concat_node hi with ⟨rfl, rfl⟩ | hi
    · have hnone : Trace.changesAt { w.toTrace with late } w.nodes.length = [] :=
        h.changesAt_of_le (Nat.le_refl _)
      rw [hnone]
      exact w.newcomer_isNew.follows w.log
    · exact h.nodes i n hi
  positions e he := by
    rw [List.length_append]
    exact Nat.lt_add_right _ (h.positions e he)

theorem Ordered.step (h : w.Ordered) (hs : Step w w') : w'.Ordered := by
  cases hs with
  | send hnew ht =>
    apply h.carry ht
    intro e he d hd
    have hm := (hnew e he).2
    rw [hd] at hm
    exact hm
  | discard _ ht => exact h.arrive ht
  | @deliver i n e t hi hid ht =>
    have he : e ∈ w.transit := (ht e).2 (.inl (List.mem_singleton_self e))
    obtain ⟨hf, hl, _⟩ := h.nodes i n hi
    obtain ⟨hf', htake⟩ := Node.receive_follows hf h.isLog (h.sent e he)
    exact (h.arrive ht).advance _ hi hf' (hl.receive e.message) htake
  | submit hi hsub ht =>
    have hs := h.submit hi (Node.submit_eq_ok hsub) ht
    exact ⟨hs.isLog, hs.sent, hs.decided, hs.nodes, hs.positions⟩
  | decide _ hdec => exact h.decide hdec
  | complete hout hi hc ht =>
    have hs := h.complete hout hi hc ht
    exact ⟨hs.isLog, hs.sent, hs.decided, hs.nodes, hs.positions⟩
  | ignore hout _ _ =>
    exact ⟨h.isLog, h.sent, fun q d hq => h.decided q d (hout ▸ List.mem_cons_of_mem _ hq),
      h.nodes, h.positions⟩
  | collect => exact h.collect
  | join ht => exact h.join ht

theorem Ordered.steps (h : w.Ordered) (hs : Steps w w') : w'.Ordered := by
  induction hs with
  | refl => exact h
  | tail _ hs ih => exact ih.step hs

end World

namespace Chronicle
variable {config : ClusterConfig} {classifier : Classifier} {ids : IdSupply}
  {commands : List Cluster.Command} {h : Chronicle}

theorem ordered (hp : (new config classifier ids).performAll commands = .ok h) :
    h.world.Ordered :=
  (world_new config classifier ids).ordered.steps
    (performAll_steps (sound_new config classifier ids) hp).2

end Chronicle
end Confluence
