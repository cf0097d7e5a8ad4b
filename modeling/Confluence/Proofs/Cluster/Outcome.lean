import Mathlib.Data.List.Perm.Basic
import Confluence.Proofs.Cluster.Convergence

namespace Confluence

namespace Submitted

def lifted (s : Submitted) : List Operation := s.submission.update.toList.flatMap (·.operations)

def proposed (s : Submitted) : List Operation := s.submission.proposal.toList.flatMap (·.operations)

end Submitted

theorem Node.Submits.perm {n n' : Node} {t : Transaction} {s : Submission}
    (h : n.Submits t s n') : (Submitted.lifted ⟨t, s⟩ ++ Submitted.proposed ⟨t, s⟩).Perm t := by
  have hl : Submitted.lifted ⟨t, s⟩ = s.decomposition.liftable.map (·.operation) := by
    unfold Submitted.lifted
    cases hu : s.update with
    | none => simp [(h.noUpdate hu).1]
    | some u => simp [(h.update u hu).1]
  have hp : Submitted.proposed ⟨t, s⟩ = s.decomposition.coordinated.map (·.operation) := by
    unfold Submitted.proposed
    cases hu : s.proposal with
    | none => simp [(h.noProposal hu).1]
    | some p => simp [(h.proposal p hu).1]
  rw [hl, hp, h.decomposition]
  exact n.classifier.decompose_perm ..

namespace World
variable {w w' : World}

def Split (w : World) : Prop := ∀ s ∈ w.submissions, (s.lifted ++ s.proposed).Perm s.transaction

theorem Split.step (h : w.Split) (hs : Step w w') : w'.Split := by
  cases hs with
  | @submit i n n' x s ids ids' t hi hsub ht =>
    intro y hy
    rcases List.mem_append.1 hy with hy | hy
    · exact h y hy
    · rw [List.mem_singleton.1 hy]
      exact (Node.submit_eq_ok hsub).perm
  | _ => exact h

theorem Steps.split (hs : Steps w w') (hw : w.IsNew) : w'.Split := by
  induction hs with
  | refl =>
    intro s hs
    rw [hw.submissions] at hs
    cases hs
  | tail _ hs ih => exact ih.step hs

theorem Invariant.values_eq (h : w.Invariant) (k : Key) :
    (Operation.payloadsOn k (w.updates.flatMap (·.operations) ++
      w.log.flatMap (·.proposal.operations))).filterMap Payload.value? =
      (Operation.payloadsOn k (w.log.flatMap (·.proposal.operations))).filterMap
        Payload.value? := by
  have hfree : (Operation.payloadsOn k (w.updates.flatMap (·.operations))).filterMap
      Payload.value? = [] := by
    rw [← Effect.payloads_onKey_flatMap (Effect.payloads_onKey_update k w.classifier)]
    exact Effect.assigned_updates h.informed.free k w.classifier
  rw [Operation.payloadsOn_append, List.filterMap_append, hfree, List.nil_append]

end World

namespace Chronicle

def hasNoEffect (h : Chronicle) (p : Proposal) : Bool :=
  (match h.cluster.result? p.id with
    | some (.failed _ _) => true
    | _ => false) ||
  h.cluster.queued.any fun q => q.proposal.id = p.id

/-- The operations of a submission, except those of a proposal that has failed or is queued. -/
def effectiveOf (h : Chronicle) (s : Submitted) : List Operation :=
  match s.submission.proposal with
  | some p => if h.hasNoEffect p then s.transaction.diff p.operations else s.transaction
  | none => s.transaction

/-- All operations that were submitted, except those of proposals that have failed or are queued. -/
def effective (h : Chronicle) : List Operation := h.submissions.flatMap h.effectiveOf

end Chronicle

theorem diff_perm_of_append {α : Type} [DecidableEq α] {l k t : List α} (h : (l ++ k).Perm t) :
    (t.diff k).Perm l := by
  have hc : ∀ x ∈ k, k.count x ≤ t.count x := by
    intro x _
    rw [← h.count_eq, List.count_append]
    exact Nat.le_add_left _ _
  apply (List.perm_append_left_iff k).1
  exact (List.subperm_append_diff_self_of_count_le hc).trans
    (h.symm.trans List.perm_append_comm)

namespace Chronicle
variable {config : ClusterConfig} {classifier : Classifier} {ids : IdSupply}
  {commands : List Cluster.Command} {h : Chronicle}

theorem effectiveOf_perm {s : Submitted} (hs : (s.lifted ++ s.proposed).Perm s.transaction) :
    (h.effectiveOf s).Perm (s.lifted ++
      (s.submission.proposal.filter (!h.hasNoEffect ·)).toList.flatMap (·.operations)) := by
  unfold effectiveOf
  unfold Submitted.proposed at hs
  cases hp : s.submission.proposal with
  | none =>
    rw [hp] at hs
    exact hs.symm
  | some p =>
    rw [hp, Option.toList_some, List.flatMap_singleton] at hs
    by_cases hn : h.hasNoEffect p = true
    · have hf : (some p).filter (!h.hasNoEffect ·) = none := by simp [Option.filter, hn]
      rw [hf, Option.toList_none, List.flatMap_nil, List.append_nil]
      dsimp only
      rw [if_pos hn]
      exact diff_perm_of_append hs
    · have hf : (some p).filter (!h.hasNoEffect ·) = some p := by simp [Option.filter, hn]
      rw [hf, Option.toList_some, List.flatMap_singleton]
      dsimp only
      rw [if_neg hn]
      exact hs.symm

theorem flatMap_lifted (l : List Submitted) :
    l.flatMap Submitted.lifted = (l.filterMap fun s => s.submission.update).flatMap (·.operations) := by
  induction l with
  | nil => rfl
  | cons s l ih =>
    rw [List.flatMap_cons, ih]
    unfold Submitted.lifted
    cases hu : s.submission.update <;> simp [hu]

theorem flatMap_proposed (f : Proposal → Bool) (l : List Submitted) :
    (l.flatMap fun s => (s.submission.proposal.filter f).toList.flatMap (·.operations)) =
      ((l.filterMap fun s => s.submission.proposal).filter f).flatMap (·.operations) := by
  induction l with
  | nil => rfl
  | cons s l ih =>
    rw [List.flatMap_cons, ih]
    cases hp : s.submission.proposal with
    | none => simp [hp]
    | some p => cases hf : f p <;> simp [hp, hf, Option.filter]

/-- The proposals that have effect are those in the log. -/
theorem proposals_perm (hw : h.world.Invariant) (hids : h.ids.Nodup) :
    (h.world.proposals.filter (!h.hasNoEffect ·)).Perm
      (h.cluster.sequencer.log.map (·.proposal)) := by
  have hawait : h.world.awaiting = h.cluster.queued := List.append_nil _
  have hlog : (h.cluster.sequencer.log.map (·.proposal)).Nodup := by
    apply List.Nodup.of_map (·.id)
    rw [List.map_map]
    exact hw.ordered.isLog.ids
  have hprop := (List.Nodup.of_map _ (@Trace.nodup_proposals h.trace hids)).filter
    (!h.hasNoEffect ·)
  refine (List.perm_ext_iff_of_nodup hprop hlog).2 fun p => ?_
  rw [List.mem_filter, List.mem_map]
  constructor
  · rintro ⟨hp, hn⟩
    rcases hw.accounted.settled p hp with ⟨q, hq, rfl⟩ | ⟨result, hr, hs⟩
    · rw [hawait] at hq
      have : h.cluster.queued.any (fun q' => q'.proposal.id = q.proposal.id) = true :=
        List.any_eq_true.2 ⟨q, hq, decide_eq_true rfl⟩
      simp [hasNoEffect, this] at hn
    · have hr' : h.cluster.result? p.id = some result := hr
      cases result with
      | committed scope =>
        cases scope with
        | localOnly => cases hs
        | withConsensus slot =>
          obtain ⟨d, hd, he, _⟩ := hs
          exact ⟨d, hd, he⟩
      | failed reason retained => simp [hasNoEffect, hr'] at hn
  · rintro ⟨d, hd, rfl⟩
    have hp := hw.accounted.logged d hd
    refine ⟨hp, ?_⟩
    have hqueued : ∀ q ∈ h.cluster.queued, q.proposal.id ≠ d.proposal.id := fun q hq he =>
      hw.accounted.unlogged q hq d hd he.symm
    have hany : h.cluster.queued.any (fun q => q.proposal.id = d.proposal.id) = false := by
      simpa using hqueued
    rcases hw.accounted.settled _ hp with ⟨q, hq, he⟩ | ⟨result, hr, hs⟩
    · rw [hawait] at hq
      exact absurd (congrArg _ he) (hqueued q hq)
    · have hr' : h.cluster.result? d.proposal.id = some result := hr
      cases result with
      | committed scope => simp [hasNoEffect, hr', hany]
      | failed reason retained => exact absurd rfl (hs d hd)

theorem effective_perm (hw : h.world.Invariant) (hsplit : h.world.Split) (hids : h.ids.Nodup) :
    h.effective.Perm (h.world.updates.flatMap (·.operations) ++
      h.cluster.sequencer.log.flatMap (·.proposal.operations)) := by
  have heach := List.Perm.flatMap_left h.submissions
    (fun s hs => @effectiveOf_perm h s (hsplit s hs))
  apply heach.trans
  apply (List.flatMap_append_perm ..).symm.trans
  rw [flatMap_lifted, flatMap_proposed]
  refine List.Perm.append_left _ (((proposals_perm hw hids).flatMap_right _).trans ?_)
  rw [List.flatMap_map]

/-- No operation is lost and none is duplicated. Once nothing is on its way, every component of every
key of every node is made of the operations that were submitted, except those of proposals that
have failed or are queued; the register by the order of the log. -/
theorem state_of_isQuiescent (hc : classifier.Registered)
    (hp : (new config classifier ids).performAll commands = .ok h) (hids : h.ids.Nodup)
    (hj : h.JoinsInTime) (hq : h.cluster.network.isQuiescent = true) :
    ∀ n ∈ h.cluster.nodes, ∀ k : Key,
      let s := n.state.get k
      let payloads := Operation.payloadsOn k h.effective
      let decided := Operation.payloadsOn k
        (h.cluster.sequencer.log.flatMap (·.proposal.operations))
      let deltas := payloads.filterMap Payload.delta?
      (s.counter = if deltas = [] then none else some deltas.sum) ∧
      s.maximum.IsLargest (payloads.filterMap Payload.candidate?) ∧
      (∀ member, s.members.contains member = true ↔ .insert member ∈ payloads) ∧
      s.register = (decided.filterMap Payload.value?).getLast? := by
  intro n hn k s payloads decided deltas
  have hw := invariant hc hp hids
  have hsplit : h.world.Split :=
    (performAll_steps (sound_new config classifier ids) hp).2.split
      (world_new config classifier ids)
  have ht : h.world.transit = [] := Network.transit_eq_nil_iff.2 hq
  obtain ⟨i, hi⟩ := List.getElem?_of_mem hn
  have hstate : n.state = .ofHistory h.world.classifier h.world.updates h.world.log :=
    hw.state hids ht rfl (not_not_intro hj) hi
  have hs : s.Reflects (Operation.payloadsOn k (h.world.updates.flatMap (·.operations) ++
      h.world.log.flatMap (·.proposal.operations))) := by
    have hr := ReplicaState.reflects_ofHistory h.world.classifier h.world.updates h.world.log k
    rwa [← hstate] at hr
  have hperm : payloads.Perm (Operation.payloadsOn k
      (h.world.updates.flatMap (·.operations) ++ h.world.log.flatMap (·.proposal.operations))) :=
    ((effective_perm hw hsplit hids).filter _).map _
  refine ⟨?_, hs.maximum.congr fun c => (hperm.filterMap Payload.candidate?).mem_iff.symm,
    fun member => (hs.members member).trans hperm.mem_iff.symm, ?_⟩
  · rw [hs.counter, ← KeyState.addDeltas_none, ← KeyState.addDeltas_perm (hperm.filterMap _),
      KeyState.addDeltas_none]
  · rw [hs.register, hw.values_eq]
    rfl

/-- One proposal fails, a second one is decided, and a third one is still queued. -/
theorem state_of_isQuiescent_failure :
    ∃ h : Chronicle, (new .default .standard (.ofStream Uuid.ofNat)).performAll
        [.injectTimeouts 6, .submit 0 [.increment "edits" 2, .overwrite "title" "draft"], .settle,
          .submit 1 [.insert "tags" "new", .overwrite "title" "final"], .settle,
          .submit 2 [.increment "edits" 3, .overwrite "title" "late"], .run] = .ok h ∧
      h.ids.Nodup ∧ h.JoinsInTime ∧ h.cluster.network.isQuiescent = true ∧
      h.submissions.length = 3 ∧ h.cluster.nodes.length = 3 ∧
      ∀ n ∈ h.cluster.nodes, (n.state.get "edits").counter = some 5 ∧
        (n.state.get "tags").members.contains "new" = true ∧
        (n.state.get "title").register = some "final" := by
  obtain ⟨h, hp, ht⟩ := @exists_of_endsWith _ _ ((new .default .standard
      (.ofStream Uuid.ofNat)).performAll
        [.injectTimeouts 6, .submit 0 [.increment "edits" 2, .overwrite "title" "draft"], .settle,
          .submit 1 [.insert "tags" "new", .overwrite "title" "final"], .settle,
          .submit 2 [.increment "edits" 3, .overwrite "title" "late"], .run])
    (fun h => h.ids.Nodup ∧ h.JoinsInTime ∧ h.cluster.network.isQuiescent = true ∧
      h.submissions.length = 3 ∧ h.cluster.nodes.length = 3 ∧
      h.effective = [.increment "edits" 2, .insert "tags" "new", .overwrite "title" "final",
        .increment "edits" 3] ∧
      h.cluster.sequencer.log.flatMap (·.proposal.operations) = [.overwrite "title" "final"])
    (by decide +kernel)
  obtain ⟨hids, hj, hq, hs, hn, he, hl⟩ := of_decide_eq_true ht
  refine ⟨h, hp, hids, hj, hq, hs, hn, fun n hn => ?_⟩
  have hstate := state_of_isQuiescent .standard hp hids hj hq n hn
  rw [he, hl] at hstate
  refine ⟨(hstate "edits").1, ((hstate "tags").2.2.1 "new").2 (by decide), (hstate "title").2.2.2⟩

end Chronicle
end Confluence
