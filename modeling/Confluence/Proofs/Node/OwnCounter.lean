import Confluence.Proofs.Node.Frontier
import Confluence.Proofs.Node.Submission

namespace Confluence

namespace Node

/-- The entry of the clock that belongs to the node itself. -/
def ownCount (n : Node) : Nat := (n.clock.get n.id).toNat

/-- How many updates of the node a message claims, if the node takes it in. -/
def claimed (n : Node) (m : Message) : Nat :=
  match m with
  | .update u => if n.replica.hasApplied u.id then 0 else (u.clock.get n.id).toNat
  | _ => 0

/-- The updates that a call makes the node commit. -/
def committed (s : Node × IdSupply) : Call → List Update
  | .act (.submit t) =>
    match s.1.submit t s.2 with
    | .ok (submission, _) => submission.update.toList
    | .error _ => []
  | .commit d =>
    match s.1.commitLocal d s.2 with
    | .ok (u, _) => u.toList
    | .error _ => []
  | _ => []

/-- The updates that a run of calls makes the node commit, in order. -/
def committedAll (s : Node × IdSupply) : List Call → List Update
  | [] => []
  | x :: calls =>
    match call s x with
    | .ok s' => committed s x ++ committedAll s' calls
    | .error _ => []

/-- No message claims more updates of the node than it has committed by then. -/
def Truthful (s : Node × IdSupply) (calls : List Call) : Prop :=
  ∀ before m after mid, calls = before ++ .act (.receive m) :: after →
    callAll s before = .ok mid → mid.1.claimed m ≤ (committedAll s before).length

/-- At every moment the counter is the number of updates committed by then. -/
def Counted (s : Node × IdSupply) (calls : List Call) : Prop :=
  ∀ before after mid, calls = before ++ after → callAll s before = .ok mid →
    mid.1.ownCount = (committedAll s before).length

variable {n n' : Node} {s s' mid : Node × IdSupply} {x : Call} {calls later : List Call}
  {t : Transaction} {submission : Submission}

theorem committedAll_append (h : callAll s calls = .ok mid) (later : List Call) :
    committedAll s (calls ++ later) = committedAll s calls ++ committedAll mid later := by
  induction calls generalizing s with
  | nil =>
    cases h
    rfl
  | cons x calls ih =>
    obtain ⟨first, hfirst, h⟩ := bind_eq_ok h
    rw [List.cons_append, committedAll, committedAll, hfirst]
    dsimp only
    rw [ih h, List.append_assoc]

theorem committedAll_concat (h : callAll s calls = .ok mid) (hx : call mid x = .ok s') :
    committedAll s (calls ++ [x]) = committedAll s calls ++ committed mid x := by
  rw [committedAll_append h, committedAll, hx]
  exact congrArg _ (List.append_nil _)

theorem committed_receive (s : Node × IdSupply) (m : Message) :
    committed s (.act (.receive m)) = [] := rfl

theorem ownCount_new (id : NodeId) (c : Classifier) (config : NodeConfig) :
    (new id c config).ownCount = 0 :=
  congrArg UInt64.toNat (VectorClock.get_observe VectorClock.empty id id)

theorem ownCount_receive (n : Node) (m : Message) :
    (n.receive m).2.ownCount = max n.ownCount (n.claimed m) := by
  have hid := (n.receive_rest m).1
  unfold ownCount clock
  rw [hid]
  cases m with
  | update u =>
    rw [receive_update_snd]
    change _ = max _ (if n.replica.hasApplied u.id then 0 else (u.clock.get n.id).toNat)
    by_cases ha : n.replica.hasApplied u.id = true
    · rw [Replica.integrate_of_applied ha, if_pos ha, Nat.max_zero]
    · rw [Replica.integrate_of_new ha, if_neg ha]
      exact VectorClock.toNat_get_merge ..
  | decided d =>
    rw [receive_decided_snd, acceptDecision_snd]
    exact (Nat.max_zero _).symm
  | join x =>
    exact (congrArg UInt64.toNat (VectorClock.get_observe ..)).trans (Nat.max_zero _).symm
  | frontier x f =>
    exact (congrArg UInt64.toNat (VectorClock.get_observe ..)).trans (Nat.max_zero _).symm

theorem ownCount_of_commit {u : Option Update} (hid : n'.id = n.id)
    (hsome : ∀ v, u = some v → n.clock.tick n.id = .ok n'.clock)
    (hnone : u = none → n'.clock = n.clock) : n'.ownCount = n.ownCount + u.toList.length := by
  unfold ownCount
  rw [hid]
  cases u with
  | none =>
    rw [hnone rfl]
    rfl
  | some v =>
    have htick := VectorClock.toNat_get_tick (hsome v rfl) n.id
    rwa [if_pos rfl] at htick

theorem Submits.ownCount (h : n.Submits t submission n') :
    n'.ownCount = n.ownCount + submission.update.toList.length := by
  apply ownCount_of_commit h.kept.1
  · intro u hu
    obtain ⟨_, _, htick, hr⟩ := h.update u hu
    rw [htick, clock, hr]
    rfl
  · intro hu
    rw [clock, (h.noUpdate hu).2]
    rfl

theorem ownCount_commitLocal {d : Decomposition} {ids ids' : IdSupply} {v : Option Update}
    (h : n.commitLocal d ids = .ok (v, n', ids')) :
    n'.ownCount = n.ownCount + v.toList.length := by
  obtain ⟨hid, _, _, _, _, hsome, hnone, _⟩ := commitLocal_eq_ok h
  apply ownCount_of_commit hid
  · intro u hu
    obtain ⟨_, _, htick, hr⟩ := hsome u hu
    rw [htick, clock, hr]
    rfl
  · intro hu
    rw [clock, (hnone hu).2]
    rfl

/-- Every call but a message counts what it commits. -/
theorem ownCount_call (h : call s x = .ok s') (hx : ∀ m, x ≠ .act (.receive m)) :
    s'.1.ownCount = s.1.ownCount + (committed s x).length := by
  cases x with
  | commit d =>
    obtain ⟨⟨v, n, ids⟩, hc, rfl⟩ := map_eq_ok h
    rw [committed, hc]
    exact ownCount_commitLocal hc
  | act a =>
    cases a with
    | submit t =>
      obtain ⟨⟨submission, n, ids⟩, hs, rfl⟩ := map_eq_ok h
      rw [committed, hs]
      exact (submit_eq_ok hs).ownCount
    | receive m => exact absurd rfl (hx m)
    | complete id outcome =>
      change act s (.complete id outcome) = .ok s' at h
      rw [act] at h
      split at h
      · next result n hc =>
        cases h
        change (n.clock.get n.id).toNat = _
        rw [(complete_clock hc).1, (complete_rest hc).1]
        rfl
      · cases h
        rfl
    | registerPeer peer =>
      cases h
      exact congrArg UInt64.toNat (VectorClock.get_observe ..)
    | collectGarbage =>
      cases h
      rfl

/-- The counter counts what was committed exactly as long as the messages are truthful. -/
theorem counted_iff (hs : s.1.ownCount = 0) :
    Counted s calls ↔ Truthful s calls := by
  constructor
  · intro hcounted before m after mid hcalls hmid
    have hnow := hcounted before _ mid hcalls hmid
    have hnext := hcounted (before ++ [.act (.receive m)]) after ((mid.1.receive m).2, mid.2)
      (hcalls.trans (List.append_cons ..)) (callAll_append.2 ⟨mid, hmid, rfl⟩)
    rw [committedAll_concat hmid rfl, ownCount_receive, committed_receive,
      List.append_nil, hnow] at hnext
    exact Nat.le_trans (Nat.le_max_right ..) (Nat.le_of_eq hnext)
  · intro htruthful before
    induction before using List.reverseRecOn with
    | nil =>
      intro after mid _ hmid
      cases hmid
      exact hs
    | append_singleton before x ih =>
      intro after last hcalls hlast
      obtain ⟨mid, hmid, hx⟩ := callAll_append.1 hlast
      obtain ⟨_, hx, hlast⟩ := bind_eq_ok hx
      cases hlast
      rw [List.append_assoc] at hcalls
      have hcount := ih _ mid hcalls hmid
      rw [committedAll_concat hmid hx, List.length_append, ← hcount]
      by_cases hm : ∃ m, x = .act (.receive m)
      · obtain ⟨m, rfl⟩ := hm
        cases hx
        rw [ownCount_receive, committed_receive, List.length_nil, Nat.add_zero]
        exact Nat.max_eq_left (hcount ▸ htruthful before m after mid hcalls hmid)
      · exact ownCount_call hx (not_exists.1 hm)

/-- The message that a call brings. -/
def Call.received? : Call → Option Message
  | .act (.receive m) => some m
  | _ => none

theorem truthful_of_take (h : ∀ k < calls.length, ∀ m ∈ calls[k]?.bind Call.received?,
    ∀ mid ∈ (callAll s (calls.take k)).toOption,
      mid.1.claimed m ≤ (committedAll s (calls.take k)).length) : Truthful s calls := by
  rintro before m after mid rfl hmid
  have hk := h before.length (by simp) m (by simp [Call.received?])
  rw [List.take_left, hmid] at hk
  exact hk mid rfl

theorem submit_eq_error {ids : IdSupply} {f : Fault} :
    n.submit t ids = .error f ↔
      (n.decompose t).liftable ≠ [] ∧ f = .overflow ∧ n.ownCount + 1 = UInt64.size := by
  have hcommit : n.replica.commit n.classifier (n.decompose t) ids = .error f ↔ _ :=
    Replica.commit_eq_error
  refine Iff.trans ?_ hcommit
  unfold submit commitLocal
  dsimp only
  cases n.replica.commit n.classifier (n.decompose t) ids with
  | ok r =>
    constructor <;> intro h <;> cases h
  | error g =>
    constructor <;> intro h <;> cases h <;> rfl

/-- The number of a node's commits is told by its counter as long as messages are truthful, and only
then. Whatever the node has received, a submission fails only by overflow of the counter, where
something is to be lifted; below the largest number, and so in every truthful run of fewer commits,
it takes every transaction and commits what is lifted of it. -/
theorem submit_of_truthful {id : NodeId} {c : Classifier} {config : NodeConfig}
    {ids ids' : IdSupply} (h : callAll (new id c config, ids) calls = .ok (n, ids')) :
    (Counted (new id c config, ids) calls ↔ Truthful (new id c config, ids) calls) ∧
    (∀ m, (n.receive m).2.ownCount = max n.ownCount (n.claimed m)) ∧
    (∀ t supply f, n.submit t supply = .error f ↔
      (n.decompose t).liftable ≠ [] ∧ f = .overflow ∧ n.ownCount + 1 = UInt64.size) ∧
    (Truthful (new id c config, ids) calls →
      n.ownCount = (committedAll (new id c config, ids) calls).length ∧
      ((committedAll (new id c config, ids) calls).length + 1 < UInt64.size → ∀ t supply,
        ∃ submission n' supply', n.submit t supply = .ok (submission, n', supply') ∧
          submission.IsSplit ∧ submission.decomposition = n.decompose t ∧
          (submission.IsFresh n → n.Carries t submission n'))) := by
  have hcounted := @counted_iff (_, ids) calls (ownCount_new id c config)
  refine ⟨hcounted, n.ownCount_receive, fun t supply f => submit_eq_error, ?_⟩
  intro htruthful
  have hcount := hcounted.2 htruthful calls [] _ (List.append_nil _).symm h
  refine ⟨hcount, ?_⟩
  intro hroom t supply
  obtain ⟨submission, n', supply', hs⟩ := exists_submit (hcount ▸ hroom) t supply
  have hstamps : n.replica.StampsKnown :=
    (callAll_moves h).replica.stampsKnown (Replica.stampsKnown_new id)
  exact ⟨submission, n', supply', hs, submit_isSplit hs, (submit_eq_ok hs).decomposition,
    carries_of_submit hs hstamps⟩

/-- Two commits, one of them of a split made elsewhere, and an update of another node that has seen the
first one; the own update comes back as well. The next transaction adds to the counter what is lifted of
it, once, and leaves the register alone. -/
theorem submit_of_truthful_gossip :
    let start : Node × IdSupply := (new "a" .standard .default, .ofStream Uuid.ofNat)
    let u : Update := ⟨Uuid.ofNat 0, "a", .ofList [("a", 1)], [.increment "edits" 3]⟩
    let v : Update := ⟨Uuid.ofNat 7, "b", .ofList [("a", 1), ("b", 1)], [.increment "edits" 1]⟩
    let calls : List Call := [.act (.submit [.increment "edits" 3]), .act (.receive (.update v)),
      .act (.receive (.update u)), .commit (start.1.decompose [.maximum "score" 2])]
    let t : Transaction := [.increment "edits" 2, .overwrite "title" "draft"]
    ∃ n ids submission n' ids', callAll start calls = .ok (n, ids) ∧ Truthful start calls ∧
      n.ownCount = 2 ∧ n.submit t ids = .ok (submission, n', ids') ∧ n.Carries t submission n' ∧
      (n.state.get "edits").counter = some 4 ∧ (n'.state.get "edits").counter = some 6 ∧
      n'.state.get? "title" = none := by
  intro start u v calls t
  obtain ⟨⟨n, ids⟩, ⟨submission, n', ids'⟩, h, hs, hend⟩ := @exists_pair_of_endsWith _ _ _
    (callAll start calls) (fun m => m.1.submit t m.2)
    (fun r => (∀ u ∈ r.2.1.update, r.1.1.replica.hasApplied u.id = false) ∧
      (∀ p ∈ r.2.1.proposal, r.1.1.pending.contains p.id = false) ∧
      (committedAll start calls).length = 2 ∧ (r.1.1.state.get "edits").counter = some 4 ∧
      r.1.1.state.get? "title" = none ∧
      (r.1.1.decompose t).liftable = [⟨.increment "edits" 2, .abelian⟩]) (by decide +kernel)
  obtain ⟨hupdate, hproposal, hlength, hcounter, htitle, hlifted⟩ := of_decide_eq_true hend
  have htruthful : Truthful start calls := truthful_of_take (by decide +kernel)
  obtain ⟨hcount, hall⟩ := (submit_of_truthful h).2.2.2 htruthful
  rw [hlength] at hcount hall
  obtain ⟨_, _, _, hs', _, _, hcarries⟩ := hall (by decide) t ids
  cases hs.symm.trans hs'
  have hcarried := hcarries ⟨fun u hu => hupdate u hu, fun p hp => hproposal p hp⟩
  obtain ⟨w, _, hcommits⟩ := hcarried.update (by rw [hlifted]; exact List.cons_ne_nil _ _)
  rw [hlifted] at hcommits
  refine ⟨n, ids, submission, n', ids', h, htruthful, hcount, hs, hcarried, hcounter, ?_, ?_⟩
  · have hedits : n'.state.get? "edits" = some ((n.state.get "edits").commit w.id
        [⟨.increment "edits" 2, .abelian⟩]) := hcommits.keys "edits"
    have hwritten : (n'.state.get "edits").counter =
        some ((n.state.get "edits").counter.getD 0 + 2) := by
      rw [ReplicaState.get, hedits]
      rfl
    rw [hwritten, hcounter]
    rfl
  · exact (hcommits.keys "title").trans htitle

/-- One update that claims all the numbers there are, and the node takes no more transactions with
anything to lift, though it has committed nothing. -/
theorem submit_eq_error_of_claim :
    let start : Node × IdSupply := (new "a" .standard .default, .ofStream Uuid.ofNat)
    let v : Update := ⟨Uuid.ofNat 7, "b", .ofList [("a", 18446744073709551615)], [.increment "x" 1]⟩
    let calls : List Call := [.act (.receive (.update v))]
    ∃ n ids, callAll start calls = .ok (n, ids) ∧ committedAll start calls = [] ∧
      n.ownCount = 18446744073709551615 ∧ n.submit [.increment "x" 1] ids = .error .overflow := by
  intro start v calls
  refine ⟨_, _, rfl, rfl, by decide +kernel, ?_⟩
  apply submit_eq_error.2
  exact ⟨by decide +kernel, rfl, by decide +kernel⟩

end Node
end Confluence
