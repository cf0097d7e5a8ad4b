import Confluence.Proofs.Node.Basic
import Confluence.Proofs.State.History
import Confluence.Proofs.VectorClock

namespace Confluence.Node

inductive Event
  | receive (m : Message)
  | collectGarbage
  deriving DecidableEq

/-- Updates and decisions come from given sets. -/
def Event.From (U : Update → Prop) (D : Decision → Prop) : Event → Prop
  | .receive (.update u) => U u
  | .receive (.decided d) => D d
  | _ => True

def handle (n : Node) : Event → Node
  | .receive m => (n.receive m).2
  | .collectGarbage => n.collectGarbage.2

def handleAll (n : Node) (es : List Event) : Node := es.foldl handle n

/-- The largest counter that some updates carry for a node. -/
def latest (us : List Update) (x : NodeId) : Nat :=
  us.foldl (fun m u => max m (u.clock.get x).toNat) 0

/-- What a node with the updates `us`, in the order of arrival, and the consumed decisions `ds`
has become by some events. -/
structure Heard (c : Classifier) (es : List Event) (n : Node) (us : List Update)
    (ds : List Decision) : Prop where
  classifier : n.classifier = c
  updates : ∀ u, u ∈ us ↔ .receive (.update u) ∈ es
  nodup : us.Nodup
  applied : ∀ id, n.replica.hasApplied id = true ↔ ∃ u ∈ us, u.id = id
  state : n.state = .ofHistory c us (Decision.firsts ds)
  clock : ∀ x, (n.clock.get x).toNat = latest us x
  consumed : n.decisions.HasConsumed ds
  waits : n.decisions.WaitsAbove
  heard : (∀ d ∈ ds, .receive (.decided d) ∈ es) ∧
    ∀ k d, n.decisions.waiting.find? k = some d → .receive (.decided d) ∈ es
  knows : ∀ k, n.decisions.Knows k ↔ ∃ d, .receive (.decided d) ∈ es ∧ d.slot = k

variable {c : Classifier} {es fs : List Event} {n m : Node} {us vs : List Update}
  {ds gs : List Decision} {U : Update → Prop} {D : Decision → Prop}

theorem heard_new (id : NodeId) (c : Classifier) (config : NodeConfig) :
    Heard c [] (new id c config) [] [] where
  classifier := rfl
  updates := by simp
  nodup := .nil
  applied := by simp [new, Replica.new, Replica.hasApplied]
  state := rfl
  clock x := by
    change ((VectorClock.empty.observe id).get x).toNat = 0
    rw [VectorClock.get_observe]
    rfl
  consumed := DecisionLog.hasConsumed_empty
  waits := by
    intro k d h
    cases h
  heard := ⟨by simp, by intro k d h; cases h⟩
  knows k := by
    apply iff_of_false (DecisionLog.not_knows_empty k)
    rintro ⟨d, h, _⟩
    cases h

/-- An event that is neither an update nor a decision changes nothing of all this. -/
theorem Heard.other {e : Event} {n' : Node} (h : Heard c es n us ds)
    (hu : ∀ u, e ≠ .receive (.update u)) (hd : ∀ d, e ≠ .receive (.decided d))
    (hc : n'.classifier = n.classifier) (ha : n'.replica.applied = n.replica.applied)
    (hs : n'.state = n.state) (hk : ∀ x, n'.clock.get x = n.clock.get x)
    (hl : n'.decisions = n.decisions) : Heard c (es ++ [e]) n' us ds where
  classifier := hc.trans h.classifier
  updates u := by simp [h.updates, Ne.symm (hu u)]
  nodup := h.nodup
  applied id := by rw [Replica.hasApplied, ha]; exact h.applied id
  state := hs.trans h.state
  clock x := by rw [hk, h.clock]
  consumed := hl ▸ h.consumed
  waits := hl ▸ h.waits
  heard := by
    rw [hl]
    exact ⟨fun d hd => List.mem_append_left _ (h.heard.1 d hd),
      fun k d hd => List.mem_append_left _ (h.heard.2 k d hd)⟩
  knows k := by
    rw [hl, h.knows]
    simp [fun d => Ne.symm (hd d)]

theorem Heard.update_known {u : Update} (h : Heard c es n us ds) (hu : u ∈ us) :
    Heard c (es ++ [.receive (.update u)]) (n.handle (.receive (.update u))) us ds := by
  have ha : n.replica.hasApplied u.id = true := (h.applied u.id).2 ⟨u, hu, rfl⟩
  have he : Event.receive (.update u) ∈ es := (h.updates u).1 hu
  unfold handle receive
  dsimp only
  rw [Replica.integrate_of_applied ha]
  refine ⟨h.classifier, ?_, h.nodup, h.applied, h.state, h.clock, h.consumed, h.waits, ?_, ?_⟩
  · intro v
    rw [h.updates, List.mem_append, List.mem_singleton]
    refine ⟨.inl, fun hv => hv.elim (fun hv => hv) fun hv => ?_⟩
    cases hv
    exact he
  · exact ⟨fun d hd => List.mem_append_left _ (h.heard.1 d hd),
      fun k d hd => List.mem_append_left _ (h.heard.2 k d hd)⟩
  · intro k
    rw [h.knows]
    simp

theorem Heard.update_new {u : Update} (h : Heard c es n us ds) (hn : ∀ v ∈ us, v.id ≠ u.id)
    (hu : u.IsAssignFree) :
    Heard c (es ++ [.receive (.update u)]) (n.handle (.receive (.update u))) (us ++ [u]) ds := by
  have ha : ¬ n.replica.hasApplied u.id = true := fun ha => by
    obtain ⟨v, hv, he⟩ := (h.applied _).1 ha
    exact hn v hv he
  unfold handle receive
  dsimp only
  rw [Replica.integrate_of_new ha]
  refine ⟨h.classifier, ?_, ?_, ?_, ?_, ?_, h.consumed, h.waits, ?_, ?_⟩
  · intro w
    simp [h.updates]
  · refine List.nodup_append.2 ⟨h.nodup, List.nodup_singleton u, ?_⟩
    intro v hv w hw he
    rw [List.mem_singleton.1 hw] at he
    exact hn v hv (congrArg _ he)
  · intro id
    change (n.replica.applied.insert u.id).contains id = true ↔ _
    rw [OrderedSet.contains_insert]
    have := h.applied id
    unfold Replica.hasApplied at this
    rw [this]
    simp only [List.mem_append, List.mem_singleton, or_and_right, exists_or, exists_eq_left]
    rw [or_comm, eq_comm]
  · change (n.state.merge n.classifier .deduplicated u).1 = _
    rw [h.state, h.classifier]
    exact ReplicaState.merge_ofHistory hu hn
  · intro x
    change ((n.clock.merge u.clock).get x).toNat = _
    rw [VectorClock.toNat_get_merge, h.clock, latest, latest, List.foldl_append]
    rfl
  · exact ⟨fun d hd => List.mem_append_left _ (h.heard.1 d hd),
      fun k d hd => List.mem_append_left _ (h.heard.2 k d hd)⟩
  · intro k
    apply (h.knows k).trans
    simp

theorem Heard.update {u : Update} (h : Heard c es n us ds)
    (hid : ∀ v ∈ us, v.id = u.id → v = u) (hu : u.IsAssignFree) :
    ∃ vs, Heard c (es ++ [.receive (.update u)]) (n.handle (.receive (.update u))) vs ds := by
  by_cases hk : ∃ v ∈ us, v.id = u.id
  · obtain ⟨v, hv, he⟩ := hk
    obtain rfl := hid v hv he
    exact ⟨us, h.update_known hv⟩
  · exact ⟨us ++ [u], h.update_new (fun v hv he => hk ⟨v, hv, he⟩) hu⟩

theorem Heard.decided {d : Decision} (h : Heard c es n us ds) :
    ∃ gs, Heard c (es ++ [.receive (.decided d)]) (n.handle (.receive (.decided d))) us gs := by
  obtain ⟨more, hext, hready⟩ := @DecisionLog.accept_extends n.decisions _ d h.consumed h.waits
  have hn : n.handle (.receive (.decided d)) = (n.acceptDecision d).2 := receive_decided_snd n d
  rw [hn, acceptDecision_snd]
  refine ⟨ds ++ more, h.classifier, ?_, h.nodup, h.applied, ?_, h.clock, hext.consumed, hext.waits,
    ?_, ?_⟩
  · intro u
    simp [h.updates]
  · change List.foldl _ n.state _ = _
    rw [h.state, ReplicaState.foldl_applyDecided_ofHistory, hready]
  · have hold {k : UInt64} {e : Decision} (he : n.decisions.waiting.find? k = some e) :
        .receive (.decided e) ∈ es ++ [Event.receive (.decided d)] :=
      List.mem_append_left _ (h.heard.2 k e he)
    refine ⟨?_, ?_⟩
    · intro e he
      rcases List.mem_append.1 he with he | he
      · exact List.mem_append_left _ (h.heard.1 e he)
      · rcases hext.origin e he with he | he
        · rw [List.mem_singleton.1 he]
          simp
        · exact hold he
    · intro k e he
      rcases hext.waiting k e he with he | he
      · rw [List.mem_singleton.1 he]
        simp
      · exact hold he
  · intro k
    rw [hext.knows, h.knows]
    simp only [List.mem_singleton, exists_eq_left, List.mem_append, Event.receive.injEq,
      Message.decided.injEq, or_and_right, exists_or]
    rw [or_comm]

theorem Heard.handle {e : Event} (h : Heard c es n us ds)
    (hU : ∀ u v, U u → U v → u.id = v.id → u = v) (hA : ∀ u, U u → u.IsAssignFree)
    (hes : ∀ e' ∈ es ++ [e], e'.From U D) :
    ∃ vs gs, Heard c (es ++ [e]) (n.handle e) vs gs := by
  cases e with
  | receive m =>
    cases m with
    | update u =>
      have hu : U u := hes (.receive (.update u)) (by simp)
      obtain ⟨vs, hv⟩ := h.update (u := u)
        (fun v hv he => hU v u
          (hes (.receive (.update v)) (List.mem_append_left _ ((h.updates v).1 hv))) hu he)
        (hA u hu)
      exact ⟨vs, ds, hv⟩
    | decided d =>
      obtain ⟨gs, hg⟩ := h.decided (d := d)
      exact ⟨us, gs, hg⟩
    | join x =>
      exact ⟨us, ds, h.other (by simp) (by simp) rfl rfl rfl
        (VectorClock.get_observe n.clock x) rfl⟩
    | frontier x f =>
      exact ⟨us, ds, h.other (by simp) (by simp) rfl rfl rfl
        (VectorClock.get_observe n.clock x) rfl⟩
  | collectGarbage =>
    exact ⟨us, ds, h.other (by simp) (by simp) rfl rfl rfl (fun _ => rfl) rfl⟩

theorem heard_handleAll {config : NodeConfig} {id : NodeId}
    (hU : ∀ u v, U u → U v → u.id = v.id → u = v) (hA : ∀ u, U u → u.IsAssignFree)
    (hes : ∀ e ∈ es, e.From U D) :
    ∃ us ds, Heard c es ((new id c config).handleAll es) us ds := by
  induction es using List.reverseRecOn with
  | nil => exact ⟨[], [], heard_new id c config⟩
  | append_singleton es e ih =>
    obtain ⟨us, ds, h⟩ := ih fun x hx => hes x (List.mem_append_left _ hx)
    rw [handleAll, List.foldl_append]
    exact h.handle hU hA hes

theorem latest_perm (h : us.Perm vs) (x : NodeId) : latest us x = latest vs x := by
  refine h.foldl_eq' ?_ 0
  intro u _ v _ m
  rw [Nat.max_assoc, Nat.max_assoc, Nat.max_comm (u.clock.get x).toNat]

/-- Strong eventual consistency. Two nodes that have received the same updates and the same
decisions, in whatever order and however often, agree. -/
theorem agree_of_same_messages {a b : NodeId} {config config' : NodeConfig}
    (hU : ∀ u v, U u → U v → u.id = v.id → u = v) (hA : ∀ u, U u → u.IsAssignFree)
    (hD : ∀ d e, D d → D e → d.slot = e.slot → d = e)
    (hes : ∀ e ∈ es, e.From U D) (hfs : ∀ e ∈ fs, e.From U D)
    (hu : ∀ u, .receive (.update u) ∈ es ↔ .receive (.update u) ∈ fs)
    (hd : ∀ d, .receive (.decided d) ∈ es ↔ .receive (.decided d) ∈ fs) :
    let m := (new a c config).handleAll es
    let n := (new b c config').handleAll fs
    m.state = n.state ∧ m.digest = n.digest ∧ m.decisions = n.decisions ∧
      m.clock.agrees n.clock = true := by
  intro m n
  obtain ⟨us, ds, hm⟩ : ∃ us ds, Heard c es m us ds := heard_handleAll hU hA hes
  obtain ⟨vs, gs, hn⟩ : ∃ vs gs, Heard c fs n vs gs := heard_handleAll hU hA hfs
  have hperm : us.Perm vs := by
    refine (List.perm_ext_iff_of_nodup hm.nodup hn.nodup).2 fun u => ?_
    rw [hm.updates, hn.updates, hu]
  have hfree : ∀ u ∈ us, u.IsAssignFree := fun u h => hA u (hes _ ((hm.updates u).1 h))
  obtain ⟨hds, hlog⟩ := DecisionLog.eq_of_knows hD
    hm.consumed hm.waits ⟨fun d h => hes _ (hm.heard.1 d h), fun k d h => hes _ (hm.heard.2 k d h)⟩
    hn.consumed hn.waits ⟨fun d h => hfs _ (hn.heard.1 d h), fun k d h => hfs _ (hn.heard.2 k d h)⟩
    (fun k => by simp only [hm.knows, hn.knows, hd])
  have hstate : m.state = n.state := by
    rw [hm.state, hn.state, hds, ReplicaState.ofHistory_perm hperm hfree]
  refine ⟨hstate, congrArg ReplicaState.digest hstate, hlog, ?_⟩
  refine VectorClock.agrees_iff.2 fun x => ?_
  rw [← UInt64.toNat_inj, hm.clock, hn.clock, latest_perm hperm]

/-- One node hears two decisions in order, the other one the wrong way round and one update twice. -/
theorem agree_of_same_messages_reordered :
    let u : Update := ⟨Uuid.ofNat 1, "x", .ofList [("x", 1)], [.increment "edits" 2]⟩
    let v : Update := ⟨Uuid.ofNat 2, "y", .ofList [("x", 1), ("y", 1)],
      [.insert "tags" "new", .increment "edits" 3]⟩
    let d : Decision := ⟨0, Uuid.ofNat 3, "x", [.overwrite "title" "draft"], .ofList [("x", 1)]⟩
    let e : Decision := ⟨1, Uuid.ofNat 4, "y", [.overwrite "title" "final", .increment "edits" 1],
      .ofList [("y", 1)]⟩
    let m := (new "a" .standard .default).handleAll [.receive (.decided d), .receive (.update v),
      .receive (.frontier "x" .empty), .receive (.decided e), .receive (.update u)]
    let n := (new "b" .standard .default).handleAll [.receive (.update u), .receive (.decided e),
      .receive (.join "y"), .collectGarbage, .receive (.update v), .receive (.decided d),
      .receive (.update u)]
    (m.state.get "edits").counter = some 6 ∧ m.decisions.nextSlot = 2 ∧
      m.state = n.state ∧ m.digest = n.digest ∧ m.decisions = n.decisions ∧
      m.clock.agrees n.clock = true := by
  intro u v d e m n
  have hU : ∀ x y, x ∈ [u, v] → y ∈ [u, v] → x.id = y.id → x = y := by
    simp only [List.mem_cons, List.not_mem_nil, or_false]
    rintro x y (rfl | rfl) (rfl | rfl) h
    · rfl
    · exact absurd h (by decide)
    · exact absurd h (by decide)
    · rfl
  have hD : ∀ x y, x ∈ [d, e] → y ∈ [d, e] → x.slot = y.slot → x = y := by
    simp only [List.mem_cons, List.not_mem_nil, or_false]
    rintro x y (rfl | rfl) (rfl | rfl) h
    · rfl
    · exact absurd h (by decide)
    · exact absurd h (by decide)
    · rfl
  have hA : ∀ x, x ∈ [u, v] → x.IsAssignFree := by
    simp [u, v, Update.IsAssignFree, Operation.increment, Operation.insert, Payload.value?]
  refine ⟨by decide +kernel, by decide +kernel, ?_⟩
  exact agree_of_same_messages (U := (· ∈ [u, v])) (D := (· ∈ [d, e])) hU hA hD
    (by simp [Event.From]) (by simp [Event.From]) (by simp [or_comm]) (by simp [or_comm])

end Confluence.Node
