import Std.Data.String.ToNat
import Confluence.Proofs.Cluster.Proposals
import Confluence.Proofs.Node.Progress

namespace Confluence

theorem numbered_injective {stem : String} {i j : Nat}
    (h : stem ++ toString i = stem ++ toString j) : i = j := by
  have h := congrArg String.toList h
  rw [String.toList_append, String.toList_append, List.append_cancel_left_eq,
    String.toList_inj] at h
  exact Nat.repr_injective h

theorem Cluster.nodeName_injective {i j : Nat} (h : nodeName i = nodeName j) : i = j :=
  numbered_injective h

namespace World
variable {w w' : World} {i : Nat} {n : Node} {m : Message}

def Underway (w : World) (target : NodeId) (m : Message) : Prop :=
  ∃ e ∈ w.transit, e.target = target ∧ e.message = m

/-- What a message carries has come to all nodes or is on its way to them. -/
def Covers (w : World) (m : Message) : Prop :=
  ∀ (i : Nat) (n : Node), w.nodes[i]? = some n → n.Has m ∨ w.Underway n.id m

theorem Underway.carry {t new : List (Envelope Message)} {x : NodeId} (h : w.Underway x m)
    (ht : Carries t new w.transit) : ∃ e ∈ t, e.target = x ∧ e.message = m := by
  obtain ⟨e, he, hx⟩ := h
  exact ⟨e, (ht e).2 (.inr he), hx⟩

theorem mem_toOthers {x : NodeId} (h : ∃ k ∈ w.nodes, k.id = x) (hne : x ≠ n.id) :
    (⟨n.id, x, m⟩ : Envelope Message) ∈ w.toOthers n m := by
  obtain ⟨k, hk, hx⟩ := h
  refine List.mem_map.2 ⟨x, List.mem_filter.2 ⟨List.mem_map.2 ⟨k, hk, hx⟩, ?_⟩, rfl⟩
  exact decide_eq_true hne

theorem Sourced.index_inj (h : w.Sourced) {j : Nat} {k : Node} (hi : w.nodes[i]? = some n)
    (hj : w.nodes[j]? = some k) (he : n.id = k.id) : i = j := by
  rw [h.names i n hi, h.names j k hj] at he
  exact Cluster.nodeName_injective he

/-- No step takes anything from a node that it had taken in. -/
theorem Step.keeps (hs : Step w w') (ho : w.Ordered) (hi : w.nodes[i]? = some n) :
    ∃ n', w'.nodes[i]? = some n' ∧ n.Keeps n' := by
  cases hs with
  | deliver hj _ ht =>
    have hsent := ho.sent _ ((ht _).2 (.inl (List.mem_singleton_self _)))
    exact exists_getElem?_set hj (Node.keeps_receive (ho.nodes _ _ hj).1 ho.isLog hsent) .refl hi
  | submit hj hsub _ => exact exists_getElem?_set hj (Node.submit_eq_ok hsub).keeps .refl hi
  | @complete q _ _ _ _ _ _ hout hj hc _ =>
    refine exists_getElem?_set hj (Node.keeps_complete (ho.nodes _ _ hj).1 ho.isLog ?_ hc) .refl hi
    rintro d rfl
    exact ho.decided q d (hout ▸ List.mem_cons_self)
  | collect =>
    refine ⟨n.collectGarbage.2, ?_, n.keeps_collectGarbage⟩
    rw [List.getElem?_map, hi]
    rfl
  | join _ =>
    refine ⟨n, ?_, .refl n⟩
    rw [List.getElem?_append_left (List.getElem?_eq_some_iff.1 hi).1]
    exact hi
  | _ => exact ⟨n, hi, .refl n⟩

/-- A node that has been delivered a message has it, and for all others it stays on its way. -/
theorem Underway.deliver {j : Nat} {k n' : Node} {e : Envelope Message}
    {t : List (Envelope Message)} (h : w.Underway n.id m) (ho : w.Ordered) (hw : w.Sourced)
    (hi : w.nodes[i]? = some n) (hj : w.nodes[j]? = some k) (hid : k.id = e.target)
    (ht : Carries w.transit [e] t) (hi' : (w.nodes.set j (k.receive e.message).2)[i]? = some n') :
    n'.Has m ∨ ∃ x ∈ t, x.target = n.id ∧ x.message = m := by
  obtain ⟨x, hx, htarget, hm⟩ := h
  rcases (ht x).1 hx with hxe | hx
  · rw [List.mem_singleton.1 hxe] at htarget hm
    have he : i = j := hw.index_inj hi hj (htarget.symm.trans hid.symm)
    subst he
    rw [Cluster.getElem?_set_self' hj] at hi'
    cases hi'
    have hsent := ho.sent e ((ht e).2 (.inl (List.mem_singleton_self e)))
    exact .inl (hm ▸ Node.has_receive (ho.nodes i k hj).1 ho.isLog hsent)
  · exact .inr ⟨x, hx, htarget, hm⟩

/-- A step takes from no node what has come to it or is on its way to it. -/
theorem Covers.step (h : w.Covers m) (ho : w.Ordered) (hw : w.Sourced) (hs : Step w w')
    (hi : w'.nodes[i]? = some n) (hlt : i < w.nodes.length) : n.Has m ∨ w'.Underway n.id m := by
  have hk := List.getElem?_eq_getElem hlt
  obtain ⟨n', hi', hkeeps⟩ := hs.keeps ho hk
  rw [hi'] at hi
  cases hi
  rw [hkeeps.id]
  rcases h i _ hk with hh | hu
  · exact .inl (hh.mono hkeeps)
  · cases hs with
    | discard hne ht =>
      obtain ⟨x, hx, htarget, hm⟩ := hu
      rcases (ht x).1 hx with hxe | hx
      · rw [List.mem_singleton.1 hxe] at htarget
        exact absurd htarget.symm (hne _ (List.mem_of_getElem? hk))
      · exact .inr ⟨x, hx, htarget, hm⟩
    | deliver hj hid ht => exact hu.deliver ho hw hk hj hid ht hi'
    | send _ ht => exact .inr (hu.carry ht)
    | submit _ _ ht => exact .inr (hu.carry ht)
    | complete _ _ _ ht => exact .inr (hu.carry ht)
    | join ht => exact .inr (hu.carry ht)
    | _ => exact .inr hu

theorem Covers.next (h : w.Covers m) (ho : w.Ordered) (hw : w.Sourced) (hs : Step w w')
    (hlen : w'.nodes.length = w.nodes.length) : w'.Covers m := fun _ _ hi =>
  h.step ho hw hs hi (hlen ▸ (List.getElem?_eq_some_iff.1 hi).1)

theorem Covers.join (h : w.Covers m) (ho : w.Ordered) (hw : w.Sourced) {leader : NodeId}
    {t : List (Envelope Message)} (ht : Carries t (w.welcome leader w.newcomer) w.transit)
    (hm : ∃ e ∈ w.welcome leader w.newcomer, e.target = w.newcomer.id ∧ e.message = m) :
    { w with
      nodes := w.nodes ++ [w.newcomer]
      transit := t
      late := w.late ∨ 0 < w.collected }.Covers m := by
  intro i n hi
  rcases getElem?_concat_node hi with ⟨rfl, rfl⟩ | hi'
  · obtain ⟨e, he, hx⟩ := hm
    exact .inr ⟨e, (ht e).2 (.inl he), hx⟩
  · exact h.step ho hw (.join ht) hi (List.getElem?_eq_some_iff.1 hi').1

/-- The decisions of the log have come to all nodes, or are on their way, or are still to be
reported. -/
def Announced (w : World) : Prop :=
  ∀ d ∈ w.log, w.Covers (.decided d) ∨ ∃ q, (q, .ok d) ∈ w.outcomes

theorem Announced.step (h : w.Announced) (ho : w.Ordered) (hw : w.Sourced) (ha : w.Accounted)
    (hs : Step w w') : w'.Announced := by
  have hnext {d : Decision} (hlen : w'.nodes.length = w.nodes.length) (hd : d ∈ w.log) :
      w'.Covers (.decided d) ∨ ∃ q, (q, .ok d) ∈ w.outcomes :=
    (h d hd).imp_left fun hc => hc.next ho hw hs hlen
  cases hs with
  | send _ _ => exact fun d hd => hnext rfl hd
  | discard _ _ => exact fun d hd => hnext rfl hd
  | deliver _ _ _ => exact fun d hd => hnext List.length_set hd
  | submit _ _ _ => exact fun d hd => hnext List.length_set hd
  | @decide log results hout hdec =>
    intro d hd
    by_cases hold : d ∈ w.log
    · rcases hnext rfl hold with hc | ⟨q, hq⟩
      · exact .inl hc
      · rw [hout] at hq
        cases hq
    · obtain ⟨i, q, hi, _, hr⟩ := hdec.new d hd hold
      exact .inr ⟨q, List.mem_of_getElem? (List.getElem?_zip_eq_some.2 ⟨hi, hr⟩)⟩
  | @complete q outcome rest n n' result t hout hi hcomplete ht =>
    intro d hd
    rcases hnext List.length_set hd with hc | ⟨q', hq'⟩
    · exact .inl hc
    · rw [hout] at hq'
      rcases List.mem_cons.1 hq' with hq' | hq'
      · -- The outcome that is reported now: the node takes the decision in and sends it on.
        cases hq'
        obtain ⟨hf, _, _⟩ := ho.nodes _ n hi
        refine .inl fun j m hj => ?_
        rcases getElem?_set_node hi hj with ⟨rfl, rfl⟩ | ⟨hne, hj⟩
        · left
          change m.decisions.Knows d.slot
          rw [Node.complete_decisions hcomplete]
          exact ((hf.accept ho.isLog hd).2.2 d.slot).2 (.inl rfl)
        · right
          refine ⟨⟨n.id, m.id, .decided d⟩, (ht _).2 (.inl ?_), rfl, rfl⟩
          refine mem_toOthers ⟨m, List.mem_of_getElem? hj, rfl⟩ ?_
          exact fun he => hne (hw.index_inj hj hi he)
      · exact .inr ⟨q', hq'⟩
  | ignore hout hi hn => exact absurd hn (ha.complete_ne_error hout hi _)
  | collect => exact fun d hd => hnext (List.length_map _) hd
  | join ht =>
    intro d hd
    refine (h d hd).imp_left fun hc => hc.join ho hw ht ?_
    exact ⟨_, List.mem_append_right _ (List.mem_map_of_mem hd), rfl, rfl⟩

/-- The updates have come to all nodes or are on their way, unless a node joined too late; as long as
none was dropped, someone retains each. -/
structure Gossiped (w : World) : Prop where
  covered : ¬ w.late → ∀ u ∈ w.updates, w.Covers (.update u)
  kept : w.collected = 0 → ∀ u ∈ w.updates, ∃ (i : Nat) (n : Node),
    w.nodes[i]? = some n ∧ n.history.get? u.id = some u

theorem mem_welcome {u : Update} {id : UpdateId} (leader : NodeId) (k : Node)
    (hi : w.nodes[i]? = some n) (hg : n.history.get? id = some u) :
    (⟨n.id, k.id, .update u⟩ : Envelope Message) ∈ w.welcome leader k := by
  refine List.mem_append_left _ (List.mem_append_right _ ?_)
  have hr : (n.id, u) ∈ Cluster.retained w.nodes :=
    List.mem_flatMap.2 ⟨n, List.mem_of_getElem? hi,
      List.mem_map_of_mem (CausalHistory.mem_retained.2 ⟨id, hg⟩)⟩
  exact List.mem_map.2 ⟨(n.id, u), hr, rfl⟩

theorem kept_set {n' : Node} {u : Update} (hi : w.nodes[i]? = some n)
    (hr : n.history.get? u.id = some u → n'.history.get? u.id = some u)
    (h : ∃ (j : Nat) (m : Node), w.nodes[j]? = some m ∧ m.history.get? u.id = some u) :
    ∃ (j : Nat) (m : Node), (w.nodes.set i n')[j]? = some m ∧ m.history.get? u.id = some u := by
  obtain ⟨j, m, hj, hg⟩ := h
  obtain ⟨m', hj', hg'⟩ := exists_getElem?_set
    (p := fun m m' => m.history.get? u.id = some u → m'.history.get? u.id = some u) hi hr
    (fun _ hg => hg) hj
  exact ⟨j, m', hj', hg' hg⟩

theorem IsNew.gossiped (h : w.IsNew) : w.Gossiped := by
  refine ⟨fun _ u hu => ?_, fun _ u hu => ?_⟩ <;>
  · rw [h.updates] at hu
    cases hu

theorem covers_committed {n' : Node} {x : Transaction} {s : Submission} {u : Update}
    {t : List (Envelope Message)} (hw : w.Sourced) (hi : w.nodes[i]? = some n)
    (hs : n.Submits x s n') (hu : s.update = some u)
    (ht : Carries t (s.update.toList.flatMap fun u => w.toOthers n (.update u)) w.transit) :
    { w with nodes := w.nodes.set i n', transit := t }.Covers (.update u) := by
  intro j m hj
  rcases getElem?_set_node hi hj with ⟨rfl, rfl⟩ | ⟨hne, hj⟩
  · exact .inl ((hs.hasApplied u.id).2 (.inr ⟨u, hu, rfl⟩))
  · refine .inr ⟨⟨n.id, m.id, .update u⟩, (ht _).2 (.inl ?_), rfl, rfl⟩
    refine List.mem_flatMap.2 ⟨u, Option.mem_toList.2 hu, ?_⟩
    apply mem_toOthers ⟨m, List.mem_of_getElem? hj, rfl⟩
    exact fun he => hne (hw.index_inj hj hi he)

theorem Sourced.not_retained (hw : w.Sourced) (hi : w.nodes[i]? = some n) {x : Submitted}
    {u : Update} (hu : x.submission.update = some u)
    (hids : ({ w.toTrace with submissions := w.submissions ++ [x] } : Trace).ids.Nodup) :
    n.history.get? u.id = none := by
  refine Option.eq_none_iff_forall_ne_some.2 fun v hv => ?_
  obtain ⟨he, hv⟩ := hw.retained i n hi u.id v hv
  have hn := Trace.nodup_updates hids
  rw [updates_concat, List.map_append] at hn
  apply List.disjoint_of_nodup_append hn (List.mem_map_of_mem hv)
  rw [he]
  exact List.mem_map_of_mem (Option.mem_toList.2 hu)

theorem Gossiped.step (h : w.Gossiped) (ho : w.Ordered) (hw : w.Sourced) (hs : Step w w')
    (hids : w'.ids.Nodup) : w'.Gossiped := by
  have hnext (hlen : w'.nodes.length = w.nodes.length) (hl : ¬ w.late) {u : Update}
      (hu : u ∈ w.updates) : w'.Covers (.update u) := (h.covered hl u hu).next ho hw hs hlen
  cases hs with
  | send _ _ => exact ⟨fun hl u hu => hnext rfl hl hu, h.kept⟩
  | discard _ _ => exact ⟨fun hl u hu => hnext rfl hl hu, h.kept⟩
  | @deliver i n e t hi hid ht =>
    refine ⟨fun hl u hu => hnext List.length_set hl hu, fun hc u hu => ?_⟩
    refine kept_set hi (fun hg => ?_) (h.kept hc u hu)
    rw [Node.get?_receive]
    split
    · split
      · exact hg
      · rw [hg]
        rfl
    · exact hg
  | @submit i n n' x s ids ids' t hi hsub ht =>
    have hs := Node.submit_eq_ok hsub
    have hmem {u : Update} (hu : u ∈ ({ w.toTrace with
        submissions := w.submissions ++ [⟨x, s⟩] } : Trace).updates) :
        u ∈ w.updates ∨ s.update = some u := by
      rw [updates_concat] at hu
      exact (List.mem_append.1 hu).imp_right Option.mem_toList.1
    refine ⟨fun hl u hu => ?_, fun hc u hu => ?_⟩
    · rcases hmem hu with hold | hnew
      · exact hnext List.length_set hl hold
      · exact covers_committed hw hi hs hnew ht
    · rcases hmem hu with hold | hnew
      · apply kept_set hi (fun hg => ?_) (h.kept hc u hold)
        rw [hs.get?_history, hg]
        rfl
      · refine ⟨i, n', Cluster.getElem?_set_self' hi, ?_⟩
        rw [hs.get?_history, hw.not_retained (x := ⟨x, s⟩) hi hnew hids, hnew]
        exact if_pos rfl
  | decide _ _ => exact ⟨fun hl u hu => hnext rfl hl hu, h.kept⟩
  | @complete q outcome rest n n' result t hout hi hcomplete ht =>
    refine ⟨fun hl u hu => hnext List.length_set hl hu, fun hc u hu => ?_⟩
    have hh : n'.history = n.history := (Node.complete_rest hcomplete).2.2.2.2
    exact kept_set hi (fun hg => hh ▸ hg) (h.kept hc u hu)
  | ignore _ _ _ => exact ⟨fun hl u hu => hnext rfl hl hu, h.kept⟩
  | collect =>
    refine ⟨fun hl u hu => hnext (List.length_map _) hl hu, fun hc u hu => ?_⟩
    obtain ⟨hc, hsum⟩ := Nat.add_eq_zero_iff.1 hc
    obtain ⟨i, n, hi, hg⟩ := h.kept hc u hu
    have hzero : n.collectGarbage.1 = 0 := List.sum_eq_zero_iff_forall_eq_nat.1 hsum _
      (List.mem_map_of_mem (List.mem_of_getElem? hi))
    refine ⟨i, n.collectGarbage.2, by rw [List.getElem?_map, hi]; rfl, ?_⟩
    have hu' := CausalHistory.updates_prune hzero
    unfold CausalHistory.get? at hg ⊢
    exact hu' ▸ hg
  | join ht =>
    refine ⟨fun hl u hu => ?_, fun hc u hu => ?_⟩
    · -- No update was dropped so far, so someone retains it and sends it to the newcomer.
      have hl : ¬ (w.late ∨ 0 < w.collected) := hl
      obtain ⟨hl, hc⟩ := not_or.1 hl
      obtain ⟨i, n, hi, hg⟩ := h.kept (Nat.eq_zero_of_not_pos hc) u hu
      exact (h.covered hl u hu).join ho hw ht
        ⟨_, mem_welcome _ _ hi hg, rfl, rfl⟩
    · obtain ⟨i, n, hi, hg⟩ := h.kept hc u hu
      refine ⟨i, n, ?_, hg⟩
      rw [List.getElem?_append_left (List.getElem?_eq_some_iff.1 hi).1]
      exact hi

end World
end Confluence
