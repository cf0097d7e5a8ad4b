import Confluence.Proofs.Network.FaultFree

namespace Confluence.Network
variable {μ : Type}

/-- A message that was sent, and when it is due. Its number counts the messages sent before it. -/
structure Parcel (μ : Type) where
  due : Due
  envelope : Envelope μ

/-- The parcel goes from one node to the other. -/
def Parcel.isOn (a b : NodeId) (p : Parcel μ) : Bool :=
  p.envelope.source = a ∧ p.envelope.target = b

/-- What calls do that are served in order. Those in `sent` have been sent, each of them due when the
delay of its link is over, and those in `handed` have been handed out. A call that neither sends a
message nor hands one out is no delivery, or there is none left. -/
inductive Served (delay : NodeId → NodeId → UInt64) :
    List (Record μ) → List (Parcel μ) → List (Parcel μ) → Prop
  | nil : Served delay [] [] []
  | send {past : List (Record μ)} {sent handed : List (Parcel μ)} {r : Record μ} {e : Envelope μ}
      {tick : UInt64} :
    Served delay past sent handed → r.sent? = some e → r.delivered = none →
    tick.toNat = r.before.now.toNat + (delay e.source e.target).toNat →
    Served delay (past ++ [r]) (sent ++ [⟨⟨tick, sent.length⟩, e⟩]) handed
  | take {past : List (Record μ)} {sent handed : List (Parcel μ)} {r : Record μ} {p : Parcel μ} :
    Served delay past sent handed → r.call = .deliver → p ∈ sent → p ∉ handed →
    (∀ q ∈ sent, q ∉ handed → q ≠ p → p.due.Precedes q.due) → r.delivered = some p.envelope →
    r.after.now = max r.before.now p.due.tick →
    Served delay (past ++ [r]) sent (handed ++ [p])
  | pass {past : List (Record μ)} {sent handed : List (Parcel μ)} {r : Record μ} :
    Served delay past sent handed → r.sent? = none → r.delivered = none →
    (r.call = .deliver → ∀ p ∈ sent, p ∈ handed) → Served delay (past ++ [r]) sent handed

variable {delay delay' : NodeId → NodeId → UInt64} {past : List (Record μ)}
  {sent handed : List (Parcel μ)}

theorem Record.sent?_of_deliver {r : Record μ} (h : r.call = .deliver) : r.sent? = none := by
  rw [sent?, h]

namespace Served

theorem sent_eq (h : Served delay past sent handed) :
    sent.map (·.envelope) = past.filterMap (·.sent?) := by
  induction h with
  | nil => rfl
  | send _ hsent _ _ ih =>
    rw [Journal.filterMap_concat, hsent, List.map_append, ih]
    rfl
  | take _ hcall _ _ _ _ _ ih =>
    rw [Journal.filterMap_concat, Record.sent?_of_deliver hcall, ih]
    exact (List.append_nil _).symm
  | pass _ hsent _ _ ih =>
    rw [Journal.filterMap_concat, hsent, ih]
    exact (List.append_nil _).symm

theorem handed_eq (h : Served delay past sent handed) :
    handed.map (·.envelope) = past.filterMap (·.delivered) := by
  induction h with
  | nil => rfl
  | send _ _ hnone _ ih =>
    rw [Journal.filterMap_concat, hnone, ih]
    exact (List.append_nil _).symm
  | take _ _ _ _ _ hsome _ ih =>
    rw [Journal.filterMap_concat, hsome, List.map_append, ih]
    rfl
  | pass _ _ hnone _ ih =>
    rw [Journal.filterMap_concat, hnone, ih]
    exact (List.append_nil _).symm

theorem sequence_lt (h : Served delay past sent handed) :
    ∀ p ∈ sent, p.due.sequence < sent.length := by
  induction h with
  | nil => nofun
  | send _ _ _ _ ih =>
    intro p hp
    rw [List.length_append]
    rcases List.mem_append.1 hp with hp | hp
    · exact Nat.lt_succ_of_lt (ih p hp)
    · rw [List.mem_singleton.1 hp]
      exact Nat.lt_succ_self _
  | take _ _ _ _ _ _ _ ih => exact ih
  | pass _ _ _ _ ih => exact ih

theorem numbered (h : Served delay past sent handed) :
    sent.Pairwise fun p q => p.due.sequence < q.due.sequence := by
  induction h with
  | nil => exact .nil
  | send hs _ _ _ ih =>
    refine List.pairwise_append.2 ⟨ih, List.pairwise_singleton .., fun p hp q hq => ?_⟩
    rw [List.mem_singleton.1 hq]
    exact hs.sequence_lt p hp
  | take _ _ _ _ _ _ _ ih => exact ih
  | pass _ _ _ _ ih => exact ih

theorem nodup_sent (h : Served delay past sent handed) : sent.Nodup := by
  refine h.numbered.imp fun {p q} hlt he => ?_
  rw [he] at hlt
  exact Nat.lt_irrefl _ hlt

theorem subset (h : Served delay past sent handed) : handed ⊆ sent := by
  induction h with
  | nil => exact List.Subset.refl _
  | send _ _ _ _ ih => exact List.Subset.trans ih (List.subset_append_left ..)
  | take _ _ hmem _ _ _ _ ih =>
    exact List.append_subset.2 ⟨ih, List.cons_subset.2 ⟨hmem, List.nil_subset _⟩⟩
  | pass _ _ _ _ ih => exact ih

theorem nodup (h : Served delay past sent handed) : handed.Nodup := by
  induction h with
  | nil => exact .nil
  | send _ _ _ _ ih => exact ih
  | take _ _ _ hnew _ _ _ ih => exact List.nodup_append_comm.1 (List.nodup_cons.2 ⟨hnew, ih⟩)
  | pass _ _ _ _ ih => exact ih

theorem of_unsent (h : Served delay past sent handed) (hsent : sent = []) :
    Served delay' past [] [] := by
  have hhanded := List.subset_nil.1 (hsent ▸ h.subset)
  induction h with
  | nil => exact .nil
  | send _ _ _ _ _ => exact absurd hsent (List.concat_ne_nil _ _)
  | take _ _ _ _ _ _ _ _ => exact absurd hhanded (List.concat_ne_nil _ _)
  | pass _ hsent? hnone _ ih => exact .pass (ih hsent hhanded) hsent? hnone nofun

end Served

/-- Of two parcels on a link, the one that was sent later is not due earlier. -/
def InOrder (sent : List (Parcel μ)) : Prop :=
  sent.Pairwise fun p q => ∀ a b, p.isOn a b → q.isOn a b → p.due.tick ≤ q.due.tick

theorem Served.precedes (h : Served delay past sent handed) (ho : InOrder sent) {a b : NodeId}
    {l rest : List (Parcel μ)} {p q : Parcel μ}
    (hl : l ++ p :: rest = sent.filter (Parcel.isOn a b)) (hq : q ∈ rest) :
    p.due.Precedes q.due := by
  have hpairs := (h.numbered.and ho).filter (Parcel.isOn a b)
  have hon : ∀ x ∈ p :: rest, x.isOn a b := by
    intro x hx
    have hx : x ∈ sent.filter (Parcel.isOn a b) := hl ▸ List.mem_append_right l hx
    exact (List.mem_filter.1 hx).2
  rw [← hl] at hpairs
  obtain ⟨hlt, hle⟩ := (List.pairwise_cons.1 (List.pairwise_append.1 hpairs).2.1).1 q hq
  have hle := hle a b (hon p List.mem_cons_self) (hon q (List.mem_cons_of_mem _ hq))
  rcases UInt64.lt_or_eq_of_le hle with htick | htick
  · exact .inl htick
  · exact .inr ⟨htick, hlt⟩

/-- The parcels of a link are handed out in the order in which they were sent. -/
theorem Served.filter_prefix (h : Served delay past sent handed) (ho : InOrder sent)
    (a b : NodeId) : handed.filter (Parcel.isOn a b) <+: sent.filter (Parcel.isOn a b) := by
  induction h with
  | nil => exact List.prefix_rfl
  | send _ _ _ _ ih =>
    rw [List.filter_append]
    exact (ih (List.pairwise_append.1 ho).1).trans (List.prefix_append ..)
  | @take past sent handed r p hs _ hmem hnew hfirst _ _ ih =>
    obtain ⟨waiting, hwaiting⟩ := ih ho
    rw [List.filter_append]
    by_cases hon : p.isOn a b
    · have hp : p ∈ handed.filter (Parcel.isOn a b) ++ waiting :=
        hwaiting ▸ List.mem_filter.2 ⟨hmem, hon⟩
      have hp := (List.mem_append.1 hp).resolve_left fun hp => hnew (List.mem_of_mem_filter hp)
      cases waiting with
      | nil => cases hp
      | cons x rest =>
        have hnodup := hs.nodup_sent.filter (Parcel.isOn a b)
        have hx : x ∈ sent.filter (Parcel.isOn a b) :=
          hwaiting ▸ List.mem_append_right _ List.mem_cons_self
        obtain ⟨hx, hxon⟩ := List.mem_filter.1 hx
        rw [← hwaiting] at hnodup
        have hxnew : x ∉ handed := fun hx =>
          List.disjoint_of_nodup_append hnodup (List.mem_filter.2 ⟨hx, hxon⟩) List.mem_cons_self
        -- The first of those waiting on the link is due before the others, so it is the one.
        have hxp : x = p := by
          by_contra hne
          have hrest := (List.mem_cons.1 hp).resolve_left fun he => hne he.symm
          exact (hfirst x hx hxnew hne).asymm (hs.precedes ho hwaiting hrest)
        rw [List.filter_cons_of_pos hon, List.filter_nil, ← hwaiting, hxp]
        exact ⟨rest, List.append_assoc ..⟩
    · rw [List.filter_cons_of_neg hon, List.filter_nil, List.append_nil]
      exact ⟨waiting, hwaiting⟩
  | pass _ _ _ _ ih => exact ih ho

/-- The network has scheduled just the parcels that were sent and not handed out, each when it is due.
None of them is due later than one would be that is sent now on its link. -/
structure Orderly (delay : NodeId → NodeId → UInt64) (j : Journal μ)
    (sent handed : List (Parcel μ)) : Prop where
  served : Served delay j.past sent handed
  faultFree : j.network.config.IsFaultFree
  partitions : j.network.partitions = []
  linkDelay : ∀ a b, j.network.linkDelay a b = delay a b
  numbered : j.network.nextSequence = sent.length
  waiting : ∀ due e, j.network.queue.find? due = some e ↔ ⟨due, e⟩ ∈ sent ∧ ⟨due, e⟩ ∉ handed
  soon : ∀ p ∈ sent, p.due.tick.toNat ≤
    j.network.now.toNat + (delay p.envelope.source p.envelope.target).toNat
  inOrder : InOrder sent

variable {j j' : Journal μ} {call : Call μ} {calls : List (Call μ)} {due : Due} {e : Envelope μ}
  {rest : OrderedMap Due (Envelope μ)} {config : NetworkConfig} {seed : UInt64}

theorem orderly_new (hc : config.IsFaultFree) :
    Orderly (Network.new config seed : Network μ).linkDelay (Journal.new config seed : Journal μ)
      [] [] where
  served := .nil
  faultFree := hc
  partitions := rfl
  linkDelay _ _ := rfl
  numbered := rfl
  waiting due e := by simp [Journal.new, Network.new]
  soon p hp := by cases hp
  inOrder := .nil

namespace Orderly

/-- A message that is sent now is due no earlier than those that were sent before it on its link. -/
theorem send {source target : NodeId} {m : μ} (h : Orderly delay j sent handed)
    (hp : j.perform (.send source target m) = .ok j') :
    ∃ p, Orderly delay j' (sent ++ [p]) handed := by
  obtain ⟨⟨delivered, network⟩, hr, rfl⟩ := map_eq_ok hp
  obtain ⟨_, hs, he⟩ := map_eq_ok hr
  cases he
  obtain ⟨tick, htick, rfl⟩ := send_of_isFaultFree h.faultFree h.partitions hs
  rw [h.linkDelay] at htick
  have hnew : ∀ p ∈ sent, p.due ≠ ⟨tick, sent.length⟩ := by
    intro p hp he
    have hlt := h.served.sequence_lt p hp
    rw [he] at hlt
    exact Nat.lt_irrefl _ hlt
  refine ⟨⟨⟨tick, sent.length⟩, ⟨source, target, m⟩⟩, ?_⟩
  constructor
  case served => exact .send h.served rfl rfl htick
  case faultFree => exact h.faultFree
  case partitions => exact h.partitions
  case linkDelay => exact h.linkDelay
  case numbered =>
    rw [List.length_append, ← h.numbered]
    rfl
  case waiting =>
    intro due e
    change (j.network.queue.insert ⟨tick, j.network.nextSequence⟩ _).find? due = some e ↔ _
    rw [OrderedMap.find?_insert, h.numbered, List.mem_append, List.mem_singleton]
    split
    · next hdue =>
      subst hdue
      constructor
      · rintro ⟨rfl⟩
        exact ⟨.inr rfl, fun hmem => hnew _ (h.served.subset hmem) rfl⟩
      · rintro ⟨hmem | hmem, _⟩
        · exact absurd rfl (hnew _ hmem)
        · cases hmem
          rfl
    · next hdue =>
      have hne : (⟨due, e⟩ : Parcel μ) ≠ ⟨⟨tick, sent.length⟩, ⟨source, target, m⟩⟩ := by
        rintro ⟨rfl, _⟩
        exact hdue rfl
      rw [h.waiting, or_iff_left hne]
  case soon =>
    intro p hp
    rcases List.mem_append.1 hp with hp | hp
    · exact h.soon p hp
    · rw [List.mem_singleton.1 hp]
      exact Nat.le_of_eq htick
  case inOrder =>
    refine List.pairwise_append.2 ⟨h.inOrder, List.pairwise_singleton .., ?_⟩
    intro p hp q hq a b hpa hqa
    obtain rfl := List.mem_singleton.1 hq
    obtain ⟨rfl, rfl⟩ := of_decide_eq_true hpa
    obtain ⟨hsource, htarget⟩ := of_decide_eq_true hqa
    have hsoon := h.soon p hp
    rw [← hsource, ← htarget, ← htick] at hsoon
    exact UInt64.le_iff_toNat_le.2 hsoon

/-- The parcel that is due first is handed out. -/
theorem take (h : Orderly delay j sent handed)
    (hq : j.network.queue.popFirst? = some ((due, e), rest)) :
    Orderly delay ⟨j.network.handOut due rest,
      j.past ++ [⟨j.network, .deliver, some e, j.network.handOut due rest⟩]⟩ sent
      (handed ++ [⟨due, e⟩]) := by
  have hfirst : j.network.queue.find? due = some e :=
    OrderedMap.find?_eq_some.2 (OrderedMap.popFirst?_eq_some.1 hq ▸ List.mem_cons_self)
  obtain ⟨hmem, hnew⟩ := (h.waiting due e).1 hfirst
  have hnow : j.network.now ≤ (j.network.handOut due rest).now :=
    (reach_counts j.network due.tick).now
  constructor
  case served =>
    refine .take h.served rfl hmem hnew (fun q hq' hwaits hne => ?_) rfl rfl
    have hfind := (h.waiting q.due q.envelope).2 ⟨hq', hwaits⟩
    have hrest := OrderedMap.find?_of_popFirst? hq q.due
    split at hrest
    · next hdue =>
      rw [hdue, hfirst] at hfind
      cases hdue
      cases hfind
      exact absurd rfl hne
    · exact Due.precedes_of_compare (OrderedMap.lt_of_popFirst? hq (hrest.trans hfind))
  case faultFree => exact h.faultFree
  case partitions => exact h.partitions
  case linkDelay => exact h.linkDelay
  case numbered => exact h.numbered
  case waiting =>
    intro d x
    change rest.find? d = some x ↔ _
    rw [OrderedMap.find?_of_popFirst? hq, List.mem_append, List.mem_singleton]
    split
    · next hdue =>
      subst hdue
      refine iff_of_false nofun fun ⟨hx, hnone⟩ => ?_
      have hfind := h.waiting d x |>.2 ⟨hx, fun hmem => hnone (.inl hmem)⟩
      rw [hfirst] at hfind
      cases hfind
      exact hnone (.inr rfl)
    · next hdue =>
      have hne : (⟨d, x⟩ : Parcel μ) ≠ ⟨due, e⟩ := by
        rintro ⟨rfl, _⟩
        exact hdue rfl
      rw [h.waiting, or_iff_left hne]
  case soon =>
    intro p hp
    exact Nat.le_trans (h.soon p hp) (Nat.add_le_add_right (UInt64.le_iff_toNat_le.1 hnow) _)
  case inOrder => exact h.inOrder

theorem mem_handed_of_empty (h : Orderly delay j sent handed) (hq : j.network.queue = .empty)
    {p : Parcel μ} (hp : p ∈ sent) : p ∈ handed := by
  by_contra hwaits
  have hfind := (h.waiting p.due p.envelope).2 ⟨hp, hwaits⟩
  rw [hq] at hfind
  cases hfind

/-- A delivery hands out the parcel that is due first, or there is none left. -/
theorem deliver (h : Orderly delay j sent handed) (hp : j.perform .deliver = .ok j') :
    ∃ handed', Orderly delay j' sent handed' := by
  obtain ⟨⟨delivered, network⟩, hd, rfl⟩ := map_eq_ok hp
  have hd : j.network.nextDelivery = .ok (delivered, network) := hd
  cases hq : j.network.queue.popFirst? with
  | some first =>
    obtain ⟨⟨due, e⟩, rest⟩ := first
    rw [nextDelivery_of_popFirst? h.partitions hq] at hd
    cases hd
    exact ⟨_, h.take hq⟩
  | none =>
    have hempty := OrderedMap.popFirst?_eq_none.1 hq
    rw [nextDelivery_of_empty h.partitions hempty] at hd
    cases hd
    have hserved := h.served.pass (r := ⟨j.network, .deliver, none, j.network⟩) rfl rfl
      fun _ p hp => h.mem_handed_of_empty hempty hp
    exact ⟨handed, { h with served := hserved }⟩

theorem advance {ticks : UInt64} (h : Orderly delay j sent handed)
    (hp : j.perform (.advance ticks) = .ok j') : Orderly delay j' sent handed := by
  obtain ⟨⟨delivered, network⟩, hr, rfl⟩ := map_eq_ok hp
  obtain ⟨_, ha, he⟩ := map_eq_ok hr
  cases he
  obtain ⟨now, hnow, rfl⟩ := advance_of_partitions h.partitions ha
  refine { h with served := .pass h.served rfl rfl nofun, soon := fun p hp => ?_ }
  change p.due.tick.toNat ≤ now.toNat + _
  rw [hnow]
  exact Nat.le_trans (h.soon p hp) (Nat.add_le_add_right (Nat.le_add_right ..) _)

theorem setLinkDelay {source target : NodeId} {ticks : UInt64} (h : Orderly delay j [] [])
    (hp : j.perform (.setLinkDelay source target ticks) = .ok j') :
    Orderly j'.network.linkDelay j' [] [] := by
  cases hp
  exact {
    served := .pass (h.served.of_unsent rfl) rfl rfl nofun
    faultFree := h.faultFree
    partitions := h.partitions
    linkDelay := fun _ _ => rfl
    numbered := h.numbered
    waiting := h.waiting
    soon := nofun
    inOrder := .nil }

theorem setLinkDelays {delays : List (NodeId × NodeId × UInt64)}
    (h : Orderly j.network.linkDelay j [] []) :
    ∃ j', j.performAll (delays.map fun d => .setLinkDelay d.1 d.2.1 d.2.2) = .ok j' ∧
      Orderly j'.network.linkDelay j' [] [] := by
  induction delays generalizing j with
  | nil => exact ⟨j, rfl, h⟩
  | cons d delays ih => exact ih (@setLinkDelay _ _ j _ d.1 d.2.1 d.2.2 h rfl)

end Orderly

/-- A message is sent, one is delivered, or time passes. -/
def Call.IsPlain : Call μ → Prop
  | .send .. | .deliver | .advance _ => True
  | _ => False

instance : (call : Call μ) → Decidable call.IsPlain
  | .send .. | .deliver | .advance _ => .isTrue trivial
  | .cutOff .. | .heal | .setLinkDelay .. => .isFalse id

namespace Orderly

theorem perform (h : Orderly delay j sent handed) (hcall : call.IsPlain)
    (hp : j.perform call = .ok j') : ∃ sent' handed', Orderly delay j' sent' handed' := by
  cases call with
  | send source target m =>
    obtain ⟨p, h'⟩ := h.send hp
    exact ⟨sent ++ [p], handed, h'⟩
  | deliver =>
    obtain ⟨handed', h'⟩ := h.deliver hp
    exact ⟨sent, handed', h'⟩
  | advance ticks => exact ⟨sent, handed, h.advance hp⟩
  | cutOff side duration => cases hcall
  | heal => cases hcall
  | setLinkDelay source target ticks => cases hcall

theorem performAll (h : Orderly delay j sent handed) (hcalls : ∀ call ∈ calls, call.IsPlain)
    (hp : j.performAll calls = .ok j') : ∃ sent' handed', Orderly delay j' sent' handed' := by
  induction calls generalizing j sent handed with
  | nil =>
    cases hp
    exact ⟨sent, handed, h⟩
  | cons call calls ih =>
    obtain ⟨mid, hm, hp⟩ := bind_eq_ok hp
    obtain ⟨sent', handed', hmid⟩ := h.perform (hcalls call List.mem_cons_self) hm
    exact ih hmid (fun x hx => hcalls x (List.mem_cons_of_mem _ hx)) hp

/-- As many deliveries as messages are scheduled hand all of them out. -/
theorem drain (h : Orderly delay j sent handed) :
    ∃ j' handed', j.performAll (List.replicate j.network.inFlight .deliver) = .ok j' ∧
      Orderly delay j' sent handed' ∧ j'.network.queue = .empty := by
  generalize hn : j.network.inFlight = n
  induction n generalizing j handed with
  | zero =>
    have hempty : j.network.queue = .empty := OrderedMap.ext (List.eq_nil_of_length_eq_zero hn)
    exact ⟨j, handed, rfl, h, hempty⟩
  | succ n ih =>
    cases hq : j.network.queue.popFirst? with
    | none =>
      rw [inFlight, OrderedMap.popFirst?_eq_none.1 hq] at hn
      cases hn
    | some first =>
      obtain ⟨⟨due, e⟩, rest⟩ := first
      have hrest : rest.size = n := by
        have hsize := OrderedMap.size_popFirst? hq
        rw [inFlight] at hn
        omega
      obtain ⟨j', handed', hj', hend⟩ := ih (h.take hq) hrest
      refine ⟨j', handed', ?_, hend⟩
      rw [Journal.performAll, List.replicate_succ, List.foldlM_cons, Journal.perform, Call.perform,
        nextDelivery_of_popFirst? h.partitions hq]
      exact hj'

theorem perm_of_empty (h : Orderly delay j sent handed) (hq : j.network.queue = .empty) :
    handed.Perm sent :=
  (List.perm_ext_iff_of_nodup h.served.nodup h.served.nodup_sent).2 fun _ =>
    ⟨fun hp => h.served.subset hp, h.mem_handed_of_empty hq⟩

end Orderly

theorem filter_map_isOn (l : List (Parcel μ)) (a b : NodeId) :
    (l.map (·.envelope)).filter (fun e => e.source = a ∧ e.target = b) =
      (l.filter (Parcel.isOn a b)).map (·.envelope) := by
  rw [List.filter_map]
  rfl

/-- A network without faults serves its messages in order. However messages, deliveries and waiting
interleave, and whatever the delays of the links, a delivery hands out the message that is due first of
those that wait, and the one sent first of those due at one tick, not before that tick. No message is
handed out twice, and those of a link come out in the order in which they were sent. As many more
deliveries as messages are scheduled hand out all that were sent. -/
theorem served_of_performAll {delays : List (NodeId × NodeId × UInt64)} (hc : config.IsFaultFree)
    (hcalls : ∀ call ∈ calls, call.IsPlain)
    (hoverflow : (Journal.new config seed).performAll
      (delays.map (fun d => .setLinkDelay d.1 d.2.1 d.2.2) ++ calls) ≠ .error .overflow) :
    ∃ (j : Journal μ) (sent handed : List (Parcel μ)),
      (Journal.new config seed).performAll
        (delays.map (fun d => .setLinkDelay d.1 d.2.1 d.2.2) ++ calls) = .ok j ∧
      Served j.network.linkDelay j.past sent handed ∧
      sent.map (·.envelope) = j.sent ∧ handed.map (·.envelope) = j.delivered ∧
      handed.Nodup ∧ handed ⊆ sent ∧
      (∀ a b, j.delivered.filter (fun e => e.source = a ∧ e.target = b) <+:
        j.sent.filter (fun e => e.source = a ∧ e.target = b)) ∧
      ∃ j', j.performAll (List.replicate j.network.inFlight .deliver) = .ok j' ∧
        j'.sent = j.sent ∧ j'.delivered.Perm j.sent := by
  obtain ⟨j, hj⟩ := (Journal.performAll_overflowsOnly ..).exists_ok fun f hf => hf ▸ hoverflow
  obtain ⟨start, hstart, hs⟩ := @Orderly.setLinkDelays μ (.new config seed) delays (orderly_new hc)
  have hrest : start.performAll calls = .ok j := by
    have happend := hj
    rw [Journal.performAll, List.foldlM_append] at happend
    obtain ⟨mid, hmid, hrest⟩ := bind_eq_ok happend
    cases hstart.symm.trans hmid
    exact hrest
  obtain ⟨sent, handed, h⟩ := hs.performAll hcalls hrest
  have hsent : sent.map (·.envelope) = j.sent := h.served.sent_eq
  have hhanded : handed.map (·.envelope) = j.delivered := h.served.handed_eq
  obtain ⟨j', handed', hdrain, h', hempty⟩ := h.drain
  have hsent' : sent.map (·.envelope) = j'.sent := h'.served.sent_eq
  have hhanded' : handed'.map (·.envelope) = j'.delivered := h'.served.handed_eq
  refine ⟨j, sent, handed, hj, ?_, hsent, hhanded, h.served.nodup, h.served.subset, fun a b => ?_,
    j', hdrain, hsent'.symm.trans hsent, ?_⟩
  · have hdelay : start.network.linkDelay = j.network.linkDelay := by
      funext a b
      exact (h.linkDelay a b).symm
    exact hdelay ▸ h.served
  · rw [← hsent, ← hhanded, filter_map_isOn, filter_map_isOn]
    exact (h.served.filter_prefix h.inOrder a b).map _
  · rw [← hhanded', ← hsent]
    exact (h'.perm_of_empty hempty).map _

/-- Two links are faster than a third one. Twice two messages are due at once and come out in the order
in which they were sent; the clock is already past the tick of one of them. -/
theorem served_of_performAll_ties :
    ∃ (j : Journal String) (sent handed : List (Parcel String)),
      (Journal.new ⟨1, 0, 0, 0, 8⟩ 7).performAll
        ([("a", "b", 5), ("a", "c", 2), ("b", "c", 2)].map (fun d => .setLinkDelay d.1 d.2.1 d.2.2) ++
          [.send "a" "b" "slow", .send "a" "c" "x", .send "b" "c" "y", .deliver, .advance 1,
            .send "a" "b" "late", .send "a" "c" "z", .deliver, .deliver, .deliver]) = .ok j ∧
      Served j.network.linkDelay j.past sent handed ∧
      handed.map (·.envelope.message) = ["x", "y", "slow", "z"] ∧
      ∃ j', j.performAll [.deliver] = .ok j' ∧ j'.delivered.Perm j.sent := by
  obtain ⟨j, hp, hj⟩ := @exists_of_endsWith _ _ ((Journal.new ⟨1, 0, 0, 0, 8⟩ 7).performAll
        ([("a", "b", 5), ("a", "c", 2), ("b", "c", 2)].map (fun d => .setLinkDelay d.1 d.2.1 d.2.2) ++
          [.send "a" "b" "slow", .send "a" "c" "x", .send "b" "c" "y", .deliver, .advance 1,
            .send "a" "b" "late", .send "a" "c" "z", .deliver, .deliver, .deliver]))
    (fun j : Journal String => j.delivered.map (·.message) = ["x", "y", "slow", "z"] ∧
      j.network.inFlight = 1)
    (by decide +kernel)
  obtain ⟨hmessages, hflight⟩ := of_decide_eq_true hj
  obtain ⟨j', sent, handed, hp', hserved, _, hhanded, _, _, _, last, hlast, _, hperm⟩ :=
    served_of_performAll (NetworkConfig.isFaultFree_zero 1 8) (by decide) (ne_error_of_eq_ok hp)
  cases hp.symm.trans hp'
  rw [hflight] at hlast
  refine ⟨j, sent, handed, hp, hserved, ?_, last, hlast, hperm⟩
  rw [← hhanded, List.map_map] at hmessages
  exact hmessages

end Confluence.Network
