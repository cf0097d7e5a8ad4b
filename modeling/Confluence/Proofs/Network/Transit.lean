import Confluence.Network.Delivery
import Confluence.Proofs.Fault
import Confluence.Proofs.Ordered

namespace Confluence

namespace Network
variable {μ : Type} {net net' : Network μ} {e : Envelope μ}

/-- The messages that are scheduled and those that are parked. -/
def transit (net : Network μ) : List (Envelope μ) := net.queue.values ++ net.parked

/-- The numbers of the scheduled messages have been given out. -/
def Numbered (net : Network μ) : Prop :=
  ∀ due e, net.queue.find? due = some e → due.sequence < net.nextSequence

/-- A network that differs from another one in the places of the messages alone. -/
structure Rearranges (net net' : Network μ) : Prop where
  numbered : net'.Numbered
  transit : net'.transit.Perm net.transit

theorem numbered_new (config : NetworkConfig) (seed : UInt64) :
    (new config seed : Network μ).Numbered := by
  intro due e h
  cases h

theorem transit_eq_nil_iff : net.transit = [] ↔ net.isQuiescent = true := by
  unfold transit isQuiescent OrderedMap.isEmpty OrderedMap.values
  rw [List.append_eq_nil_iff, List.map_eq_nil_iff, Bool.and_eq_true, List.isEmpty_iff,
    List.isEmpty_iff]

theorem schedule_transit (hn : net.Numbered) (h : net.schedule e = .ok net') :
    net'.Numbered ∧ net'.transit.Perm (e :: net.transit) := by
  unfold schedule at h
  obtain ⟨d, _, rfl⟩ := map_eq_ok h
  have hfresh : net.queue.find? ⟨d.1, net.nextSequence⟩ = none := by
    refine Option.eq_none_iff_forall_ne_some.2 fun x hx => ?_
    exact Nat.lt_irrefl _ (hn _ x hx)
  refine ⟨?_, ?_⟩
  · intro due x hx
    change (net.queue.insert _ e).find? due = some x at hx
    rw [OrderedMap.find?_insert] at hx
    split at hx
    · next hdue =>
      subst hdue
      exact Nat.lt_succ_self _
    · exact Nat.lt_succ_of_lt (hn due x hx)
  · exact ((OrderedMap.insert_entries_perm hfresh).map _).append_right _

theorem park_transit (net : Network μ) (e : Envelope μ) :
    (net.park e).transit.Perm (e :: net.transit) := by
  change (net.queue.values ++ (net.parked ++ [e])).Perm _
  rw [← List.append_assoc]
  exact List.perm_append_singleton ..

theorem release_transit (hn : net.Numbered) (h : net.release e = .ok net') :
    net'.Numbered ∧ net'.transit.Perm (e :: net.transit) := by
  unfold release at h
  split at h
  · cases h
    exact ⟨hn, park_transit net e⟩
  · exact schedule_transit hn h

theorem foldlM_release_transit {l : List (Envelope μ)} (hn : net.Numbered)
    (h : l.foldlM release net = .ok net') :
    net'.Numbered ∧ net'.transit.Perm (l ++ net.transit) := by
  induction l generalizing net with
  | nil =>
    cases h
    exact ⟨hn, .refl _⟩
  | cons e l ih =>
    rw [List.foldlM_cons] at h
    obtain ⟨mid, hr, h⟩ := bind_eq_ok h
    obtain ⟨hm, hp⟩ := release_transit hn hr
    obtain ⟨hn', hp'⟩ := ih hm h
    refine ⟨hn', hp'.trans ?_⟩
    exact (hp.append_left l).trans List.perm_middle

theorem releaseAll_rearranges (hn : net.Numbered) (h : net.releaseAll = .ok net') :
    net.Rearranges net' := by
  obtain ⟨hn', hp⟩ := @foldlM_release_transit μ { net with parked := [] } net' net.parked hn h
  refine ⟨hn', hp.trans ?_⟩
  have ht : ({ net with parked := [] } : Network μ).transit = net.queue.values :=
    List.append_nil _
  rw [ht]
  exact List.perm_append_comm

theorem healExpired_rearranges (hn : net.Numbered) (h : net.healExpired = .ok net') :
    net.Rearranges net' := by
  unfold healExpired at h
  dsimp only at h
  split at h
  · cases h
    exact ⟨hn, .refl _⟩
  · have hr := releaseAll_rearranges (by exact hn) h
    exact ⟨hr.numbered, hr.transit⟩

theorem healAll_rearranges (hn : net.Numbered) (h : net.healAll = .ok net') :
    net.Rearranges net' := by
  unfold healAll at h
  split at h
  · cases h
    exact ⟨hn, .refl _⟩
  · have hr := releaseAll_rearranges (by exact hn) h
    exact ⟨hr.numbered, hr.transit⟩

theorem advance_rearranges {ticks : UInt64} (hn : net.Numbered) (h : net.advance ticks = .ok net') :
    net.Rearranges net' := by
  obtain ⟨now, _, h⟩ := bind_eq_ok h
  have hr := healExpired_rearranges (by exact hn) h
  exact ⟨hr.numbered, hr.transit⟩

theorem cutOff_rearranges {side : List NodeId} {duration : Option UInt64} (hn : net.Numbered)
    (h : net.cutOff side duration = .ok net') : net.Rearranges net' := by
  obtain ⟨healsAt, _, h⟩ := bind_eq_ok h
  cases h
  exact ⟨hn, .refl _⟩

/-- A message that is sent is counted, and it is parked, or scheduled, or its copy is counted and it
is scheduled twice. -/
theorem send_eq_ok {source target : NodeId} {m : μ} (h : net.send source target m = .ok net') :
    let counted : Network μ := { net with stats := { net.stats with sent := net.stats.sent + 1 } }
    (net.isCut source target = true ∧ net' = counted.park ⟨source, target, m⟩) ∨
      (∃ random, { counted with random }.schedule ⟨source, target, m⟩ = .ok net') ∨
      ∃ random mid, { counted with
          random, stats := { counted.stats with duplicated := net.stats.duplicated + 1 } }.schedule
          ⟨source, target, m⟩ = .ok mid ∧
        mid.schedule ⟨source, target, m⟩ = .ok net' := by
  unfold send at h
  dsimp only at h
  split at h
  · next hcut =>
    cases h
    exact .inl ⟨hcut, rfl⟩
  · split at h
    · obtain ⟨mid, hm, h⟩ := bind_eq_ok h
      exact .inr (.inr ⟨_, mid, hm, h⟩)
    · exact .inr (.inl ⟨_, h⟩)

theorem send_transit {source target : NodeId} {m : μ} (hn : net.Numbered)
    (h : net.send source target m = .ok net') :
    net'.Numbered ∧ (net'.transit.Perm (⟨source, target, m⟩ :: net.transit) ∨
      net'.transit.Perm (⟨source, target, m⟩ :: ⟨source, target, m⟩ :: net.transit)) := by
  obtain ⟨_, rfl⟩ | ⟨_, hs⟩ | ⟨_, mid, hm, hs⟩ := send_eq_ok h
  · exact ⟨hn, .inl (park_transit _ _)⟩
  · obtain ⟨hn', hp⟩ := schedule_transit (by exact hn) hs
    exact ⟨hn', .inl hp⟩
  · obtain ⟨hmn, hmp⟩ := schedule_transit (by exact hn) hm
    obtain ⟨hn', hp⟩ := schedule_transit hmn hs
    exact ⟨hn', .inr (hp.trans (hmp.cons _))⟩

theorem numbered_rest {due : Due} {rest : OrderedMap Due (Envelope μ)} (hn : net.Numbered)
    (he : net.nextEvent = .arrive due e rest) (d : Due) (x : Envelope μ)
    (hx : rest.find? d = some x) : d.sequence < net.nextSequence := by
  have hq := OrderedMap.popFirst?_eq_some.1 (nextEvent_arrive he)
  refine hn d x (OrderedMap.find?_eq_some.2 ?_)
  rw [hq]
  exact List.mem_cons_of_mem _ (OrderedMap.find?_eq_some.1 hx)

theorem transit_of_nextEvent_arrive {due : Due} {rest : OrderedMap Due (Envelope μ)}
    (he : net.nextEvent = .arrive due e rest) :
    net.transit = e :: (rest.values ++ net.parked) := by
  rw [transit, OrderedMap.values, OrderedMap.popFirst?_eq_some.1 (nextEvent_arrive he)]
  rfl

/-- A delivery takes one message away, if there is one to deliver. -/
theorem nextDelivery_transit {delivered : Option (Envelope μ)} (hn : net.Numbered)
    (h : net.nextDelivery = .ok (delivered, net')) :
    net'.Numbered ∧ net.transit.Perm (delivered.toList ++ net'.transit) := by
  fun_induction nextDelivery net with
  | case1 net tick he f hf => cases h
  | case2 net tick he healed hh _ ih =>
    have hr := @healExpired_rearranges μ (net.reach tick) healed hn hh
    obtain ⟨hn', hp⟩ := ih hr.numbered h
    exact ⟨hn', hr.transit.symm.trans hp⟩
  | case3 net due e rest he _ _ hcut ih =>
    obtain ⟨hn', hp⟩ := ih (fun d x hx => numbered_rest hn he d x hx) h
    refine ⟨hn', .trans ?_ hp⟩
    rw [transit_of_nextEvent_arrive he]
    exact (park_transit { net with queue := rest } e).symm
  | case4 net due e rest he _ _ hcut =>
    cases h
    refine ⟨fun d x hx => numbered_rest hn he d x hx, ?_⟩
    rw [transit_of_nextEvent_arrive he]
    exact .refl _
  | case5 net he =>
    cases h
    exact ⟨hn, .refl _⟩

end Network
end Confluence
