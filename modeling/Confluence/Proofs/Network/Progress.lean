import Confluence.Proofs.Network.Overflow

namespace Confluence.Network
variable {μ : Type} {net net' healed final : Network μ} {e : Envelope μ} {f : Fault}
  {call : Call μ} {calls : List (Call μ)} {delivered : Option (Envelope μ)}
  {arrivals : List (UInt64 × Envelope μ)} {budget : Nat}

/-- What holds of a network whatever is done with it. -/
structure Sound (net : Network μ) : Prop where
  numbered : net.Numbered
  parks : net.ParksBehindCuts
  ahead : net.Ahead

theorem sound_new (config : NetworkConfig) (seed : UInt64) :
    (new config seed : Network μ).Sound where
  numbered := numbered_new config seed
  parks e he := by cases he
  ahead p hp := by cases hp

theorem Call.perform_ahead (ha : net.Ahead) (h : call.perform net = .ok (delivered, net')) :
    net'.Ahead := by
  cases call with
  | send source target m =>
    obtain ⟨_, hs, he⟩ := map_eq_ok h
    cases he
    exact ha.rests (send_rests hs)
  | deliver => exact nextDelivery_ahead ha h
  | advance ticks =>
    obtain ⟨_, hs, he⟩ := map_eq_ok h
    cases he
    exact (advance_ahead hs).2
  | cutOff side duration =>
    obtain ⟨_, hs, he⟩ := map_eq_ok h
    cases he
    exact (cutOff_ahead ha hs).2
  | heal =>
    obtain ⟨_, hs, he⟩ := map_eq_ok h
    cases he
    exact (healAll_ahead hs).2
  | setLinkDelay source target delay =>
    cases h
    exact ha

theorem Sound.perform (hs : net.Sound) (call : Call μ)
    (h : call.perform net = .ok (delivered, net')) : net'.Sound := by
  have hb := Call.perform_balanced hs.numbered h
  exact ⟨hb.numbered, hb.counts.parks hs.parks, Call.perform_ahead hs.ahead h⟩

theorem Journal.sound {config : NetworkConfig} {seed : UInt64} {j : Journal μ}
    (hp : (Journal.new config seed).performAll calls = .ok j) : j.network.Sound := by
  refine foldlM_keeps (p := fun j : Journal μ => j.network.Sound) ?_ (sound_new config seed) hp
  intro j call j' hj hc
  obtain ⟨⟨delivered, network⟩, hr, rfl⟩ := map_eq_ok hc
  exact hj.perform call hr

theorem isQuiescent_iff : net.isQuiescent = true ↔ net.queue = .empty ∧ net.parked = [] := by
  rw [isQuiescent, Bool.and_eq_true, OrderedMap.isEmpty_iff, List.isEmpty_iff]

/-- The loop of a delivery, an event a round, for so many rounds at most. -/
def deliverWithin (net : Network μ) (rounds : Nat) :
    Option (Except Fault (Option (Envelope μ) × Network μ)) :=
  match rounds with
  | 0 => none
  | rounds + 1 =>
    match net.nextEvent with
    | .heal tick =>
      match (net.reach tick).healExpired with
      | .error fault => some (.error fault)
      | .ok healed => healed.deliverWithin rounds
    | .arrive due e rest =>
      let net := { net.reach due.tick with queue := rest }
      if net.isCut e.source e.target then (net.park e).deliverWithin rounds
      else some (.ok (some e, { net with
        stats := { net.stats with delivered := net.stats.delivered + 1 } }))
    | .nothing => some (.ok (none, net))

theorem deliverWithin_eq {rounds : Nat} (h : net.pendingEvents < rounds) :
    net.deliverWithin rounds = some net.nextDelivery := by
  induction rounds generalizing net with
  | zero => exact absurd h (Nat.not_lt_zero _)
  | succ rounds ih =>
    have hle := Nat.le_of_lt_succ h
    fun_cases nextDelivery net with
    | case1 tick he f hf => simp only [deliverWithin, he, hf]
    | case2 tick he healed hh hlt =>
      simp only [deliverWithin, he, hh]
      exact ih (Nat.lt_of_lt_of_le hlt hle)
    | case3 due e rest he hlt mid hcut =>
      simp only [deliverWithin, he]
      rw [if_pos hcut]
      exact ih (Nat.lt_of_lt_of_le hlt hle)
    | case4 due e rest he hlt mid hcut =>
      simp only [deliverWithin, he]
      rw [if_neg hcut]
    | case5 he => simp only [deliverWithin, he]

/-- A partition without an end cuts the link. -/
def CutForGood (net : Network μ) (a b : NodeId) : Prop :=
  ∃ p ∈ net.partitions, p.healsAt = none ∧ p.cuts a b = true

instance (net : Network μ) (a b : NodeId) : Decidable (net.CutForGood a b) :=
  inferInstanceAs (Decidable (∃ p ∈ net.partitions, p.healsAt = none ∧ p.cuts a b = true))

/-- Nothing can be delivered any more. -/
structure Exhausted (net : Network μ) : Prop where
  queue : net.queue = .empty
  partitions : ∀ p ∈ net.partitions, p.healsAt = none
  parked : ∀ e ∈ net.parked, net.CutForGood e.source e.target

theorem nextHeal?_eq_none_iff : net.nextHeal? = none ↔ ∀ p ∈ net.partitions, p.healsAt = none := by
  constructor
  · intro h
    exact List.filterMap_eq_nil_iff.1 (eq_nil_of_foldl_earlier h).1
  · intro h
    rw [nextHeal?, List.filterMap_eq_nil_iff.2 h]
    rfl

theorem nextEvent_eq_nothing_iff :
    net.nextEvent = .nothing ↔ net.queue = .empty ∧ net.nextHeal? = none := by
  constructor
  · intro h
    rw [nextEvent] at h
    split at h
    · split at h <;> cases h
    · cases h
    · cases h
    · next hqueue hheal => exact ⟨OrderedMap.popFirst?_eq_none.1 hqueue, hheal⟩
  · rintro ⟨hqueue, hheal⟩
    rw [nextEvent, OrderedMap.popFirst?_eq_none.2 hqueue, hheal]

theorem nextDelivery_of_nothing (h : net.nextEvent = .nothing) :
    net.nextDelivery = .ok (none, net) := by
  fun_cases nextDelivery net with
  | case5 he => rfl
  | _ => simp_all

theorem Exhausted.nextDelivery (h : net.Exhausted) : net.nextDelivery = .ok (none, net) :=
  nextDelivery_of_nothing
    (nextEvent_eq_nothing_iff.2 ⟨h.queue, nextHeal?_eq_none_iff.2 h.partitions⟩)

theorem nextDelivery_nothing (h : net.nextDelivery = .ok (none, net')) :
    net'.nextEvent = .nothing := by
  fun_induction nextDelivery net with
  | case1 net tick he f hf => cases h
  | case2 net tick he healed hh _ ih => exact ih h
  | case3 net due e rest he _ mid hcut ih => exact ih h
  | case4 net due e rest he _ mid hcut => cases h
  | case5 net he =>
    cases h
    exact he

theorem nextDelivery_partitions (h : net.nextDelivery = .ok (delivered, net')) :
    net'.partitions ⊆ net.partitions := by
  fun_induction nextDelivery net with
  | case1 net tick he f hf => cases h
  | case2 net tick he healed hh _ ih =>
    refine List.Subset.trans (ih h) ?_
    rw [(healExpired_eq_ok hh).2]
    exact List.filter_sublist.subset
  | case3 net due e rest he _ mid hcut ih => exact ih h
  | case4 net due e rest he _ mid hcut =>
    cases h
    exact List.Subset.refl _
  | case5 net he =>
    cases h
    exact List.Subset.refl _

theorem Sound.exhausted (hs : net.Sound) (h : net.nextDelivery = .ok (none, net')) :
    net'.Exhausted := by
  obtain ⟨hqueue, hheal⟩ := nextEvent_eq_nothing_iff.1 (nextDelivery_nothing h)
  have hpartitions := nextHeal?_eq_none_iff.1 hheal
  refine ⟨hqueue, hpartitions, fun e he => ?_⟩
  have hcut := (nextDelivery_counts h).1.parks hs.parks e he
  obtain ⟨p, hp, hcuts⟩ := List.any_eq_true.1 hcut
  exact ⟨p, hp, hpartitions p hp, hcuts⟩

theorem Sound.exists_delivered (hs : net.Sound) (h : net.nextDelivery = .ok (delivered, net'))
    (he : e ∈ net.transit) (hopen : ¬ net.CutForGood e.source e.target) :
    ∃ x, delivered = some x := by
  cases delivered with
  | some x => exact ⟨x, rfl⟩
  | none =>
    have hend := hs.exhausted h
    have hmem : e ∈ net'.queue.values ++ net'.parked :=
      (nextDelivery_transit hs.numbered h).2.mem_iff.1 he
    rw [hend.queue] at hmem
    obtain ⟨p, hp, hgood, hcuts⟩ := hend.parked e hmem
    exact absurd ⟨p, nextDelivery_partitions h hp, hgood, hcuts⟩ hopen

theorem reach_of_le {tick : UInt64} (h : net.now ≤ tick) : (net.reach tick).now = tick := if_pos h

/-- A delivery stops without a result only if a message would be due too late when a partition heals. -/
theorem exists_of_nextDelivery (hn : net.Numbered) (ha : net.Ahead)
    (h : net.nextDelivery = .error f) :
    ∃ p ∈ net.partitions, ∃ tick, p.healsAt = some tick ∧ ∃ e ∈ net.transit,
      UInt64.size ≤ tick.toNat + net.longestDelay e.source e.target := by
  fun_induction nextDelivery net with
  | case1 net tick he f hf =>
    obtain ⟨p, hp, htick⟩ := mem_of_nextHeal? (nextEvent_heal he)
    obtain ⟨e, hparked, _, hsize⟩ := exists_of_healExpired hf
    rw [reach_of_le (ha p hp tick htick)] at hsize
    exact ⟨p, hp, tick, htick, e, List.mem_append_right _ hparked, hsize⟩
  | case2 net tick he healed hh _ ih =>
    have hr := @healExpired_rearranges _ (net.reach tick) _ hn hh
    have hk : net.KeepsDelays healed :=
      ⟨(healExpired_keepsDelays hh).config, (healExpired_keepsDelays hh).linkDelays⟩
    obtain ⟨p, hp, t, ht, e, hmem, hsize⟩ := ih hr.numbered (healExpired_ahead hh) h
    rw [(healExpired_eq_ok hh).2] at hp
    rw [hk.longestDelay] at hsize
    exact ⟨p, (List.mem_filter.1 hp).1, t, ht, e, hr.transit.mem_iff.1 hmem, hsize⟩
  | case3 net due e rest he _ mid hcut ih =>
    obtain ⟨p, hp, t, ht, x, hmem, hsize⟩ :=
      ih (fun d x hx => numbered_rest hn he d x hx) (ha.reach he) h
    refine ⟨p, hp, t, ht, x, ?_, hsize⟩
    rw [transit_of_nextEvent_arrive he]
    exact (park_transit { net with queue := rest } e).mem_iff.1 hmem
  | case4 net due e rest he _ mid hcut => cases h
  | case5 net he => cases h

theorem messages_eq (net : Network μ) : net.messages = net.transit.length := by
  rw [messages, transit, List.length_append, OrderedMap.values, List.length_map]
  rfl

/-- Deliveries beyond the number of messages leave nothing that could be delivered, and hand the others
out, each once. -/
theorem deliverUpTo_drains (hs : net.Sound) (hb : net.messages < budget)
    (h : net.deliverUpTo budget = .ok (arrivals, final)) :
    net.transit.Perm (arrivals.map (·.2) ++ final.transit) ∧ final.Exhausted ∧
      final.partitions ⊆ net.partitions := by
  induction budget generalizing net arrivals with
  | zero => exact absurd hb (Nat.not_lt_zero _)
  | succ budget ih =>
    rw [deliverUpTo] at h
    obtain ⟨⟨delivered, mid⟩, hd, h⟩ := bind_eq_ok h
    obtain ⟨_, hp⟩ := nextDelivery_transit hs.numbered hd
    have hsub := nextDelivery_partitions hd
    cases delivered with
    | none =>
      cases h
      exact ⟨hp, hs.exhausted hd, hsub⟩
    | some e =>
      obtain ⟨⟨rest, last⟩, hrest, h⟩ := bind_eq_ok h
      cases h
      have hm : mid.messages < budget := by
        have hlength := hp.length_eq
        rw [← messages_eq, Option.toList_some, List.length_append, ← messages_eq] at hlength
        rw [hlength, List.length_singleton] at hb
        omega
      have hmid : mid.Sound := hs.perform .deliver hd
      obtain ⟨hperm, hend, hsub'⟩ := ih hmid hm hrest
      exact ⟨hp.trans (hperm.cons e), hend, List.Subset.trans hsub' hsub⟩

theorem Sound.exists_nextDelivery (hs : net.Sound) (hp : net.partitions = []) :
    ∃ delivered net', net.nextDelivery = .ok (delivered, net') := by
  cases h : net.nextDelivery with
  | error f =>
    obtain ⟨p, hmem, _⟩ := exists_of_nextDelivery hs.numbered hs.ahead h
    rw [hp] at hmem
    cases hmem
  | ok r => exact ⟨r.1, r.2, rfl⟩

theorem Sound.exists_deliverUpTo (hs : net.Sound) (hp : net.partitions = []) (budget : Nat) :
    ∃ arrivals final, net.deliverUpTo budget = .ok (arrivals, final) := by
  induction budget generalizing net with
  | zero => exact ⟨[], net, rfl⟩
  | succ budget ih =>
    obtain ⟨delivered, mid, hd⟩ := hs.exists_nextDelivery hp
    rw [deliverUpTo, hd, ok_bind]
    cases delivered with
    | none => exact ⟨[], mid, rfl⟩
    | some e =>
      have hmid : mid.Sound := hs.perform .deliver hd
      have hnone := List.subset_nil.1 (hp ▸ nextDelivery_partitions hd)
      obtain ⟨rest, final, hrest⟩ := ih hmid hnone
      dsimp only
      rw [hrest]
      exact ⟨(mid.now, e) :: rest, final, rfl⟩

theorem Sound.drains (hs : net.Sound) (hp : net.partitions = []) :
    ∃ arrivals final, net.deliverAll = .ok (arrivals, final) ∧
      (arrivals.map (·.2)).Perm net.transit ∧ final.isQuiescent = true ∧
      final.nextDelivery = .ok (none, final) := by
  obtain ⟨arrivals, final, h⟩ := hs.exists_deliverUpTo hp (net.messages + 1)
  obtain ⟨hperm, hend, hsub⟩ := deliverUpTo_drains hs (Nat.lt_succ_self _) h
  have hparked : final.parked = [] := by
    refine List.eq_nil_iff_forall_not_mem.2 fun e he => ?_
    obtain ⟨p, hmem, _⟩ := hend.parked e he
    rw [hp] at hsub
    cases hsub hmem
  have hnone : final.transit = [] := by
    rw [transit, hend.queue, hparked]
    rfl
  rw [hnone, List.append_nil] at hperm
  exact ⟨arrivals, final, h, hperm.symm, transit_eq_nil_iff.1 hnone, hend.nextDelivery⟩

theorem healAll_partitions (h : net.healAll = .ok healed) : healed.partitions = [] := by
  rw [healAll] at h
  split at h
  · next hempty =>
    cases h
    exact List.isEmpty_iff.1 hempty
  · exact (releaseAll_rests h).partitions

/-- What can be said of a delivery. -/
structure Delivers (net : Network μ) : Prop where
  ends : ∀ rounds, net.pendingEvents < rounds → net.deliverWithin rounds = some net.nextDelivery
  faults : ∀ fault, net.nextDelivery = .error fault → fault = .overflow ∧
    ∃ p ∈ net.partitions, ∃ tick, p.healsAt = some tick ∧ ∃ e ∈ net.transit,
      UInt64.size ≤ tick.toNat + net.longestDelay e.source e.target
  exhausts : ∀ net', net.nextDelivery = .ok (none, net') → net'.Exhausted
  finds : ∀ e ∈ net.transit, ¬ net.CutForGood e.source e.target →
    net.nextDelivery ≠ .error .overflow → ∃ x net', net.nextDelivery = .ok (some x, net')
  drains : net.healAll ≠ .error .overflow → ∃ healed arrivals final, net.healAll = .ok healed ∧
    healed.deliverAll = .ok (arrivals, final) ∧ (arrivals.map (·.2)).Perm net.transit ∧
    final.isQuiescent = true ∧ final.nextDelivery = .ok (none, final)

/-- Whatever was done with a network, a delivery ends within a bound on its rounds. It fails only if a
message would be due too late when a partition heals. If it finds no message, nothing is scheduled, no
partition is left that heals, and what is parked is behind one that does not; and it finds one if any is on
its way whose link is not cut for good. After all partitions are healed, deliveries hand out all that was
on its way, each message once, until they find none. -/
theorem delivers_of_performAll {config : NetworkConfig} {seed : UInt64} {j : Journal μ}
    (hp : (Journal.new config seed).performAll calls = .ok j) : j.network.Delivers := by
  have hs := Journal.sound hp
  refine ⟨fun rounds => deliverWithin_eq, fun fault h => ?_, fun net' => hs.exhausted,
    fun e he hopen hoverflow => ?_, fun hoverflow => ?_⟩
  · exact ⟨(nextDelivery_overflowsOnly _).reason fault h,
      exists_of_nextDelivery hs.numbered hs.ahead h⟩
  · obtain ⟨⟨delivered, net'⟩, h⟩ :=
      (nextDelivery_overflowsOnly _).exists_ok fun f hf => hf ▸ hoverflow
    obtain ⟨x, rfl⟩ := hs.exists_delivered h he hopen
    exact ⟨x, net', h⟩
  · obtain ⟨healed, h⟩ := (healAll_overflowsOnly _).exists_ok fun f hf => hf ▸ hoverflow
    have hhealed : healed.Sound := hs.perform .heal (by rw [Call.perform, h]; rfl)
    obtain ⟨arrivals, final, hall, hperm, hend⟩ := hhealed.drains (healAll_partitions h)
    exact ⟨healed, arrivals, final, h, hall,
      hperm.trans (healAll_rearranges hs.numbered h).transit, hend⟩

/-- Two messages are parked, one of them behind a partition that does not heal. The next delivery hands out
the other one, and both are delivered once all partitions are healed. -/
theorem delivers_of_performAll_parked :
    ∃ j : Journal String, (Journal.new .reliable 7).performAll
        [.cutOff ["a"] (some 3), .cutOff ["b"] none, .send "a" "b" "y", .send "a" "c" "x"] = .ok j ∧
      j.network.Delivers ∧ j.network.transit = [⟨"a", "b", "y"⟩, ⟨"a", "c", "x"⟩] ∧
      j.network.CutForGood "a" "b" ∧ ¬ j.network.CutForGood "a" "c" ∧
      (∃ e net', j.network.nextDelivery = .ok (some e, net')) ∧
      ∃ healed arrivals final, j.network.healAll = .ok healed ∧
        healed.deliverAll = .ok (arrivals, final) ∧
        (arrivals.map (·.2)).Perm [⟨"a", "b", "y"⟩, ⟨"a", "c", "x"⟩] := by
  obtain ⟨j, hp, hj⟩ := @exists_of_endsWith _ _ ((Journal.new .reliable 7 : Journal String).performAll
        [.cutOff ["a"] (some 3), .cutOff ["b"] none, .send "a" "b" "y", .send "a" "c" "x"])
    (fun j => j.network.transit = [⟨"a", "b", "y"⟩, ⟨"a", "c", "x"⟩] ∧
      j.network.CutForGood "a" "b" ∧ ¬ j.network.CutForGood "a" "c" ∧
      endsWith j.network.nextDelivery (fun _ => true) ∧ endsWith j.network.healAll (fun _ => true))
    (by decide +kernel)
  obtain ⟨htransit, hgood, hopen, hdelivery, hheal⟩ := of_decide_eq_true hj
  obtain ⟨_, hdelivery, _⟩ := exists_of_endsWith hdelivery
  obtain ⟨_, hheal, _⟩ := exists_of_endsWith hheal
  have h := delivers_of_performAll hp
  have hx : ⟨"a", "c", "x"⟩ ∈ j.network.transit := by
    rw [htransit]
    decide
  obtain ⟨healed, arrivals, final, hall, hdeliver, hperm, _⟩ := h.drains (ne_error_of_eq_ok hheal)
  rw [htransit] at hperm
  exact ⟨j, hp, h, htransit, hgood, hopen, h.finds _ hx hopen (ne_error_of_eq_ok hdelivery), healed,
    arrivals, final, hall, hdeliver, hperm⟩

end Confluence.Network
