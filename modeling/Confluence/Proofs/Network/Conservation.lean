import Confluence.Proofs.Network.Transit

namespace Confluence

namespace Network

inductive Call (μ : Type)
  | send (source target : NodeId) (message : μ)
  | deliver
  | advance (ticks : UInt64)
  | cutOff (side : List NodeId) (duration : Option UInt64)
  | heal
  | setLinkDelay (source target : NodeId) (delay : UInt64)

variable {μ : Type}

/-- Performs a call; only a delivery hands a message out. -/
def Call.perform (net : Network μ) : Call μ → Except Fault (Option (Envelope μ) × Network μ)
  | send source target m => (net.send source target m).map (none, ·)
  | deliver => net.nextDelivery
  | advance ticks => (net.advance ticks).map (none, ·)
  | cutOff side duration => (net.cutOff side duration).map (none, ·)
  | heal => net.healAll.map (none, ·)
  | setLinkDelay source target delay => .ok (none, net.setLinkDelay source target delay)

/-- A call that was performed, the networks before and after it, and the message handed out. -/
structure Record (μ : Type) where
  before : Network μ
  call : Call μ
  delivered : Option (Envelope μ)
  after : Network μ

def Record.sent? (r : Record μ) : Option (Envelope μ) :=
  match r.call with
  | .send source target m => some ⟨source, target, m⟩
  | _ => none

/-- The message that was sent, if a copy of it was counted. -/
def Record.copied? (r : Record μ) : Option (Envelope μ) :=
  if r.before.stats.duplicated < r.after.stats.duplicated then r.sent? else none

/-- A network and all calls that were performed on it, the first one first. -/
structure Journal (μ : Type) where
  network : Network μ
  past : List (Record μ)

namespace Journal

def new (config : NetworkConfig) (seed : UInt64) : Journal μ := ⟨.new config seed, []⟩

def perform (j : Journal μ) (call : Call μ) : Except Fault (Journal μ) :=
  (call.perform j.network).map fun (delivered, network) =>
    ⟨network, j.past ++ [⟨j.network, call, delivered, network⟩]⟩

/-- Performs calls in order, unless there is a fault. -/
def performAll (j : Journal μ) (calls : List (Call μ)) : Except Fault (Journal μ) :=
  calls.foldlM perform j

def sent (j : Journal μ) : List (Envelope μ) := j.past.filterMap (·.sent?)

def copied (j : Journal μ) : List (Envelope μ) := j.past.filterMap (·.copied?)

def delivered (j : Journal μ) : List (Envelope μ) := j.past.filterMap (·.delivered)

end Journal

/-- Every parked message is behind a cut. -/
def ParksBehindCuts (net : Network μ) : Prop := ∀ e ∈ net.parked, net.isCut e.source e.target = true

/-- What the counters and the clock say of the messages that were sent, copied and handed out in
between; what is parked stays behind cuts. -/
structure Counts (net net' : Network μ) (sent copied delivered : List (Envelope μ)) : Prop where
  sends : net'.stats.sent = net.stats.sent + sent.length
  copies : net'.stats.duplicated = net.stats.duplicated + copied.length
  deliveries : net'.stats.delivered = net.stats.delivered + delivered.length
  now : net.now ≤ net'.now
  parks : net.ParksBehindCuts → net'.ParksBehindCuts

variable {net net' net'' : Network μ} {e : Envelope μ} {s c d s' c' d' : List (Envelope μ)}

theorem Counts.refl (net : Network μ) : net.Counts net [] [] [] :=
  ⟨rfl, rfl, rfl, UInt64.le_refl _, id⟩

theorem Counts.trans (h : net.Counts net' s c d) (h' : net'.Counts net'' s' c' d') :
    net.Counts net'' (s ++ s') (c ++ c') (d ++ d') where
  sends := by rw [h'.sends, h.sends, List.length_append, Nat.add_assoc]
  copies := by rw [h'.copies, h.copies, List.length_append, Nat.add_assoc]
  deliveries := by rw [h'.deliveries, h.deliveries, List.length_append, Nat.add_assoc]
  now := UInt64.le_trans h.now h'.now
  parks := h'.parks ∘ h.parks

theorem schedule_counts (h : net.schedule e = .ok net') : net.Counts net' [] [] [] := by
  unfold schedule at h
  obtain ⟨due, _, rfl⟩ := map_eq_ok h
  exact ⟨rfl, rfl, rfl, UInt64.le_refl _, id⟩

theorem parksBehindCuts_concat (hp : net.ParksBehindCuts)
    (hcut : net.isCut e.source e.target = true) :
    ∀ x ∈ net.parked ++ [e], net.isCut x.source x.target = true := by
  intro x hx
  rcases List.mem_append.1 hx with hx | hx
  · exact hp x hx
  · rw [List.mem_singleton.1 hx]
    exact hcut

theorem park_counts (hcut : net.isCut e.source e.target = true) :
    net.Counts (net.park e) [] [] [] :=
  ⟨rfl, rfl, rfl, UInt64.le_refl _, fun hp => parksBehindCuts_concat hp hcut⟩

theorem release_counts (h : net.release e = .ok net') : net.Counts net' [] [] [] := by
  unfold release at h
  split at h
  · next hcut =>
    cases h
    exact ⟨rfl, rfl, rfl, UInt64.le_refl _, fun hp => parksBehindCuts_concat hp hcut⟩
  · exact schedule_counts h

theorem releaseAll_counts (h : net.releaseAll = .ok net') :
    net.Counts net' [] [] [] ∧ net'.ParksBehindCuts := by
  have hc : Counts { net with parked := [] } net' [] [] [] :=
    foldlM_keeps (p := fun mid : Network μ => Counts { net with parked := [] } mid [] [] [])
      (fun _ _ _ hc hr => hc.trans (release_counts hr)) (.refl _) h
  have hnone : ({ net with parked := [] } : Network μ).ParksBehindCuts := by
    intro e he
    cases he
  have hp := hc.parks hnone
  exact ⟨⟨hc.sends, hc.copies, hc.deliveries, hc.now, fun _ => hp⟩, hp⟩

theorem healExpired_counts (h : net.healExpired = .ok net') : net.Counts net' [] [] [] := by
  unfold healExpired at h
  dsimp only at h
  split at h
  · cases h
    exact .refl net
  · obtain ⟨hc, hp⟩ := releaseAll_counts h
    exact ⟨hc.sends, hc.copies, hc.deliveries, hc.now, fun _ => hp⟩

theorem healAll_counts (h : net.healAll = .ok net') : net.Counts net' [] [] [] := by
  unfold healAll at h
  split at h
  · cases h
    exact .refl net
  · obtain ⟨hc, hp⟩ := releaseAll_counts h
    exact ⟨hc.sends, hc.copies, hc.deliveries, hc.now, fun _ => hp⟩

theorem advance_counts {ticks : UInt64} (h : net.advance ticks = .ok net') :
    net.Counts net' [] [] [] := by
  obtain ⟨now, hnow, h⟩ := bind_eq_ok h
  have hle : net.now ≤ now := by
    rw [UInt64.le_iff_toNat_le, toNat_checkedAdd hnow]
    exact Nat.le_add_right _ _
  have hc := healExpired_counts h
  exact ⟨hc.sends, hc.copies, hc.deliveries, UInt64.le_trans hle hc.now, hc.parks⟩

theorem cutOff_counts {side : List NodeId} {duration : Option UInt64}
    (h : net.cutOff side duration = .ok net') : net.Counts net' [] [] [] := by
  obtain ⟨healsAt, _, h⟩ := bind_eq_ok h
  cases h
  refine ⟨rfl, rfl, rfl, UInt64.le_refl _, fun hp e he => ?_⟩
  have hcut := hp e he
  unfold isCut at hcut ⊢
  rw [List.any_append, hcut, Bool.true_or]

theorem reach_counts (net : Network μ) (tick : UInt64) :
    net.Counts (net.reach tick) [] [] [] := by
  refine ⟨rfl, rfl, rfl, ?_, id⟩
  unfold reach
  dsimp only
  split
  · assumption
  · exact UInt64.le_refl _

/-- What is handed out is counted, and its link is open. -/
theorem nextDelivery_counts {delivered : Option (Envelope μ)}
    (h : net.nextDelivery = .ok (delivered, net')) :
    net.Counts net' [] [] delivered.toList ∧
      ∀ e, delivered = some e → net'.isCut e.source e.target = false := by
  fun_induction nextDelivery net with
  | case1 net tick he f hf => cases h
  | case2 net tick he healed hh _ ih =>
    obtain ⟨hc, hopened⟩ := ih h
    exact ⟨((reach_counts net tick).trans (healExpired_counts hh)).trans hc, hopened⟩
  | case3 net due e rest he _ mid hcut ih =>
    obtain ⟨hc, hopened⟩ := ih h
    have hr := reach_counts net due.tick
    have hmid : net.Counts mid [] [] [] := ⟨hr.sends, hr.copies, hr.deliveries, hr.now, hr.parks⟩
    exact ⟨(hmid.trans (park_counts hcut)).trans hc, hopened⟩
  | case4 net due e rest he _ mid hcut =>
    cases h
    have hr := reach_counts net due.tick
    refine ⟨⟨hr.sends, hr.copies, rfl, hr.now, hr.parks⟩, fun x hx => ?_⟩
    cases hx
    exact Bool.eq_false_iff.2 hcut
  | case5 net he =>
    cases h
    exact ⟨.refl _, by simp⟩

theorem send_counts {source target : NodeId} {m : μ} (hn : net.Numbered)
    (h : net.send source target m = .ok net') :
    ∃ copies, (copies = [] ∨ copies = [⟨source, target, m⟩]) ∧
      net.Counts net' [⟨source, target, m⟩] copies [] ∧ net'.Numbered ∧
      net'.transit.Perm (⟨source, target, m⟩ :: copies ++ net.transit) := by
  obtain ⟨hcut, rfl⟩ | ⟨_, hs⟩ | ⟨_, mid, hm, hs⟩ := send_eq_ok h
  · have hc := park_counts (e := ⟨source, target, m⟩) hcut
    exact ⟨[], .inl rfl, ⟨rfl, rfl, rfl, hc.now, hc.parks⟩, hn, park_transit _ _⟩
  · obtain ⟨hn', hp⟩ := schedule_transit (by exact hn) hs
    have hc := schedule_counts hs
    exact ⟨[], .inl rfl, ⟨hc.sends, hc.copies, hc.deliveries, hc.now, hc.parks⟩, hn', hp⟩
  · obtain ⟨hmn, hmp⟩ := schedule_transit (by exact hn) hm
    obtain ⟨hn', hp⟩ := schedule_transit hmn hs
    have hc := (schedule_counts hm).trans (schedule_counts hs)
    exact ⟨[_], .inr rfl, ⟨hc.sends, hc.copies, hc.deliveries, hc.now, hc.parks⟩, hn',
      hp.trans (hmp.cons _)⟩

/-- All that a call does: what was on its way before, or was sent, is on its way or is handed out. -/
structure Record.Balanced (r : Record μ) : Prop where
  counts : r.before.Counts r.after r.sent?.toList r.copied?.toList r.delivered.toList
  numbered : r.after.Numbered
  transit : (r.sent?.toList ++ r.copied?.toList ++ r.before.transit).Perm
    (r.delivered.toList ++ r.after.transit)
  opened : ∀ e, r.delivered = some e → r.after.isCut e.source e.target = false

theorem Record.copied?_of_sent? {r : Record μ} (h : r.sent? = none) : r.copied? = none := by
  unfold copied?
  rw [h, ite_self]

theorem Record.Balanced.of_rearranges {r : Record μ} (hs : r.sent? = none)
    (hd : r.delivered = none) (hc : r.before.Counts r.after [] [] [])
    (hr : r.before.Rearranges r.after) : r.Balanced := by
  have hcopied := copied?_of_sent? hs
  refine ⟨?_, hr.numbered, ?_, ?_⟩
  · rw [hs, hcopied, hd]
    exact hc
  · rw [hs, hcopied, hd]
    exact hr.transit.symm
  · rw [hd]
    simp

theorem Call.perform_balanced {call : Call μ} {delivered : Option (Envelope μ)}
    (hn : net.Numbered) (h : call.perform net = .ok (delivered, net')) :
    (⟨net, call, delivered, net'⟩ : Record μ).Balanced := by
  cases call with
  | send source target m =>
    obtain ⟨_, hs, he⟩ := map_eq_ok h
    cases he
    obtain ⟨copies, hcopies, hc, hn', ht⟩ := send_counts hn hs
    have hcopied : (⟨net, .send source target m, none, net'⟩ : Record μ).copied?.toList =
        copies := by
      unfold Record.copied?
      dsimp only
      rw [hc.copies]
      rcases hcopies with rfl | rfl <;> simp [Record.sent?]
    refine ⟨?_, hn', ?_, by simp⟩
    · rw [hcopied]
      exact hc
    · rw [hcopied]
      exact ht.symm
  | deliver =>
    obtain ⟨hc, hopened⟩ := nextDelivery_counts h
    obtain ⟨hn', ht⟩ := nextDelivery_transit hn h
    refine ⟨?_, hn', ?_, hopened⟩
    · rw [Record.copied?_of_sent? rfl]
      exact hc
    · rw [Record.copied?_of_sent? rfl]
      exact ht
  | advance ticks =>
    obtain ⟨_, ha, he⟩ := map_eq_ok h
    cases he
    exact .of_rearranges rfl rfl (advance_counts ha) (advance_rearranges hn ha)
  | cutOff side duration =>
    obtain ⟨_, ha, he⟩ := map_eq_ok h
    cases he
    exact .of_rearranges rfl rfl (cutOff_counts ha) (cutOff_rearranges hn ha)
  | heal =>
    obtain ⟨_, ha, he⟩ := map_eq_ok h
    cases he
    exact .of_rearranges rfl rfl (healAll_counts ha) (healAll_rearranges hn ha)
  | setLinkDelay source target delay =>
    cases h
    exact .of_rearranges rfl rfl ⟨rfl, rfl, rfl, UInt64.le_refl _, id⟩ ⟨hn, .refl _⟩

open scoped List in
theorem append_perm_append {α : Type} {s c d t s' c' d' t' : List α}
    (h : s ++ c ~ d ++ t) (h' : s' ++ c' ++ t ~ d' ++ t') :
    s ++ s' ++ (c ++ c') ~ d ++ d' ++ t' := by
  have hcomm : s ++ (c ++ c') ~ c' ++ (s ++ c) := by
    rw [← List.append_assoc]
    exact List.perm_append_comm
  calc s ++ s' ++ (c ++ c')
    _ = s ++ (s' ++ (c ++ c')) := List.append_assoc ..
    _ ~ s' ++ (s ++ (c ++ c')) := List.perm_append_comm_assoc ..
    _ ~ s' ++ (c' ++ (s ++ c)) := hcomm.append_left s'
    _ = s' ++ c' ++ (s ++ c) := (List.append_assoc ..).symm
    _ ~ s' ++ c' ++ (d ++ t) := h.append_left _
    _ ~ d ++ (s' ++ c' ++ t) := List.perm_append_comm_assoc ..
    _ ~ d ++ (d' ++ t') := h'.append_left d
    _ = d ++ d' ++ t' := (List.append_assoc ..).symm

namespace Journal
variable {j j' : Journal μ} {call : Call μ} {calls : List (Call μ)} {config : NetworkConfig}
  {seed : UInt64}

/-- The books of a network since it was new. -/
structure Balanced (start : Network μ) (j : Journal μ) : Prop where
  counts : start.Counts j.network j.sent j.copied j.delivered
  numbered : j.network.Numbered
  transit : (j.sent ++ j.copied).Perm (j.delivered ++ j.network.transit)
  records : ∀ r ∈ j.past, r.Balanced
  now : ∀ r ∈ j.past, r.after.now ≤ j.network.now

theorem balanced_new (config : NetworkConfig) (seed : UInt64) :
    (new config seed : Journal μ).Balanced (.new config seed) where
  counts := .refl _
  numbered := numbered_new config seed
  transit := .nil
  records := by simp [new]
  now := by simp [new]

theorem filterMap_concat {α β : Type} (f : α → Option β) (l : List α) (a : α) :
    (l ++ [a]).filterMap f = l.filterMap f ++ (f a).toList := by
  rw [List.filterMap_append]
  cases hf : f a <;> simp [hf]

theorem Balanced.perform {start : Network μ} (h : j.Balanced start)
    (hp : j.perform call = .ok j') : j'.Balanced start := by
  obtain ⟨⟨delivered, network⟩, hc, rfl⟩ := map_eq_ok hp
  have hr := Call.perform_balanced h.numbered hc
  refine ⟨?_, hr.numbered, ?_, ?_, ?_⟩
  · unfold sent copied Journal.delivered
    rw [filterMap_concat, filterMap_concat, filterMap_concat]
    exact h.counts.trans hr.counts
  · unfold sent copied Journal.delivered
    rw [filterMap_concat, filterMap_concat, filterMap_concat]
    exact append_perm_append h.transit hr.transit
  · intro r hm
    rcases List.mem_append.1 hm with hm | hm
    · exact h.records r hm
    · exact List.mem_singleton.1 hm ▸ hr
  · intro r hm
    rcases List.mem_append.1 hm with hm | hm
    · exact UInt64.le_trans (h.now r hm) hr.counts.now
    · rw [List.mem_singleton.1 hm]
      exact UInt64.le_refl _

theorem Balanced.performAll {start : Network μ} (h : j.Balanced start)
    (hp : j.performAll calls = .ok j') : j'.Balanced start := by
  induction calls generalizing j with
  | nil =>
    cases hp
    exact h
  | cons call calls ih =>
    obtain ⟨mid, hm, hp⟩ := bind_eq_ok hp
    exact ih (h.perform hm) hp

/-- The network loses, makes up and alters no message. At every moment what was sent, with the copies
that were counted, is what was handed out with what is scheduled or parked. A parked message is
behind a cut, none is handed out across one, and time does not go back. -/
theorem balance_of_performAll (hp : (new config seed).performAll calls = .ok j) :
    let net := j.network
    (j.sent ++ j.copied).Perm (j.delivered ++ net.queue.values ++ net.parked) ∧
      j.sent.length = net.stats.sent ∧ j.copied.length = net.stats.duplicated ∧
      j.delivered.length = net.stats.delivered ∧
      net.stats.sent + net.stats.duplicated =
        net.stats.delivered + net.inFlight + net.parked.length ∧
      (∀ e ∈ net.parked, net.isCut e.source e.target = true) ∧
      (∀ r ∈ j.past, ∀ e, r.delivered = some e → r.after.isCut e.source e.target = false) ∧
      ∀ r ∈ j.past, r.before.now ≤ r.after.now ∧ r.after.now ≤ net.now := by
  intro net
  have hj := (balanced_new config seed).performAll hp
  have hperm : (j.sent ++ j.copied).Perm (j.delivered ++ net.queue.values ++ net.parked) := by
    rw [List.append_assoc]
    exact hj.transit
  have hsent : net.stats.sent = j.sent.length := hj.counts.sends.trans (Nat.zero_add _)
  have hcopied : net.stats.duplicated = j.copied.length := hj.counts.copies.trans (Nat.zero_add _)
  have hdelivered : net.stats.delivered = j.delivered.length :=
    hj.counts.deliveries.trans (Nat.zero_add _)
  have hflight : net.inFlight = net.queue.values.length := (List.length_map _).symm
  have hparks : net.ParksBehindCuts := hj.counts.parks (fun e he => by cases he)
  refine ⟨hperm, hsent.symm, hcopied.symm, hdelivered.symm, ?_, hparks,
    fun r hr => (hj.records r hr).opened, fun r hr => ⟨(hj.records r hr).counts.now, hj.now r hr⟩⟩
  rw [hsent, hcopied, hdelivered, hflight, ← List.length_append, hperm.length_eq,
    List.length_append, List.length_append]

/-- Two partitions overlap: when the first one heals, one message is scheduled and one parked again. -/
theorem balance_of_performAll_partitions :
    ∃ j : Journal String, (new { NetworkConfig.reliable with dupRate := 1 } 7).performAll
        [.send "a" "b" "x", .deliver, .deliver, .cutOff ["a"] (some 3), .send "a" "b" "y",
          .cutOff ["a", "c"] none, .setLinkDelay "c" "a" 9, .send "c" "a" "z", .advance 4] =
          .ok j ∧
      j.copied = [⟨"a", "b", "x"⟩] ∧ j.network.queue.values = [⟨"c", "a", "z"⟩] ∧
      j.network.parked = [⟨"a", "b", "y"⟩] ∧
      j.network.stats.sent + j.network.stats.duplicated =
        j.network.stats.delivered + j.network.inFlight + j.network.parked.length := by
  obtain ⟨j, hp, hj⟩ := @exists_of_endsWith _ _ ((new { NetworkConfig.reliable with dupRate := 1 }
      7).performAll [.send "a" "b" "x", .deliver, .deliver, .cutOff ["a"] (some 3),
        .send "a" "b" "y", .cutOff ["a", "c"] none, .setLinkDelay "c" "a" 9, .send "c" "a" "z",
        .advance 4])
    (fun j => j.copied = [⟨"a", "b", "x"⟩] ∧ j.network.queue.values = [⟨"c", "a", "z"⟩] ∧
      j.network.parked = [⟨"a", "b", "y"⟩]) (by decide +kernel)
  obtain ⟨hcopied, hqueue, hparked⟩ := of_decide_eq_true hj
  exact ⟨j, hp, hcopied, hqueue, hparked, (balance_of_performAll hp).2.2.2.2.1⟩

end Journal
end Network
end Confluence
