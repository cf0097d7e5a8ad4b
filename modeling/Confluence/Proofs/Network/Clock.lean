import Confluence.Proofs.Network.Conservation

namespace Confluence.Network
variable {μ : Type} {net net' net'' : Network μ} {e : Envelope μ} {p : Partition} {tick : UInt64}

/-- No time has passed, and the partitions are the same. -/
structure Rests (net net' : Network μ) : Prop where
  now : net'.now = net.now
  partitions : net'.partitions = net.partitions

theorem Rests.refl (net : Network μ) : net.Rests net := ⟨rfl, rfl⟩

theorem Rests.trans (h : net.Rests net') (h' : net'.Rests net'') : net.Rests net'' :=
  ⟨h'.now.trans h.now, h'.partitions.trans h.partitions⟩

theorem schedule_rests (h : net.schedule e = .ok net') : net.Rests net' := by
  obtain ⟨due, _, rfl⟩ := map_eq_ok h
  exact ⟨rfl, rfl⟩

theorem release_rests (h : net.release e = .ok net') : net.Rests net' := by
  unfold release at h
  split at h
  · cases h
    exact ⟨rfl, rfl⟩
  · exact schedule_rests h

theorem releaseAll_rests (h : net.releaseAll = .ok net') : net.Rests net' := by
  have hr : Rests { net with parked := [] } net' :=
    foldlM_keeps (fun _ _ _ hr hrel => hr.trans (release_rests hrel)) (.refl _) h
  exact ⟨hr.now, hr.partitions⟩

theorem send_rests {source target : NodeId} {m : μ} (h : net.send source target m = .ok net') :
    net.Rests net' := by
  obtain ⟨_, rfl⟩ | ⟨_, hs⟩ | ⟨_, mid, hm, hs⟩ := send_eq_ok h
  · exact ⟨rfl, rfl⟩
  · have hr := schedule_rests hs
    exact ⟨hr.now, hr.partitions⟩
  · have hr := (schedule_rests hm).trans (schedule_rests hs)
    exact ⟨hr.now, hr.partitions⟩

/-- No partition is in force beyond its time. -/
def Ahead (net : Network μ) : Prop :=
  ∀ p ∈ net.partitions, ∀ tick, p.healsAt = some tick → net.now ≤ tick

theorem Ahead.rests (h : net.Ahead) (hr : net.Rests net') : net'.Ahead := by
  unfold Ahead
  rw [hr.now, hr.partitions]
  exact h

theorem le_of_isHealedBy {now : UInt64} (h : p.isHealedBy now = false)
    (ht : p.healsAt = some tick) : now ≤ tick := by
  unfold Partition.isHealedBy at h
  rw [ht] at h
  exact UInt64.le_of_lt (UInt64.not_le.1 (of_decide_eq_false h))

theorem healExpired_eq_ok (h : net.healExpired = .ok net') :
    net'.now = net.now ∧ net'.partitions = net.partitions.filter fun p => !p.isHealedBy net.now := by
  unfold healExpired at h
  dsimp only at h
  split at h
  · next hkept =>
    cases h
    exact ⟨rfl, (List.filter_sublist.eq_of_length hkept).symm⟩
  · have hr := releaseAll_rests h
    exact ⟨hr.now, hr.partitions⟩

theorem healExpired_ahead (h : net.healExpired = .ok net') : net'.Ahead := by
  obtain ⟨hnow, hpartitions⟩ := healExpired_eq_ok h
  intro p hp tick ht
  rw [hpartitions] at hp
  rw [hnow]
  exact le_of_isHealedBy (by simpa using (List.mem_filter.1 hp).2) ht

theorem healAll_ahead (h : net.healAll = .ok net') : net'.now = net.now ∧ net'.Ahead := by
  unfold healAll at h
  split at h
  · next hempty =>
    cases h
    refine ⟨rfl, fun p hp => ?_⟩
    rw [List.isEmpty_iff.1 hempty] at hp
    cases hp
  · have hr := releaseAll_rests h
    refine ⟨hr.now, fun p hp => ?_⟩
    rw [hr.partitions] at hp
    cases hp

theorem advance_ahead {ticks : UInt64} (h : net.advance ticks = .ok net') :
    net'.now.toNat = net.now.toNat + ticks.toNat ∧ net'.Ahead := by
  obtain ⟨now, hnow, h⟩ := bind_eq_ok h
  rw [(healExpired_eq_ok h).1]
  exact ⟨toNat_checkedAdd hnow, healExpired_ahead h⟩

theorem cutOff_ahead {side : List NodeId} {duration : Option UInt64} (ha : net.Ahead)
    (h : net.cutOff side duration = .ok net') : net'.now = net.now ∧ net'.Ahead := by
  obtain ⟨healsAt, hheals, h⟩ := bind_eq_ok h
  cases h
  refine ⟨rfl, fun p hp tick ht => ?_⟩
  rcases List.mem_append.1 hp with hp | hp
  · exact ha p hp tick ht
  obtain rfl := List.mem_singleton.1 hp
  obtain rfl : healsAt = some tick := ht
  cases duration with
  | none => cases hheals
  | some ticks =>
    obtain ⟨end', hadd, he⟩ := map_eq_ok hheals
    cases he
    rw [UInt64.le_iff_toNat_le, toNat_checkedAdd hadd]
    exact Nat.le_add_right ..

theorem exists_earlier (least : Option UInt64) (tick : UInt64) :
    ∃ t, earlier least tick = some t ∧ t ≤ tick ∧ ∀ a, least = some a → t ≤ a := by
  cases least with
  | none => exact ⟨tick, rfl, UInt64.le_refl _, nofun⟩
  | some a =>
    refine ⟨_, rfl, ?_⟩
    split
    · next hle => exact ⟨hle, fun x hx => Option.some.inj hx ▸ UInt64.le_refl _⟩
    · next hlt =>
      have hle := UInt64.le_of_lt (UInt64.not_le.1 hlt)
      exact ⟨UInt64.le_refl _, fun x hx => Option.some.inj hx ▸ hle⟩

theorem le_of_foldl_earlier {l : List UInt64} {least : Option UInt64}
    (h : l.foldl earlier least = some tick) :
    (∀ t ∈ l, tick ≤ t) ∧ ∀ t, least = some t → tick ≤ t := by
  induction l generalizing least with
  | nil =>
    obtain rfl : least = some tick := h
    exact ⟨nofun, fun t ht => Option.some.inj ht ▸ UInt64.le_refl _⟩
  | cons t l ih =>
    obtain ⟨first, hfirst, ht, hleast⟩ := exists_earlier least t
    rw [List.foldl_cons, hfirst] at h
    obtain ⟨hl, hle⟩ := ih h
    have hle := hle first rfl
    refine ⟨List.forall_mem_cons.2 ⟨UInt64.le_trans hle ht, hl⟩, ?_⟩
    intro x hx
    exact UInt64.le_trans hle (hleast x hx)

theorem eq_nil_of_foldl_earlier {l : List UInt64} {least : Option UInt64}
    (h : l.foldl earlier least = none) : l = [] ∧ least = none := by
  induction l generalizing least with
  | nil => exact ⟨rfl, h⟩
  | cons t l ih =>
    obtain ⟨first, hfirst, _⟩ := exists_earlier least t
    rw [List.foldl_cons, hfirst] at h
    cases (ih h).2

theorem lt_of_nextEvent_arrive {due : Due} {rest : OrderedMap Due (Envelope μ)}
    (h : net.nextEvent = .arrive due e rest) (hp : p ∈ net.partitions)
    (ht : p.healsAt = some tick) : due.tick < tick := by
  have hmem : tick ∈ net.partitions.filterMap (·.healsAt) := List.mem_filterMap.2 ⟨p, hp, ht⟩
  unfold nextEvent at h
  split at h
  · next next hheal =>
    split at h
    · cases h
    · next hlt =>
      cases h
      exact UInt64.lt_of_lt_of_le (UInt64.not_le.1 hlt) ((le_of_foldl_earlier hheal).1 tick hmem)
  · next hheal =>
    rw [(eq_nil_of_foldl_earlier hheal).1] at hmem
    cases hmem
  · cases h
  · cases h

theorem Ahead.reach {due : Due} {rest : OrderedMap Due (Envelope μ)} (h : net.Ahead)
    (he : net.nextEvent = .arrive due e rest) : (net.reach due.tick).Ahead := by
  intro p hp tick ht
  unfold Network.reach
  dsimp only
  split
  · exact UInt64.le_of_lt (lt_of_nextEvent_arrive he hp ht)
  · exact h p hp tick ht

theorem nextDelivery_ahead {delivered : Option (Envelope μ)} (ha : net.Ahead)
    (h : net.nextDelivery = .ok (delivered, net')) : net'.Ahead := by
  fun_induction nextDelivery net with
  | case1 net tick he f hf => cases h
  | case2 net tick he healed hh _ ih => exact ih (healExpired_ahead hh) h
  | case3 net due e rest he _ mid hcut ih => exact ih (ha.reach he) h
  | case4 net due e rest he _ mid hcut =>
    cases h
    exact ha.reach he
  | case5 net he =>
    cases h
    exact ha

end Confluence.Network
