import Confluence.Proofs.Network.Clock
import Confluence.Random

namespace Confluence

/-- Nothing but an overflow stops the computation. -/
abbrev OverflowsOnly {α : Type} (x : Except Fault α) : Prop := StopsOnly (· = Fault.overflow) x

namespace Network
variable {μ : Type} {net net' net'' : Network μ} {e : Envelope μ} {f : Fault}

theorem drawDue_overflowsOnly (net : Network μ) (delay : UInt64) :
    OverflowsOnly (net.drawDue delay) := by
  apply (checkedAdd_stopsOnly ..).bind
  intro delay _
  apply (checkedAdd_stopsOnly ..).bind
  intro delay _
  apply (checkedAdd_stopsOnly ..).bind
  intro tick _
  exact .ok _

theorem schedule_overflowsOnly (net : Network μ) (e : Envelope μ) : OverflowsOnly (net.schedule e) :=
  (net.drawDue_overflowsOnly _).map _

theorem release_overflowsOnly (net : Network μ) (e : Envelope μ) :
    OverflowsOnly (net.release e) := by
  unfold release
  split
  · exact .ok _
  · exact net.schedule_overflowsOnly e

theorem releaseAll_overflowsOnly (net : Network μ) : OverflowsOnly net.releaseAll :=
  .foldlM (p := fun _ => True) (fun net e _ => net.release_overflowsOnly e)
    (fun _ _ _ _ _ => trivial) trivial

theorem healExpired_overflowsOnly (net : Network μ) : OverflowsOnly net.healExpired := by
  unfold healExpired
  dsimp only
  split
  · exact .ok _
  · exact releaseAll_overflowsOnly _

theorem healAll_overflowsOnly (net : Network μ) : OverflowsOnly net.healAll := by
  rw [healAll]
  split
  · exact .ok _
  · exact releaseAll_overflowsOnly _

theorem advance_overflowsOnly (net : Network μ) (ticks : UInt64) :
    OverflowsOnly (net.advance ticks) :=
  (checkedAdd_stopsOnly ..).bind fun now _ => healExpired_overflowsOnly { net with now }

theorem send_overflowsOnly (net : Network μ) (source target : NodeId) (m : μ) :
    OverflowsOnly (net.send source target m) := by
  unfold send
  dsimp only
  split
  · exact .ok _
  split
  · exact (schedule_overflowsOnly ..).bind fun net _ => net.schedule_overflowsOnly _
  · exact schedule_overflowsOnly ..

theorem cutOff_overflowsOnly (net : Network μ) (side : List NodeId) (duration : Option UInt64) :
    OverflowsOnly (net.cutOff side duration) := by
  refine StopsOnly.bind ?_ fun _ _ => .ok _
  cases duration with
  | none => exact .ok none
  | some ticks => exact (checkedAdd_stopsOnly net.now ticks).map some

theorem nextDelivery_overflowsOnly (net : Network μ) : OverflowsOnly net.nextDelivery := by
  fun_induction nextDelivery net with
  | case1 net tick he f hf => exact .error ((healExpired_overflowsOnly _).reason f hf)
  | case2 net tick he healed hh _ ih => exact ih
  | case3 net due e rest he _ mid hcut ih => exact ih
  | case4 net due e rest he _ mid hcut => exact .ok _
  | case5 net he => exact .ok _

theorem Call.perform_overflowsOnly (net : Network μ) (call : Call μ) :
    OverflowsOnly (call.perform net) := by
  cases call with
  | send source target m => exact (net.send_overflowsOnly source target m).map _
  | deliver => exact net.nextDelivery_overflowsOnly
  | advance ticks => exact (net.advance_overflowsOnly ticks).map _
  | cutOff side duration => exact (net.cutOff_overflowsOnly side duration).map _
  | heal => exact net.healAll_overflowsOnly.map _
  | setLinkDelay source target delay => exact .ok _

theorem Journal.performAll_overflowsOnly (j : Journal μ) (calls : List (Call μ)) :
    OverflowsOnly (j.performAll calls) :=
  .foldlM (p := fun _ => True) (fun j call _ => (call.perform_overflowsOnly j.network).map _)
    (fun _ _ _ _ _ => trivial) trivial

/-- The configuration and the delays of the links are the same. -/
structure KeepsDelays (net net' : Network μ) : Prop where
  config : net'.config = net.config
  linkDelays : net'.linkDelays = net.linkDelays

theorem KeepsDelays.refl (net : Network μ) : net.KeepsDelays net := ⟨rfl, rfl⟩

theorem KeepsDelays.trans (h : net.KeepsDelays net') (h' : net'.KeepsDelays net'') :
    net.KeepsDelays net'' :=
  ⟨h'.config.trans h.config, h'.linkDelays.trans h.linkDelays⟩

theorem KeepsDelays.linkDelay (h : net.KeepsDelays net') (a b : NodeId) :
    net'.linkDelay a b = net.linkDelay a b := by
  rw [Network.linkDelay, Network.linkDelay, h.config, h.linkDelays]

/-- The most ticks that a message may take on a link. -/
def longestDelay (net : Network μ) (source target : NodeId) : Nat :=
  (net.linkDelay source target).toNat + net.config.jitter.toNat +
    max net.config.reorderWindow.toNat 1

theorem KeepsDelays.longestDelay (h : net.KeepsDelays net') (a b : NodeId) :
    net'.longestDelay a b = net.longestDelay a b := by
  rw [Network.longestDelay, Network.longestDelay, h.linkDelay, h.config]

theorem schedule_keepsDelays (h : net.schedule e = .ok net') : net.KeepsDelays net' := by
  obtain ⟨due, _, rfl⟩ := map_eq_ok h
  exact ⟨rfl, rfl⟩

theorem release_keepsDelays (h : net.release e = .ok net') : net.KeepsDelays net' := by
  rw [release] at h
  split at h
  · cases h
    exact ⟨rfl, rfl⟩
  · exact schedule_keepsDelays h

theorem releaseAll_keepsDelays (h : net.releaseAll = .ok net') : net.KeepsDelays net' := by
  have hk : KeepsDelays { net with parked := [] } net' :=
    foldlM_keeps (fun _ _ _ hk hrel => hk.trans (release_keepsDelays hrel)) (.refl _) h
  exact ⟨hk.config, hk.linkDelays⟩

theorem healExpired_keepsDelays (h : net.healExpired = .ok net') : net.KeepsDelays net' := by
  rw [healExpired] at h
  split at h
  · cases h
    exact .refl _
  · have hk := releaseAll_keepsDelays h
    exact ⟨hk.config, hk.linkDelays⟩

theorem drawJitter_le (config : NetworkConfig) (g : Generator) :
    (drawJitter config g).1 ≤ config.jitter := by
  rw [drawJitter]
  split
  · exact g.upTo64_le _
  · exact UInt64.zero_le

theorem drawHold_le (config : NetworkConfig) (g : Generator) :
    ((drawHold config g).1.getD 0).toNat ≤ max config.reorderWindow.toNat 1 := by
  rw [drawHold]
  generalize drawChance config.reorderRate g = drawn
  obtain ⟨late, g⟩ := drawn
  cases late with
  | false => exact Nat.zero_le _
  | true =>
    have hle := UInt64.le_iff_toNat_le.1
      (g.upTo64_le (if config.reorderWindow = 0 then 0 else config.reorderWindow - 1))
    change ((g.upTo64 _).1 + 1).toNat ≤ _
    generalize (g.upTo64 _).1 = n at hle ⊢
    have hsucc : (n + 1).toNat ≤ n.toNat + 1 := Nat.mod_le _ _
    split at hle
    · change n.toNat ≤ 0 at hle
      omega
    · next hwindow =>
      have hpos : 1 ≤ config.reorderWindow := UInt64.le_iff_toNat_le.2
        (Nat.one_le_iff_ne_zero.2 fun h => hwindow (UInt64.toNat_inj.1 h))
      rw [UInt64.toNat_sub_of_le _ _ hpos] at hle
      change n.toNat ≤ config.reorderWindow.toNat - 1 at hle
      omega

/-- A message is not scheduled only if it would be due too late. -/
theorem size_le_of_schedule (h : net.schedule e = .error f) :
    UInt64.size ≤ net.now.toNat + net.longestDelay e.source e.target := by
  have h := map_eq_error h
  have hjitter := UInt64.le_iff_toNat_le.1 (drawJitter_le net.config net.random)
  have hhold := drawHold_le net.config (drawJitter net.config net.random).2
  rw [drawDue] at h
  generalize drawJitter net.config net.random = drawn at h hjitter hhold
  obtain ⟨jitter, g⟩ := drawn
  dsimp only at h hjitter hhold
  generalize drawHold net.config g = drawn at h hhold
  rw [longestDelay]
  rcases bind_eq_error h with h | ⟨delay, hdelay, h⟩
  · have := size_le_of_checkedAdd h
    omega
  have hdelay := toNat_checkedAdd hdelay
  rcases bind_eq_error h with h | ⟨held, hheld, h⟩
  · have := size_le_of_checkedAdd h
    omega
  have hheld := toNat_checkedAdd hheld
  rcases bind_eq_error h with h | ⟨tick, _, h⟩
  · have := size_le_of_checkedAdd h
    omega
  · cases h

theorem exists_of_releaseAll (h : net.releaseAll = .error f) :
    ∃ e ∈ net.parked, net.isCut e.source e.target = false ∧
      UInt64.size ≤ net.now.toNat + net.longestDelay e.source e.target := by
  obtain ⟨e, he, mid, ⟨hrests, hkeeps⟩, hr⟩ := exists_of_foldlM_eq_error
    (p := fun mid : Network μ => Rests { net with parked := [] } mid ∧
      KeepsDelays { net with parked := [] } mid)
    (fun _ _ _ hb hr => ⟨hb.1.trans (release_rests hr), hb.2.trans (release_keepsDelays hr)⟩)
    ⟨.refl _, .refl _⟩ h
  rw [release] at hr
  split at hr
  · cases hr
  · next hcut =>
    have hsize := size_le_of_schedule hr
    rw [hrests.now, hkeeps.longestDelay] at hsize
    rw [isCut, hrests.partitions] at hcut
    exact ⟨e, he, Bool.eq_false_iff.2 hcut, hsize⟩

theorem exists_of_healExpired (h : net.healExpired = .error f) :
    ∃ e ∈ net.parked, ((net.partitions.filter fun p => !p.isHealedBy net.now).any
        (·.cuts e.source e.target)) = false ∧
      UInt64.size ≤ net.now.toNat + net.longestDelay e.source e.target := by
  rw [healExpired] at h
  split at h
  · cases h
  · exact exists_of_releaseAll h

end Network
end Confluence
