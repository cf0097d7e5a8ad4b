import Confluence.Proofs.Network.Progress

namespace Confluence

/-- Messages are neither copied nor held back, and take the delay of their link. -/
structure NetworkConfig.IsFaultFree (config : NetworkConfig) : Prop where
  jitter : config.jitter = 0
  dupRate : ¬ 0 < config.dupRate
  reorderRate : ¬ 0 < config.reorderRate

theorem NetworkConfig.isFaultFree_zero (baseDelay reorderWindow : UInt64) :
    IsFaultFree ⟨baseDelay, 0, 0, 0, reorderWindow⟩ := by
  have hrate : ¬ (0 : Float) < 0 := by decide +kernel
  exact ⟨rfl, hrate, hrate⟩

namespace Due
variable {a b c : Due}

/-- Earlier ticks come first, and within a tick what was scheduled first. -/
def Precedes (a b : Due) : Prop := a.tick < b.tick ∨ a.tick = b.tick ∧ a.sequence < b.sequence

theorem precedes_of_compare (h : compare a b = .lt) : a.Precedes b := by
  have h : (compare a.tick b.tick).then (compare a.sequence b.sequence) = .lt := h
  rcases Ordering.then_eq_lt.1 h with h | ⟨h, h'⟩
  · exact .inl (compareOfLessAndEq_eq_lt.1 h)
  · exact .inr ⟨Std.LawfulEqCmp.eq_of_compare h, Nat.compare_eq_lt.1 h'⟩

theorem Precedes.asymm (h : a.Precedes b) : ¬ b.Precedes a := by
  rintro (h' | ⟨he', h'⟩)
  · rcases h with h | ⟨he, _⟩
    · exact UInt64.lt_asymm h h'
    · exact UInt64.ne_of_lt h' he.symm
  · rcases h with h | ⟨_, h⟩
    · exact UInt64.ne_of_lt h he'.symm
    · exact Nat.lt_asymm h h'

end Due

namespace Network
variable {μ : Type} {net net' : Network μ} {e : Envelope μ} {due : Due}
  {rest : OrderedMap Due (Envelope μ)} {delivered : Option (Envelope μ)}

theorem drawDue_of_isFaultFree (hc : net.config.IsFaultFree) (delay : UInt64) :
    net.drawDue delay = (checkedAdd net.now delay).map (·, false, net.random) := by
  have hzero (a : UInt64) : checkedAdd a 0 = .ok a := by
    rw [checkedAdd_eq_ok (by simpa using a.toNat_lt_size), UInt64.add_zero]
  have hjitter : ¬ 0 < net.config.jitter := by
    rw [hc.jitter]
    exact UInt64.lt_irrefl 0
  rw [drawDue, drawJitter, if_neg hjitter]
  dsimp only
  rw [hzero, ok_bind, drawHold, drawChance, if_neg hc.reorderRate]
  dsimp only
  rw [if_neg Bool.false_ne_true]
  dsimp only
  rw [Option.getD_none, hzero, ok_bind]
  rfl

theorem schedule_of_isFaultFree (hc : net.config.IsFaultFree) (h : net.schedule e = .ok net') :
    ∃ tick : UInt64, tick.toNat = net.now.toNat + (net.linkDelay e.source e.target).toNat ∧
      net' = { net with
        nextSequence := net.nextSequence + 1
        queue := net.queue.insert ⟨tick, net.nextSequence⟩ e } := by
  obtain ⟨drawn, hdrawn, rfl⟩ := map_eq_ok h
  rw [drawDue_of_isFaultFree hc] at hdrawn
  obtain ⟨tick, htick, rfl⟩ := map_eq_ok hdrawn
  exact ⟨tick, toNat_checkedAdd htick, rfl⟩

theorem isCut_of_partitions (hp : net.partitions = []) (a b : NodeId) : net.isCut a b = false := by
  rw [isCut, hp]
  rfl

theorem send_of_isFaultFree {source target : NodeId} {m : μ} (hc : net.config.IsFaultFree)
    (hp : net.partitions = []) (h : net.send source target m = .ok net') :
    ∃ tick : UInt64, tick.toNat = net.now.toNat + (net.linkDelay source target).toNat ∧
      net' = { net with
        nextSequence := net.nextSequence + 1
        queue := net.queue.insert ⟨tick, net.nextSequence⟩ ⟨source, target, m⟩
        stats := { net.stats with sent := net.stats.sent + 1 } } := by
  let counted : Network μ := { net with stats := { net.stats with sent := net.stats.sent + 1 } }
  have hopen : ¬ counted.isCut source target = true :=
    Bool.eq_false_iff.1 (@isCut_of_partitions _ counted hp source target)
  rw [send] at h
  dsimp only at h
  rw [if_neg hopen, drawChance, if_neg hc.dupRate] at h
  exact @schedule_of_isFaultFree _ counted _ _ hc h

theorem nextHeal?_of_partitions (hp : net.partitions = []) : net.nextHeal? = none := by
  rw [nextHeal?_eq_none_iff, hp]
  nofun

/-- The network after its first message has arrived. -/
def handOut (net : Network μ) (due : Due) (rest : OrderedMap Due (Envelope μ)) : Network μ :=
  { net.reach due.tick with
    queue := rest
    stats := { net.stats with delivered := net.stats.delivered + 1 } }

theorem nextDelivery_of_popFirst? (hp : net.partitions = [])
    (h : net.queue.popFirst? = some ((due, e), rest)) :
    net.nextDelivery = .ok (some e, net.handOut due rest) := by
  have harrive : net.nextEvent = .arrive due e rest := by
    rw [nextEvent, h, nextHeal?_of_partitions hp]
  fun_cases nextDelivery net with
  | case3 due' e' rest' he hlt mid hcut =>
    rw [@isCut_of_partitions _ mid hp] at hcut
    cases hcut
  | case4 due' e' rest' he hlt mid hcut =>
    cases harrive.symm.trans he
    rfl
  | _ => simp_all

theorem nextDelivery_of_empty (hp : net.partitions = []) (h : net.queue = .empty) :
    net.nextDelivery = .ok (none, net) :=
  nextDelivery_of_nothing (nextEvent_eq_nothing_iff.2 ⟨h, nextHeal?_of_partitions hp⟩)

theorem advance_of_partitions {ticks : UInt64} (hp : net.partitions = [])
    (h : net.advance ticks = .ok net') :
    ∃ now, now.toNat = net.now.toNat + ticks.toNat ∧ net' = { net with now } := by
  obtain ⟨now, hnow, h⟩ := bind_eq_ok h
  refine ⟨now, toNat_checkedAdd hnow, ?_⟩
  rw [healExpired] at h
  split at h
  · cases h
    rfl
  · next hheal =>
    rw [hp] at hheal
    exact absurd rfl hheal

end Network
end Confluence
