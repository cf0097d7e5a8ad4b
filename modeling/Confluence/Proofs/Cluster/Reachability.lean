import Confluence.Proofs.Cluster.Links
import Confluence.Proofs.Network.Overflow

namespace Confluence

theorem LinkState.isCutAt_meet (s t : LinkState) (now : UInt64) :
    (s.meet t).isCutAt now = (s.isCutAt now || t.isCutAt now) := by
  cases s with
  | opened => rfl
  | cut => cases t <;> rfl
  | cutUntil a =>
    cases t with
    | opened => exact (Bool.or_false _).symm
    | cut => exact (Bool.or_true _).symm
    | cutUntil b =>
      change decide (now < if a ≤ b then b else a) = (decide (now < a) || decide (now < b))
      rw [← Bool.decide_or]
      apply decide_eq_decide.2
      split
      · next hle => exact ⟨.inr, fun h => h.elim (UInt64.lt_of_lt_of_le · hle) id⟩
      · next hlt =>
        have hle := UInt64.le_of_lt (UInt64.not_le.1 hlt)
        exact ⟨.inl, fun h => h.elim id (UInt64.lt_of_lt_of_le · hle)⟩

theorem LinkState.isCutAt_iff {s : LinkState} {now : UInt64} :
    s.isCutAt now = true ↔ s = .cut ∨ ∃ tick, s = .cutUntil tick ∧ now < tick := by
  cases s <;> simp [isCutAt]

theorem Partition.isCutAt_linkState (p : Partition) (a b : NodeId) (now : UInt64) :
    (p.linkState a b).isCutAt now = (!p.isHealedBy now && p.cuts a b) := by
  rw [linkState, isHealedBy]
  cases p.cuts a b with
  | false => exact (Bool.and_false _).symm
  | true =>
    rw [if_pos rfl, Bool.and_true]
    cases p.healsAt with
    | none => rfl
    | some tick =>
      change decide (now < tick) = !decide (tick ≤ now)
      rw [← decide_not]
      exact decide_eq_decide.2 UInt64.not_le.symm

namespace Network
variable {μ : Type} {net net' : Network μ} {a b : NodeId} {ticks : UInt64}

theorem isCutAt_linkState (net : Network μ) (a b : NodeId) (now : UInt64) :
    (net.linkState a b).isCutAt now =
      (net.partitions.filter fun p => !p.isHealedBy now).any (·.cuts a b) := by
  have key (l : List Partition) (s : LinkState) :
      (l.foldl (fun s p => s.meet (p.linkState a b)) s).isCutAt now =
        (s.isCutAt now || (l.filter fun p => !p.isHealedBy now).any (·.cuts a b)) := by
    induction l generalizing s with
    | nil => exact (Bool.or_false _).symm
    | cons p l ih =>
      rw [List.foldl_cons, ih, LinkState.isCutAt_meet, p.isCutAt_linkState, Bool.or_assoc,
        List.filter_cons]
      cases p.isHealedBy now <;> rfl
  exact key net.partitions .opened

theorem healExpired_isCut (h : net.healExpired = .ok net') (a b : NodeId) :
    net'.isCut a b = (net.linkState a b).isCutAt net.now := by
  rw [isCutAt_linkState, isCut, (healExpired_eq_ok h).2]

theorem advance_isCut (h : net.advance ticks = .ok net') (a b : NodeId) :
    net'.isCut a b = (net.linkState a b).isCutAt (net.now + ticks) := by
  obtain ⟨now, hnow, h⟩ := bind_eq_ok h
  have he : now = net.now + ticks := by
    rw [checkedAdd] at hnow
    split at hnow
    · exact (Except.ok.inj hnow).symm
    · cases hnow
  rw [healExpired_isCut h, ← he]
  rfl

theorem exists_of_advance {f : Fault} (hroom : net.now.toNat + ticks.toNat < UInt64.size)
    (h : net.advance ticks = .error f) :
    ∃ e ∈ net.parked, (net.linkState e.source e.target).isCutAt (net.now + ticks) = false ∧
      UInt64.size ≤ (net.now + ticks).toNat + net.longestDelay e.source e.target := by
  rw [advance, checkedAdd_eq_ok hroom, ok_bind] at h
  obtain ⟨e, he, hopened, hsize⟩ := exists_of_healExpired h
  exact ⟨e, he, (net.isCutAt_linkState ..).trans hopened, hsize⟩

end Network

theorem Sequencer.isCut_setLinks (s : Sequencer) {names : List NodeId} {node : NodeId}
    (hn : node ∈ names) (f : NodeId → LinkState) :
    (s.setLinks (names.map fun a => (a, f a))).isCut node = (f node).isCutAt s.now := by
  have hlink := s.link_setLinks names f node
  rw [if_pos hn] at hlink
  exact congrArg (·.isCutAt s.now) hlink

namespace Network
variable {μ : Type} {ticks : UInt64}

/-- A network and a sequencer that is told the states of the links agree on who is cut off, now and later.
When some ticks have passed, the link between a node and the leader is cut in the network if and only if
it was cut for good, or until a later tick; and that is what a sequencer says whose clock stands at that
time. The ticks pass unless a message whose link opens would then be due too late. -/
theorem reachability_of_advance (net : Network μ)
    (hroom : net.now.toNat + ticks.toNat < UInt64.size) :
    let later := net.now + ticks
    (∀ net', net.advance ticks = .ok net' → net'.now = later ∧ ∀ node leader,
      (net'.isCut node leader = true ↔ net.linkState node leader = .cut ∨
        ∃ tick, net.linkState node leader = .cutUntil tick ∧ later < tick) ∧
      ∀ (s : Sequencer) (names : List NodeId), node ∈ names → s.now = later →
        (s.setLinks (names.map fun a => (a, net.linkState a leader))).isCut node =
          net'.isCut node leader) ∧
    ∀ fault, net.advance ticks = .error fault → fault = .overflow ∧
      ∃ e ∈ net.parked, (net.linkState e.source e.target).isCutAt later = false ∧
        UInt64.size ≤ later.toNat + net.longestDelay e.source e.target := by
  intro later
  refine ⟨fun net' h => ⟨?_, fun node leader => ?_⟩, fun fault h => ?_⟩
  · apply UInt64.toNat_inj.1
    rw [(advance_ahead h).1, UInt64.toNat_add]
    exact (Nat.mod_eq_of_lt hroom).symm
  · have hcut := advance_isCut h node leader
    refine ⟨hcut ▸ LinkState.isCutAt_iff, fun s names hn hs => ?_⟩
    rw [s.isCut_setLinks hn, hs, hcut]
  · exact ⟨(net.advance_overflowsOnly ticks).reason fault h, exists_of_advance hroom h⟩

/-- Three partitions overlap, and one of them heals before and one after the time in question. -/
theorem reachability_of_advance_overlapping :
    ∃ (j : Journal String) (net' : Network String), (Journal.new .reliable 7).performAll
        [.cutOff ["a"] (some 4), .cutOff ["a", "b"] (some 9), .cutOff ["c"] none,
          .send "a" "b" "x", .send "c" "a" "y", .advance 2] = .ok j ∧
      j.network.now.toNat + (4 : UInt64).toNat < UInt64.size ∧ j.network.advance 4 = .ok net' ∧
      j.network.linkState "b" "a" = .cutUntil 4 ∧ net'.isCut "b" "a" = false ∧
      j.network.linkState "d" "a" = .cutUntil 9 ∧ net'.isCut "d" "a" = true ∧
      j.network.linkState "c" "a" = .cut ∧ net'.isCut "c" "a" = true ∧
      ∀ s : Sequencer, s.now = 6 → ((s.setLinks (["a", "b", "c", "d"].map fun a =>
        (a, j.network.linkState a "a"))).isCut "d" = true) := by
  obtain ⟨j, net', hp, ha, hj⟩ := @exists_pair_of_endsWith _ _ _
    ((Journal.new .reliable 7 : Journal String).performAll
        [.cutOff ["a"] (some 4), .cutOff ["a", "b"] (some 9), .cutOff ["c"] none,
          .send "a" "b" "x", .send "c" "a" "y", .advance 2])
    (fun j => j.network.advance 4)
    (fun r => r.1.network.now = 2 ∧ r.1.network.linkState "b" "a" = .cutUntil 4 ∧
      r.1.network.linkState "d" "a" = .cutUntil 9 ∧ r.1.network.linkState "c" "a" = .cut)
    (by decide +kernel)
  obtain ⟨hnow, hb, hd, hc⟩ := of_decide_eq_true hj
  have hroom : j.network.now.toNat + (4 : UInt64).toNat < UInt64.size := by
    rw [hnow]
    decide
  obtain ⟨_, hagree⟩ := (reachability_of_advance j.network hroom).1 net' ha
  rw [hnow] at hagree
  have hcutd := (hagree "d" "a").1.2 (.inr ⟨9, hd, by decide⟩)
  refine ⟨j, net', hp, hroom, ha, hb, ?_, hd, hcutd, hc, (hagree "c" "a").1.2 (.inl hc), ?_⟩
  · refine Bool.eq_false_iff.2 fun hcut => ?_
    rcases (hagree "b" "a").1.1 hcut with h | ⟨tick, h, hlt⟩
    · cases hb.symm.trans h
    · cases hb.symm.trans h
      exact absurd hlt (by decide)
  · exact fun s hs => ((hagree "d" "a").2 s _ (by decide) hs).trans hcutd

end Network
end Confluence
