import Confluence.Proofs.Cluster.Spread

namespace Confluence

open Relation

namespace Node
variable {us : List Update} {x : NodeId} {k : Nat}

theorem le_latest_iff (hk : 0 < k) : k ≤ latest us x ↔ ∃ u ∈ us, k ≤ (u.clock.get x).toNat := by
  induction us using List.reverseRecOn with
  | nil => simpa [latest] using Nat.ne_of_gt hk
  | append_singleton us u ih =>
    have hmax : k ≤ max (latest us x) (u.clock.get x).toNat ↔
        k ≤ latest us x ∨ k ≤ (u.clock.get x).toNat := by omega
    rw [latest_concat, hmax, ih]
    simp only [List.mem_append, List.mem_singleton, or_and_right, exists_or, exists_eq_left]

theorem le_latest {u : Update} (hu : u ∈ us) : (u.clock.get x).toNat ≤ latest us x := by
  rcases Nat.eq_zero_or_pos (u.clock.get x).toNat with h0 | hpos
  · exact h0 ▸ Nat.zero_le _
  · exact (le_latest_iff hpos).2 ⟨u, hu, Nat.le_refl _⟩

theorem latest_le (h : ∀ u ∈ us, (u.clock.get x).toNat ≤ k) : latest us x ≤ k := by
  rcases Nat.eq_zero_or_pos (latest us x) with h0 | hpos
  · exact h0 ▸ Nat.zero_le k
  · obtain ⟨u, hu, hle⟩ := (le_latest_iff hpos).1 (Nat.le_refl _)
    exact Nat.le_trans hle (h u hu)

end Node

/-- The updates that were committed, in order, and those that each node has merged, by its position,
in the order in which it has merged them. -/
structure Gossip where
  committed : List Update
  merged : Nat → List Update

namespace Gossip

/-- The node at a position merges one more update. -/
def learn (g : Gossip) (i : Nat) (u : Update) : Gossip :=
  { g with merged := fun j => g.merged j ++ if i = j then [u] else [] }

def commit (g : Gossip) (u : Update) : Gossip := { g with committed := g.committed ++ [u] }

/-- The updates of an origin. -/
def committedBy (g : Gossip) (x : NodeId) : List Update := g.committed.filter fun u => u.origin = x

/-- An update that the node at a position makes of what it has merged: its clock covers all of that,
and counts one more update of the node itself. -/
structure Makes (g : Gossip) (i : Nat) (u : Update) : Prop where
  origin : u.origin = Cluster.nodeName i
  clock : ∀ x, (u.clock.get x).toNat =
    Node.latest (g.merged i) x + if x = u.origin then 1 else 0

inductive Step : Gossip → Gossip → Prop
  | merge {g : Gossip} {i : Nat} {u : Update} :
    u ∈ g.committed → u ∉ g.merged i → Step g (g.learn i u)
  | commit {g : Gossip} {i : Nat} {u : Update} :
    g.Makes i u → Step g ((g.commit u).learn i u)

/-- The origin of an update has merged another one before it. -/
def Precedes (g : Gossip) (u v : Update) : Prop :=
  ∃ i, v.origin = Cluster.nodeName i ∧ [u, v].Sublist (g.merged i)

/-- Updates are numbered by origin, and the clock of an update counts those that came before it. -/
structure Causal (g : Gossip) : Prop where
  mem : ∀ i, ∀ u ∈ g.merged i, u ∈ g.committed
  own : ∀ u ∈ g.committed, ∃ i, u.origin = Cluster.nodeName i ∧ u ∈ g.merged i
  numbered : ∀ x, (g.committedBy x).map (·.sequence.toNat) =
    List.range' 1 (g.committedBy x).length
  latest : ∀ i, Node.latest (g.merged i) (Cluster.nodeName i) =
    (g.committedBy (Cluster.nodeName i)).length
  bounded : ∀ u ∈ g.committed, ∀ x, (u.clock.get x).toNat ≤ (g.committedBy x).length
  below : ∀ u v, g.Precedes u v → u.clock ≤ v.clock ∧ u.clock.get v.origin < v.clock.get v.origin
  reaches : ∀ v ∈ g.committed, ∀ (x : NodeId) (k : Nat), 0 < k → k ≤ (v.clock.get x).toNat →
    ∃ u ∈ g.committed, u.origin = x ∧ u.sequence.toNat = k ∧ ReflTransGen g.Precedes u v

variable {g g' : Gossip} {i j : Nat} {u v a : Update} {x : NodeId}

theorem mem_learn : a ∈ (g.learn i u).merged j ↔ a ∈ g.merged j ∨ i = j ∧ a = u := by
  unfold learn
  by_cases hij : i = j <;> simp [hij]

theorem committedBy_commit (g : Gossip) (u : Update) (x : NodeId) :
    (g.commit u).committedBy x = g.committedBy x ++ if u.origin = x then [u] else [] := by
  unfold commit committedBy
  rw [List.filter_append]
  congr 1
  by_cases hx : u.origin = x <;> simp [hx]

theorem pair_sublist_concat {α : Type} {a b c : α} {l : List α} (h : [a, b].Sublist (l ++ [c])) :
    [a, b].Sublist l ∨ b = c ∧ a ∈ l := by
  obtain ⟨l₁, l₂, he, h₁, h₂⟩ := List.sublist_append_iff.1 h
  rcases List.sublist_singleton.1 h₂ with rfl | rfl
  · rw [List.append_nil] at he
    exact .inl (he ▸ h₁)
  · obtain ⟨rfl, rfl⟩ : l₁ = [a] ∧ c = b := by
      cases l₁ with
      | nil => cases he
      | cons a' l₁ => cases l₁ <;> simp_all
    exact .inr ⟨rfl, List.singleton_sublist.1 h₁⟩

theorem Precedes.learn (h : g.Precedes a v) (i : Nat) (u : Update) :
    (g.learn i u).Precedes a v := by
  obtain ⟨j, hv, hs⟩ := h
  exact ⟨j, hv, hs.trans (List.sublist_append_left _ _)⟩

theorem precedes_learn (h : (g.learn i u).Precedes a v) :
    g.Precedes a v ∨ v = u ∧ u.origin = Cluster.nodeName i ∧ a ∈ g.merged i := by
  obtain ⟨j, hv, hs⟩ := h
  unfold Gossip.learn at hs
  dsimp only at hs
  by_cases hij : i = j
  · subst hij
    rw [if_pos rfl] at hs
    rcases pair_sublist_concat hs with hs | ⟨rfl, ha⟩
    · exact .inl ⟨i, hv, hs⟩
    · exact .inr ⟨rfl, hv, ha⟩
  · rw [if_neg hij, List.append_nil] at hs
    exact .inl ⟨j, hv, hs⟩

theorem Causal.merge (h : g.Causal) (hu : u ∈ g.committed) (hn : u ∉ g.merged i) :
    (g.learn i u).Causal where
  mem j a ha := by
    rcases mem_learn.1 ha with ha | ⟨_, rfl⟩
    · exact h.mem j a ha
    · exact hu
  own a ha := by
    obtain ⟨j, hj, hm⟩ := h.own a ha
    exact ⟨j, hj, mem_learn.2 (.inl hm)⟩
  numbered := h.numbered
  latest j := by
    change Node.latest (g.merged j ++ _) _ = (g.committedBy _).length
    by_cases hij : i = j
    · subst hij
      rw [if_pos rfl, Node.latest_concat, h.latest]
      exact Nat.max_eq_left (h.bounded u hu _)
    · rw [if_neg hij, List.append_nil, h.latest]
  bounded := h.bounded
  below a v hp := by
    rcases precedes_learn hp with hp | ⟨rfl, horigin, _⟩
    · exact h.below a v hp
    · -- An update that is merged by its origin was merged by it when it was committed.
      obtain ⟨j, hj, hm⟩ := h.own v hu
      have hij : i = j := Cluster.nodeName_injective (horigin.symm.trans hj)
      exact absurd (hij ▸ hm) hn
  reaches v hv x k hk hle := by
    obtain ⟨a, ha, hx, hs, hp⟩ := h.reaches v hv x k hk hle
    exact ⟨a, ha, hx, hs, ReflTransGen.mono (fun _ _ hp => Precedes.learn hp i u) _ _ hp⟩

theorem Causal.latest_le (h : g.Causal) (i : Nat) (x : NodeId) :
    Node.latest (g.merged i) x ≤ (g.committedBy x).length :=
  Node.latest_le fun u hu => h.bounded u (h.mem i u hu) x

theorem Causal.sequence_made (h : g.Causal) (hm : g.Makes i u) :
    u.sequence.toNat = (g.committedBy u.origin).length + 1 := by
  unfold Update.sequence
  rw [hm.clock, if_pos rfl, hm.origin, h.latest]

theorem Makes.lt (hm : g.Makes i u) (ha : a ∈ g.merged i) :
    a.clock ≤ u.clock ∧ a.clock.get u.origin < u.clock.get u.origin := by
  have hle (x : NodeId) : (a.clock.get x).toNat ≤ Node.latest (g.merged i) x := Node.le_latest ha
  constructor
  · refine VectorClock.le_iff_toNat.2 fun x => ?_
    rw [hm.clock]
    exact Nat.le_trans (hle x) (Nat.le_add_right _ _)
  · rw [UInt64.lt_iff_toNat_lt, hm.clock, if_pos rfl]
    exact Nat.lt_succ_of_le (hle _)

theorem Causal.reaches_made (h : g.Causal) (hm : g.Makes i u) {k : Nat} (hk : 0 < k)
    (hle : k ≤ (u.clock.get x).toNat) :
    (∃ v ∈ g.merged i, ∃ b ∈ g.committed, b.origin = x ∧ b.sequence.toNat = k ∧
      ReflTransGen g.Precedes b v) ∨ u.origin = x ∧ u.sequence.toNat = k := by
  by_cases hl : k ≤ Node.latest (g.merged i) x
  · obtain ⟨v, hv, hkv⟩ := (Node.le_latest_iff hk).1 hl
    exact .inl ⟨v, hv, h.reaches v (h.mem i v hv) x k hk hkv⟩
  · have hclock := hm.clock x
    split at hclock
    · next hx =>
      subst hx
      refine .inr ⟨rfl, ?_⟩
      unfold Update.sequence
      omega
    · omega

theorem Causal.commit (h : g.Causal) (hm : g.Makes i u) : ((g.commit u).learn i u).Causal where
  mem j a ha := by
    rcases mem_learn.1 ha with ha | ⟨_, rfl⟩
    · exact List.mem_append_left _ (h.mem j a ha)
    · exact List.mem_append_right _ (List.mem_singleton_self a)
  own a ha := by
    rcases List.mem_append.1 ha with ha | ha
    · obtain ⟨j, hj, hmj⟩ := h.own a ha
      exact ⟨j, hj, mem_learn.2 (.inl hmj)⟩
    · obtain rfl := List.mem_singleton.1 ha
      exact ⟨i, hm.origin, mem_learn.2 (.inr ⟨rfl, rfl⟩)⟩
  numbered x := by
    change ((g.commit u).committedBy x).map _ = List.range' 1 ((g.commit u).committedBy x).length
    rw [committedBy_commit, List.map_append, List.length_append, h.numbered]
    by_cases hx : u.origin = x
    · rw [if_pos hx, List.map_singleton, h.sequence_made hm, hx, Nat.add_comm]
      exact List.range'_1_concat.symm
    · rw [if_neg hx]
      exact List.append_nil _
  latest j := by
    change Node.latest (g.merged j ++ _) _ = ((g.commit u).committedBy _).length
    rw [committedBy_commit, List.length_append]
    by_cases hij : i = j
    · subst hij
      rw [if_pos rfl, if_pos hm.origin, Node.latest_concat, h.latest, hm.clock,
        if_pos hm.origin.symm, h.latest]
      exact Nat.max_eq_right (Nat.le_succ _)
    · have hne : u.origin ≠ Cluster.nodeName j := fun he =>
        hij (Cluster.nodeName_injective (hm.origin.symm.trans he))
      rw [if_neg hij, if_neg hne, List.append_nil]
      exact h.latest j
  bounded a ha x := by
    change _ ≤ ((g.commit u).committedBy x).length
    rw [committedBy_commit, List.length_append]
    rcases List.mem_append.1 ha with ha | ha
    · exact Nat.le_trans (h.bounded a ha x) (Nat.le_add_right _ _)
    · obtain rfl := List.mem_singleton.1 ha
      rw [hm.clock]
      apply Nat.add_le_add (h.latest_le i x)
      by_cases hx : x = a.origin
      · rw [if_pos hx, if_pos hx.symm]
        exact Nat.le_refl _
      · rw [if_neg hx]
        exact Nat.zero_le _
  below a v hp := by
    rcases precedes_learn hp with hp | ⟨rfl, _, ha⟩
    · exact h.below a v hp
    · exact hm.lt ha
  reaches v hv x k hk hle := by
    have hmono : g.Precedes ≤ ((g.commit u).learn i u).Precedes :=
      fun _ _ hp => Precedes.learn (g := g.commit u) hp i u
    rcases List.mem_append.1 hv with hv | hv
    · obtain ⟨b, hb, hx, hs, hp⟩ := h.reaches v hv x k hk hle
      exact ⟨b, List.mem_append_left _ hb, hx, hs, ReflTransGen.mono hmono _ _ hp⟩
    · obtain rfl := List.mem_singleton.1 hv
      rcases h.reaches_made hm hk hle with ⟨a, ha, b, hb, hx, hs, hp⟩ | ⟨hx, hs⟩
      · have hlast : ((g.commit v).learn i v).Precedes a v := by
          refine ⟨i, hm.origin, ?_⟩
          change [a, v].Sublist (g.merged i ++ if i = i then [v] else [])
          rw [if_pos rfl]
          exact (List.singleton_sublist.2 ha).append (.refl _)
        exact ⟨b, List.mem_append_left _ hb, hx, hs, (ReflTransGen.mono hmono _ _ hp).tail hlast⟩
      · exact ⟨v, List.mem_append_right _ (List.mem_singleton_self v), hx, hs, .refl⟩

theorem Causal.step (h : g.Causal) (hs : Step g g') : g'.Causal := by
  cases hs with
  | merge hu hn => exact h.merge hu hn
  | commit hm => exact h.commit hm

theorem causal_nil : (⟨[], fun _ => []⟩ : Gossip).Causal where
  mem i u hu := by cases hu
  own u hu := by cases hu
  numbered x := rfl
  latest i := rfl
  bounded u hu := by cases hu
  below u v hp := by
    obtain ⟨_, _, hs⟩ := hp
    cases hs
  reaches v hv := by cases hv

theorem Causal.sequence_bounds (h : g.Causal) (hu : u ∈ g.committed) :
    0 < u.sequence.toNat ∧ u.sequence.toNat ≤ (g.committedBy u.origin).length := by
  have hmem : u ∈ g.committedBy u.origin := List.mem_filter.2 ⟨hu, decide_eq_true rfl⟩
  have hs := List.mem_map_of_mem (f := fun u : Update => u.sequence.toNat) hmem
  rw [h.numbered, List.mem_range'_1] at hs
  omega

theorem Causal.exists_of_sequence (h : g.Causal) {k : Nat} (hk : 0 < k)
    (hle : k ≤ (g.committedBy x).length) :
    ∃ u ∈ g.committed, u.origin = x ∧ u.sequence.toNat = k := by
  have hs : k ∈ (g.committedBy x).map (·.sequence.toNat) := by
    rw [h.numbered, List.mem_range'_1]
    omega
  obtain ⟨u, hu, hk⟩ := List.mem_map.1 hs
  obtain ⟨hu, hx⟩ := List.mem_filter.1 hu
  exact ⟨u, hu, of_decide_eq_true hx, hk⟩

theorem Causal.eq_of_sequence (h : g.Causal) (hu : u ∈ g.committed) (hv : v ∈ g.committed)
    (ho : u.origin = v.origin) (hs : u.sequence = v.sequence) : u = v := by
  have hn : ((g.committedBy u.origin).map (·.sequence.toNat)).Nodup := by
    rw [h.numbered]
    exact List.nodup_range'
  apply List.inj_on_of_nodup_map hn
  · exact List.mem_filter.2 ⟨hu, decide_eq_true rfl⟩
  · exact List.mem_filter.2 ⟨hv, decide_eq_true ho.symm⟩
  · rw [hs]

theorem Causal.of_chain (h : g.Causal) (hp : TransGen g.Precedes u v) :
    u.clock ≤ v.clock ∧ u.clock.get v.origin < v.clock.get v.origin := by
  induction hp with
  | single hp => exact h.below _ _ hp
  | tail _ hp ih =>
    obtain ⟨hle, hlt⟩ := h.below _ _ hp
    exact ⟨VectorClock.le_trans ih.1 hle, UInt64.lt_of_le_of_lt (ih.1 _) hlt⟩

theorem Causal.chain_of_le (h : g.Causal) (hu : u ∈ g.committed) (hv : v ∈ g.committed)
    (hne : u ≠ v) (hle : u.sequence ≤ v.clock.get u.origin) : TransGen g.Precedes u v := by
  obtain ⟨b, hb, ho, hs, hp⟩ := h.reaches v hv u.origin u.sequence.toNat (h.sequence_bounds hu).1
    (UInt64.le_iff_toNat_le.1 hle)
  obtain rfl : b = u := h.eq_of_sequence hb hu ho (UInt64.toNat_inj.1 hs)
  rcases reflTransGen_iff_eq_or_transGen.1 hp with he | hp
  · exact absurd he.symm hne
  · exact hp

theorem Causal.happenedBefore_iff (h : g.Causal) (hu : u ∈ g.committed) (hv : v ∈ g.committed)
    (hne : u ≠ v) : u.clock.happenedBefore v.clock = true ↔ TransGen g.Precedes u v := by
  rw [VectorClock.happenedBefore_iff]
  constructor
  · intro hb
    exact h.chain_of_le hu hv hne (hb.1 u.origin)
  · intro hp
    obtain ⟨hle, hlt⟩ := h.of_chain hp
    exact ⟨hle, v.origin, hlt⟩

theorem Causal.not_agrees (h : g.Causal) (hu : u ∈ g.committed) (hv : v ∈ g.committed)
    (hne : u ≠ v) : u.clock.agrees v.clock = false := by
  refine Bool.eq_false_iff.2 fun ha => ?_
  have he := VectorClock.agrees_iff.1 ha
  have hp := h.chain_of_le hu hv hne (UInt64.le_of_eq (he u.origin))
  exact UInt64.ne_of_lt (h.of_chain hp).2 (he v.origin)

end Gossip
end Confluence
