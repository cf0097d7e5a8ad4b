import Mathlib.Order.Bounds.Basic
import Confluence.Proofs.History.Stability
import Confluence.Proofs.Ordered

namespace Confluence.StabilityMonitor

/-- What can be asked of a monitor. -/
inductive Call
  | registerPeer (peer : NodeId)
  | updateLocal (frontier : VectorClock)
  | updatePeer (peer : NodeId) (frontier : VectorClock)
  | removePeer (peer : NodeId)
  deriving DecidableEq

def perform (m : StabilityMonitor) : Call → StabilityMonitor
  | .registerPeer peer => m.registerPeer peer
  | .updateLocal frontier => m.updateLocal frontier
  | .updatePeer peer frontier => m.updatePeer peer frontier
  | .removePeer peer => m.removePeer peer

def performAll (m : StabilityMonitor) (calls : List Call) : StabilityMonitor :=
  calls.foldl perform m

namespace Call

/-- Whether a call makes a peer a tracked one, unless it is one already. -/
def names (peer : NodeId) : Call → Bool
  | registerPeer p => p = peer
  | updatePeer p _ => p = peer
  | _ => false

def announcement? (peer : NodeId) : Call → Option VectorClock
  | updatePeer p frontier => if p = peer then some frontier else none
  | _ => none

def local? : Call → Option VectorClock
  | updateLocal frontier => some frontier
  | _ => none

/-- The calls since a peer was last removed, the latest one first. -/
def sinceRemoved (peer : NodeId) (calls : List Call) : List Call :=
  calls.reverse.takeWhile (· ≠ removePeer peer)

/-- A node is tracked as a peer once it was registered or announced a frontier, until it is removed. No
node is a peer of itself. -/
def IsTracked (node : NodeId) (calls : List Call) (peer : NodeId) : Prop :=
  peer ≠ node ∧ ∃ c ∈ sinceRemoved peer calls, c.names peer = true

/-- How much of an origin a peer has announced since it came to be tracked: the largest counter. To
register it once more takes nothing back. -/
def announced (calls : List Call) (peer origin : NodeId) : Nat :=
  ((sinceRemoved peer calls).filterMap (announcement? peer)).foldr
    (fun frontier most => max (frontier.get origin).toNat most) 0

/-- The frontier that the node itself reported last. -/
def lastLocal (calls : List Call) : VectorClock := (calls.reverse.findSome? local?).getD .empty

/-- The nodes whose frontiers count: the node itself and its tracked peers. -/
def Counts (node : NodeId) (calls : List Call) (x : NodeId) : Prop :=
  x = node ∨ IsTracked node calls x

/-- How much of an origin one of these nodes is known to have received. -/
def received (node : NodeId) (calls : List Call) (x origin : NodeId) : Nat :=
  if x = node then ((lastLocal calls).get origin).toNat else announced calls x origin

variable {node peer origin : NodeId} {calls : List Call} {c : Call}

theorem sinceRemoved_concat (peer : NodeId) (calls : List Call) (c : Call) :
    sinceRemoved peer (calls ++ [c]) =
      if c = removePeer peer then [] else c :: sinceRemoved peer calls := by
  rw [sinceRemoved, List.reverse_concat, List.takeWhile_cons]
  by_cases hc : c = removePeer peer
  · simp [hc]
  · simp [hc, sinceRemoved]

theorem isTracked_concat : IsTracked node (calls ++ [c]) peer ↔
    c ≠ removePeer peer ∧ (peer ≠ node ∧ c.names peer = true ∨ IsTracked node calls peer) := by
  rw [IsTracked, sinceRemoved_concat]
  by_cases hc : c = removePeer peer
  · simp [hc]
  · simp [hc, IsTracked, and_or_left]

theorem announced_concat (calls : List Call) (c : Call) (peer origin : NodeId) :
    announced (calls ++ [c]) peer origin =
      if c = removePeer peer then 0
      else match c.announcement? peer with
        | some frontier => max (frontier.get origin).toNat (announced calls peer origin)
        | none => announced calls peer origin := by
  rw [announced, sinceRemoved_concat]
  by_cases hc : c = removePeer peer
  · rw [if_pos hc, if_pos hc]
    rfl
  · rw [if_neg hc, if_neg hc, List.filterMap_cons]
    cases c.announcement? peer <;> rfl

theorem lastLocal_concat (calls : List Call) (c : Call) :
    lastLocal (calls ++ [c]) = c.local?.getD (lastLocal calls) := by
  rw [lastLocal, List.reverse_concat, List.findSome?_cons]
  cases c.local? <;> rfl

end Call

open Call

variable {m : StabilityMonitor} {node peer x origin : NodeId} {sequence : UInt64} {calls : List Call}
  {c : Call} {f f' g : VectorClock}

theorem registerPeer_eq (m : StabilityMonitor) (peer : NodeId) :
    m.registerPeer peer = m.updatePeer peer .empty := rfl

theorem node_perform (m : StabilityMonitor) (c : Call) : (m.perform c).node = m.node := by
  cases c with
  | registerPeer peer => exact m.node_updatePeer peer .empty
  | updateLocal frontier => rfl
  | updatePeer peer frontier => exact m.node_updatePeer peer frontier
  | removePeer peer => rfl

theorem IsExact.perform (h : m.IsExact) (c : Call) : (m.perform c).IsExact := by
  cases c with
  | registerPeer peer => exact h.updatePeer peer .empty
  | updateLocal frontier => exact isExact_recompute _
  | updatePeer peer frontier => exact h.updatePeer peer frontier
  | removePeer peer => exact isExact_recompute _

theorem isSome_peerFrontier?_updatePeer : ((m.updatePeer peer f).peerFrontier? x).isSome = true ↔
    x ≠ m.node ∧ peer = x ∨ (m.peerFrontier? x).isSome = true := by
  rw [peerFrontier?_updatePeer]
  by_cases hx : peer = x
  · subst hx
    by_cases hn : peer = m.node <;> simp [hn]
  · simp [hx, Ne.symm hx]

theorem peerFrontier?_removePeer (m : StabilityMonitor) (peer x : NodeId) :
    (m.removePeer peer).peerFrontier? x = if x = peer then none else m.peerFrontier? x :=
  OrderedMap.find?_erase ..

theorem le_updatePeer (h : m.peerFrontier? x = some f)
    (h' : (m.updatePeer peer g).peerFrontier? x = some f') : f ≤ f' := by
  obtain ⟨k, hk, hle⟩ := Credits.updatePeer ⟨f, h, VectorClock.le_refl f⟩ peer g
  exact Option.some.inj (hk.symm.trans h') ▸ hle

theorem le_perform (h : m.peerFrontier? x = some f) (h' : (m.perform c).peerFrontier? x = some f') :
    f ≤ f' := by
  cases c with
  | registerPeer peer =>
    rw [perform, registerPeer_eq] at h'
    exact le_updatePeer h h'
  | updateLocal frontier => exact Option.some.inj (h.symm.trans h') ▸ VectorClock.le_refl f
  | updatePeer peer frontier => exact le_updatePeer h h'
  | removePeer peer =>
    rw [perform, peerFrontier?_removePeer, h] at h'
    split at h'
    · cases h'
    · exact Option.some.inj h' ▸ VectorClock.le_refl f

/-- The monitor of a node that has seen just these calls. -/
structure Follows (m : StabilityMonitor) (x : NodeId) (calls : List Call) : Prop where
  node : m.node = x
  exact : m.IsExact
  localFrontier : m.localFrontier = lastLocal calls
  tracked : ∀ peer, (m.peerFrontier? peer).isSome = true ↔ IsTracked x calls peer
  known : ∀ peer origin, peer ≠ x →
    (((m.peerFrontier? peer).getD .empty).get origin).toNat = announced calls peer origin

theorem follows_new (x : NodeId) : (new x).Follows x [] where
  node := rfl
  exact := isExact_new x
  localFrontier := rfl
  tracked peer := by simp [IsTracked, sinceRemoved, new, peerFrontier?]
  known _ _ _ := rfl

theorem Follows.localFrontier_perform (h : m.Follows node calls) (c : Call) :
    (m.perform c).localFrontier = lastLocal (calls ++ [c]) := by
  rw [lastLocal_concat, ← h.localFrontier]
  cases c with
  | registerPeer peer => exact m.localFrontier_updatePeer peer .empty
  | updateLocal frontier => rfl
  | updatePeer peer frontier => exact m.localFrontier_updatePeer peer frontier
  | removePeer peer => rfl

theorem Follows.tracked_perform (h : m.Follows node calls) (c : Call) (x : NodeId) :
    ((m.perform c).peerFrontier? x).isSome = true ↔ IsTracked node (calls ++ [c]) x := by
  rw [isTracked_concat, ← h.tracked, ← h.node]
  cases c with
  | registerPeer peer =>
    rw [perform, registerPeer_eq, isSome_peerFrontier?_updatePeer]
    simp [names]
  | updateLocal frontier => simp [names, perform, updateLocal, recompute, peerFrontier?]
  | updatePeer peer frontier =>
    rw [perform, isSome_peerFrontier?_updatePeer]
    simp [names]
  | removePeer peer =>
    rw [perform, peerFrontier?_removePeer]
    by_cases hx : x = peer
    · simp [hx]
    · simp [names, hx, Ne.symm hx]

theorem Follows.known_perform (h : m.Follows node calls) (c : Call) (origin : NodeId)
    (hx : x ≠ node) : ((((m.perform c).peerFrontier? x).getD .empty).get origin).toNat =
      announced (calls ++ [c]) x origin := by
  rw [announced_concat, ← h.known x origin hx]
  cases c with
  | registerPeer peer =>
    rw [perform, registerPeer_eq, peerFrontier?_updatePeer,
      if_neg (nofun : Call.registerPeer peer ≠ .removePeer x)]
    split <;> rfl
  | updateLocal frontier => rfl
  | updatePeer peer frontier =>
    rw [perform, peerFrontier?_updatePeer, h.node,
      if_neg (nofun : Call.updatePeer peer frontier ≠ .removePeer x), announcement?]
    by_cases hp : x = peer
    · subst hp
      rw [if_pos ⟨rfl, hx⟩, if_pos rfl, Option.getD_some, VectorClock.toNat_get_merge]
      exact Nat.max_comm ..
    · rw [if_neg fun hc => hp hc.1, if_neg (Ne.symm hp)]
  | removePeer peer =>
    rw [perform, peerFrontier?_removePeer]
    by_cases hp : x = peer
    · subst hp
      rw [if_pos rfl, if_pos rfl]
      rfl
    · rw [if_neg hp, if_neg fun hc => hp (Call.removePeer.inj hc).symm]
      rfl

theorem Follows.perform (h : m.Follows node calls) (c : Call) :
    (m.perform c).Follows node (calls ++ [c]) where
  node := (m.node_perform c).trans h.node
  exact := h.exact.perform c
  localFrontier := h.localFrontier_perform c
  tracked := h.tracked_perform c
  known _ origin := h.known_perform c origin

theorem Follows.performAll {past : List Call} (h : m.Follows node past) (calls : List Call) :
    (m.performAll calls).Follows node (past ++ calls) := by
  induction calls generalizing m past with
  | nil =>
    rw [List.append_nil]
    exact h
  | cons c calls ih =>
    rw [List.append_cons]
    exact ih (h.perform c)

theorem Follows.counts_iff (h : m.Follows node calls) :
    Counts node calls x ↔ ∃ f, (x, f) ∈ m.frontiers := by
  rw [Counts, ← h.tracked, Option.isSome_iff_exists, frontiers, h.node]
  simp only [List.mem_cons, Prod.mk.injEq, ← OrderedMap.find?_eq_some, exists_or]
  simp [peerFrontier?]

theorem Follows.ne_of_peer (h : m.Follows node calls) (hf : m.peerFrontier? x = some f) : x ≠ node :=
  ((h.tracked x).1 (hf ▸ rfl)).1

theorem Follows.toNat_get (h : m.Follows node calls) (hf : (x, f) ∈ m.frontiers) (origin : NodeId) :
    (f.get origin).toNat = received node calls x origin := by
  rw [received]
  rcases List.mem_cons.1 hf with hf | hf
  · obtain ⟨hx, rfl⟩ := Prod.mk.inj hf
    rw [if_pos (hx.trans h.node), h.localFrontier]
  · have hf : m.peerFrontier? x = some f := OrderedMap.find?_eq_some.2 hf
    rw [if_neg (h.ne_of_peer hf), ← h.known x origin (h.ne_of_peer hf), hf]
    rfl

theorem Follows.isStable_iff (h : m.Follows node calls) : m.isStable origin sequence = true ↔
    ∀ x, Counts node calls x → sequence.toNat ≤ received node calls x origin := by
  rw [h.exact.isStable_iff]
  constructor
  · rintro ⟨hown, hpeers⟩ x hx
    obtain ⟨f, hf⟩ := h.counts_iff.1 hx
    rw [← h.toNat_get hf origin]
    rcases List.mem_cons.1 hf with hf | hf
    · cases hf
      exact hown
    · exact hpeers x f (OrderedMap.find?_eq_some.2 hf)
  · intro hall
    have hmem : ∀ x f, (x, f) ∈ m.frontiers → sequence ≤ f.get origin := fun x f hf => by
      rw [UInt64.le_iff_toNat_le, h.toNat_get hf origin]
      exact hall x (h.counts_iff.2 ⟨f, hf⟩)
    exact ⟨hmem m.node _ List.mem_cons_self, fun x f hf =>
      hmem x f (List.mem_cons_of_mem _ (OrderedMap.find?_eq_some.1 hf))⟩

theorem Follows.isLeast (h : m.Follows node calls) (origin : NodeId) :
    IsLeast {n | ∃ x, Counts node calls x ∧ received node calls x origin = n}
      (m.stableFrontier.get origin).toNat := by
  have hlower : ∀ x, Counts node calls x →
      (m.stableFrontier.get origin).toNat ≤ received node calls x origin :=
    h.isStable_iff.1 (decide_eq_true (UInt64.le_refl _))
  refine ⟨?_, fun n ⟨x, hx, hn⟩ => hn ▸ hlower x hx⟩
  -- If all were beyond the frontier, then so would be the next update, and it would be stable.
  by_contra hne
  have hbeyond : ∀ x, Counts node calls x →
      (m.stableFrontier.get origin).toNat + 1 ≤ received node calls x origin := fun x hx =>
    Nat.lt_of_le_of_ne (hlower x hx) fun heq => hne ⟨x, hx, heq.symm⟩
  have hnext : (m.stableFrontier.get origin + 1).toNat = (m.stableFrontier.get origin).toNat + 1 := by
    have hown := hbeyond node (.inl rfl)
    rw [received, if_pos rfl] at hown
    rw [UInt64.toNat_add, UInt64.toNat_one, Nat.mod_eq_of_lt]
    exact Nat.lt_of_le_of_lt hown (UInt64.toNat_lt _)
  have hstable : m.isStable origin (m.stableFrontier.get origin + 1) = true :=
    h.isStable_iff.2 fun x hx => hnext ▸ hbeyond x hx
  have := UInt64.le_iff_toNat_le.1 (of_decide_eq_true hstable)
  omega

/-- The sets of the nodes that got an update and of those that miss it, neither of them empty. -/
structure Splits (reached missing : OrderedSet NodeId) (counts got : NodeId → Prop) : Prop where
  reached_ne : reached ≠ .empty
  missing_ne : missing ≠ .empty
  mem_reached : ∀ x, reached.contains x = true ↔ counts x ∧ got x
  mem_missing : ∀ x, missing.contains x = true ↔ counts x ∧ ¬ got x

/-- What a verdict says of the nodes that count and of those among them that got an update. -/
structure Tells (s : StabilityState) (counts got : NodeId → Prop) : Prop where
  stable : s = .stable ↔ ∀ x, counts x → got x
  pending : s = .pending ↔ ∀ x, counts x → ¬ got x
  partly : (∃ x, counts x ∧ got x) → (∃ x, counts x ∧ ¬ got x) →
    ∃ reached missing, s = .partly reached missing ∧ Splits reached missing counts got

theorem Tells.of_cases {s : StabilityState} {counts got : NodeId → Prop}
    (hall : (∀ x, counts x → got x) → s = .stable)
    (hnone : (∀ x, counts x → ¬ got x) → s = .pending)
    (hsome : (∃ x, counts x ∧ got x) → (∃ x, counts x ∧ ¬ got x) →
      ∃ reached missing, s = .partly reached missing ∧ Splits reached missing counts got) :
    Tells s counts got := by
  refine ⟨⟨fun hs y hy => ?_, hall⟩, ⟨fun hs y hy hgot => ?_, hnone⟩, hsome⟩
  · by_contra hnot
    by_cases hg : ∃ z, counts z ∧ got z
    · obtain ⟨reached, missing, hp, -⟩ := hsome hg ⟨y, hy, hnot⟩
      cases hs.symm.trans hp
    · cases hs.symm.trans (hnone fun z hz hgot => hg ⟨z, hz, hgot⟩)
  · by_cases hn : ∃ z, counts z ∧ ¬ got z
    · obtain ⟨reached, missing, hp, -⟩ := hsome ⟨y, hy, hgot⟩ hn
      cases hs.symm.trans hp
    · cases hs.symm.trans (hall fun z hz => not_not.1 fun hnot => hn ⟨z, hz, hnot⟩)

/-- The nodes whose frontiers cover an update, or those whose frontiers do not. -/
def side (m : StabilityMonitor) (origin : NodeId) (sequence : UInt64) (covered : Bool) :
    List NodeId :=
  (m.frontiers.filter fun e => e.2.covers origin sequence == covered).map (·.1)

theorem state_eq (m : StabilityMonitor) (origin : NodeId) (sequence : UInt64) :
    m.state origin sequence =
      if m.isStable origin sequence then .stable
      else if m.side origin sequence true = [] then .pending
      else .partly (.ofList (m.side origin sequence true)) (.ofList (m.side origin sequence false)) := by
  have hmissing : m.frontiers.filter (not ∘ fun e => e.2.covers origin sequence) =
      m.frontiers.filter fun e => e.2.covers origin sequence == false :=
    List.filter_congr fun e _ => by simp
  simp only [state, side, List.partition_eq_filter_filter, hmissing, beq_true, List.map_eq_nil_iff,
    List.isEmpty_iff]

theorem Follows.mem_side (h : m.Follows node calls) {covered : Bool} :
    x ∈ m.side origin sequence covered ↔ Counts node calls x ∧
      decide (sequence.toNat ≤ received node calls x origin) = covered := by
  have hcovers : ∀ f, (x, f) ∈ m.frontiers → f.covers origin sequence =
      decide (sequence.toNat ≤ received node calls x origin) := fun f hf => by
    simp only [VectorClock.covers, UInt64.le_iff_toNat_le, h.toNat_get hf origin]
  rw [h.counts_iff, side, List.mem_map]
  constructor
  · rintro ⟨⟨x, f⟩, hf, rfl⟩
    obtain ⟨hf, htest⟩ := List.mem_filter.1 hf
    exact ⟨⟨f, hf⟩, hcovers f hf ▸ beq_iff_eq.1 htest⟩
  · rintro ⟨⟨f, hf⟩, htest⟩
    exact ⟨(x, f), List.mem_filter.2 ⟨hf, beq_iff_eq.2 ((hcovers f hf).trans htest)⟩, rfl⟩

/-- The verdict, which is read off the frontiers, and the stable frontier tell the same. -/
theorem Follows.tells (h : m.Follows node calls) (origin : NodeId) (sequence : UInt64) :
    Tells (m.state origin sequence) (Counts node calls)
      fun x => sequence.toNat ≤ received node calls x origin := by
  have hreached {x} : x ∈ m.side origin sequence true ↔
      Counts node calls x ∧ sequence.toNat ≤ received node calls x origin := by
    rw [h.mem_side, decide_eq_true_iff]
  have hmissing {x} : x ∈ m.side origin sequence false ↔
      Counts node calls x ∧ ¬ sequence.toNat ≤ received node calls x origin := by
    rw [h.mem_side, decide_eq_false_iff_not]
  rw [state_eq]
  refine .of_cases (fun hall => if_pos (h.isStable_iff.2 hall)) (fun hnone => ?_)
    fun ⟨y, hy, hgot⟩ ⟨z, hz, hnot⟩ => ?_
  · have hunstable : ¬ m.isStable origin sequence = true := fun hs =>
      hnone node (.inl rfl) (h.isStable_iff.1 hs node (.inl rfl))
    rw [if_neg hunstable, if_pos]
    exact List.eq_nil_iff_forall_not_mem.2 fun x hx => hnone x (hreached.1 hx).1 (hreached.1 hx).2
  · have hunstable : ¬ m.isStable origin sequence = true := fun hs =>
      hnot (h.isStable_iff.1 hs z hz)
    have hy := hreached.2 ⟨hy, hgot⟩
    have hz := hmissing.2 ⟨hz, hnot⟩
    rw [if_neg hunstable, if_neg (List.ne_nil_of_mem hy)]
    refine ⟨_, _, rfl, fun he => ?_, fun he => ?_, fun x => ?_, fun x => ?_⟩
    · exact nomatch (he ▸ OrderedSet.contains_ofList.2 hy :)
    · exact nomatch (he ▸ OrderedSet.contains_ofList.2 hz :)
    · exact OrderedSet.contains_ofList.trans hreached
    · exact OrderedSet.contains_ofList.trans hmissing

/-- Between two states no peer is new, and the node itself takes nothing back. -/
structure Keeps (m m' : StabilityMonitor) : Prop where
  peers : ∀ x, m'.peers.contains x = true → m.peers.contains x = true
  localFrontier : m.localFrontier ≤ m'.localFrontier

theorem keeps_removePeer (m : StabilityMonitor) (peer : NodeId) : m.Keeps (m.removePeer peer) where
  peers x hx := by
    obtain ⟨f, hf⟩ := OrderedMap.contains_iff.1 hx
    have hf : (m.removePeer peer).peerFrontier? x = some f := hf
    rw [peerFrontier?_removePeer] at hf
    split at hf
    · cases hf
    · exact OrderedMap.contains_iff.2 ⟨f, hf⟩
  localFrontier := VectorClock.le_refl _

/-- No call of a list makes a peer appear or has the node take something back. -/
def IsSteady (m : StabilityMonitor) : List Call → Prop
  | [] => True
  | c :: calls => m.Keeps (m.perform c) ∧ (m.perform c).IsSteady calls

theorem IsExact.stableFrontier_le_perform (h : m.IsExact) (hk : m.Keeps (m.perform c)) :
    m.stableFrontier ≤ (m.perform c).stableFrontier := by
  intro origin
  have hstable : m.isStable origin (m.stableFrontier.get origin) = true :=
    decide_eq_true (UInt64.le_refl _)
  obtain ⟨hown, hpeers⟩ := h.isStable_iff.1 hstable
  refine of_decide_eq_true ((h.perform c).isStable_iff.2 ⟨?_, fun x f' hf' => ?_⟩)
  · exact UInt64.le_trans hown (hk.localFrontier origin)
  · obtain ⟨f, hf⟩ := OrderedMap.contains_iff.1 (hk.peers x (OrderedMap.contains_iff.2 ⟨f', hf'⟩))
    exact UInt64.le_trans (hpeers x f hf) (le_perform hf hf' origin)

theorem IsExact.stableFrontier_le_performAll (h : m.IsExact) (hs : m.IsSteady calls) :
    m.stableFrontier ≤ (m.performAll calls).stableFrontier := by
  induction calls generalizing m with
  | nil => exact VectorClock.le_refl _
  | cons c calls ih =>
    exact VectorClock.le_trans (h.stableFrontier_le_perform hs.1) (ih (h.perform c) hs.2)

/-- A monitor is exact after every sequence of calls. It tracks the peers that it should, with all that
each of them has announced since; the stable frontier is the minimum over them and the node itself; every
verdict is told by the same frontiers; and steady calls never lower the stable frontier. -/
theorem exact_of_performAll (node : NodeId) (calls : List Call) :
    let m := (new node).performAll calls
    m.localFrontier = lastLocal calls ∧
    (∀ x, m.peers.contains x = true ↔ IsTracked node calls x) ∧
    (∀ x f origin, m.peerFrontier? x = some f →
      (f.get origin).toNat = announced calls x origin) ∧
    (∀ origin, IsLeast {n | ∃ x, Counts node calls x ∧ received node calls x origin = n}
      (m.stableFrontier.get origin).toNat) ∧
    (∀ origin sequence,
      Tells (m.state origin sequence) (Counts node calls)
        (fun x => sequence.toNat ≤ received node calls x origin) ∧
      (m.isStable origin sequence = true ↔ m.state origin sequence = .stable)) ∧
    ∀ more, m.IsSteady more → m.stableFrontier ≤ (m.performAll more).stableFrontier := by
  intro m
  have h : m.Follows node calls := (follows_new node).performAll calls
  refine ⟨h.localFrontier, h.tracked, fun x f origin hf => ?_, h.isLeast, fun origin sequence => ?_,
    fun more hmore => h.exact.stableFrontier_le_performAll hmore⟩
  · rw [← h.known x origin (h.ne_of_peer hf), hf]
    rfl
  · exact ⟨h.tells origin sequence, h.isStable_iff.trans (h.tells origin sequence).stable.symm⟩

/-- A late announcement of one peer, another peer that is removed and comes back, and an announcement of
the node itself, which is ignored. Then the slower peer is removed. -/
theorem exact_of_performAll_rejoined :
    let calls : List Call := [.registerPeer "b", .updatePeer "c" (.ofList [("a", 9)]),
      .updateLocal (.ofList [("a", 3), ("b", 2)]), .updatePeer "b" (.ofList [("a", 2)]),
      .updatePeer "b" (.ofList [("a", 1), ("b", 2), ("c", 0)]), .removePeer "c", .registerPeer "c",
      .updatePeer "c" (.ofList [("a", 3), ("b", 1)]), .updatePeer "a" (.ofList [("a", 9)])]
    let m := (new "a").performAll calls
    (m.stableFrontier.get "a" = 2 ∧ m.isStable "a" 2 = true) ∧ announced calls "c" "a" = 3 ∧
      ¬ IsTracked "a" calls "a" ∧ m.state "a" 4 = .pending ∧
      m.state "a" 3 = .partly (.ofList ["a", "c"]) (.ofList ["b"]) ∧
      m.IsSteady [.removePeer "b"] ∧
      m.stableFrontier ≤ (m.performAll [.removePeer "b"]).stableFrontier := by
  intro calls m
  obtain ⟨-, htracked, hknown, -, htells, hmono⟩ := exact_of_performAll "a" calls
  have hstate : m.state "a" 2 = .stable := by decide +kernel
  have hc : m.peerFrontier? "c" = some (.ofList [("a", 3), ("b", 1)]) := by decide +kernel
  have hsteady : m.IsSteady [.removePeer "b"] := ⟨m.keeps_removePeer "b", trivial⟩
  refine ⟨⟨by decide +kernel, (htells "a" 2).2.2 hstate⟩, ?_, ?_, by decide +kernel, by decide +kernel,
    hsteady, hmono _ hsteady⟩
  · rw [← hknown "c" _ "a" hc]
    decide +kernel
  · rw [← htracked]
    decide +kernel

end Confluence.StabilityMonitor
