import Confluence.Proofs.History.Frontier
import Confluence.Proofs.History.Order
import Confluence.Proofs.Replica.Journal
import Confluence.Proofs.VectorClock.Lattice

namespace Confluence.Replica
variable {r r' : Replica} {c : Classifier} {u : Update} {us : List Update} {clock : VectorClock}

/-- The records of a replica are those of some updates, of which it may have pruned some. -/
structure Balances (r : Replica) (us : List Update) : Prop where
  hasApplied : ∀ id, r.hasApplied id = true ↔ ∃ u ∈ us, u.id = id
  isKeyed : r.history.IsKeyed
  retained : ∀ u ∈ r.history.retained, u ∈ us
  size : r.applied.size = r.history.retained.length + r.history.pruned
  le_clock : ∀ u ∈ us, u.clock ≤ r.clock
  reflects : r.history.delivered.Reflects us

theorem balances_new (id : NodeId) : (new id).Balances [] where
  hasApplied _ := by simp [new, Replica.hasApplied]
  isKeyed := CausalHistory.isKeyed_empty
  retained := nofun
  size := rfl
  le_clock := nofun
  reflects := DeliveryFrontier.reflects_empty

theorem Balances.hasDelivered (h : r.Balances us) (hu : u ∈ us) :
    r.history.delivered.hasDelivered u.origin u.sequence = true := by
  by_cases hpos : 0 < u.sequence
  · exact (h.reflects.delivered u.origin u.sequence hpos).2 ⟨u, hu, rfl, rfl⟩
  · exact DeliveryFrontier.hasDelivered_iff.2 (.inl (UInt64.le_trans (UInt64.not_lt.1 hpos)
      UInt64.zero_le))

theorem Balances.get?_eq_none (h : r.Balances us) (hu : ¬ r.hasApplied u.id = true) :
    r.history.get? u.id = none := by
  cases hg : r.history.get? u.id with
  | none => rfl
  | some v =>
    have hv : v ∈ us := h.retained v (CausalHistory.mem_retained.2 ⟨u.id, hg⟩)
    exact absurd ((h.hasApplied u.id).2 ⟨v, hv, h.isKeyed u.id v hg⟩) hu

/-- A new update is written to all records at once. -/
theorem Balances.absorb (h : r.Balances us) (hnew : ¬ r.hasApplied u.id = true)
    (hclock : r.clock ≤ clock) (hu : u.clock ≤ clock) :
    Balances { (r.absorb c u).2 with clock } (us ++ [u]) where
  hasApplied id := by
    apply (hasApplied_absorb r c u id).trans
    rw [h.hasApplied]
    simp [or_comm, eq_comm]
  isKeyed := h.isKeyed.perform (.insert u)
  retained v hv := by
    obtain ⟨id, hv⟩ := CausalHistory.mem_retained.1 hv
    change (r.history.insert u).2.get? id = some v at hv
    rw [CausalHistory.get?_insert] at hv
    rcases Option.or_eq_some_iff.1 hv with hv | ⟨_, hv⟩
    · exact List.mem_append_left _ (h.retained v (CausalHistory.mem_retained.2 ⟨id, hv⟩))
    · split at hv
      · cases hv
        exact List.mem_append_right _ (List.mem_singleton_self u)
      · cases hv
  size := by
    have happlied : (r.applied.insert u.id).size = r.applied.size + 1 := OrderedSet.size_insert hnew
    have hretained := CausalHistory.length_retained_insert (h.get?_eq_none hnew)
    have hpruned := r.history.pruned_insert u
    have hsize := h.size
    change (r.applied.insert u.id).size =
      (r.history.insert u).2.retained.length + (r.history.insert u).2.pruned
    omega
  le_clock v hv := by
    rcases List.mem_append.1 hv with hv | hv
    · exact (h.le_clock v hv).trans hclock
    · rw [List.mem_singleton.1 hv]
      exact hu
  reflects := by
    change (r.history.insert u).2.delivered.Reflects _
    rw [CausalHistory.delivered_insert]
    exact h.reflects.record u

/-- What leaves the applied identifiers and the history alone may move the clock on. -/
theorem Balances.keep (h : r.Balances us) (happlied : r'.applied = r.applied)
    (hhistory : r'.history = r.history) (hclock : r.clock ≤ r'.clock) : r'.Balances us where
  hasApplied id := by
    rw [Replica.hasApplied, happlied]
    exact h.hasApplied id
  isKeyed := hhistory ▸ h.isKeyed
  retained := hhistory ▸ h.retained
  size := by
    rw [happlied, hhistory]
    exact h.size
  le_clock u hu := (h.le_clock u hu).trans hclock
  reflects := hhistory ▸ h.reflects

theorem Balances.commit {d : Decomposition} {ids ids' : IdSupply} {v : Option Update}
    (h : r.Balances us) (hc : r.commit c d ids = .ok (v, r', ids'))
    (hfresh : ∀ u ∈ v, ¬ r.hasApplied u.id = true) : r'.Balances (us ++ v.toList) := by
  rcases commit_eq_ok hc with ⟨_, rfl, rfl, _⟩ | ⟨u, _, htick, _, _, _, rfl, rfl, _⟩
  · rw [Option.toList_none, List.append_nil]
    exact h
  · exact h.absorb (hfresh u rfl) (VectorClock.lt_of_tick htick).le le_rfl

theorem Balances.integrate (h : r.Balances us) (hnew : ¬ r.hasApplied u.id = true) :
    (r.integrate c u).2.Balances (us ++ [u]) := by
  rw [integrate_of_new hnew]
  exact h.absorb hnew (VectorClock.le_merge_left _ _) (VectorClock.le_merge_right _ _)

theorem Balances.prune (h : r.Balances us) (stable : VectorClock) :
    (r.prune stable).2.Balances us where
  hasApplied := h.hasApplied
  isKeyed := h.isKeyed.perform (.prune stable)
  retained u hu := by
    obtain ⟨id, hu⟩ := CausalHistory.mem_retained.1 hu
    exact h.retained u (CausalHistory.mem_retained.2 ⟨id, CausalHistory.get?_of_get?_prune hu⟩)
  size := h.size.trans (CausalHistory.length_retained_prune r.history stable).symm
  le_clock := h.le_clock
  reflects := h.reflects

theorem integrate_eq_duplicate_iff :
    (r.integrate c u).1 = .duplicate ↔ r.hasApplied u.id = true := by
  by_cases ha : r.hasApplied u.id = true
  · simp [integrate_of_applied ha, ha]
  · simp [integrate_of_new ha, ha]

/-- What became of an update that a replica met. -/
inductive Fate
  | committed
  | merged
  | dropped
  deriving DecidableEq

/-- Merged or dropped, as the replica says. -/
def fateOf : Delivery → Fate
  | .merged _ => .merged
  | .duplicate => .dropped

/-- The updates that were applied among those that were met. -/
def appliedAmong (entries : List (Fate × Update)) : List Update :=
  (entries.filter (·.1 ≠ .dropped)).map (·.2)

theorem mem_appliedAmong {entries : List (Fate × Update)} :
    u ∈ appliedAmong entries ↔ ∃ fate, fate ≠ .dropped ∧ (fate, u) ∈ entries := by
  simp [appliedAmong, and_comm]

theorem appliedAmong_append (entries more : List (Fate × Update)) :
    appliedAmong (entries ++ more) = appliedAmong entries ++ appliedAmong more := by
  simp [appliedAmong]

/-- Does what is asked of the replica, and says which update it met by that and what became of it. -/
def respond (r : Replica) (c : Classifier) (ids : IdSupply) :
    Action → Except Fault (Option (Fate × Update) × Replica × IdSupply)
  | .commit d => (r.commit c d ids).map fun (u, r, ids) => (u.map (.committed, ·), r, ids)
  | .integrate u => .ok (some (fateOf (r.integrate c u).1, u), (r.integrate c u).2, ids)
  | .applyDecided operations => .ok (none, r.applyDecided operations, ids)
  | .observeNode node => .ok (none, r.observeNode node, ids)
  | .prune stable => .ok (none, (r.prune stable).2, ids)

variable {ids ids' : IdSupply} {action : Action} {entry : Option (Fate × Update)}

/-- Whatever is asked of a replica, its records stay those of the updates that it has applied. -/
theorem Balances.respond (h : r.Balances us) (hr : r.respond c ids action = .ok (entry, r', ids'))
    (hfresh : ∀ u, entry = some (.committed, u) → ¬ r.hasApplied u.id = true) :
    r'.Balances (us ++ appliedAmong entry.toList) := by
  cases action with
  | commit d =>
    obtain ⟨⟨v, r₁, ids₁⟩, hc, he⟩ := map_eq_ok hr
    cases he
    cases v with
    | none => exact h.commit hc nofun
    | some u =>
      apply h.commit hc
      rintro w ⟨⟩
      exact hfresh u rfl
  | integrate u =>
    simp only [Replica.respond, Except.ok.injEq, Prod.mk.injEq] at hr
    obtain ⟨rfl, rfl, _⟩ := hr
    by_cases ha : r.hasApplied u.id = true
    · rw [integrate_of_applied ha]
      exact (List.append_nil us).symm ▸ h
    · have hmerged : fateOf (r.integrate c u).1 = .merged := by rw [integrate_of_new ha, fateOf]
      rw [hmerged]
      exact h.integrate ha
  | applyDecided operations =>
    cases hr
    exact (List.append_nil us).symm ▸ h.keep rfl rfl le_rfl
  | observeNode node =>
    cases hr
    exact (List.append_nil us).symm ▸ h.keep rfl rfl (VectorClock.le_advance _ _ _)
  | prune stable =>
    cases hr
    exact (List.append_nil us).symm ▸ h.prune stable

theorem respond_steps (hr : r.respond c ids action = .ok (entry, r', ids')) : Steps c r r' := by
  cases action with
  | commit d =>
    obtain ⟨⟨v, r₁, ids₁⟩, hc, he⟩ := map_eq_ok hr
    cases he
    rcases commit_eq_ok hc with ⟨_, _, rfl, _⟩ | ⟨u, _, _, _, _, _, _, rfl, _⟩
    · exact .refl
    · exact (Step.advance r u.clock).steps.tail (.absorb _ u)
  | integrate u =>
    simp only [respond, Except.ok.injEq, Prod.mk.injEq] at hr
    obtain ⟨_, rfl, _⟩ := hr
    exact integrate_steps r c u
  | applyDecided operations =>
    cases hr
    exact (Step.apply r operations).steps
  | observeNode node =>
    cases hr
    exact (Step.advance r _).steps
  | prune stable =>
    cases hr
    exact (Step.prune r stable).steps

/-- A replica and the updates that it has met, with what became of them, the first one first. -/
structure Book where
  replica : Replica
  ids : IdSupply
  entries : List (Fate × Update)

namespace Book
variable {b b' : Book} {a : Classifier × Action} {actions : List (Classifier × Action)}

def new (id : NodeId) (ids : IdSupply) : Book := ⟨.new id, ids, []⟩

/-- Performs an action under a classifier and notes the response. -/
def perform (b : Book) (a : Classifier × Action) : Except Fault Book :=
  (b.replica.respond a.1 b.ids a.2).map fun (entry, replica, ids) =>
    ⟨replica, ids, b.entries ++ entry.toList⟩

/-- Performs actions in order, unless there is a fault. -/
def performAll (b : Book) (actions : List (Classifier × Action)) : Except Fault Book :=
  actions.foldlM perform b

/-- The updates that the replica has applied so far, committed or merged. -/
def applied (b : Book) : List Update := appliedAmong b.entries

/-- No commit was given the identifier of an update met before. -/
def IsFresh (b : Book) : Prop :=
  b.entries.Pairwise fun x y => y.1 = .committed → x.2.id ≠ y.2.id

instance : Decidable b.IsFresh := inferInstanceAs (Decidable (List.Pairwise _ _))

theorem IsFresh.perform (hf : b'.IsFresh) (hp : b.perform a = .ok b') : b.IsFresh := by
  obtain ⟨_, _, rfl⟩ := map_eq_ok hp
  exact (List.pairwise_append.1 hf).1

theorem balances_perform (h : b.replica.Balances b.applied) (hp : b.perform a = .ok b')
    (hf : b'.IsFresh) : b'.replica.Balances b'.applied := by
  obtain ⟨⟨entry, r, ids⟩, hr, rfl⟩ := map_eq_ok hp
  change r.Balances (appliedAmong (b.entries ++ entry.toList))
  rw [appliedAmong_append]
  refine h.respond hr fun u hu ha => ?_
  -- an update under a fresh identifier was not met, let alone applied
  obtain ⟨w, hw, hid⟩ := (h.hasApplied u.id).1 ha
  obtain ⟨fate, _, hw⟩ := mem_appliedAmong.1 hw
  have hmem : (Fate.committed, u) ∈ entry.toList := Option.mem_toList.2 hu
  exact (List.pairwise_append.1 hf).2.2 (fate, w) hw (.committed, u) hmem rfl hid

theorem hasApplied_perform {id : UpdateId} (ha : b.replica.hasApplied id = true)
    (hp : b.perform a = .ok b') : b'.replica.hasApplied id = true := by
  obtain ⟨⟨entry, r, ids⟩, hr, rfl⟩ := map_eq_ok hp
  exact (respond_steps hr).hasApplied ha

theorem balances_performAll (h : b.replica.Balances b.applied) (hp : b.performAll actions = .ok b')
    (hf : b'.IsFresh) : b'.replica.Balances b'.applied := by
  refine foldlM_keeps (p := fun b => b.IsFresh → b.replica.Balances b.applied) ?_ (fun _ => h) hp hf
  intro b a b' h hp hf
  exact balances_perform (h (hf.perform hp)) hp hf

theorem hasApplied_performAll {id : UpdateId} (ha : b.replica.hasApplied id = true)
    (hp : b.performAll actions = .ok b') : b'.replica.hasApplied id = true :=
  foldlM_keeps (p := fun b => b.replica.hasApplied id = true)
    (fun _ _ _ ha hp => hasApplied_perform ha hp) ha hp

/-- The books of a replica agree. Whatever it was asked under whatever classifiers, if its own commits had
fresh identifiers: it knows the identifiers of the updates that it has applied, what it retains is among
them, there are as many as it retains and has pruned, its clock dominates the clocks of all of them, and
the frontier shows all of them delivered. An identifier stays applied from then on, and an update is a
duplicate just if one with its identifier was applied, retained or not; a duplicate changes nothing. -/
theorem bookkeeping_of_performAll {id : NodeId} {ids : IdSupply}
    (hp : (new id ids).performAll actions = .ok b) (hf : b.IsFresh) :
    (∀ id, b.replica.hasApplied id = true ↔ ∃ u ∈ b.applied, u.id = id) ∧
      (∀ u ∈ b.replica.history.retained, b.replica.hasApplied u.id = true) ∧
      b.replica.applied.size = b.replica.history.retained.length + b.replica.history.pruned ∧
      (∀ u ∈ b.applied, b.replica.clock.dominates u.clock = true) ∧
      (∀ later b', b.performAll later = .ok b' →
        ∀ id, b.replica.hasApplied id = true → b'.replica.hasApplied id = true) ∧
      (∀ u ∈ b.applied,
        b.replica.history.delivered.hasDelivered u.origin u.sequence = true) ∧
      ∀ c u, ((b.replica.integrate c u).1 = .duplicate ↔ ∃ v ∈ b.applied, v.id = u.id) ∧
        ((b.replica.integrate c u).1 = .duplicate → (b.replica.integrate c u).2 = b.replica) := by
  have h : b.replica.Balances b.applied := balances_performAll (balances_new id) hp hf
  refine ⟨h.hasApplied, ?_, h.size, ?_, ?_, fun u hu => h.hasDelivered hu, ?_⟩
  · intro u hu
    exact (h.hasApplied u.id).2 ⟨u, h.retained u hu, rfl⟩
  · intro u hu
    exact VectorClock.dominates_iff.2 (h.le_clock u hu)
  · intro later b' hlater id ha
    exact hasApplied_performAll ha hlater
  · intro c u
    rw [integrate_eq_duplicate_iff]
    exact ⟨h.hasApplied u.id, fun ha => congrArg Prod.snd (integrate_of_applied ha)⟩

/-- Two commits; from peers an update ahead of a gap, one without a number, and another update under an
identifier that is known. What is covered or has no number is pruned, and the first commit comes
again. -/
theorem bookkeeping_of_performAll_pruned :
    let c := Classifier.standard
    let t : Transaction := [.increment "edits" 2, .maximum "score" 3]
    let d := c.decompose .keyWide .empty t
    let own : Update := ⟨Uuid.ofNat 0, "a", .ofList [("a", 1)], t⟩
    let ahead : Update := ⟨Uuid.ofNat 7, "b", .ofList [("b", 3), ("c", 2)], [.insert "tags" "new"]⟩
    let unnumbered : Update := ⟨Uuid.ofNat 8, "z", .ofList [("b", 1)], []⟩
    let other : Update := ⟨Uuid.ofNat 7, "c", .ofList [("c", 9)], [.increment "edits" 1]⟩
    let actions : List (Classifier × Action) := [(c, .commit d), (c, .integrate ahead),
      (c, .integrate unnumbered), (c, .integrate other), (c, .observeNode "q"),
      (c, .prune (.ofList [("a", 1)])), (.empty, .integrate own),
      (c, .applyDecided [.overwrite "title" "draft"]), (c, .commit d)]
    ∃ b, (new "a" (.ofStream Uuid.ofNat)).performAll actions = .ok b ∧ b.IsFresh ∧
      b.entries.map (·.1) = [.committed, .merged, .merged, .dropped, .dropped, .committed] ∧
      b.replica.applied.size = 4 ∧ b.replica.history.retained.length = 2 ∧
      b.replica.history.pruned = 2 ∧ b.replica.clock.dominates ahead.clock = true ∧
      b.replica.clock.dominates other.clock = false ∧
      b.replica.history.delivered.hasDelivered ahead.origin ahead.sequence = true ∧
      b.replica.integrate c own = (.duplicate, b.replica) := by
  intro c t d own ahead unnumbered other actions
  obtain ⟨b, hp, hb⟩ := @exists_of_endsWith _ _
    ((new "a" (.ofStream Uuid.ofNat)).performAll actions)
    (fun b => b.IsFresh ∧ ahead ∈ b.applied ∧ own ∈ b.applied ∧
      b.entries.map (·.1) = [.committed, .merged, .merged, .dropped, .dropped, .committed] ∧
      b.replica.applied.size = 4 ∧ b.replica.history.retained.length = 2 ∧
      b.replica.clock.dominates other.clock = false) (by decide +kernel)
  obtain ⟨hfresh, hahead, hown, hfates, happlied, hretained, hother⟩ := of_decide_eq_true hb
  obtain ⟨_, _, hsize, hclock, _, hdelivered, hduplicate⟩ := bookkeeping_of_performAll hp hfresh
  have hpruned : b.replica.history.pruned = 2 := by omega
  have hagain := (hduplicate c own).1.2 ⟨own, hown, rfl⟩
  exact ⟨b, hp, hfresh, hfates, happlied, hretained, hpruned, hclock ahead hahead, hother,
    hdelivered ahead hahead, Prod.ext hagain ((hduplicate c own).2 hagain)⟩

end Book
end Confluence.Replica
