import Confluence.History
import Confluence.Proofs.Node.Basic

namespace Confluence

namespace CausalHistory
variable {h : CausalHistory} {id : UpdateId} {u : Update}

theorem mem_retained : u ∈ h.retained ↔ ∃ id, h.get? id = some u := OrderedMap.mem_values

/-- An update is retained unless its id is already. -/
theorem get?_insert (h : CausalHistory) (u : Update) (id : UpdateId) :
    (h.insert u).2.get? id = (h.get? id).or (if id = u.id then some u else none) := by
  unfold insert
  dsimp only
  split
  · next hc =>
    obtain ⟨v, hv⟩ := OrderedMap.contains_iff.1 hc
    by_cases he : id = u.id
    · have hget : h.get? id = some v := he ▸ hv
      rw [hget]
      exact hget
    · rw [if_neg he, Option.or_none]
      rfl
  · next hc =>
    change (h.updates.insert u.id u).find? id = (h.updates.find? id).or _
    rw [OrderedMap.find?_insert]
    by_cases he : id = u.id
    · have hnone : h.updates.find? id = none :=
        Option.not_isSome_iff_eq_none.1 (by rw [he]; exact hc)
      rw [if_pos he, if_pos he, hnone]
      rfl
    · rw [if_neg he, if_neg he, Option.or_none]

theorem get?_prune (h : CausalHistory) (stable : VectorClock) (id : UpdateId) :
    (h.prune stable).2.get? id =
      (h.get? id).filter fun u => !stable.covers u.origin u.sequence :=
  OrderedMap.find?_filter ..

theorem get?_of_get?_prune {stable : VectorClock} (hg : (h.prune stable).2.get? id = some u) :
    h.get? id = some u := by
  rw [get?_prune] at hg
  exact Option.eq_some_of_filter_eq_some hg

theorem delivered_insert (h : CausalHistory) (u : Update) :
    (h.insert u).2.delivered = (h.delivered.record u.origin u.sequence).2 := by
  unfold insert
  dsimp only
  split <;> rfl

theorem pruned_insert (h : CausalHistory) (u : Update) : (h.insert u).2.pruned = h.pruned := by
  unfold insert
  dsimp only
  split <;> rfl

theorem length_retained (h : CausalHistory) : h.retained.length = h.updates.size :=
  h.updates.length_values

theorem length_retained_insert (hu : h.get? u.id = none) :
    (h.insert u).2.retained.length = h.retained.length + 1 := by
  have hnew : ¬ h.updates.contains u.id = true := Option.not_isSome_iff_eq_none.2 hu
  have hinsert : (h.insert u).2.updates = h.updates.insert u.id u :=
    congrArg (fun r : Bool × CausalHistory => r.2.updates) (if_neg hnew)
  rw [length_retained, length_retained, hinsert]
  exact OrderedMap.size_insert hu

theorem length_retained_prune (h : CausalHistory) (stable : VectorClock) :
    (h.prune stable).2.retained.length + (h.prune stable).2.pruned = h.retained.length + h.pruned := by
  have hle : (h.prune stable).2.updates.size ≤ h.updates.size := List.length_filter_le ..
  have hpruned : (h.prune stable).2.pruned =
      h.pruned + (h.updates.size - (h.prune stable).2.updates.size) := rfl
  rw [length_retained, length_retained, hpruned]
  omega

theorem prune_eq_length {stable : VectorClock} (hr : (h.prune stable).2.retained = []) :
    (h.prune stable).1 = h.retained.length := by
  have hkept : (h.prune stable).2.updates.size = 0 := by
    rw [← length_retained, hr, List.length_nil]
  change h.updates.size - (h.prune stable).2.updates.size = _
  rw [hkept, length_retained]
  exact Nat.sub_zero _

theorem updates_prune {stable : VectorClock} (hr : (h.prune stable).1 = 0) :
    (h.prune stable).2.updates = h.updates := by
  apply OrderedMap.ext
  change h.updates.entries.filter _ = h.updates.entries
  apply List.filter_sublist.eq_of_length_le
  exact Nat.sub_eq_zero_iff_le.1 hr

end CausalHistory

namespace Node
variable {n n' : Node} {id : UpdateId} {u : Update}

theorem get?_receive (n : Node) (m : Message) (id : UpdateId) :
    (n.receive m).2.history.get? id =
      match m with
      | .update u =>
        if n.replica.hasApplied u.id then n.history.get? id
        else (n.history.get? id).or (if id = u.id then some u else none)
      | _ => n.history.get? id := by
  cases m with
  | update u =>
    unfold history
    rw [receive_update_snd]
    dsimp only
    by_cases ha : n.replica.hasApplied u.id = true
    · rw [Replica.integrate_of_applied ha, if_pos ha]
    · rw [Replica.integrate_of_new ha, if_neg ha]
      exact CausalHistory.get?_insert n.replica.history u id
  | decided d =>
    rw [receive_decided_snd, acceptDecision_snd]
    rfl
  | join x => rfl
  | frontier x f => rfl

theorem get?_of_get?_receive {m : Message} (h : (n.receive m).2.history.get? id = some u) :
    n.history.get? id = some u ∨ m = .update u ∧ u.id = id := by
  rw [get?_receive] at h
  split at h
  · split at h
    · exact .inl h
    · rcases Option.or_eq_some_iff.1 h with h | ⟨_, h⟩
      · exact .inl h
      · split at h
        · next hid =>
          cases h
          exact .inr ⟨rfl, hid.symm⟩
        · cases h
  · exact .inl h

theorem Submits.get?_history {t : Transaction} {s : Submission} (hs : n.Submits t s n')
    (id : UpdateId) :
    n'.history.get? id =
      (n.history.get? id).or (s.update.bind fun u => if id = u.id then some u else none) := by
  unfold history
  cases hu : s.update with
  | none =>
    rw [(hs.noUpdate hu).2]
    exact (Option.or_none).symm
  | some u =>
    obtain ⟨_, _, _, hr⟩ := hs.update u hu
    rw [hr]
    exact CausalHistory.get?_insert n.replica.history u id

theorem Submits.get?_of_get?_history {t : Transaction} {s : Submission} (hs : n.Submits t s n')
    (h : n'.history.get? id = some u) :
    n.history.get? id = some u ∨ s.update = some u ∧ u.id = id := by
  rw [hs.get?_history] at h
  rcases Option.or_eq_some_iff.1 h with h | ⟨_, h⟩
  · exact .inl h
  · obtain ⟨v, hv, h⟩ := Option.bind_eq_some_iff.1 h
    split at h
    · next hid =>
      cases h
      exact .inr ⟨hv, hid.symm⟩
    · cases h

end Node
end Confluence
