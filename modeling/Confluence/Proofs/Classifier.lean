import Mathlib.Data.List.Basic
import Confluence.Decomposition
import Confluence.Proofs.Ordered
import Confluence.Proofs.State.Effect

namespace Confluence

namespace Classifier

/-- The classifiers that registrations lead to, from the empty table or from the standard one. -/
inductive Registered : Classifier → Prop
  | empty : Registered .empty
  | standard : Registered .standard
  | register {c c' : Classifier} {kind : Kind} {shape : Shape} {signature : Signature} :
    Registered c → c.register kind shape signature = .ok c' → Registered c'

theorem lookup_register {c c' : Classifier} {kind k : Kind} {shape : Shape}
    {signature : Signature} {spec : KindSpec} (h : c.register kind shape signature = .ok c')
    (hk : c'.lookup k = some spec) :
    c.lookup k = some spec ∨ spec.signature.admissibleFor spec.shape = true := by
  unfold register at h
  split at h
  · cases h
  · next ha =>
    split at h
    · split at h <;> cases h
      exact .inl hk
    · cases h
      change (c.table.insert kind ⟨shape, signature⟩).find? k = some spec at hk
      rw [OrderedMap.find?_insert] at hk
      split at hk
      · cases hk
        exact .inr (by simpa using ha)
      · exact .inl hk

theorem Registered.admissible {c : Classifier} (h : c.Registered) {k : Kind} {spec : KindSpec}
    (hk : c.lookup k = some spec) : spec.signature.admissibleFor spec.shape = true := by
  induction h with
  | empty => cases hk
  | standard =>
    have hall : ∀ e ∈ Classifier.standard.table.entries,
        e.2.signature.admissibleFor e.2.shape = true := by
      decide +kernel
    exact hall _ (OrderedMap.find?_eq_some.1 hk)
  | register _ hr ih =>
    rcases lookup_register hr hk with hk | ha
    · exact ih hk
    · exact ha

theorem Registered.eq_naturalFor {c : Classifier} (h : c.Registered) {op : Operation}
    (hg : c.classifyOperation op ≠ .generic) : c.classifyOperation op = .naturalFor op.shape := by
  unfold classifyOperation at hg ⊢
  split at hg
  · next spec hk =>
    split at hg
    · next hs =>
      have ha := h.admissible hk
      rw [if_pos hs]
      rw [Signature.admissibleFor, Bool.or_eq_true, decide_eq_true_iff, decide_eq_true_iff, hs] at ha
      exact ha.resolve_left hg
    · exact absurd rfl hg
  · exact absurd rfl hg

theorem Registered.value?_eq_none {c : Classifier} (h : c.Registered) {op : Operation}
    (hg : c.classifyOperation op ≠ .generic) : op.payload.value? = none := by
  have hn := h.eq_naturalFor hg
  obtain ⟨key, kind, payload⟩ := op
  cases payload with
  | assign value => exact absurd hn hg
  | _ => rfl

end Classifier

theorem EscalationPolicy.ne_generic_of_reason? {policy : EscalationPolicy} {s : Signature}
    {together : List Signature} {pending : List PendingEntry}
    (h : policy.reason? s together pending = none) : s ≠ .generic := by
  unfold reason? at h
  split at h
  · cases h
  · assumption

namespace Decomposition

theorem liftable_append_coordinated (d : Decomposition) :
    (d.liftable ++ d.coordinated).Perm (d.routes.map (·.operation)) := by
  unfold liftable coordinated
  rw [← List.map_append]
  apply List.Perm.map _
  have hn : ∀ r : Route, r.reason.isSome = !r.reason.isNone := fun r => by cases r.reason <;> rfl
  simp only [hn]
  exact List.filter_append_perm (fun r : Route => r.reason.isNone) d.routes

end Decomposition

namespace Classifier
variable {c : Classifier} {policy : EscalationPolicy} {pending : PendingIndex} {t : Transaction}

theorem decompose_perm (c : Classifier) (policy : EscalationPolicy) (pending : PendingIndex)
    (t : Transaction) :
    ((c.decompose policy pending t).liftable.map (·.operation) ++
      (c.decompose policy pending t).coordinated.map (·.operation)).Perm t := by
  rw [← List.map_append]
  apply ((c.decompose policy pending t).liftable_append_coordinated.map _).trans
  apply List.Perm.of_eq
  unfold decompose annotate
  simp [Function.comp_def]

theorem Registered.liftable_value? (h : c.Registered) {op : ClassifiedOperation}
    (hop : op ∈ (c.decompose policy pending t).liftable) :
    op.operation.payload.value? = none := by
  unfold Decomposition.liftable at hop
  obtain ⟨r, hr, rfl⟩ := List.mem_map.1 hop
  obtain ⟨hr, hnone⟩ := List.mem_filter.1 hr
  obtain ⟨a, ha, rfl⟩ := List.mem_map.1 hr
  obtain ⟨op, _, rfl⟩ := List.mem_map.1 ha
  exact h.value?_eq_none (EscalationPolicy.ne_generic_of_reason? (Option.isNone_iff_eq_none.1 hnone))

end Classifier
end Confluence
