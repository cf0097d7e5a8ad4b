import Confluence.Proofs.Classifier
import Confluence.Proofs.Cluster.Spread
import Confluence.Random
import Confluence.Workload.Run

namespace Confluence

/-- The operation assigns a register, under the kind that is there for it. -/
def Operation.IsOverwrite (op : Operation) : Prop := op.kind = "overwrite" ∧ op.shape = .register

instance (op : Operation) : Decidable op.IsOverwrite :=
  inferInstanceAs (Decidable (op.kind = "overwrite" ∧ op.shape = .register))

theorem Classifier.lookup_standard :
    standard.lookup "overwrite" = some ⟨.register, .generic⟩ ∧
      standard.lookup "increment" = some ⟨.counter, .abelian⟩ ∧
      standard.lookup "insert" = some ⟨.set, .semilattice⟩ ∧
      standard.lookup "max" = some ⟨.maximum, .semilattice⟩ := by
  decide +kernel

namespace Workload

/-- The keys of a workload are numbered. -/
def keyName (index : Nat) : Key := "k" ++ toString index

/-- The signature of the algebraic operations on the key of a number. -/
def keySignature (index : Nat) : Signature := if index % 3 = 0 then .abelian else .semilattice

theorem keySignature_ne_generic (index : Nat) : keySignature index ≠ .generic := by
  unfold keySignature
  split <;> decide

/-- What may be drawn: an overwrite of any key, or the algebraic operation that goes with the number
of the key. -/
inductive IsDrawn : Operation → Prop
  | overwrite (index : Nat) (value : String) : IsDrawn (.overwrite (keyName index) value)
  | increment {index : Nat} (amount : Int64) :
    index % 3 = 0 → IsDrawn (.increment (keyName index) amount)
  | insert {index : Nat} (member : String) :
    index % 3 = 1 → IsDrawn (.insert (keyName index) member)
  | maximum {index : Nat} (candidate : Int64) :
    index % 3 = 2 → IsDrawn (.maximum (keyName index) candidate)

theorem isDrawn_drawOperation (w : WorkloadConfig) (g : Generator) :
    IsDrawn (drawOperation w g).1 := by
  unfold drawOperation
  dsimp only
  split
  · exact .overwrite _ _
  · split
    · next h => exact .increment _ h
    · split
      · next h => exact .insert _ h
      · next h₀ h₁ => exact .maximum _ (by omega)

theorem forall_mem_drawMany {α : Type} {p : α → Prop} {draw : Generator → α × Generator}
    (hd : ∀ g, p (draw g).1) (count : Nat) (g : Generator) : ∀ x ∈ (drawMany draw count g).1, p x := by
  induction count generalizing g with
  | zero =>
    intro x hx
    cases hx
  | succ count ih => exact List.forall_mem_cons.2 ⟨hd g, ih _⟩

theorem isDrawn_drawTransaction (w : WorkloadConfig) (g : Generator) :
    ∀ op ∈ (drawTransaction w g).1, IsDrawn op := by
  unfold drawTransaction
  split
  exact forall_mem_drawMany (isDrawn_drawOperation w) _ _

theorem isDrawn_submissions (w : WorkloadConfig) : ∀ x ∈ submissions w, ∀ op ∈ x.2, IsDrawn op := by
  apply forall_mem_drawMany
  intro g
  unfold drawSubmission
  split
  exact isDrawn_drawTransaction w _

theorem origin_lt (w : WorkloadConfig) : ∀ x ∈ submissions w, x.1 < max w.nodes 1 := by
  apply forall_mem_drawMany
  intro g
  exact Generator.below64_lt (by omega) g

namespace IsDrawn
variable {a b op : Operation}

/-- The standard table takes overwrites for generic, and tells the signature of anything else by the
key. -/
theorem classify (h : IsDrawn op) :
    op.IsOverwrite ∧ Classifier.standard.classifyOperation op = .generic ∨
      ¬ op.IsOverwrite ∧ ∃ index, op.key = keyName index ∧
        Classifier.standard.classifyOperation op = keySignature index := by
  obtain ⟨hoverwrite, hincrement, hinsert, hmaximum⟩ := Classifier.lookup_standard
  unfold Classifier.classifyOperation
  cases h with
  | overwrite index value =>
    refine .inl ⟨⟨rfl, rfl⟩, ?_⟩
    dsimp only [Operation.overwrite]
    rw [hoverwrite]
    rfl
  | @increment index amount hi =>
    refine .inr ⟨fun ho => (by cases ho.2), index, rfl, ?_⟩
    dsimp only [Operation.increment]
    rw [hincrement, keySignature, if_pos hi]
    rfl
  | @insert index member hi =>
    refine .inr ⟨fun ho => (by cases ho.2), index, rfl, ?_⟩
    dsimp only [Operation.insert]
    rw [hinsert, keySignature, if_neg (by omega)]
    rfl
  | @maximum index candidate hi =>
    refine .inr ⟨fun ho => (by cases ho.2), index, rfl, ?_⟩
    dsimp only [Operation.maximum]
    rw [hmaximum, keySignature, if_neg (by omega)]
    rfl

theorem generic_iff (h : IsDrawn op) :
    Classifier.standard.classifyOperation op = .generic ↔ op.IsOverwrite := by
  rcases h.classify with ⟨ho, hs⟩ | ⟨ho, index, _, hs⟩
  · exact iff_of_true hs ho
  · rw [hs]
    exact iff_of_false (keySignature_ne_generic index) ho

/-- Algebraic operations on one key never conflict. -/
theorem commutesWith (ha : IsDrawn a) (hb : IsDrawn b) (hk : a.key = b.key)
    (hga : Classifier.standard.classifyOperation a ≠ .generic)
    (hgb : Classifier.standard.classifyOperation b ≠ .generic) :
    (Classifier.standard.classifyOperation a).commutesWith
      (Classifier.standard.classifyOperation b) = true := by
  rcases ha.classify with ⟨_, hs⟩ | ⟨_, i, hi, hs⟩
  · exact absurd hs hga
  rcases hb.classify with ⟨_, hs'⟩ | ⟨_, j, hj, hs'⟩
  · exact absurd hs' hgb
  obtain rfl : i = j := numbered_injective (hi.symm.trans (hk.trans hj))
  rw [hs, hs']
  unfold keySignature
  split <;> rfl

end IsDrawn
end Workload
end Confluence
