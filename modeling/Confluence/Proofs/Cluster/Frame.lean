import Confluence.Cluster.Run
import Confluence.Proofs.Fault

namespace Confluence.Cluster
variable {R : Cluster → Cluster → Prop} {c c' : Cluster}

/-- What relates clusters to what they become, however little that is and however much is done. -/
structure Composes (R : Cluster → Cluster → Prop) : Prop where
  refl : ∀ c, R c c
  trans : ∀ {c₁ c₂ c₃}, R c₁ c₂ → R c₂ c₃ → R c₁ c₃

/-- Besides, it looks at nothing but the configuration, the sequencer and the network, and does not see
that a message is sent. -/
structure Frames (R : Cluster → Cluster → Prop) : Prop extends Composes R where
  same : ∀ {c c'}, c'.config = c.config → c'.sequencer = c.sequencer → c'.network = c.network → R c c'
  send : ∀ {c c' source target m}, c.send source target m = .ok c' → R c c'

namespace Composes

theorem foldlM {α : Type} {f : Cluster → α → Except Fault Cluster} {l : List α} (hR : Composes R)
    (hf : ∀ c a c', f c a = .ok c' → R c c') (h : l.foldlM f c = .ok c') : R c c' :=
  foldlM_keeps (p := R c) (fun d a d' hd hda => hR.trans hd (hf d a d' hda)) (hR.refl c) h

theorem deliver {budget steps duplicates : Nat} {counts : Nat × Nat} (hR : Composes R)
    (hstep : ∀ {c c' outcome}, c.step = .ok (outcome, c') → R c c')
    (h : c.deliver budget steps duplicates = .ok (counts.1, counts.2, c')) : R c c' := by
  induction budget generalizing c steps duplicates with
  | zero =>
    cases h
    exact hR.refl _
  | succ budget ih =>
    rw [Cluster.deliver] at h
    obtain ⟨⟨outcome, d⟩, hd, h⟩ := bind_eq_ok h
    cases outcome with
    | none =>
      cases h
      exact hstep hd
    | some outcome => exact hR.trans (hstep hd) (ih h)

theorem run {report : RunReport} (hR : Composes R)
    (hstep : ∀ {c c' outcome}, c.step = .ok (outcome, c') → R c c')
    (h : c.runUntilQuiescent = .ok (report, c')) : R c c' := by
  obtain ⟨⟨steps, duplicates, d⟩, hd, he⟩ := map_eq_ok h
  cases he
  exact @deliver _ _ _ _ _ _ (steps, duplicates) hR hstep hd

end Composes

namespace Frames

theorem broadcast {i : Nat} {m : Message} (hR : Frames R) (h : c.broadcast i m = .ok c') : R c c' := by
  obtain ⟨n, _, h⟩ := bind_eq_ok h
  exact hR.foldlM (fun _ _ _ => hR.send) h

theorem submit {i : Nat} {x : Transaction} {s : Submission} (hR : Frames R)
    (h : c.submit i x = .ok (s, c')) : R c c' := by
  obtain ⟨n, _, h⟩ := bind_eq_ok h
  obtain ⟨⟨s', n', ids⟩, _, h⟩ := bind_eq_ok h
  dsimp only at h
  split at h
  · obtain ⟨d, hd, h⟩ := bind_eq_ok h
    cases h
    refine hR.trans ?_ (hR.trans (hR.broadcast hd) ?_)
    · exact hR.same rfl rfl rfl
    · exact hR.same rfl rfl rfl
  · cases h
    exact hR.same rfl rfl rfl

theorem complete {q : QueuedProposal} {outcome : Except NodeError Decision}
    {result : Option CommitResult} (hR : Frames R) (h : c.complete q outcome = .ok (result, c')) :
    R c c' := by
  obtain ⟨n, _, h⟩ := bind_eq_ok h
  split at h
  · cases h
    exact hR.refl c
  · dsimp only at h
    split at h
    · obtain ⟨d, hd, he⟩ := map_eq_ok h
      cases he
      refine hR.trans ?_ (hR.broadcast hd)
      exact hR.same rfl rfl rfl
    · cases h
      exact hR.same rfl rfl rfl

theorem completeAll {outcomes : List (QueuedProposal × Except NodeError Decision)}
    {results : List (ProposalId × CommitResult)} (hR : Frames R)
    (h : c.completeAll outcomes = .ok (results, c')) : R c c' := by
  induction outcomes generalizing c results with
  | nil =>
    cases h
    exact hR.refl _
  | cons x rest ih =>
    obtain ⟨q, outcome⟩ := x
    rw [Cluster.completeAll] at h
    obtain ⟨⟨result, d⟩, hd, h⟩ := bind_eq_ok h
    obtain ⟨⟨more, d'⟩, hmore, h⟩ := bind_eq_ok h
    cases h
    exact hR.trans (hR.complete hd) (ih hmore)

theorem antiEntropy (hR : Frames R) (h : c.antiEntropy = .ok c') : R c c' :=
  hR.foldlM (fun _ _ _ hd => hR.foldlM (fun _ _ _ => hR.broadcast) hd) h

theorem announceFrontiers (hR : Frames R) (h : c.announceFrontiers = .ok c') : R c c' :=
  hR.foldlM (fun _ _ _ => hR.broadcast) h

theorem addNode {index : Nat} (hR : Frames R) (h : c.addNode = .ok (index, c')) : R c c' := by
  obtain ⟨d₁, h₁, h⟩ := bind_eq_ok h
  obtain ⟨d₂, h₂, h⟩ := bind_eq_ok h
  obtain ⟨d₃, h₃, h⟩ := bind_eq_ok h
  cases h
  have hhistory := hR.foldlM (fun _ _ _ => hR.send) h₂
  have hlog := hR.foldlM (fun _ _ _ => hR.send) h₃
  refine hR.trans ?_ (hR.trans (hR.broadcast h₁) (hR.trans hhistory hlog))
  exact hR.same rfl rfl rfl

end Frames
end Confluence.Cluster
