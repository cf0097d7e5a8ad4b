import Confluence.Fault

namespace Confluence
variable {ε α β : Type} {x : Except ε α} {b : β}

theorem bind_eq_ok {f : α → Except ε β} (h : x >>= f = .ok b) : ∃ a, x = .ok a ∧ f a = .ok b := by
  cases x with
  | error e => cases h
  | ok a => exact ⟨a, rfl, h⟩

theorem map_eq_ok {f : α → β} (h : x.map f = .ok b) : ∃ a, x = .ok a ∧ f a = b := by
  cases x with
  | error e => cases h
  | ok a => exact ⟨a, rfl, Except.ok.inj h⟩

theorem bind_eq_error {f : α → Except ε β} {e : ε} (h : x >>= f = .error e) :
    x = .error e ∨ ∃ a, x = .ok a ∧ f a = .error e := by
  cases x with
  | error e' =>
    cases h
    exact .inl rfl
  | ok a => exact .inr ⟨a, rfl, h⟩

theorem map_eq_error {f : α → β} {e : ε} (h : x.map f = .error e) : x = .error e := by
  cases x with
  | error e' =>
    cases h
    rfl
  | ok a => cases h

theorem ne_error_of_eq_ok {a : α} {e : ε} (h : x = .ok a) : x ≠ .error e := by
  rw [h]
  nofun

theorem ok_bind (a : α) (f : α → Except ε β) : (Except.ok a >>= f) = f a := rfl

theorem map_ok (f : α → β) (a : α) : (Except.ok a : Except ε α).map f = .ok (f a) := rfl

theorem map_eq_map {γ : Type} {y : Except ε β} {f : α → γ} {g : β → γ} (h : x.map f = y.map g) :
    (∃ e, x = .error e ∧ y = .error e) ∨ ∃ a b, x = .ok a ∧ y = .ok b ∧ f a = g b := by
  cases x with
  | error e =>
    cases y with
    | error e' =>
      cases h
      exact .inl ⟨e, rfl, rfl⟩
    | ok b => cases h
  | ok a =>
    cases y with
    | error e => cases h
    | ok b => exact .inr ⟨a, b, rfl, rfl, Except.ok.inj h⟩

theorem foldlM_keeps {p : β → Prop} {f : β → α → Except ε β} {l : List α} {b' : β}
    (hf : ∀ b a b', p b → f b a = .ok b' → p b') (hb : p b) (h : l.foldlM f b = .ok b') : p b' := by
  induction l generalizing b with
  | nil =>
    cases h
    exact hb
  | cons a l ih =>
    rw [List.foldlM_cons] at h
    obtain ⟨mid, hm, h⟩ := bind_eq_ok h
    exact ih (hf b a mid hb hm) h

theorem exists_of_foldlM_eq_error {p : β → Prop} {f : β → α → Except ε β} {l : List α} {e : ε}
    (hf : ∀ b a b', p b → f b a = .ok b' → p b') (hb : p b) (h : l.foldlM f b = .error e) :
    ∃ a ∈ l, ∃ mid, p mid ∧ f mid a = .error e := by
  induction l generalizing b with
  | nil => cases h
  | cons a l ih =>
    rw [List.foldlM_cons] at h
    cases hm : f b a with
    | error e' =>
      rw [hm] at h
      cases h
      exact ⟨a, List.mem_cons_self, b, hb, hm⟩
    | ok mid =>
      rw [hm, ok_bind] at h
      obtain ⟨a', ha', found⟩ := ih (hf b a mid hb hm) h
      exact ⟨a', List.mem_cons_of_mem _ ha', found⟩

theorem toNat_checkedAdd {a b c : UInt64} (h : checkedAdd a b = .ok c) :
    c.toNat = a.toNat + b.toNat := by
  unfold checkedAdd at h
  split at h
  · next hlt =>
    cases h
    rw [UInt64.toNat_add]
    exact Nat.mod_eq_of_lt hlt
  · cases h

theorem checkedAdd_eq_ok {a b : UInt64} (h : a.toNat + b.toNat < UInt64.size) :
    checkedAdd a b = .ok (a + b) := if_pos h

theorem size_le_of_checkedAdd {a b : UInt64} {f : Fault} (h : checkedAdd a b = .error f) :
    UInt64.size ≤ a.toNat + b.toNat := by
  rw [checkedAdd] at h
  split at h
  · cases h
  · next hle => exact Nat.le_of_not_lt hle

/-- The computation stops without a result for no other reasons. -/
structure StopsOnly (q : ε → Prop) (x : Except ε α) : Prop where
  reason : ∀ e, x = .error e → q e

namespace StopsOnly
variable {q : ε → Prop}

theorem ok (a : α) : StopsOnly q (.ok a) := ⟨nofun⟩

theorem error {e : ε} (h : q e) : StopsOnly q (.error e : Except ε α) :=
  ⟨fun _ he => Except.error.inj he ▸ h⟩

theorem bind {f : α → Except ε β} (hx : StopsOnly q x) (hf : ∀ a, x = .ok a → StopsOnly q (f a)) :
    StopsOnly q (x >>= f) := by
  cases x with
  | error e => exact error (hx.reason e rfl)
  | ok a => exact hf a rfl

theorem map (hx : StopsOnly q x) (f : α → β) : StopsOnly q (x.map f) := by
  cases x with
  | error e => exact error (hx.reason e rfl)
  | ok a => exact ok (f a)

theorem foldlM {p : β → Prop} {f : β → α → Except ε β} {l : List α}
    (hf : ∀ b a, p b → StopsOnly q (f b a)) (hp : ∀ b a b', p b → f b a = .ok b' → p b') (hb : p b) :
    StopsOnly q (l.foldlM f b) := by
  induction l generalizing b with
  | nil => exact ok b
  | cons a l ih =>
    rw [List.foldlM_cons]
    exact (hf b a hb).bind fun mid hm => ih (hp b a mid hb hm)

theorem exists_ok (hx : StopsOnly q x) (hq : ∀ e, q e → x ≠ .error e) : ∃ a, x = .ok a := by
  cases x with
  | error e => exact absurd rfl (hq e (hx.reason e rfl))
  | ok a => exact ⟨a, rfl⟩

end StopsOnly

theorem checkedAdd_stopsOnly (a b : UInt64) : StopsOnly (· = .overflow) (checkedAdd a b) := by
  unfold checkedAdd
  split
  · exact .ok _
  · exact .error rfl

def endsWith (x : Except ε α) (p : α → Bool) : Bool :=
  match x with
  | .ok a => p a
  | .error _ => false

theorem exists_of_endsWith {p : α → Bool} (h : endsWith x p = true) :
    ∃ a, x = .ok a ∧ p a = true := by
  cases x with
  | error e => cases h
  | ok a => exact ⟨a, rfl, h⟩

theorem exists_pair_of_endsWith {f : α → Except ε β} {p : α × β → Bool}
    (h : endsWith (x >>= fun a => (f a).map (a, ·)) p = true) :
    ∃ a b, x = .ok a ∧ f a = .ok b ∧ p (a, b) = true := by
  obtain ⟨⟨a, b⟩, hr, hp⟩ := exists_of_endsWith h
  obtain ⟨_, ha, hr⟩ := bind_eq_ok hr
  obtain ⟨_, hb, he⟩ := map_eq_ok hr
  cases he
  exact ⟨a, b, ha, hb, hp⟩

end Confluence
