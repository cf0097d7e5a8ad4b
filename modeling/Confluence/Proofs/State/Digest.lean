import Mathlib.Algebra.GroupWithZero.Nat
import Confluence.Proofs.Ordered
import Confluence.State

namespace Confluence

namespace Layout

/-- The bytes of a number, the most significant first. -/
def bigEndian (width n : Nat) : List UInt8 :=
  (List.range width).map fun i => (n >>> (8 * (width - 1 - i))).toUInt8

theorem testBit_toUInt8 (n : Nat) {i : Nat} (hi : i < 8) :
    n.toUInt8.toNat.testBit i = n.testBit i := by
  rw [show n.toUInt8.toNat = n % 2 ^ 8 from UInt8.toNat_ofNat', Nat.testBit_mod_two_pow,
    decide_eq_true hi, Bool.true_and]

theorem bigEndian_inj (width : Nat) {m n : Nat} (hm : m < 2 ^ (8 * width))
    (hn : n < 2 ^ (8 * width)) (h : bigEndian width m = bigEndian width n) : m = n := by
  apply Nat.eq_of_testBit_eq
  intro i
  rcases Nat.lt_or_ge i (8 * width) with hi | hi
  · have hmem : width - 1 - i / 8 ∈ List.range width := List.mem_range.2 (by omega)
    have hplace : width - 1 - (width - 1 - i / 8) = i / 8 := by omega
    have hbyte := List.map_inj_left.1 h _ hmem
    have hbit := congrArg (fun b : UInt8 => b.toNat.testBit (i % 8)) hbyte
    have hmod : i % 8 < 8 := Nat.mod_lt _ (by decide)
    simpa only [testBit_toUInt8 _ hmod, Nat.testBit_shiftRight, hplace, Nat.div_add_mod] using hbit
  · have hle : 2 ^ (8 * width) ≤ 2 ^ i := Nat.pow_le_pow_right (by decide) hi
    rw [Nat.testBit_lt_two_pow (Nat.lt_of_lt_of_le hm hle),
      Nat.testBit_lt_two_pow (Nat.lt_of_lt_of_le hn hle)]

theorem toUInt8_shiftRight (n k : UInt64) (hk : k.toNat < 64) :
    (n >>> k).toUInt8 = (n.toNat >>> k.toNat).toUInt8 := by
  rw [← UInt8.toNat_inj, UInt64.toNat_toUInt8, UInt64.toNat_shiftRight, Nat.mod_eq_of_lt hk]
  exact UInt8.toNat_ofNat'.symm

theorem word_eq (n : UInt64) : word n = bigEndian 8 n.toNat := by
  have hbyte (k : UInt64) (hk : k.toNat < 64) := toUInt8_shiftRight n k hk
  rw [word, Sha256.bytesOfUInt64, hbyte 56 (by decide), hbyte 48 (by decide), hbyte 40 (by decide),
    hbyte 32 (by decide), hbyte 24 (by decide), hbyte 16 (by decide), hbyte 8 (by decide)]
  rfl

/-- The layout of anything in `P` can be told from what follows it. -/
def Separates {α : Type} (P : α → Prop) (f : α → List UInt8) : Prop :=
  ∀ a b, P a → P b → ∀ r r', f a ++ r = f b ++ r' → a = b ∧ r = r'

section Separates
variable {α β : Type} {P : α → Prop} {f : α → List UInt8}

theorem separates_of_width (width : Nat) (hwidth : ∀ a, (f a).length = width)
    (hinj : ∀ a b, P a → P b → f a = f b → a = b) : Separates P f := by
  intro a b ha hb r r' h
  obtain ⟨hf, hr⟩ := List.append_inj h ((hwidth a).trans (hwidth b).symm)
  exact ⟨hinj a b ha hb hf, hr⟩

theorem Separates.comap (hf : Separates P f) {g : β → α} (hg : ∀ a b, g a = g b → a = b) :
    Separates (fun b => P (g b)) fun b => f (g b) := by
  intro a b ha hb r r' h
  obtain ⟨he, hr⟩ := hf _ _ ha hb r r' h
  exact ⟨hg a b he, hr⟩

/-- Lists of the same length are told apart item by item. -/
theorem Separates.flatMap (hf : Separates P f) {l l' : List α} (hlen : l.length = l'.length)
    (hl : ∀ a ∈ l, P a) (hl' : ∀ a ∈ l', P a) {r r' : List UInt8}
    (h : l.flatMap f ++ r = l'.flatMap f ++ r') : l = l' ∧ r = r' := by
  induction l generalizing l' with
  | nil =>
    obtain rfl : l' = [] := List.length_eq_zero_iff.1 hlen.symm
    exact ⟨rfl, h⟩
  | cons a l ih =>
    cases l' with
    | nil => cases hlen
    | cons b l' =>
      rw [List.flatMap_cons, List.flatMap_cons, List.append_assoc, List.append_assoc] at h
      obtain ⟨ha, htail⟩ := List.forall_mem_cons.1 hl
      obtain ⟨hb, htail'⟩ := List.forall_mem_cons.1 hl'
      obtain ⟨he, hrest⟩ := hf a b ha hb _ _ h
      obtain ⟨hes, hr⟩ := ih (Nat.succ.inj hlen) htail htail' hrest
      exact ⟨congrArg₂ List.cons he hes, hr⟩

/-- Items one after another, after their number. -/
def counted (f : α → List UInt8) (l : List α) : List UInt8 := length l.length ++ l.flatMap f

/-- A field that may be unset, after its tag. -/
def field (tag : UInt8) (f : α → List UInt8) : Option α → List UInt8
  | some a => tag :: f a
  | none => []

theorem head?_field {tag other : UInt8} (hne : tag ≠ other) (a : Option α) {r : List UInt8}
    (hr : r.head? ≠ some other) : (field tag f a ++ r).head? ≠ some other := by
  cases a with
  | none => exact hr
  | some a =>
    intro h
    cases h
    exact hne rfl

/-- Whether a field is unset is told by the next tag. -/
theorem Separates.field (hf : Separates P f) {tag : UInt8} {a b : Option α} (ha : ∀ x ∈ a, P x)
    (hb : ∀ x ∈ b, P x) {r r' : List UInt8} (hr : r.head? ≠ some tag) (hr' : r'.head? ≠ some tag)
    (h : field tag f a ++ r = field tag f b ++ r') : a = b ∧ r = r' := by
  cases a with
  | none =>
    cases b with
    | none => exact ⟨rfl, h⟩
    | some y =>
      obtain rfl : r = tag :: (f y ++ r') := h
      exact absurd rfl hr
  | some x =>
    cases b with
    | none =>
      obtain rfl : tag :: (f x ++ r) = r' := h
      exact absurd rfl hr'
    | some y =>
      obtain ⟨he, hr⟩ := hf x y (ha x rfl) (hb y rfl) r r' (List.cons.inj h).2
      exact ⟨congrArg some he, hr⟩

end Separates

theorem separates_word : Separates (fun _ => True) word := by
  apply separates_of_width 8
  · intro n
    rfl
  · intro m n _ _ h
    rw [word_eq, word_eq] at h
    exact UInt64.toNat_inj.1 (bigEndian_inj 8 m.toNat_lt n.toNat_lt h)

theorem separates_integer : Separates (fun _ => True) integer :=
  separates_word.comap fun a b h => by
    cases a
    cases b
    exact congrArg Int64.ofUInt64 h

theorem separates_length : Separates (· < UInt64.size) length := by
  intro m n hm hn r r' h
  obtain ⟨he, hr⟩ := separates_word _ _ trivial trivial r r' h
  have he := congrArg UInt64.toNat he
  rw [show m.toUInt64.toNat = m from UInt64.toNat_ofNat_of_lt' hm,
    show n.toUInt64.toNat = n from UInt64.toNat_ofNat_of_lt' hn] at he
  exact ⟨he, hr⟩

theorem separates_bytes : Separates (·.length < UInt64.size) bytes := by
  intro a b ha hb r r' h
  rw [bytes, bytes, List.append_assoc, List.append_assoc] at h
  obtain ⟨hlen, h⟩ := separates_length _ _ ha hb _ _ h
  exact List.append_inj h hlen

theorem Separates.counted {α : Type} {P : α → Prop} {f : α → List UInt8} (hf : Separates P f) :
    Separates (fun l => l.length < UInt64.size ∧ ∀ a ∈ l, P a) (counted f) := by
  intro l l' hl hl' r r' h
  rw [Layout.counted, Layout.counted, List.append_assoc, List.append_assoc] at h
  obtain ⟨hlen, h⟩ := separates_length _ _ hl.1 hl'.1 _ _ h
  exact hf.flatMap hlen hl.2 hl'.2 h

theorem toList_loop (bs : ByteArray) (i : Nat) (r : List UInt8) :
    ByteArray.toList.loop bs i r = r.reverse ++ bs.data.toList.drop i := by
  fun_induction ByteArray.toList.loop bs i r with
  | case1 i r hi ih =>
    have hi : i < bs.data.toList.length := hi
    have hget : bs.get! i = bs.data.toList[i] := getElem!_pos bs.data i hi
    rw [ih, List.reverse_cons, List.append_assoc, List.drop_eq_getElem_cons hi, hget]
    rfl
  | case2 i r hi =>
    have hi : bs.data.toList.length ≤ i := Nat.not_lt.1 hi
    rw [List.drop_eq_nil_of_le hi, List.append_nil]

theorem toList_eq (bs : ByteArray) : bs.toList = bs.data.toList := toList_loop bs 0 []

theorem length_toUTF8 (s : String) : s.toUTF8.toList.length = s.utf8ByteSize := by
  rw [toList_eq]
  rfl

theorem separates_text : Separates (·.utf8ByteSize < UInt64.size) text := by
  intro s t hs ht r r' h
  rw [← length_toUTF8] at hs ht
  obtain ⟨he, hr⟩ := separates_bytes _ _ hs ht r r' h
  rw [toList_eq, toList_eq] at he
  exact ⟨String.toByteArray_inj.1 (ByteArray.ext (Array.toList_inj.1 he)), hr⟩

theorem length_uuid (id : Uuid) : id.bytes.length = 16 := by
  rw [Uuid.bytes, List.length_map, List.length_range]

theorem separates_uuid : Separates (fun _ => True) fun id : Uuid => bytes id.bytes := by
  intro a b _ _ r r' h
  have hlength (id : Uuid) : id.bytes.length < UInt64.size := by
    rw [length_uuid]
    decide
  obtain ⟨he, hr⟩ := separates_bytes _ _ (hlength a) (hlength b) r r' h
  have hbits : a.bits = b.bits :=
    BitVec.eq_of_toNat_eq (bigEndian_inj 16 a.bits.isLt b.bits.isLt he)
  cases a
  cases b
  cases hbits
  exact ⟨rfl, hr⟩

end Layout

namespace KeyState
variable {s t : KeyState}

/-- All texts and sets in the state of a key are shorter than a word can count. -/
structure Fits (s : KeyState) : Prop where
  members : s.members.size < UInt64.size ∧ ∀ m ∈ s.members.toList, m.utf8ByteSize < UInt64.size
  register : ∀ value ∈ s.register, value.utf8ByteSize < UInt64.size
  applied : s.applied.size < UInt64.size

instance (s : KeyState) : Decidable s.Fits :=
  decidable_of_iff
    ((s.members.size < UInt64.size ∧ ∀ m ∈ s.members.toList, m.utf8ByteSize < UInt64.size) ∧
      (∀ value ∈ s.register, value.utf8ByteSize < UInt64.size) ∧ s.applied.size < UInt64.size)
    ⟨fun h => ⟨h.1, h.2.1, h.2.2⟩, fun h => ⟨h.members, h.register, h.applied⟩⟩

/-- The same counter, maximum, members, register and applied updates. -/
structure Alike (s t : KeyState) : Prop where
  counter : s.counter = t.counter
  maximum : s.maximum.value = t.maximum.value
  members : ∀ m, s.members.contains m = t.members.contains m
  register : s.register = t.register
  applied : ∀ id, s.applied.contains id = t.applied.contains id

theorem alike_iff : s.Alike t ↔ s = t := by
  constructor
  · rintro ⟨hcounter, hmaximum, hmembers, hregister, happlied⟩
    have hmembers := OrderedSet.ext_contains hmembers
    have happlied := OrderedSet.ext_contains happlied
    obtain ⟨_, ⟨_⟩, _, _, _⟩ := s
    obtain ⟨_, ⟨_⟩, _, _, _⟩ := t
    cases hcounter
    cases hmaximum
    cases hmembers
    cases hregister
    cases happlied
    rfl
  · rintro rfl
    exact ⟨rfl, rfl, fun _ => rfl, rfl, fun _ => rfl⟩

open Layout in
theorem layout_eq (s : KeyState) :
    s.layout = field 1 integer s.counter ++ (field 2 integer s.maximum.value ++
      3 :: (counted text s.members.toList ++ (field 4 text s.register ++
        5 :: counted (fun id => bytes id.bytes) s.applied.toList))) := by
  rw [layout, counted, counted, s.members.length_toList, s.applied.length_toList]
  obtain ⟨counter, ⟨maximum⟩, _, register, _⟩ := s
  cases counter <;> cases maximum <;> cases register <;> simp [field]

open Layout in
theorem separates_layout : Separates Fits layout := by
  intro s t hs ht r r' h
  have hmembers {s : KeyState} (hs : s.Fits) : s.members.toList.length < UInt64.size ∧
      ∀ m ∈ s.members.toList, m.utf8ByteSize < UInt64.size :=
    ⟨s.members.length_toList ▸ hs.members.1, hs.members.2⟩
  have happlied {s : KeyState} (hs : s.Fits) : s.applied.toList.length < UInt64.size ∧
      ∀ id ∈ s.applied.toList, True :=
    ⟨s.applied.length_toList ▸ hs.applied, fun _ _ => trivial⟩
  rw [s.layout_eq, t.layout_eq] at h
  simp only [List.append_assoc, List.cons_append] at h
  -- Behind a field that is unset comes the tag of a later one, so no tag is taken for another.
  obtain ⟨hcounter, h⟩ := separates_integer.field (by simp) (by simp)
    (head?_field (by decide) _ (by simp)) (head?_field (by decide) _ (by simp)) h
  obtain ⟨hmaximum, h⟩ := separates_integer.field (by simp) (by simp) (by simp) (by simp) h
  obtain ⟨hmembers, h⟩ := separates_text.counted _ _ (hmembers hs) (hmembers ht) _ _
    (List.cons.inj h).2
  obtain ⟨hregister, h⟩ := separates_text.field hs.register ht.register (by simp) (by simp) h
  obtain ⟨happlied, hr⟩ := separates_uuid.counted _ _ (happlied hs) (happlied ht) _ _
    (List.cons.inj h).2
  refine ⟨alike_iff.1 ⟨hcounter, hmaximum, fun m => ?_, hregister, fun id => ?_⟩, hr⟩
  · rw [Bool.eq_iff_iff, ← OrderedSet.mem_toList, ← OrderedSet.mem_toList, hmembers]
  · rw [Bool.eq_iff_iff, ← OrderedSet.mem_toList, ← OrderedSet.mem_toList, happlied]

end KeyState

namespace ReplicaState
variable {s t : ReplicaState}

/-- All texts, sets and maps in a state are shorter than a word can count. -/
structure Fits (s : ReplicaState) : Prop where
  keys : s.keys.size < UInt64.size
  entries : ∀ e ∈ s.keys.entries, e.1.utf8ByteSize < UInt64.size ∧ e.2.Fits

instance (s : ReplicaState) : Decidable s.Fits :=
  decidable_of_iff
    (s.keys.size < UInt64.size ∧
      ∀ e ∈ s.keys.entries, e.1.utf8ByteSize < UInt64.size ∧ e.2.Fits)
    ⟨fun h => ⟨h.1, h.2⟩, fun h => ⟨h.keys, h.entries⟩⟩

/-- The same keys, and at every key the same. -/
def Alike (s t : ReplicaState) : Prop :=
  ∀ key, Option.Rel KeyState.Alike (s.get? key) (t.get? key)

theorem alike_iff : s.Alike t ↔ s = t := by
  constructor
  · intro h
    obtain ⟨m⟩ := s
    obtain ⟨n⟩ := t
    congr 1
    apply OrderedMap.ext_find?
    intro key
    have hkey : Option.Rel KeyState.Alike (m.find? key) (n.find? key) := h key
    generalize m.find? key = a at hkey ⊢
    generalize n.find? key = b at hkey ⊢
    cases hkey with
    | none => rfl
    | some halike => exact congrArg some (KeyState.alike_iff.1 halike)
  · rintro rfl key
    cases s.get? key with
    | none => exact .none
    | some k => exact .some (KeyState.alike_iff.2 rfl)

/-- The key of an entry and its state, after a tag. -/
def entryLayout (e : Key × KeyState) : List UInt8 := 0 :: Layout.text e.1 ++ e.2.layout

theorem separates_entryLayout :
    Layout.Separates (fun e : Key × KeyState => e.1.utf8ByteSize < UInt64.size ∧ e.2.Fits)
      entryLayout := by
  intro e f he hf r r' h
  rw [entryLayout, entryLayout, List.append_assoc, List.append_assoc] at h
  obtain ⟨hkey, h⟩ := Layout.separates_text _ _ he.1 hf.1 _ _ (List.cons.inj h).2
  obtain ⟨hstate, hr⟩ := KeyState.separates_layout _ _ he.2 hf.2 _ _ h
  exact ⟨Prod.ext hkey hstate, hr⟩

/-- Layouts are unambiguous: two states have the same layout only if they are the same, which is to
say that they have the same keys and, at each key, the same counter, maximum, members, register and
applied updates, where what is unset differs from everything that is set. -/
theorem layout_eq_iff (hs : s.Fits) (ht : t.Fits) :
    (s.layout = t.layout ↔ s = t) ∧ (s = t ↔ s.Alike t) := by
  refine ⟨⟨fun h => ?_, congrArg layout⟩, alike_iff.symm⟩
  have hentries := separates_entryLayout.counted s.keys.entries t.keys.entries
    ⟨hs.keys, hs.entries⟩ ⟨ht.keys, ht.entries⟩ [] [] (congrArg (· ++ []) h)
  obtain ⟨m⟩ := s
  obtain ⟨n⟩ := t
  exact congrArg mk (OrderedMap.ext hentries.1)

/-- A counter that is unset is not one of zero, a register that is unset is not an empty one, and
members do not run together. -/
theorem layout_eq_iff_unset :
    let state (k : KeyState) : ReplicaState := ⟨.ofList [("k", k)]⟩
    let blank := state .empty
    let zero := state { KeyState.empty with counter := some 0 }
    let cleared := state { KeyState.empty with register := some "" }
    let early := state { KeyState.empty with members := .ofList ["a", "bc"] }
    let late := state { KeyState.empty with members := .ofList ["ab", "c"] }
    (∀ s ∈ [blank, zero, cleared, early, late], s.Fits) ∧ blank.layout ≠ zero.layout ∧
      blank.layout ≠ cleared.layout ∧ early.layout ≠ late.layout := by
  intro state blank zero cleared early late
  have hfits : ∀ s ∈ [blank, zero, cleared, early, late], s.Fits := by decide +kernel
  have hblank : blank.Fits := hfits _ (by simp)
  have hzero : zero.Fits := hfits _ (by simp)
  have hcleared : cleared.Fits := hfits _ (by simp)
  have hearly : early.Fits := hfits _ (by simp)
  have hlate : late.Fits := hfits _ (by simp)
  exact ⟨hfits, mt (layout_eq_iff hblank hzero).1.1 (by decide +kernel),
    mt (layout_eq_iff hblank hcleared).1.1 (by decide +kernel),
    mt (layout_eq_iff hearly hlate).1.1 (by decide +kernel)⟩

end ReplicaState
end Confluence
