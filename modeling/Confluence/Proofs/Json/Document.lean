import Confluence.Json.Bytes
import Confluence.Json.Record
import Confluence.Proofs.Json.Number
import Confluence.Proofs.Json.Token

namespace Confluence.Json

open Token (scan? EndsNumber)

/-- Documents that hold nothing but texts and integers of 64 bits, nested at most so deep. -/
inductive Plain : Nat → Json → Prop
  | null {d : Nat} : Plain d .null
  | bool {d : Nat} (b : Bool) : Plain d (.bool b)
  | string {d : Nat} (s : String) : Plain d (.string s)
  | ofInt {d : Nat} {n : Int} (h : n.natAbs < UInt64.size) : Plain d (.ofInt n)
  | array {d : Nat} {items : List Json} (h : ∀ j ∈ items, Plain d j) : Plain (d + 1) (.array items)
  | object {d : Nat} {fields : List (String × Json)} (h : ∀ f ∈ fields, Plain d f.2) :
    Plain (d + 1) (.object fields)

section Whole

theorem itemsDepth_le {d : Nat} {items : List Json} (h : ∀ j ∈ items, j.depth ≤ d) :
    itemsDepth items ≤ d := by
  induction items with
  | nil => exact Nat.zero_le d
  | cons j items ih =>
    obtain ⟨hj, hitems⟩ := List.forall_mem_cons.1 h
    exact Nat.max_le.2 ⟨hj, ih hitems⟩

theorem fieldsDepth_le {d : Nat} {fields : List (String × Json)} (h : ∀ f ∈ fields, f.2.depth ≤ d) :
    fieldsDepth fields ≤ d := by
  induction fields with
  | nil => exact Nat.zero_le d
  | cons f fields ih =>
    obtain ⟨hf, hfields⟩ := List.forall_mem_cons.1 h
    exact Nat.max_le.2 ⟨hf, ih hfields⟩

theorem Plain.depth_le {d : Nat} {j : Json} (h : Plain d j) : j.depth ≤ d := by
  induction h with
  | null | bool | string | ofInt => exact Nat.zero_le _
  | array _ ih =>
    rw [depth, Nat.add_comm]
    exact Nat.succ_le_succ (itemsDepth_le ih)
  | object _ ih =>
    rw [depth, Nat.add_comm]
    exact Nat.succ_le_succ (fieldsDepth_le ih)

theorem itemsSound_of_forall {items : List Json} (h : ∀ j ∈ items, j.isSound = true) :
    itemsSound items = true := by
  induction items with
  | nil => rfl
  | cons j items ih =>
    obtain ⟨hj, hitems⟩ := List.forall_mem_cons.1 h
    rw [itemsSound, hj, ih hitems]
    rfl

theorem fieldsSound_of_forall {fields : List (String × Json)} (h : ∀ f ∈ fields, f.2.isSound = true) :
    fieldsSound fields = true := by
  induction fields with
  | nil => rfl
  | cons f fields ih =>
    obtain ⟨hf, hfields⟩ := List.forall_mem_cons.1 h
    rw [fieldsSound, hf, ih hfields]
    rfl

theorem Plain.isSound {d : Nat} {j : Json} (h : Plain d j) : j.isSound = true := by
  induction h with
  | null | bool | string => rfl
  | ofInt h => exact Numeral.isSome_float?_ofInt h
  | array _ ih => exact itemsSound_of_forall ih
  | object _ ih => exact fieldsSound_of_forall ih

theorem Plain.whole? {j : Json} (h : Plain maxDepth j) : j.whole? = some j :=
  if_pos (Bool.and_eq_true_iff.2 ⟨h.isSound, decide_eq_true h.depth_le⟩)

end Whole

section Scanning

/-- Whether a list of tokens is scanned from its spelling, before a text that ends a number. -/
def Scans (ts : List Token) : Prop :=
  ∀ cs, EndsNumber cs → scan? (ts.flatMap Token.spell ++ cs) = (scan? cs).map (ts ++ ·)

theorem scans_cons {t : Token} {ts : List Token} (ht : t.IsPlain) (hnum : ∀ n, t ≠ .number n)
    (h : Scans ts) : Scans (t :: ts) := by
  intro cs hcs
  rw [List.flatMap_cons, List.append_assoc, Token.scan?_spell ht fun n hn => absurd hn (hnum n),
    h cs hcs, Option.map_map]
  rfl

theorem scans_key (k : String) {ts : List Token} (h : Scans ts) :
    Scans (.text (some k) :: .colon :: ts) :=
  scans_cons rfl (by simp) (scans_cons trivial (by simp) h)

theorem scans_append {ts us : List Token} (hts : Scans ts) (hus : Scans us)
    (hends : ∀ cs, EndsNumber (us.flatMap Token.spell ++ cs)) : Scans (ts ++ us) := by
  intro cs hcs
  rw [List.flatMap_append, List.append_assoc, hts _ (hends cs), hus cs hcs, Option.map_map]
  congr 1
  funext vs
  exact (List.append_assoc ts us vs).symm

theorem scans_nil : Scans [] := by
  intro cs _
  exact Option.map_id'.symm

theorem endsNumber_cons {c : Char} {cs : List Char}
    (h : c.isDigit = false ∧ c ≠ '.' ∧ c ≠ 'e' ∧ c ≠ 'E') : EndsNumber (c :: cs) := by
  intro d hd
  cases hd
  exact h

theorem endsNumber_itemTokens (items : List Json) (cs : List Char) :
    EndsNumber ((itemTokens items).flatMap Token.spell ++ cs) := by
  cases items with
  | nil => exact endsNumber_cons (by decide)
  | cons j items => exact endsNumber_cons (by decide)

theorem endsNumber_fieldTokens (fields : List (String × Json)) (cs : List Char) :
    EndsNumber ((fieldTokens fields).flatMap Token.spell ++ cs) := by
  cases fields with
  | nil => exact endsNumber_cons (by decide)
  | cons f fields => exact endsNumber_cons (by decide)

theorem scans_itemTokens {items : List Json} (h : ∀ j ∈ items, Scans j.tokens) :
    Scans (itemTokens items) := by
  induction items with
  | nil => exact scans_cons trivial (by simp) scans_nil
  | cons j items ih =>
    obtain ⟨hj, hitems⟩ := List.forall_mem_cons.1 h
    exact scans_cons trivial (by simp)
      (scans_append hj (ih hitems) (endsNumber_itemTokens items))

theorem scans_fieldTokens {fields : List (String × Json)} (h : ∀ f ∈ fields, Scans f.2.tokens) :
    Scans (fieldTokens fields) := by
  induction fields with
  | nil => exact scans_cons trivial (by simp) scans_nil
  | cons f fields ih =>
    obtain ⟨hf, hfields⟩ := List.forall_mem_cons.1 h
    exact scans_cons trivial (by simp)
      (scans_key f.1 (scans_append hf (ih hfields) (endsNumber_fieldTokens fields)))

theorem Plain.scans {d : Nat} {j : Json} (h : Plain d j) : Scans j.tokens := by
  induction h with
  | null => exact scans_cons trivial (by simp) scans_nil
  | bool b => exact scans_cons trivial (by simp) scans_nil
  | string s => exact scans_cons rfl (by simp) scans_nil
  | ofInt h =>
    intro cs hcs
    show scan? ((Token.number _).spell ++ [] ++ cs) = _
    rw [List.append_nil]
    exact Token.scan?_spell (t := .number _) ⟨rfl, rfl⟩ fun _ _ => hcs
  | @array _ items _ ih =>
    cases items with
    | nil => exact scans_cons trivial (by simp) (scans_cons trivial (by simp) scans_nil)
    | cons j items =>
      obtain ⟨hj, hitems⟩ := List.forall_mem_cons.1 ih
      exact scans_cons trivial (by simp)
        (scans_append hj (scans_itemTokens hitems) (endsNumber_itemTokens items))
  | @object _ fields _ ih =>
    cases fields with
    | nil => exact scans_cons trivial (by simp) (scans_cons trivial (by simp) scans_nil)
    | cons f fields =>
      obtain ⟨hf, hfields⟩ := List.forall_mem_cons.1 ih
      exact scans_cons trivial (by simp)
        (scans_key f.1 (scans_append hf (scans_fieldTokens hfields) (endsNumber_fieldTokens fields)))

end Scanning

section Reading

open Reading (step)

/-- Whether the tokens of a document take the reader past the place of a value. -/
def Reads (j : Json) : Prop :=
  ∀ frames, j.tokens.foldlM step (.value frames) = some (.after j frames)

theorem step_first {t : Token} (ht : t ≠ .closeBracket) (frames : List Frame) :
    step (.first frames) t = step (.value (.array [] :: frames)) t := by
  cases t with
  | closeBracket => exact absurd rfl ht
  | _ => rfl

theorem tokens_eq_cons (j : Json) : ∃ t ts, j.tokens = t :: ts ∧ t ≠ .closeBracket := by
  fun_cases tokens j <;> exact ⟨_, _, rfl, by simp⟩

theorem foldlM_itemTokens {items : List Json} (h : ∀ j ∈ items, Reads j) (v : Json)
    (done : List Json) (frames : List Frame) :
    (itemTokens items).foldlM step (.after v (.array done :: frames)) =
      some (.after (.array ((v :: done).reverse ++ items)) frames) := by
  induction items generalizing v done with
  | nil =>
    rw [List.append_nil]
    rfl
  | cons j items ih =>
    obtain ⟨hj, hitems⟩ := List.forall_mem_cons.1 h
    show (j.tokens ++ itemTokens items).foldlM step (.value (.array (v :: done) :: frames)) = _
    rw [List.foldlM_append, hj]
    show (itemTokens items).foldlM step (.after j (.array (v :: done) :: frames)) = _
    rw [ih hitems, List.reverse_cons, List.append_assoc]
    rfl

theorem mapM_map {α β γ : Type} {f : β → Option γ} {g : α → β} {k : α → γ} {l : List α}
    (h : ∀ x ∈ l, f (g x) = some (k x)) : (l.map g).mapM f = some (l.map k) := by
  induction l with
  | nil => rfl
  | cons x l ih =>
    obtain ⟨hx, hl⟩ := List.forall_mem_cons.1 h
    rw [List.map_cons, List.mapM_cons, hx, ih hl]
    rfl

theorem close_map (fields : List (String × Json)) :
    close (fields.map fun f => (some f.1, f.2)) = .object fields.reverse := by
  have h : (fields.map fun f => (some f.1, f.2)).reverse.mapM (fun f => f.1.map (·, f.2)) =
      some fields.reverse := by
    rw [← List.map_reverse, mapM_map (k := fun f => f), List.map_id']
    intro _ _
    rfl
  unfold close
  rw [h]

theorem foldlM_fieldTokens {fields : List (String × Json)} (h : ∀ f ∈ fields, Reads f.2)
    (k : String) (v : Json) (done : List (String × Json)) (frames : List Frame) :
    (fieldTokens fields).foldlM step
        (.after v (.object (done.map fun f => (some f.1, f.2)) (some k) :: frames)) =
      some (.after (.object (((k, v) :: done).reverse ++ fields)) frames) := by
  induction fields generalizing k v done with
  | nil =>
    rw [List.append_nil, ← close_map]
    rfl
  | cons f fields ih =>
    obtain ⟨hf, hfields⟩ := List.forall_mem_cons.1 h
    show (f.2.tokens ++ fieldTokens fields).foldlM step
      (.value (.object (((k, v) :: done).map fun f => (some f.1, f.2)) (some f.1) :: frames)) = _
    rw [List.foldlM_append, hf]
    show (fieldTokens fields).foldlM step
      (.after f.2 (.object (((k, v) :: done).map fun f => (some f.1, f.2)) (some f.1) :: frames)) = _
    rw [ih hfields, List.reverse_cons, List.append_assoc]
    rfl

theorem Plain.reads {d : Nat} {j : Json} (h : Plain d j) : Reads j := by
  induction h with
  | null | bool | string | ofInt =>
    intro frames
    rfl
  | @array _ items _ ih =>
    intro frames
    cases items with
    | nil => rfl
    | cons j items =>
      obtain ⟨hj, hitems⟩ := List.forall_mem_cons.1 ih
      obtain ⟨t, ts, hts, ht⟩ := tokens_eq_cons j
      have hfirst : j.tokens.foldlM step (.first frames) = some (.after j (.array [] :: frames)) := by
        rw [← hj, hts, List.foldlM_cons, List.foldlM_cons, step_first ht]
      show (j.tokens ++ itemTokens items).foldlM step (.first frames) = _
      rw [List.foldlM_append, hfirst]
      exact foldlM_itemTokens hitems j [] frames
  | @object _ fields _ ih =>
    intro frames
    cases fields with
    | nil => rfl
    | cons f fields =>
      obtain ⟨hf, hfields⟩ := List.forall_mem_cons.1 ih
      show (f.2.tokens ++ fieldTokens fields).foldlM step
        (.value (.object [] (some f.1) :: frames)) = _
      rw [List.foldlM_append, hf]
      exact foldlM_fieldTokens hfields f.1 f.2 [] frames

end Reading

theorem Plain.parse?_render {d : Nat} {j : Json} (h : Plain d j) : parse? j.render = some j := by
  have hscan : scan? (j.tokens.flatMap Token.spell) = some j.tokens := by
    have hnil := h.scans [] fun _ hc => by cases hc
    rw [List.append_nil] at hnil
    rw [hnil, scan?, Option.map_some, List.append_nil]
  unfold parse? parseChars? render
  rw [String.toList_ofList, hscan]
  show (j.tokens.foldlM Reading.step (.value [])).bind _ = _
  rw [h.reads []]
  rfl

end Confluence.Json
