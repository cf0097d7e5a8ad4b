import Confluence.Proofs.Json.Document
import Confluence.Proofs.Ordered

namespace Confluence.Json

theorem filter_key {fields : List (String × Json)} (h : (fields.map (·.1)).Nodup)
    {f : String × Json} (hf : f ∈ fields) : (fields.filter fun g => g.1 = f.1) = [f] := by
  induction fields with
  | nil => cases hf
  | cons g fields ih =>
    obtain ⟨hg, hfields⟩ := List.nodup_cons.1 h
    rcases List.mem_cons.1 hf with rfl | hf
    · rw [List.filter_cons_of_pos (by simp)]
      have hrest : (fields.filter fun g => g.1 = f.1) = [] := by
        apply List.filter_eq_nil_iff.2
        intro e he heq
        exact hg (List.mem_map.2 ⟨e, he, of_decide_eq_true heq⟩)
      rw [hrest]
    · have hne : g.1 ≠ f.1 := fun heq => hg (List.mem_map.2 ⟨f, hf, heq.symm⟩)
      rw [List.filter_cons_of_neg (by simpa using hne)]
      exact ih hfields hf

theorem fields?_object {names : List String} {fields : List (String × Json)}
    (hfields : fields.map (·.1) = names) (hnames : names.Nodup) :
    (Json.object fields).fields? names = some (fields.map fun f => some f.2) := by
  subst hfields
  apply mapM_map
  intro f hf
  rw [filter_key hnames hf]

theorem tagged?_object {tag : String} (name : String) {fields : List (String × Json)}
    (h : ∀ f ∈ fields, f.1 ≠ tag) :
    (Json.object ((tag, .string name) :: fields)).tagged? tag = some (name, .object fields) := by
  have htag : (((tag, Json.string name) :: fields).filter fun f => f.1 = tag) =
      [(tag, .string name)] := by
    rw [List.filter_cons_of_pos (by simp), List.filter_eq_nil_iff.2 (by simpa using h)]
  have hrest : (((tag, Json.string name) :: fields).filter fun f => f.1 ≠ tag) = fields := by
    rw [List.filter_cons_of_neg (by simp), List.filter_eq_self.2 (by simpa using h)]
  have hlookup : lookup? [tag] ((tag, .string name) :: fields) = some [some (.string name)] := by
    unfold lookup?
    rw [List.mapM_cons, htag]
    rfl
  unfold tagged?
  dsimp only
  rw [hlookup]
  dsimp only
  rw [hrest]

theorem integer?_ofInt {n least greatest : Int} (hl : least ≤ n) (hg : n ≤ greatest) :
    (Json.ofInt n).integer? least greatest = some n := by
  show (Numeral.ofInt n).integer?.filter _ = _
  rw [Numeral.integer?_ofInt]
  exact Option.filter_some_pos (by simp [hl, hg])

theorem int64?_ofInt (n : Int64) : (Json.ofInt n.toInt).int64? = some n := by
  unfold int64?
  rw [integer?_ofInt n.minValue_le_toInt n.toInt_le]
  exact congrArg some (Int64.ofInt_toInt n)

theorem uint64?_ofNat (n : UInt64) : (Json.ofNat n.toNat).uint64? = some n := by
  have hn : n.toNat ≤ UInt64.size - 1 := Nat.le_sub_one_of_lt n.toNat_lt
  unfold uint64? nat? ofNat
  rw [integer?_ofInt (Int.natCast_nonneg _) (Int.ofNat_le.2 hn)]
  rw [Option.map_some, Option.map_some, Int.toNat_natCast]
  exact congrArg some UInt64.ofNat_toNat

theorem string?_string (s : String) : (Json.string s).string? = some s := rfl

theorem uuid?_toString (id : Uuid) : (Json.string id.toString).uuid? = some id := by
  unfold uuid? string?
  rw [Option.bind_some, id.parse?_toString]

variable {α : Type} {f : Json → Option α} {g : α → Json}

theorem option?_ofOption (h : ∀ x, f (g x) = some x) (hnull : ∀ x, g x ≠ .null) (o : Option α) :
    (ofOption g o).option? f = some o := by
  cases o with
  | none => rfl
  | some x =>
    unfold option? ofOption
    split
    · next heq => exact absurd heq (hnull x)
    · rw [h]
      rfl

theorem list?_array {l : List α} (h : ∀ x, f (g x) = some x) :
    (Json.array (l.map g)).list? f = some l := by
  show (l.map g).mapM f = some l
  rw [mapM_map fun x _ => h x, List.map_id']

theorem set?_array [Ord α] [Std.TransOrd α] [Std.LawfulEqOrd α] (h : ∀ x, f (g x) = some x)
    (s : OrderedSet α) : (Json.array (s.toList.map g)).set? f = some s := by
  unfold set?
  rw [list?_array h]
  exact congrArg some s.ofList_toList

theorem map?_object (h : ∀ x, f (g x) = some x) (m : OrderedMap String α) :
    (Json.object (m.entries.map fun e => (e.1, g e.2))).map? f = some m := by
  have hentries : (m.entries.map fun e => (e.1, g e.2)).mapM (fun e => (f e.2).map (e.1, ·)) =
      some m.entries := by
    rw [mapM_map (k := fun e => e) fun e _ => by rw [h]; rfl, List.map_id']
  unfold map?
  dsimp only
  rw [hentries]
  exact congrArg some m.ofList_entries

end Confluence.Json
