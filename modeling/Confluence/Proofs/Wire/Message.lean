import Confluence.Proofs.Wire.Update
import Confluence.Wire.Message
import Confluence.Wire.State

namespace Confluence

open Json (Plain)

theorem fromUTF8?_toUTF8 (s : String) : String.fromUTF8? s.toUTF8 = some s := by
  unfold String.fromUTF8?
  exact dif_pos s.isValidUTF8

namespace KeyState

theorem plain_ofOption {α : Type} {g : α → Json} {d : Nat} (h : ∀ x, Plain d (g x)) (o : Option α) :
    Plain d (Json.ofOption g o) := by
  cases o with
  | none => exact .null
  | some x => exact h x

theorem plain_toJson (d : Nat) (s : KeyState) : Plain (d + 2) s.toJson := by
  have hinteger (o : Option Int64) : Plain (d + 1) (Json.ofOption (fun n => .ofInt n.toInt) o) :=
    plain_ofOption (fun n => .ofInt (natAbs_lt_of_int64 n)) o
  have hstring (o : Option String) : Plain (d + 1) (Json.ofOption .string o) :=
    plain_ofOption .string o
  have hmembers : Plain (d + 1) (Json.ofStrings s.members.toList) := by
    apply Plain.array
    simp [Plain.string]
  have happlied : Plain (d + 1) (.array (s.applied.toList.map Uuid.toJson)) := by
    apply Plain.array
    simp [Plain.string, Uuid.toJson]
  apply Plain.object
  simp [hinteger, hstring, hmembers, happlied]

theorem ofJson?_toJson (s : KeyState) : ofJson? s.toJson = some s := by
  unfold ofJson? toJson
  rw [Json.fields?_object]
  · have hinteger (o : Option Int64) :
        (Json.ofOption (fun n => .ofInt n.toInt) o).option? Json.int64? = some o :=
      Json.option?_ofOption Json.int64?_ofInt (fun n => by simp [Json.ofInt]) o
    have hstring (o : Option String) : (Json.ofOption .string o).option? Json.string? = some o :=
      Json.option?_ofOption Json.string?_string (by simp) o
    have hmembers : (Json.ofStrings s.members.toList).set? Json.string? = some s.members :=
      Json.set?_array Json.string?_string s.members
    have happlied : (Json.array (s.applied.toList.map Uuid.toJson)).set? Json.uuid? =
        some s.applied := Json.set?_array Json.uuid?_toString s.applied
    simp only [List.map_cons, List.map_nil, Option.bind_eq_bind, Option.bind_some, Json.orElse,
      hinteger, hstring, hmembers, happlied]
  · rfl
  · decide

end KeyState

namespace ReplicaState

theorem plain_toJson (d : Nat) (s : ReplicaState) : Plain (d + 3) s.toJson := by
  apply Plain.object
  intro f hf
  obtain ⟨e, _, rfl⟩ := List.mem_map.1 hf
  exact KeyState.plain_toJson d e.2

theorem ofJson?_toJson (s : ReplicaState) : ofJson? s.toJson = some s := by
  unfold ofJson? toJson
  rw [Json.map?_object KeyState.ofJson?_toJson]
  rfl

end ReplicaState

namespace Message

theorem plain_withKind (kind : String) {d : Nat} {j : Json} (h : Plain (d + 1) j) :
    Plain (d + 1) (withKind kind j) := by
  cases h with
  | object h => exact .object (List.forall_mem_cons.2 ⟨.string kind, h⟩)
  | null => exact .null
  | bool b => exact .bool b
  | string s => exact .string s
  | ofInt h => exact .ofInt h
  | array h => exact .array h

theorem plain_toJson (m : Message) : Plain Json.maxDepth m.toJson := by
  apply plain_withKind m.kind
  cases m with
  | update u => exact u.plain_toJson 123
  | decided d => exact d.plain_toJson 122
  | join node =>
    apply Plain.object
    simp [Plain.string]
  | frontier node delivered =>
    apply Plain.object
    simp [Plain.string, VectorClock.plain_toJson]

theorem ofJson?_withKind {kind : String} {fields : List (String × Json)}
    (hplain : Plain Json.maxDepth (withKind kind (.object fields)))
    (htype : ∀ f ∈ fields, f.1 ≠ "type") :
    ofJson? (withKind kind (.object fields)) = ofParts? kind (.object fields) := by
  unfold ofJson?
  rw [hplain.whole?]
  simp only [withKind, Option.bind_eq_bind, Option.bind_some, Json.tagged?_object kind htype]

theorem ofJson?_toJson (m : Message) : ofJson? m.toJson = some m := by
  have hplain := m.plain_toJson
  cases m with
  | update u =>
    refine (ofJson?_withKind hplain (by simp)).trans ?_
    show (Update.read? .heldBack u.toJson).map update = _
    rw [Update.read?_toJson]
    rfl
  | decided d =>
    refine (ofJson?_withKind hplain (by simp)).trans ?_
    show (Decision.read? .heldBack d.toJson).map decided = _
    rw [Decision.read?_toJson]
    rfl
  | join node =>
    refine (ofJson?_withKind hplain (by simp)).trans ?_
    show ofParts? "join" _ = _
    unfold ofParts?
    rw [if_neg (by decide), if_neg (by decide), if_pos rfl, Json.fields?_object]
    · rfl
    · rfl
    · decide
  | frontier node delivered =>
    refine (ofJson?_withKind hplain (by simp)).trans ?_
    show ofParts? "frontier" _ = _
    unfold ofParts?
    rw [if_neg (by decide), if_neg (by decide), if_neg (by decide), if_pos rfl, Json.fields?_object]
    · simp only [List.map_cons, List.map_nil, Option.bind_eq_bind, Option.bind_some,
        Json.string?_string, VectorClock.ofJson?_toJson]
    · rfl
    · decide

theorem decode?_encode (m : Message) : decode? m.encode = some m := by
  unfold decode? encode
  rw [fromUTF8?_toUTF8]
  simp only [Option.bind_eq_bind, Option.bind_some, m.plain_toJson.parse?_render, ofJson?_toJson]

/-- Quotation marks and control characters of a name are escaped, and nothing else is. -/
example : (join "é\"\n\x01").toJson.render =
    "\x7b\"type\":\"join\",\"node\":\"é\\\"\\n\\u0001\"\x7d" := by decide +kernel

end Message

/-- What is written of messages and of replica states says all about them. -/
theorem wire_round_trip :
    (∀ m : Message, Message.decode? m.encode = some m) ∧ Function.Injective Message.encode ∧
      ∀ s : ReplicaState, (Json.parse? s.toJson.render).bind ReplicaState.ofJson? = some s := by
  refine ⟨Message.decode?_encode, ?_, ?_⟩
  · intro m n h
    have hm := m.decode?_encode
    rw [h, n.decode?_encode] at hm
    exact (Option.some.inj hm).symm
  · intro s
    rw [(s.plain_toJson 0).parse?_render]
    exact s.ofJson?_toJson

end Confluence
