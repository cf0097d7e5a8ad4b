import Confluence.Proofs.Json.Record
import Confluence.Wire.Update

namespace Confluence

open Json (Access Plain)

theorem natAbs_lt_of_int64 (n : Int64) : n.toInt.natAbs < UInt64.size := by
  have hl := n.le_toInt
  have hg := n.toInt_lt
  have hsize : UInt64.size = 2 ^ 64 := rfl
  omega

namespace Payload

theorem plain_toJson (d : Nat) (p : Payload) : Plain (d + 1) p.toJson := by
  have hvalue : Plain d p.wireParts.2 := by
    cases p with
    | delta amount => exact .ofInt (natAbs_lt_of_int64 amount)
    | maximum candidate => exact .ofInt (natAbs_lt_of_int64 candidate)
    | insert member => exact .string member
    | assign value => exact .string value
  apply Plain.object
  simp [hvalue, Plain.string]

theorem ofParts?_wireParts (p : Payload) : ofParts? p.wireParts.1 p.wireParts.2 = some p := by
  cases p with
  | delta amount =>
    show (Json.ofInt amount.toInt).int64?.map _ = _
    rw [Json.int64?_ofInt]
    rfl
  | maximum candidate =>
    show (Json.ofInt candidate.toInt).int64?.map _ = _
    rw [Json.int64?_ofInt]
    rfl
  | insert member => rfl
  | assign value => rfl

theorem read?_toJson (access : Access) (p : Payload) : read? access p.toJson = some p := by
  unfold read? toJson
  dsimp only
  rw [Json.fields?_object]
  · exact p.ofParts?_wireParts
  · rfl
  · decide

end Payload

namespace Operation

theorem plain_toJson (d : Nat) (op : Operation) : Plain (d + 2) op.toJson := by
  apply Plain.object
  simp [Plain.string, Payload.plain_toJson]

theorem read?_toJson (access : Access) (op : Operation) : read? access op.toJson = some op := by
  unfold read? toJson
  rw [Json.fields?_object]
  · simp only [List.map_cons, List.map_nil, Option.bind_eq_bind, Option.bind_some, Json.string?,
      Payload.read?_toJson]
  · rfl
  · decide

end Operation

namespace Transaction

theorem plain_toJson (d : Nat) (t : Transaction) : Plain (d + 3) t.toJson := by
  apply Plain.array
  simp [Operation.plain_toJson]

theorem read?_toJson (access : Access) (t : Transaction) : read? access t.toJson = some t :=
  Json.list?_array (Operation.read?_toJson access)

end Transaction

namespace VectorClock

theorem plain_toJson (d : Nat) (c : VectorClock) : Plain (d + 1) c.toJson := by
  apply Plain.object
  intro f hf
  obtain ⟨e, _, rfl⟩ := List.mem_map.1 hf
  exact .ofInt e.2.toNat_lt

theorem ofJson?_toJson (c : VectorClock) : ofJson? c.toJson = some c := by
  unfold ofJson? toJson
  rw [Json.map?_object Json.uint64?_ofNat]
  rfl

end VectorClock

namespace Update

theorem plain_toJson (d : Nat) (u : Update) : Plain (d + 4) u.toJson := by
  apply Plain.object
  simp [Plain.string, Uuid.toJson, VectorClock.plain_toJson, Transaction.plain_toJson]

theorem read?_toJson (access : Access) (u : Update) : read? access u.toJson = some u := by
  unfold read? toJson
  rw [Json.fields?_object]
  · simp only [List.map_cons, List.map_nil, Option.bind_eq_bind, Option.bind_some, Json.string?,
      Uuid.toJson, Json.uuid?_toString, VectorClock.ofJson?_toJson, Transaction.read?_toJson]
  · rfl
  · decide

end Update

namespace Proposal

theorem plain_toJson (d : Nat) (p : Proposal) : Plain (d + 4) p.toJson := by
  apply Plain.object
  simp [Plain.string, Uuid.toJson, VectorClock.plain_toJson, Transaction.plain_toJson]

theorem read?_toJson (access : Access) (p : Proposal) : read? access p.toJson = some p := by
  unfold read? toJson
  rw [Json.fields?_object]
  · simp only [List.map_cons, List.map_nil, Option.bind_eq_bind, Option.bind_some, Json.string?,
      Uuid.toJson, Json.uuid?_toString, VectorClock.ofJson?_toJson, Transaction.read?_toJson]
  · rfl
  · decide

end Proposal

namespace Decision

theorem plain_toJson (d : Nat) (e : Decision) : Plain (d + 5) e.toJson := by
  have hslot : Plain (d + 4) (.ofNat e.slot.toNat) := .ofInt e.slot.toNat_lt
  apply Plain.object
  simp [hslot, Proposal.plain_toJson]

theorem read?_toJson (access : Access) (d : Decision) : read? access d.toJson = some d := by
  unfold read? toJson
  rw [Json.fields?_object]
  · simp only [List.map_cons, List.map_nil, Option.bind_eq_bind, Option.bind_some,
      Json.uint64?_ofNat, Proposal.read?_toJson]
  · rfl
  · decide

end Decision
end Confluence
