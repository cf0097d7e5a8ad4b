import Confluence.State
import Confluence.Wire.Update

namespace Confluence

namespace KeyState

def toJson (s : KeyState) : Json :=
  .object [("counter", Json.ofOption (fun n => .ofInt n.toInt) s.counter),
    ("maximum", Json.ofOption (fun n => .ofInt n.toInt) s.maximum.value),
    ("members", Json.ofStrings s.members.toList),
    ("register", Json.ofOption .string s.register),
    ("applied", .array (s.applied.toList.map Uuid.toJson))]

/-- Components that may be unset may be missing. -/
def ofJson? (j : Json) : Option KeyState := do
  match ← j.fields? ["counter", "maximum", "members", "register", "applied"] with
  | [counter, maximum, some members, register, some applied] =>
    some ⟨← Json.orElse (Json.option? Json.int64?) none counter,
      ⟨← Json.orElse (Json.option? Json.int64?) none maximum⟩,
      ← members.set? Json.string?,
      ← Json.orElse (Json.option? Json.string?) none register,
      ← applied.set? Json.uuid?⟩
  | _ => none

end KeyState

namespace ReplicaState

def toJson (s : ReplicaState) : Json :=
  .object (s.keys.entries.map fun e => (e.1, e.2.toJson))

def ofJson? (j : Json) : Option ReplicaState := (j.map? KeyState.ofJson?).map ReplicaState.mk

end ReplicaState

namespace StateDigest

/-- A digest is written as the list of its bytes. -/
def toJson (d : StateDigest) : Json := .array (d.bytes.toList.map fun b => .ofNat b.toNat)

def ofBytes? (bytes : List UInt8) : Option StateDigest :=
  if h : bytes.toArray.size = 32 then some ⟨⟨bytes.toArray, h⟩⟩ else none

def ofJson? (j : Json) : Option StateDigest := (j.list? Json.uint8?).bind ofBytes?

end StateDigest
end Confluence
