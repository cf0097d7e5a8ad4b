import Confluence.Json.Bytes
import Confluence.Message
import Confluence.Wire.Update

namespace Confluence.Message

/-- Adds the kind of a message to the object of its content. -/
def withKind (kind : String) : Json → Json
  | .object fields => .object (("type", .string kind) :: fields)
  | j => j

def toJson (m : Message) : Json :=
  withKind m.kind <|
    match m with
    | .update u => u.toJson
    | .decided d => d.toJson
    | .join node => .object [("node", .string node)]
    | .frontier node delivered =>
      .object [("node", .string node), ("delivered", delivered.toJson)]

def ofParts? (kind : String) (content : Json) : Option Message :=
  if kind = "update" then (Update.read? .heldBack content).map .update
  else if kind = "decided" then (Decision.read? .heldBack content).map .decided
  else if kind = "join" then do
    match ← content.fields? ["node"] with
    | [some node] => some (.join (← node.string?))
    | _ => none
  else if kind = "frontier" then do
    match ← content.fields? ["node", "delivered"] with
    | [some node, some delivered] =>
      some (.frontier (← node.string?) (← VectorClock.ofJson? delivered))
    | _ => none
  else none

def ofJson? (j : Json) : Option Message := do
  let (kind, content) ← (← j.whole?).tagged? "type"
  ofParts? kind content

def encode (m : Message) : ByteArray := m.toJson.render.toUTF8

def decode? (bytes : ByteArray) : Option Message := do
  let text ← String.fromUTF8? bytes
  ofJson? (← Json.parse? text)

end Confluence.Message
