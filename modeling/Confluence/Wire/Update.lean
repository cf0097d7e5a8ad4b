import Confluence.Classifier
import Confluence.Decomposition
import Confluence.Json.Record
import Confluence.Message

namespace Confluence

namespace Shape

def wireName : Shape → String
  | .counter => "counter"
  | .maximum => "maximum"
  | .set => "set"
  | .register => "register"

def ofName? (name : String) : Option Shape :=
  [counter, maximum, set, register].find? fun s => s.wireName = name

def toJson (s : Shape) : Json := .string s.wireName

def ofJson? (j : Json) : Option Shape := (j.name? .direct).bind ofName?

end Shape

namespace Signature

def wireName : Signature → String
  | .semilattice => "semilattice"
  | .abelian => "abelian"
  | .generic => "generic"

def ofName? (name : String) : Option Signature :=
  [semilattice, abelian, generic].find? fun s => s.wireName = name

def toJson (s : Signature) : Json := .string s.wireName

def read? (access : Json.Access) (j : Json) : Option Signature := (j.name? access).bind ofName?

def ofJson? (j : Json) : Option Signature := read? .direct j

end Signature

namespace Payload

def wireParts : Payload → String × Json
  | .delta amount => ("delta", .ofInt amount.toInt)
  | .maximum candidate => ("max", .ofInt candidate.toInt)
  | .insert member => ("insert", .string member)
  | .assign value => ("assign", .string value)

def toJson (p : Payload) : Json :=
  .object [("shape", .string p.wireParts.1), ("value", p.wireParts.2)]

def ofParts? (name : String) (value : Json) : Option Payload :=
  if name = "delta" then value.int64?.map .delta
  else if name = "max" then value.int64?.map .maximum
  else if name = "insert" then value.string?.map .insert
  else if name = "assign" then value.string?.map .assign
  else none

def wireNames : List String := ["delta", "max", "insert", "assign"]

/-- Reads a payload, which as an array has the name of its variant first. -/
def read? (access : Json.Access) : Json → Option Payload
  | .array [name, value] => do ofParts? (← name.leadingName? access wireNames) value
  | j => do
    match ← j.fields? ["shape", "value"] with
    | [some shape, some value] => ofParts? (← shape.name? access) value
    | _ => none

def ofJson? (j : Json) : Option Payload := read? .direct j

end Payload

namespace Operation

def toJson (op : Operation) : Json :=
  .object [("key", .string op.key), ("kind", .string op.kind), ("payload", op.payload.toJson)]

def read? (access : Json.Access) (j : Json) : Option Operation := do
  match ← j.fields? ["key", "kind", "payload"] with
  | [some key, some kind, some payload] =>
    some ⟨← key.string?, ← kind.string?, ← Payload.read? access payload⟩
  | _ => none

def ofJson? (j : Json) : Option Operation := read? .direct j

end Operation

def Transaction.toJson (t : Transaction) : Json := .array (t.map Operation.toJson)

def Transaction.read? (access : Json.Access) (j : Json) : Option Transaction :=
  j.list? (Operation.read? access)

def Transaction.ofJson? (j : Json) : Option Transaction := read? .direct j

namespace ClassifiedOperation

def toJson (c : ClassifiedOperation) : Json :=
  .object [("operation", c.operation.toJson), ("signature", c.signature.toJson)]

def ofJson? (j : Json) : Option ClassifiedOperation := do
  match ← j.fields? ["operation", "signature"] with
  | [some operation, some signature] =>
    some ⟨← Operation.ofJson? operation, ← Signature.ofJson? signature⟩
  | _ => none

end ClassifiedOperation

namespace KindSpec

def toJson (spec : KindSpec) : Json :=
  .object [("shape", spec.shape.toJson), ("signature", spec.signature.toJson)]

def ofJson? (j : Json) : Option KindSpec := do
  match ← j.fields? ["shape", "signature"] with
  | [some shape, some signature] => some ⟨← Shape.ofJson? shape, ← Signature.ofJson? signature⟩
  | _ => none

end KindSpec

namespace Classifier

def toJson (c : Classifier) : Json :=
  .object [("table", .object (c.table.entries.map fun e => (e.1, e.2.toJson)))]

/-- Reads a table as it stands; its entries are not checked as registrations are. -/
def ofJson? (j : Json) : Option Classifier := do
  match ← j.fields? ["table"] with
  | [some table] => (table.map? KindSpec.ofJson?).map Classifier.mk
  | _ => none

end Classifier

def Uuid.toJson (id : Uuid) : Json := .string id.toString

namespace VectorClock

/-- A clock is written as an object with a counter for every node that has an entry. -/
def toJson (c : VectorClock) : Json :=
  .object (c.entries.entries.map fun e => (e.1, .ofNat e.2.toNat))

def ofJson? (j : Json) : Option VectorClock := (j.map? Json.uint64?).map VectorClock.mk

end VectorClock

namespace Update

def toJson (u : Update) : Json :=
  .object [("update_id", u.id.toJson), ("origin_node", .string u.origin),
    ("vector_clock", u.clock.toJson), ("operations", Transaction.toJson u.operations)]

def read? (access : Json.Access) (j : Json) : Option Update := do
  match ← j.fields? ["update_id", "origin_node", "vector_clock", "operations"] with
  | [some id, some origin, some clock, some operations] =>
    some ⟨← id.uuid?, ← origin.string?, ← VectorClock.ofJson? clock,
      ← Transaction.read? access operations⟩
  | _ => none

def ofJson? (j : Json) : Option Update := read? .direct j

end Update

namespace Proposal

def toJson (p : Proposal) : Json :=
  .object [("id", p.id.toJson), ("origin", .string p.origin),
    ("operations", Transaction.toJson p.operations), ("clock", p.clock.toJson)]

def read? (access : Json.Access) (j : Json) : Option Proposal := do
  match ← j.fields? ["id", "origin", "operations", "clock"] with
  | [some id, some origin, some operations, some clock] =>
    some ⟨← id.uuid?, ← origin.string?, ← Transaction.read? access operations,
      ← VectorClock.ofJson? clock⟩
  | _ => none

def ofJson? (j : Json) : Option Proposal := read? .direct j

end Proposal

namespace Decision

def toJson (d : Decision) : Json :=
  .object [("slot", .ofNat d.slot.toNat), ("proposal", d.proposal.toJson)]

def read? (access : Json.Access) (j : Json) : Option Decision := do
  match ← j.fields? ["slot", "proposal"] with
  | [some slot, some proposal] => some ⟨← slot.uint64?, ← Proposal.read? access proposal⟩
  | _ => none

def ofJson? (j : Json) : Option Decision := read? .direct j

end Decision

namespace EscalationPolicy

def wireName : EscalationPolicy → String
  | .keyWide => "key_wide"
  | .conflictingPairs => "conflicting_pairs"

def ofName? (name : String) : Option EscalationPolicy :=
  [keyWide, conflictingPairs].find? fun p => p.wireName = name

def toJson (p : EscalationPolicy) : Json := .string p.wireName

def ofJson? (j : Json) : Option EscalationPolicy := (j.name? .direct).bind ofName?

end EscalationPolicy

namespace EscalationReason

/-- A reason is written with its name in the field `reason`. -/
def toJson : EscalationReason → Json
  | .generic => .object [("reason", .string "generic")]
  | .mixedSignatures other =>
    .object [("reason", .string "mixed_signatures"), ("with", other.toJson)]
  | .pendingGeneric proposal =>
    .object [("reason", .string "pending_generic"), ("proposal", proposal.toJson)]
  | .pendingConflict proposal other =>
    .object [("reason", .string "pending_conflict"), ("proposal", proposal.toJson),
      ("with", other.toJson)]

def ofParts? (name : String) (content : Json) : Option EscalationReason :=
  if name = "generic" then (content.fields? []).map fun _ => .generic
  else if name = "mixed_signatures" then do
    match ← content.fields? ["with"] with
    | [some other] => some (.mixedSignatures (← Signature.read? .heldBack other))
    | _ => none
  else if name = "pending_generic" then do
    match ← content.fields? ["proposal"] with
    | [some proposal] => some (.pendingGeneric (← proposal.uuid?))
    | _ => none
  else if name = "pending_conflict" then do
    match ← content.fields? ["proposal", "with"] with
    | [some proposal, some other] =>
      some (.pendingConflict (← proposal.uuid?) (← Signature.read? .heldBack other))
    | _ => none
  else none

def ofJson? (j : Json) : Option EscalationReason := do
  let (name, content) ← (← j.whole?).tagged? "reason"
  ofParts? name content

end EscalationReason
end Confluence
