import Confluence.Json.Basic
import Confluence.Ordered
import Confluence.Uuid

namespace Confluence.Json

/-- The values of the named fields of an object, each at most once. -/
def lookup? (names : List String) (fields : List (String × Json)) : Option (List (Option Json)) :=
  names.mapM fun name =>
    match fields.filter fun f => f.1 = name with
    | [] => some none
    | [f] => some (some f.2)
    | _ => none

/-- The values of the named fields of a record; an array has to hold them all. -/
def fields? (names : List String) : Json → Option (List (Option Json))
  | .object fields => lookup? names fields
  | .array items => if items.length = names.length then some (items.map some) else none
  | _ => none

/-- The values of the named fields of a record that has no others. -/
def exactFields? (names : List String) : Json → Option (List (Option Json))
  | .object fields => if fields.all fun f => f.1 ∈ names then lookup? names fields else none
  | j => j.fields? names

/-- The values of the named fields of a record in which all fields are optional; an array may end
early. -/
def options? (names : List String) : Json → Option (List (Option Json))
  | .object fields => lookup? names fields
  | .array items =>
    if items.length ≤ names.length then
      some (items.map some ++ List.replicate (names.length - items.length) none)
    else none
  | _ => none

/-- The tag of a variant and the document without it: the field `tag` of an object, or the first
item of an array. -/
def tagged? (tag : String) : Json → Option (String × Json)
  | .object fields =>
    match lookup? [tag] fields with
    | some [some (.string name)] => some (name, .object (fields.filter fun f => f.1 ≠ tag))
    | _ => none
  | .array (.string name :: rest) => some (name, .array rest)
  | _ => none

/-- How a value is read: straight from the text of its document, or from a part that was held back
until its type was known. -/
inductive Access
  | direct
  | heldBack
  deriving DecidableEq

/-- The name of a variant without fields. In a part that was held back it may also be mapped to an
empty object. -/
def name? (access : Access) : Json → Option String
  | .string name => some name
  | .object [(name, .null)] => some name
  | .object [(name, .object [])] => if access = .heldBack then some name else none
  | _ => none

/-- The name of one of several variants as the first item of an array. In a part that was held back
it may also be given by its position. -/
def leadingName? (access : Access) (names : List String) : Json → Option String
  | .string name => some name
  | .number n =>
    if access = .heldBack then do
      let i ← n.integer?
      if i < 0 then none else names[i.toNat]?
    else none
  | _ => none

def string? : Json → Option String
  | .string s => some s
  | _ => none

def integer? (least greatest : Int) : Json → Option Int
  | .number n => n.integer?.filter fun i => least ≤ i && i ≤ greatest
  | _ => none

def nat? (greatest : Nat) (j : Json) : Option Nat := (j.integer? 0 greatest).map Int.toNat

def uint64? (j : Json) : Option UInt64 := (j.nat? (UInt64.size - 1)).map Nat.toUInt64

def uint32? (j : Json) : Option UInt32 := (j.nat? (UInt32.size - 1)).map Nat.toUInt32

def uint8? (j : Json) : Option UInt8 := (j.nat? (UInt8.size - 1)).map Nat.toUInt8

/-- A count: as many things as a machine word can number. -/
def count? (j : Json) : Option Nat := j.nat? (UInt64.size - 1)

def int64? (j : Json) : Option Int64 :=
  (j.integer? Int64.minValue.toInt Int64.maxValue.toInt).map Int64.ofInt

def float? : Json → Option Float
  | .number n => n.float?
  | _ => none

def uuid? (j : Json) : Option Uuid := j.string?.bind Uuid.parse?

/-- A value that may be null. -/
def option? {α : Type} (f : Json → Option α) : Json → Option (Option α)
  | .null => some none
  | j => (f j).map some

def list? {α : Type} (f : Json → Option α) : Json → Option (List α)
  | .array items => items.mapM f
  | _ => none

/-- A set; the list may repeat members and need not be sorted. -/
def set? {α : Type} [Ord α] [Std.TransOrd α] (f : Json → Option α) (j : Json) :
    Option (OrderedSet α) :=
  (j.list? f).map .ofList

/-- A map; of a repeated key the last value counts. -/
def map? {α : Type} (f : Json → Option α) : Json → Option (OrderedMap String α)
  | .object fields => (fields.mapM fun e => (f e.2).map (e.1, ·)).map .ofList
  | _ => none

/-- An optional field that takes a default where it is absent. -/
def orElse {α : Type} (f : Json → Option α) (default : α) : Option Json → Option α
  | none => some default
  | some j => f j

mutual

/-- Whether every string and every number in a document has a value. -/
def isSound : Json → Bool
  | .null | .bool _ | .string _ => true
  | .number n => n.float?.isSome
  | .array items => itemsSound items
  | .object fields => fieldsSound fields
  | .garbled => false

def itemsSound : List Json → Bool
  | [] => true
  | j :: rest => j.isSound && itemsSound rest

def fieldsSound : List (String × Json) → Bool
  | [] => true
  | (_, j) :: rest => j.isSound && fieldsSound rest

end

/-- How deep a document may be nested where all of it is read before its type is known. -/
def maxDepth : Nat := 127

/-- A document that can be read whole before its type is known. -/
def whole? (j : Json) : Option Json :=
  if j.isSound && j.depth ≤ maxDepth then some j else none

def ofStrings (l : List String) : Json := .array (l.map .string)

def ofOption {α : Type} (f : α → Json) : Option α → Json
  | none => .null
  | some x => f x

end Confluence.Json
