import Confluence.Ordered

namespace Confluence

/-- Values that merge by a least upper bound. Two representations may stand for one element:
`agree` tells whether they do. -/
class JoinLattice (α : Type) where
  bottom : α
  join : α → α → α
  agree : α → α → Bool

namespace JoinLattice
variable {α : Type} [JoinLattice α]

/-- Whether joining `b` would not change `a`. -/
def subsumes (a b : α) : Bool := agree (join a b) a

def joinAll (items : List α) : α := items.foldl join bottom

end JoinLattice

/-- The largest value observed so far, if there was any. -/
structure Maximum where
  value : Option Int64
  deriving DecidableEq

namespace Maximum

def empty : Maximum := ⟨none⟩

def of (value : Int64) : Maximum := ⟨some value⟩

/-- The larger of two registers; an empty one is below all others. -/
def join : Maximum → Maximum → Maximum
  | ⟨none⟩, b => b
  | a, ⟨none⟩ => a
  | ⟨some a⟩, ⟨some b⟩ => if a ≤ b then ⟨some b⟩ else ⟨some a⟩

/-- Raises a register to a value if that is larger, and tells whether it changed. -/
def observe (m : Maximum) (value : Int64) : Bool × Maximum :=
  match m.value with
  | some current => if value ≤ current then (false, m) else (true, of value)
  | none => (true, of value)

instance : JoinLattice Maximum where
  bottom := empty
  join := join
  agree a b := a == b

end Maximum

/-- A set of texts that only grows. -/
abbrev Members := OrderedSet String

namespace Members

def observe (s : Members) (member : String) : Bool × Members :=
  (!s.contains member, s.insert member)

instance : JoinLattice Members where
  bottom := .empty
  join := OrderedSet.union
  agree a b := a == b

end Members
end Confluence
