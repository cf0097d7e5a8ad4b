import Confluence.Text

namespace Confluence

/-- The component of a key's state that an operation writes. -/
inductive Shape
  | counter
  | maximum
  | set
  | register
  deriving DecidableEq

/-- Which laws the operations of a kind obey, and so whether they may take effect without agreement on an
order. -/
inductive Signature
  | semilattice
  | abelian
  | generic
  deriving DecidableEq

def Shape.title : Shape → String
  | .counter => "Counter"
  | .maximum => "Maximum"
  | .set => "Set"
  | .register => "Register"

namespace Signature

def title : Signature → String
  | .semilattice => "Semilattice"
  | .abelian => "Abelian"
  | .generic => "Generic"

/-- The position in the order from the strongest guarantee to none. -/
def rank : Signature → Nat
  | .semilattice => 0
  | .abelian => 1
  | .generic => 2

instance : Ord Signature := ⟨fun a b => compare a.rank b.rank⟩

/-- Whether operations with this signature may commit without coordination. -/
def isLiftable (s : Signature) : Bool := s ≠ .generic

/-- Whether applying an operation again changes nothing. -/
def isIdempotent (s : Signature) : Bool := s = .semilattice

/-- Whether two operations on one key commute whatever their payloads: only algebraic ones of
the same signature do. -/
def commutesWith (a b : Signature) : Bool := a = b && a.isLiftable

/-- The strongest signature that operations on a component can have. -/
def naturalFor : Shape → Signature
  | .counter => .abelian
  | .maximum | .set => .semilattice
  | .register => .generic

/-- Whether a kind of this shape may be registered with the signature. -/
def admissibleFor (s : Signature) (shape : Shape) : Bool :=
  s = .generic || s = naturalFor shape

end Signature

abbrev Key := String

abbrev Kind := String

inductive Payload
  | delta (amount : Int64)
  | maximum (candidate : Int64)
  | insert (member : String)
  | assign (value : String)
  deriving DecidableEq

def Payload.shape : Payload → Shape
  | .delta _ => .counter
  | .maximum _ => .maximum
  | .insert _ => .set
  | .assign _ => .register

/-- A single change of state, addressed to one key. -/
structure Operation where
  key : Key
  kind : Kind
  payload : Payload
  deriving DecidableEq

/-- Operations that are submitted together, in order. -/
abbrev Transaction := List Operation

namespace Operation

def increment (key : Key) (amount : Int64) : Operation := ⟨key, "increment", .delta amount⟩

/-- A decrement is carried as the opposite delta. -/
def decrement (key : Key) (amount : Int64) : Operation := ⟨key, "decrement", .delta (-amount)⟩

def maximum (key : Key) (candidate : Int64) : Operation := ⟨key, "max", .maximum candidate⟩

def insert (key : Key) (member : String) : Operation := ⟨key, "insert", .insert member⟩

def overwrite (key : Key) (value : String) : Operation := ⟨key, "overwrite", .assign value⟩

def shape (op : Operation) : Shape := op.payload.shape

/-- The argument as it is shown: a delta always has its sign, a text stands in quotation marks. -/
def argument : Payload → String
  | .delta amount => (if 0 ≤ amount then "+" else "") ++ toString amount.toInt
  | .maximum candidate => toString candidate.toInt
  | .insert text | .assign text => Text.quote text

def describe (op : Operation) : String :=
  op.kind ++ "(" ++ op.key ++ ", " ++ argument op.payload ++ ")"

end Operation
end Confluence
