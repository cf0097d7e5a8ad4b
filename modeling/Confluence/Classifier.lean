import Confluence.Operation
import Confluence.Ordered

namespace Confluence

structure KindSpec where
  shape : Shape
  signature : Signature
  deriving DecidableEq

/-- An operation with the signature it was classified by. -/
structure ClassifiedOperation where
  operation : Operation
  signature : Signature
  deriving DecidableEq

def ClassifiedOperation.key (c : ClassifiedOperation) : Key := c.operation.key

inductive ClassifierError
  | inadmissible (kind : Kind) (shape : Shape) (declared natural : Signature)
  | conflicting (kind : Kind) (existing requested : KindSpec)
  deriving DecidableEq

def KindSpec.title (spec : KindSpec) : String := spec.signature.title ++ "/" ++ spec.shape.title

def ClassifierError.message : ClassifierError → String
  | .inadmissible kind shape declared natural =>
    "kind " ++ kind ++ " cannot be declared " ++ declared.title ++ ": " ++ shape.title ++
      " payloads are at most " ++ natural.title
  | .conflicting kind existing requested =>
    "kind " ++ kind ++ " is already registered as " ++ existing.title ++ ", refusing " ++
      requested.title

/-- The table of operation kinds. Classification depends on it alone, so nodes with the same table agree
without asking each other; a kind that it does not cover is generic. -/
structure Classifier where
  table : OrderedMap Kind KindSpec
  deriving DecidableEq

namespace Classifier

def empty : Classifier := ⟨.empty⟩

/-- The table with the usual kinds: counters add, maxima and sets join, registers are overwritten. -/
def standard : Classifier := ⟨.ofList [
  ("increment", ⟨.counter, .abelian⟩),
  ("decrement", ⟨.counter, .abelian⟩),
  ("max", ⟨.maximum, .semilattice⟩),
  ("insert", ⟨.set, .semilattice⟩),
  ("overwrite", ⟨.register, .generic⟩)]⟩

def lookup (c : Classifier) (kind : Kind) : Option KindSpec := c.table.find? kind

/-- Registers a kind. A kind keeps its first entry, so a second registration has to repeat it. -/
def register (c : Classifier) (kind : Kind) (shape : Shape) (signature : Signature) :
    Except ClassifierError Classifier :=
  if !signature.admissibleFor shape then
    .error (.inadmissible kind shape signature (.naturalFor shape))
  else
    match c.lookup kind with
    | some existing =>
      if existing = ⟨shape, signature⟩ then .ok c
      else .error (.conflicting kind existing ⟨shape, signature⟩)
    | none => .ok ⟨c.table.insert kind ⟨shape, signature⟩⟩

def ofList (specs : List (Kind × KindSpec)) : Except ClassifierError Classifier :=
  specs.foldlM (fun c (kind, spec) => c.register kind spec.shape spec.signature) empty

def classify (c : Classifier) (kind : Kind) : Signature :=
  ((c.lookup kind).map KindSpec.signature).getD .generic

/-- The signature of an operation: generic unless its payload writes the registered shape. -/
def classifyOperation (c : Classifier) (op : Operation) : Signature :=
  match c.lookup op.kind with
  | some spec => if spec.shape = op.shape then spec.signature else .generic
  | none => .generic

def annotate (c : Classifier) (op : Operation) : ClassifiedOperation := ⟨op, c.classifyOperation op⟩

end Classifier
end Confluence
