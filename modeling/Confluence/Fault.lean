namespace Confluence

/-- One line of the report on a cluster whose nodes disagree. -/
structure NodeSummary where
  node : String
  digest : String
  slots : UInt64
  retained : Nat

/-- Why a computation stopped without a result. -/
inductive Fault
  | overflow
  | noSuchIndex (length index : Nat)
  | diverged (nodes : List NodeSummary)

def NodeSummary.message (s : NodeSummary) : String :=
  s.node ++ ": digest " ++ s.digest ++ " slots " ++ toString s.slots ++ " retained " ++
    toString s.retained

def Fault.message : Fault → String
  | .overflow => "attempt to add with overflow"
  | .noSuchIndex length index =>
    "index out of bounds: the len is " ++ toString length ++ " but the index is " ++ toString index
  | .diverged nodes =>
    "cluster did not converge:\n  " ++ "\n  ".intercalate (nodes.map NodeSummary.message)

/-- The sum of two counters, which has to be a counter too. -/
def checkedAdd (a b : UInt64) : Except Fault UInt64 :=
  if a.toNat + b.toNat < UInt64.size then .ok (a + b) else .error .overflow

end Confluence
