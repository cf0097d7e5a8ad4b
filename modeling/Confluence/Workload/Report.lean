import Confluence.Text
import Confluence.Workload.Run

namespace Confluence.Decimal

/-- A quotient rounded to the nearest number; a half goes to the even one. -/
def roundDiv (numerator denominator : Nat) : Nat :=
  let quotient := numerator / denominator
  let twice := 2 * (numerator % denominator)
  if twice < denominator then quotient
  else if denominator < twice then quotient + 1
  else quotient + quotient % 2

/-- The number of fractions that go with one exponent. -/
def fractions : Nat := Nat.pow 2 52

/-- The bits of a number: whether it is negative, its exponent and its fraction. -/
def fields (x : Float) : Bool × Nat × Nat :=
  let bits := x.toBits.toNat
  (bits.testBit 63, bits / fractions % 2048, bits % fractions)

/-- The magnitude of a finite number in units of the last decimal. The magnitude itself is the
significand times `2 ^ (weight - 1075)`. -/
def scaled (places exponent fraction : Nat) : Nat :=
  let significand := if exponent = 0 then fraction else fraction + fractions
  let weight := max exponent 1
  roundDiv (significand * Nat.pow 10 places * Nat.pow 2 weight) (Nat.pow 2 1075)

def point (places n : Nat) : List Char :=
  let digits := Nat.toDigits 10 n
  let digits := List.replicate (places + 1 - digits.length) '0' ++ digits
  digits.take (digits.length - places) ++ '.' :: digits.drop (digits.length - places)

def fixed (places : Nat) (x : Float) : String :=
  let (negative, exponent, fraction) := fields x
  if exponent = 2047 then
    if fraction ≠ 0 then "NaN" else if negative then "-inf" else "inf"
  else
    let digits := point places (scaled places exponent fraction)
    String.ofList (if negative then '-' :: digits else digits)

end Confluence.Decimal

namespace Confluence

def EscalationPolicy.title : EscalationPolicy → String
  | .keyWide => "KeyWide"
  | .conflictingPairs => "ConflictingPairs"

def Duration.seconds (d : Duration) : Float :=
  d.parts.1.toFloat + d.parts.2.toFloat / 1000000000

namespace Report

/-- A horizontal line of a box between two corners. -/
def rule (left right : Char) : String := (left.toString.pushn '═' 60).push right

def top : String := rule '╔' '╗'

def middle : String := rule '╠' '╣'

def bottom : String := rule '╚' '╝'

def heading (column : Nat) (text : String) : String :=
  "║" ++ Text.alignLeft 60 ("".pushn ' ' column ++ text) ++ "║"

/-- A line of a table, with a label on the left and a value on the right. -/
def row (label value : String) : String :=
  "║" ++ Text.alignLeft 29 ("  " ++ label ++ ":") ++ Text.alignRight 30 value ++ " ║"

def title : List String :=
  ["", "", top, heading 12 "ESCALATION POLICY COMPARISON", bottom]

def banner (w : WorkloadConfig) (policy : EscalationPolicy) : List String :=
  ["", top,
    "║        Lift Workload (" ++ policy.title ++ ")",
    "║  Nodes: " ++ toString w.nodes ++ " | Transactions: " ++ toString w.transactions ++
      " | Generic rate: " ++ Decimal.fixed 2 w.genericRate,
    bottom]

/-- What is printed after a run that took some time. -/
def table (s : WorkloadStats) (time : Duration) : List String :=
  ["", top, heading 14 "Workload Statistics", middle,
    row "Escalation Policy" s.policy.title,
    row "Nodes" (toString s.nodes),
    row "Transactions" (toString s.transactions),
    row "Operations" (toString s.operations),
    row "Lifting Fraction" (Decimal.fixed 3 s.liftingFraction),
    row "Consensus Proposals" (toString s.proposals),
    row "Failed Proposals" (toString s.failed),
    row "Gossip Deliveries" (toString s.deliveries),
    row "Duplicates Dropped" (toString s.duplicates),
    row "Updates Collected" (toString s.collected),
    row "Total Time" (Decimal.fixed 3 time.seconds ++ "s"),
    row "Converged" (if s.isConverged then "yes" else "NO"),
    bottom]

def comparison (s : WorkloadStats) : String :=
  "  " ++ Text.alignLeft 18 s.policy.title ++ " L = " ++ Decimal.fixed 3 s.liftingFraction ++
    "  converged: " ++ (if s.isConverged then "true" else "false")

def summary (all : List WorkloadStats) : List String :=
  "" :: all.map comparison ++ ["",
    if all.all (·.isConverged) then "✓ All workloads converged"
    else "✗ Divergence detected, rerun with RUST_LOG=debug"]

def policies : List EscalationPolicy := [.keyWide, .conflictingPairs]

def runAll (w : WorkloadConfig) (ids : IdSupply) : Except Fault (List WorkloadStats × IdSupply) :=
  policies.foldlM (fun (all, ids) policy =>
    (Workload.run w policy ids).map fun (s, ids) => (all ++ [s], ids)) ([], ids)

/-- The whole report on runs of which each took the same time. -/
def lines (w : WorkloadConfig) (all : List WorkloadStats) (time : Duration) : List String :=
  title ++ all.flatMap (fun s => banner w s.policy ++ table s time) ++ summary all

end Report
end Confluence
