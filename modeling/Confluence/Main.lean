import Confluence.Json.Bytes
import Confluence.Wire.Config
import Confluence.Workload.Report

namespace Confluence.CommandLine

def printLines (lines : List String) : IO Unit := lines.forM fun line => IO.println line

def readConfig : List String → IO WorkloadConfig
  | [] => pure .default
  | path :: _ => do
    match (Json.parse? (← IO.FS.readFile path)).bind WorkloadConfig.ofJson? with
    | some w => pure w
    | none => throw (IO.userError "the configuration cannot be read")

/-- A seed that nobody can foresee. -/
def freshSeed : IO UInt64 := do
  let bytes ← IO.getRandomBytes 8
  pure (bytes.toList.foldl (fun s b => s <<< 8 ||| b.toUInt64) 0)

def runPolicy (w : WorkloadConfig) (ids : IdSupply) (policy : EscalationPolicy) :
    IO (WorkloadStats × IdSupply) := do
  printLines (Report.banner w policy)
  let start ← IO.monoNanosNow
  match Workload.run w policy ids with
  | .ok (s, ids) =>
    let finish ← IO.monoNanosNow
    printLines (Report.table s ⟨finish - start⟩)
    pure (s, ids)
  | .error fault => throw (IO.userError fault.message)

end Confluence.CommandLine

open Confluence CommandLine in
def main (arguments : List String) : IO Unit := do
  let w ← readConfig arguments
  printLines Report.title
  let (all, _) ← Report.policies.foldlM (fun (all, ids) policy => do
    let (s, ids) ← runPolicy w ids policy
    pure (all ++ [s], ids)) ([], IdSupply.ofSeed (← freshSeed))
  printLines (Report.summary all)
