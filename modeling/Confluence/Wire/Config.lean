import Confluence.Cluster.Basic
import Confluence.Wire.Update
import Confluence.Workload.Run

namespace Confluence

namespace Duration

/-- A span of seconds and nanoseconds; the seconds with those that the nanoseconds make up have to
fit in 64 bits. -/
def ofParts? (seconds : UInt64) (nanoseconds : UInt32) : Option Duration :=
  let total := seconds.toNat * 1000000000 + nanoseconds.toNat
  if total < UInt64.size * 1000000000 then some ⟨total⟩ else none

/-- A span of time has exactly the fields `secs` and `nanos`. -/
def ofJson? (j : Json) : Option Duration := do
  match ← j.exactFields? ["secs", "nanos"] with
  | [some seconds, some nanoseconds] =>
    ofParts? (← seconds.uint64?) (← nanoseconds.uint32?)
  | _ => none

end Duration

def RetryConfig.ofJson? (j : Json) : Option RetryConfig := do
  let d := RetryConfig.default
  match ← j.options? ["max_retries", "initial_backoff", "max_backoff", "backoff_multiplier",
      "max_redirects"] with
  | [maxRetries, initialBackoff, maxBackoff, multiplier, maxRedirects] =>
    some ⟨← Json.orElse Json.uint32? d.maxRetries maxRetries,
      ← Json.orElse Duration.ofJson? d.initialBackoff initialBackoff,
      ← Json.orElse Duration.ofJson? d.maxBackoff maxBackoff,
      ← Json.orElse Json.float? d.multiplier multiplier,
      ← Json.orElse Json.uint32? d.maxRedirects maxRedirects⟩
  | _ => none

def NodeConfig.ofJson? (j : Json) : Option NodeConfig := do
  let d := NodeConfig.default
  match ← j.options? ["escalation", "retry"] with
  | [escalation, retry] =>
    some ⟨← Json.orElse EscalationPolicy.ofJson? d.escalation escalation,
      ← Json.orElse RetryConfig.ofJson? d.retry retry⟩
  | _ => none

def NetworkConfig.ofJson? (j : Json) : Option NetworkConfig := do
  let d := NetworkConfig.reliable
  match ← j.options? ["base_delay", "jitter", "dup_rate", "reorder_rate", "reorder_window"] with
  | [baseDelay, jitter, dupRate, reorderRate, reorderWindow] =>
    some ⟨← Json.orElse Json.uint64? d.baseDelay baseDelay,
      ← Json.orElse Json.uint64? d.jitter jitter,
      ← Json.orElse Json.float? d.dupRate dupRate,
      ← Json.orElse Json.float? d.reorderRate reorderRate,
      ← Json.orElse Json.uint64? d.reorderWindow reorderWindow⟩
  | _ => none

def ClusterConfig.ofJson? (j : Json) : Option ClusterConfig := do
  let d := ClusterConfig.default
  match ← j.options? ["nodes", "seed", "network", "node", "max_steps", "timeout_ticks"] with
  | [nodes, seed, network, node, maxSteps, timeoutTicks] =>
    some ⟨← Json.orElse Json.count? d.nodes nodes,
      ← Json.orElse Json.uint64? d.seed seed,
      ← Json.orElse NetworkConfig.ofJson? d.network network,
      ← Json.orElse NodeConfig.ofJson? d.node node,
      ← Json.orElse Json.count? d.maxSteps maxSteps,
      ← Json.orElse Json.uint64? d.timeoutTicks timeoutTicks⟩
  | _ => none

def WorkloadConfig.ofJson? (j : Json) : Option WorkloadConfig := do
  let d := WorkloadConfig.default
  match ← j.options? ["nodes", "transactions", "max_ops_per_transaction", "generic_rate", "keys",
      "batch", "seed", "network"] with
  | [nodes, transactions, maxOperations, genericRate, keys, batch, seed, network] =>
    some ⟨← Json.orElse Json.count? d.nodes nodes,
      ← Json.orElse Json.count? d.transactions transactions,
      ← Json.orElse Json.count? d.maxOperations maxOperations,
      ← Json.orElse Json.float? d.genericRate genericRate,
      ← Json.orElse Json.count? d.keys keys,
      ← Json.orElse Json.count? d.batch batch,
      ← Json.orElse Json.uint64? d.seed seed,
      ← Json.orElse NetworkConfig.ofJson? d.network network⟩
  | _ => none

end Confluence
