import Confluence.Fault
import Confluence.Ordered
import Confluence.Random
import Confluence.VectorClock

namespace Confluence

/-- Delays in ticks, and the probabilities of copies and of late messages. -/
structure NetworkConfig where
  baseDelay : UInt64
  jitter : UInt64
  dupRate : Float
  reorderRate : Float
  reorderWindow : UInt64

namespace NetworkConfig

/-- Messages arrive in order after a fixed delay. -/
def reliable : NetworkConfig := ⟨1, 0, 0, 0, 8⟩

/-- Some messages are delivered twice. -/
def duplicating (rate : Float) : NetworkConfig := { reliable with dupRate := rate }

/-- Some messages are held back. -/
def reordering (rate : Float) : NetworkConfig :=
  { reliable with jitter := 3, reorderRate := rate }

/-- All faults at once. -/
def chaotic : NetworkConfig := ⟨1, 5, 0.2, 0.3, 20⟩

end NetworkConfig

/-- Whether a link works, and when it will if it does not. -/
inductive LinkState
  | opened
  | cutUntil (tick : UInt64)
  | cut
  deriving DecidableEq

def LinkState.isCutAt : LinkState → UInt64 → Bool
  | .opened, _ => false
  | .cutUntil tick, now => now < tick
  | .cut, _ => true

/-- The state of a link that is cut for two reasons. -/
def LinkState.meet : LinkState → LinkState → LinkState
  | .opened, s => s
  | s, .opened => s
  | .cutUntil a, .cutUntil b => .cutUntil (if a ≤ b then b else a)
  | _, _ => .cut

/-- A set of nodes cut off from all others, possibly only until a tick. -/
structure Partition where
  side : OrderedSet NodeId
  healsAt : Option UInt64
  deriving DecidableEq

namespace Partition

def cuts (p : Partition) (a b : NodeId) : Bool := p.side.contains a != p.side.contains b

def linkState (p : Partition) (a b : NodeId) : LinkState :=
  if p.cuts a b then
    match p.healsAt with
    | some tick => .cutUntil tick
    | none => .cut
  else .opened

def isHealedBy (p : Partition) (now : UInt64) : Bool :=
  match p.healsAt with
  | some tick => tick ≤ now
  | none => false

end Partition

structure Envelope (μ : Type) where
  source : NodeId
  target : NodeId
  message : μ
  deriving DecidableEq

/-- When a message is due, and its number among all messages scheduled. -/
structure Due where
  tick : UInt64
  sequence : Nat
  deriving DecidableEq

namespace Due

instance : Ord Due := ⟨compareLex (compareOn Due.tick) (compareOn Due.sequence)⟩

instance : Std.TransOrd Due :=
  inferInstanceAs (Std.TransCmp (compareLex (compareOn Due.tick) (compareOn Due.sequence)))

instance : Std.LawfulEqOrd Due where
  eq_of_compare {a b} h := by
    obtain ⟨h, h'⟩ := compareLex_eq_eq.1 h
    have h : compare a.tick b.tick = .eq := h
    have h := Std.LawfulEqCmp.eq_of_compare h
    have h' := Nat.compare_eq_eq.1 h'
    cases a
    cases b
    cases h
    cases h'
    rfl

end Due

structure NetworkStats where
  sent : Nat
  delivered : Nat
  duplicated : Nat
  reordered : Nat
  parked : Nat
  deriving DecidableEq

/-- A network: the messages scheduled and parked, the delays of single links, the latest first, and
the partitions in force. Messages come out in the order of the ticks at which they are due, and one
whose link is cut is parked until a partition heals; none is ever lost. -/
structure Network (μ : Type) where
  config : NetworkConfig
  random : Generator
  now : UInt64
  nextSequence : Nat
  queue : OrderedMap Due (Envelope μ)
  parked : List (Envelope μ)
  linkDelays : List (NodeId × NodeId × UInt64)
  partitions : List Partition
  stats : NetworkStats

namespace Network
variable {μ : Type}

def new (config : NetworkConfig) (seed : UInt64) : Network μ :=
  ⟨config, .ofSeed seed, 0, 0, .empty, [], [], [], ⟨0, 0, 0, 0, 0⟩⟩

def inFlight (net : Network μ) : Nat := net.queue.size

def isQuiescent (net : Network μ) : Bool := net.queue.isEmpty && net.parked.isEmpty

def setLinkDelay (net : Network μ) (source target : NodeId) (delay : UInt64) : Network μ :=
  { net with linkDelays := (source, target, delay) :: net.linkDelays }

def linkDelay (net : Network μ) (source target : NodeId) : UInt64 :=
  match net.linkDelays.find? fun d => d.1 = source && d.2.1 = target with
  | some (_, _, delay) => delay
  | none => net.config.baseDelay

def isCut (net : Network μ) (a b : NodeId) : Bool := net.partitions.any (·.cuts a b)

/-- When, if ever, the link between two nodes opens again. -/
def linkState (net : Network μ) (a b : NodeId) : LinkState :=
  net.partitions.foldl (fun s p => s.meet (p.linkState a b)) .opened

/-- Counts a message as parked and keeps it until its link opens. -/
def park (net : Network μ) (e : Envelope μ) : Network μ :=
  { net with
    parked := net.parked ++ [e]
    stats := { net.stats with parked := net.stats.parked + 1 } }

/-- A random part of the delay, up to `jitter`. -/
def drawJitter (config : NetworkConfig) (g : Generator) : UInt64 × Generator :=
  if 0 < config.jitter then g.upTo64 config.jitter else (0, g)

def drawChance (rate : Float) (g : Generator) : Bool × Generator :=
  if 0 < rate then
    let (u, g) := g.unit
    (u < rate, g)
  else (false, g)

/-- The additional delay of a message that is held back, if this one is. -/
def drawHold (config : NetworkConfig) (g : Generator) : Option UInt64 × Generator :=
  let (late, g) := drawChance config.reorderRate g
  if late then
    let (n, g) := g.upTo64 (if config.reorderWindow = 0 then 0 else config.reorderWindow - 1)
    (some (n + 1), g)
  else (none, g)

/-- The tick at which a message sent now over a link of the given delay is due, whether it is held
back, and the generator afterwards. -/
def drawDue (net : Network μ) (delay : UInt64) : Except Fault (UInt64 × Bool × Generator) := do
  let (jitter, g) := drawJitter net.config net.random
  let delay ← checkedAdd delay jitter
  let (hold, g) := drawHold net.config g
  let delay ← checkedAdd delay (hold.getD 0)
  let tick ← checkedAdd net.now delay
  pure (tick, hold.isSome, g)

def schedule (net : Network μ) (e : Envelope μ) : Except Fault (Network μ) :=
  (net.drawDue (net.linkDelay e.source e.target)).map fun (tick, late, random) =>
    { net with
      random
      nextSequence := net.nextSequence + 1
      queue := net.queue.insert ⟨tick, net.nextSequence⟩ e
      stats := { net.stats with reordered := net.stats.reordered + if late then 1 else 0 } }

/-- Schedules a parked message if its link is open, and parks it again if not. -/
def release (net : Network μ) (e : Envelope μ) : Except Fault (Network μ) :=
  if net.isCut e.source e.target then .ok { net with parked := net.parked ++ [e] }
  else net.schedule e

def releaseAll (net : Network μ) : Except Fault (Network μ) :=
  net.parked.foldlM release { net with parked := [] }

/-- Removes the partitions whose time is over, and releases what they held. -/
def healExpired (net : Network μ) : Except Fault (Network μ) :=
  let kept := net.partitions.filter fun p => !p.isHealedBy net.now
  if kept.length = net.partitions.length then .ok net
  else { net with partitions := kept }.releaseAll

def healAll (net : Network μ) : Except Fault (Network μ) :=
  if net.partitions.isEmpty then .ok net else { net with partitions := [] }.releaseAll

/-- Cuts the nodes of one side off from all others, for a number of ticks or for good. -/
def cutOff (net : Network μ) (side : List NodeId) (duration : Option UInt64) :
    Except Fault (Network μ) := do
  let healsAt ← duration.mapM (checkedAdd net.now)
  pure { net with partitions := net.partitions ++ [⟨.ofList side, healsAt⟩] }

def advance (net : Network μ) (ticks : UInt64) : Except Fault (Network μ) := do
  let now ← checkedAdd net.now ticks
  { net with now }.healExpired

/-- Sends a message; a message over a cut link is parked, and an unlucky one is sent twice. -/
def send (net : Network μ) (source target : NodeId) (message : μ) : Except Fault (Network μ) :=
  let net := { net with stats := { net.stats with sent := net.stats.sent + 1 } }
  let e : Envelope μ := ⟨source, target, message⟩
  if net.isCut source target then .ok (net.park e)
  else
    let (twice, random) := drawChance net.config.dupRate net.random
    let net := { net with random }
    if twice then do
      let net ← { net with
        stats := { net.stats with duplicated := net.stats.duplicated + 1 } }.schedule e
      net.schedule e
    else net.schedule e

end Network
end Confluence
