import DataService.Basemap.Tiles

/-! The exponential-backoff gate around a storage backend. Times are ticks of one
millisecond of the monotonic clock, a deadline of 0 stands for a closed circuit,
and failure rates are compared as exact ratios. -/

namespace DataService

/-- A rate threshold. -/
structure Ratio where
  num : Nat
  den : Nat
  den_pos : 0 < den

theorem tenths_pos : 0 < 10 := by decide

/-- `part / whole > r` -/
def Ratio.exceededBy (r : Ratio) (part whole : Nat) : Bool :=
  decide (r.num * whole < part * r.den)

structure CircuitSettings where
  window : Nat
  minSamples : Nat
  threshold : Ratio
  baseCooldown : Nat
  maxCooldown : Nat
  maxConsecutiveTrips : Nat

/-- The keyword defaults of the constructor. -/
def CircuitSettings.default : CircuitSettings :=
  { window := 20, minSamples := 10, threshold := ⟨8, 10, tenths_pos⟩, baseCooldown := 1000,
    maxCooldown := 30000, maxConsecutiveTrips := 6 }

inductive CircuitTransition where
  | opened (cooldown failures : Nat)
  | probeFailed (cooldown failures : Nat)
  | recovered (failures downtime : Nat)
  deriving DecidableEq, Repr

structure StorageCircuit where
  settings : CircuitSettings
  recent : List Bool
  openUntil : Nat
  cooldown : Nat
  consecutiveTrips : Nat
  failuresWhileOpen : Nat
  openedAt : Nat

namespace StorageCircuit

def new (settings : CircuitSettings) : StorageCircuit :=
  ⟨settings, [], 0, settings.baseCooldown, 0, 0, 0⟩

def isOpen (c : StorageCircuit) : Bool := decide (0 < c.openUntil)

def exhausted (c : StorageCircuit) : Bool :=
  decide (c.settings.maxConsecutiveTrips ≤ c.consecutiveTrips)

def cooldownRemaining (c : StorageCircuit) (now : Nat) : Nat :=
  if c.isOpen then c.openUntil - now else 0

def inProbeWindow (c : StorageCircuit) (now : Nat) : Bool :=
  c.isOpen && decide (c.openUntil ≤ now)

def allowsWrite (c : StorageCircuit) (now : Nat) : Bool := !c.isOpen || c.inProbeWindow now

/-- Fold one closed-circuit outcome into the rolling window, newest last. -/
def observe (c : StorageCircuit) (failed : Bool) : StorageCircuit :=
  { c with
    recent :=
      if c.settings.window < (c.recent ++ [failed]).length then (c.recent ++ [failed]).drop 1
      else c.recent ++ [failed] }

def shouldOpen (c : StorageCircuit) : Bool :=
  decide (c.settings.minSamples ≤ c.recent.length) &&
    c.settings.threshold.exceededBy (c.recent.count true) c.recent.length

def trip (c : StorageCircuit) (now : Nat) : StorageCircuit × CircuitTransition :=
  ({ c with
     cooldown := c.settings.baseCooldown
     openUntil := now + c.settings.baseCooldown
     openedAt := now
     consecutiveTrips := 0
     failuresWhileOpen := c.recent.count true
     recent := [] },
    .opened c.settings.baseCooldown (c.recent.count true))

def rearm (c : StorageCircuit) (now : Nat) : StorageCircuit × CircuitTransition :=
  let cooldown := min (c.cooldown * 2) c.settings.maxCooldown
  ({ c with
     consecutiveTrips := c.consecutiveTrips + 1
     cooldown := cooldown
     openUntil := now + cooldown },
    .probeFailed cooldown c.failuresWhileOpen)

def close (c : StorageCircuit) (now : Nat) : StorageCircuit × CircuitTransition :=
  (new c.settings, .recovered c.failuresWhileOpen (now - c.openedAt))

def recordSuccess (c : StorageCircuit) (now : Nat) : StorageCircuit × Option CircuitTransition :=
  if c.isOpen then
    if c.inProbeWindow now then ((c.close now).1, some (c.close now).2) else (c, none)
  else (c.observe false, none)

/-- Only a failure inside the probe window moves the backoff schedule on; one
reported outside it is counted and nothing else. -/
def recordFailure (c : StorageCircuit) (now : Nat) : StorageCircuit × Option CircuitTransition :=
  let c := { c with failuresWhileOpen := c.failuresWhileOpen + 1 }
  if c.isOpen then
    if c.inProbeWindow now then ((c.rearm now).1, some (c.rearm now).2) else (c, none)
  else
    let c := c.observe true
    if c.shouldOpen then ((c.trip now).1, some (c.trip now).2) else (c, none)

end StorageCircuit

end DataService
