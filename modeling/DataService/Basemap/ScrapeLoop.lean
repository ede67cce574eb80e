import DataService.Basemap.Fleet

/-! `_sync_loop` around the cycles of the basemap scraper: a cycle, the computation of the
next sleep from the state file, and the sleep. Times are milliseconds of the monotonic
clock; the wall clock counts seconds. -/

namespace DataService

open Coroutine Coro

/-- The loader returns the enabled providers in a dictionary with their ids as keys. -/
structure LoopConfig where
  fleet : FleetConfig
  providersNodup : (fleet.providers.map (·.providerId)).Nodup

/-- What the loop reads between two cycles. -/
structure LoopView where
  shared : Shared
  files : Nat → ProviderFile

def FleetState.view (s : FleetState) : LoopView := ⟨s.shared, s.files⟩

abbrev LoopCode := Coro LoopView Reply ScrapeExn

/-- A query of the state store for one provider. -/
def ask {α : Type} (p : BasemapProvider) (f : ProviderRows → α) : LoopCode α :=
  call fun v r =>
    match r with
    | .ok => some (.ok (f (v.files p.providerId).rows), v)
    | .raised e _ => some (.error e, v)
    | .rows _ => none

def storageRetryFloor : Nat := 60000

def cooldownRemaining (health : Option ProviderHealth) (now : Nat) : Nat :=
  (health.map fun h => h.cooldownUntil - now).getD 0

/-- A provider that was never scraped is due now. -/
def remainingUntilDue (interval : Nat) (last : Option Nat) (now : Nat) : Nat :=
  (last.map fun l => l + interval - now).getD 0

def nextSleepOver (interval now : Nat) :
    List BasemapProvider → (soonest : Nat) → (anyReady : Bool) → LoopCode Nat
  | [], soonest, anyReady => pure (if anyReady then 0 else max 60000 soonest)
  | p :: ps, soonest, anyReady => do
    let health ← ask p (·.health)
    if 0 < cooldownRemaining health now then
      nextSleepOver interval now ps (min soonest (1000 * cooldownRemaining health now)) anyReady
    else
      let cursor ← ask p (·.cursor)
      if cursor.isSome then nextSleepOver interval now ps soonest true
      else
        let last ← ask p (·.lastCompleted)
        if remainingUntilDue interval last now = 0 then nextSleepOver interval now ps soonest true
        else
          nextSleepOver interval now ps
            (min soonest (1000 * remainingUntilDue interval last now)) anyReady

/-- `_compute_next_sleep` -/
def computeNextSleep (cfg : LoopConfig) (default : Nat) : LoopCode Nat := do
  let retryDue ← act fun v => (v.shared.storageRetryDue, v)
  if retryDue then pure storageRetryFloor
  else
    let now ← act fun v => (v.shared.wall, v)
    nextSleepOver cfg.fleet.settings.scrapeInterval now cfg.fleet.providers default false

/-- Where the task of the loop stands. While it is in `_run_sync`, `escaped` is the first
exception of a group; `ended` when the task is over. -/
inductive LoopPhase where
  | scraping (startedAt : Nat) (escaped : Option ScrapeExn)
  | computing (code : LoopCode Nat)
  | sleeping (wake : Nat)
  | ended

/-- What statements about the loop say of its last cycle; no part of the service. -/
structure CycleRecord where
  before : Nat → ProviderFile
  after : Nat → ProviderFile
  endedAt : Nat

structure LoopState where
  fleet : FleetState
  phase : LoopPhase
  record : Option CycleRecord

inductive LoopAction where
  /-- the sleep is over and the loop calls `_run_sync` -/
  | begin
  /-- something happens in the process; killed, it is started again -/
  | fleet (a : FleetAction)
  /-- `_run_sync` returns or raises, and the loop goes on -/
  | conclude
  /-- the await of `_compute_next_sleep` is answered -/
  | answer (r : Reply)
  /-- the loop is cancelled in its sleep -/
  | cancel

/-- The exception that leaves a group for which `_run_sync` waits, in this step. -/
def FleetState.escaped (cfg : FleetConfig) (s : FleetState) : FleetAction → Option ScrapeExn
  | .scrape j =>
    match s.groups[j]? with
    | some ⟨p :: _, none, true⟩ =>
      ((scrapeProvider (cfg.scrapeConfig p)).settle (s.world p .new)).1.exception
    | _ => none
  | .resume j r =>
    s.groups[j]?.bind fun g => g.sweep.bind fun sweep =>
      if g.awaited then
        (sweep.code.answer (s.world sweep.provider sweep.mem) r).bind (·.1.exception)
      else none
  | _ => none

/-- The providers that a `_scrape_provider` is at work on. -/
def FleetState.sweeping (s : FleetState) : List Nat :=
  s.groups.filterMap fun g => g.sweep.map (·.provider.providerId)

def LoopPhase.note : LoopPhase → Option ScrapeExn → LoopPhase
  | .scraping startedAt none, e => .scraping startedAt e
  | phase, _ => phase

namespace LoopState

/-- A process that has just been started over a state file. -/
def boot (mono wall : Nat) (redisWritesEnabled : Bool) (rows : Nat → ProviderRows) : LoopState :=
  ⟨.boot mono wall redisWritesEnabled rows, .sleeping mono, none⟩

/-- Where the loop stands when `_compute_next_sleep` has run to its next await; nobody
catches its exceptions. -/
def arriveAt (s : LoopState) (out : LoopCode Nat × LoopView) : LoopState :=
  match out.1 with
  | .ret sleep => { s with phase := .sleeping (s.fleet.shared.mono + sleep) }
  | .raise _ => { s with phase := .ended }
  | code => { s with phase := .computing code }

/-- The loop breaks at a CancelledError and goes on after any other exception. -/
def conclude (cfg : LoopConfig) (s : LoopState) (startedAt : Nat) (escaped : Option ScrapeExn) :
    LoopState :=
  if escaped = some .cancelled then { s with phase := .ended }
  else
    s.arriveAt ((computeNextSleep cfg
      (1000 * cfg.fleet.settings.scrapeInterval - (s.fleet.shared.mono - startedAt))).settle
        s.fleet.view)

end LoopState

def loopStep (cfg : LoopConfig) (s : LoopState) : LoopAction → Option LoopState
  | .begin =>
    match s.phase with
    | .sleeping wake =>
      if wake ≤ s.fleet.shared.mono then
        (fleetStep cfg.fleet s.fleet .begin).map fun fleet =>
          ⟨fleet, .scraping s.fleet.shared.mono none,
            some ⟨s.fleet.files, s.fleet.files, s.fleet.shared.mono⟩⟩
      else none
    | _ => none
  | .fleet .begin => none
  | .fleet .kill =>
    (fleetStep cfg.fleet s.fleet .kill).map fun fleet =>
      ⟨fleet, .sleeping fleet.shared.mono, none⟩
  | .fleet (.clocks mono wall) =>
    if s.fleet.shared.mono ≤ mono then
      (fleetStep cfg.fleet s.fleet (.clocks mono wall)).map fun fleet => { s with fleet := fleet }
    else none
  | .fleet a =>
    (fleetStep cfg.fleet s.fleet a).map fun fleet =>
      { s with fleet := fleet, phase := s.phase.note (s.fleet.escaped cfg.fleet a) }
  | .conclude =>
    match s.phase with
    | .scraping startedAt escaped =>
      if s.fleet.running then none
      else
        some (LoopState.conclude cfg
          { s with
            record := s.record.map fun r =>
              { r with after := s.fleet.files, endedAt := s.fleet.shared.mono } }
          startedAt escaped)
    | _ => none
  | .answer r =>
    match s.phase with
    | .computing code => (code.answer s.fleet.view r).map s.arriveAt
    | _ => none
  | .cancel =>
    match s.phase with
    | .sleeping _ => some { s with phase := .ended }
    | _ => none

end DataService
