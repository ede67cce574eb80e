import DataService.Basemap.StateStore
import DataService.Lib.Frontier

/-! What a sweep of one provider reads and writes: its settings, the memory it
shares with the sweeps of other providers, its own memory with the tile tasks in
flight, and its rows. The log of events is no part of the service; statements
about the past of a run read it, newest event first. -/

namespace DataService

structure ScraperSettings where
  cacheMaxZoom : Nat
  scrapeInterval : Nat
  checkpointEvery : Nat
  checkpointMillis : Nat
  fanoutWindow : Nat
  errorRateThreshold : Ratio
  errorRateMinSamples : Nat
  errorRateWindow : Nat
  cooldownSchedule : List Nat
  minSamples_pos : 1 ≤ errorRateMinSamples
  minSamples_le_window : errorRateMinSamples ≤ errorRateWindow

structure BasemapProvider where
  providerId : Nat
  host : Nat
  minZoom : Nat
  cacheMaxZoom : Nat
  deriving DecidableEq, Repr

structure ScrapeConfig where
  settings : ScraperSettings
  provider : BasemapProvider
  bbox : BoundingBox

def ScrapeConfig.maxZoom (cfg : ScrapeConfig) : Nat :=
  min cfg.provider.cacheMaxZoom cfg.settings.cacheMaxZoom

inductive TileOutcome where
  | ok
  | missing
  | unavailable
  | storageError
  | storageSkipped
  deriving DecidableEq, Repr

/-- The bytes arrived or were never asked for, but nothing was stored. -/
def TileOutcome.isStorageFailure : TileOutcome → Bool
  | storageError | storageSkipped => true
  | _ => false

/-- The exceptions that matter to who catches what; `unlisted` is any other one. -/
inductive ScrapeExn where
  | cancelled
  | redisError
  | operationalError
  | valueError
  | unlisted
  deriving DecidableEq, Repr

/-- `_ProviderSweepState` -/
structure SweepState where
  attempted : Nat
  failed : Nat
  tripped : Bool
  storageAbandoned : Bool
  lastReason : Option TripReason
  failureSamples : List Tile
  storageErrors : Nat
  recent : List Bool
  deriving DecidableEq, Repr

namespace SweepState

def new : SweepState := ⟨0, 0, false, false, none, [], 0, []⟩

def stopped (s : SweepState) : Bool := s.tripped || s.storageAbandoned

/-- Count one definitive fetch, newest last in the rolling window. -/
def observe (cfg : ScraperSettings) (s : SweepState) (isFailure : Bool) (t : Tile) : SweepState :=
  { s with
    attempted := s.attempted + 1
    failed := if isFailure then s.failed + 1 else s.failed
    failureSamples :=
      if isFailure ∧ s.failureSamples.length < 3 then s.failureSamples ++ [t]
      else s.failureSamples
    recent :=
      if cfg.errorRateWindow < (s.recent ++ [isFailure]).length then
        (s.recent ++ [isFailure]).drop 1
      else s.recent ++ [isFailure] }

def judge (cfg : ScraperSettings) (s : SweepState) : SweepState :=
  if !s.tripped && decide (cfg.errorRateMinSamples ≤ s.recent.length) &&
      cfg.errorRateThreshold.exceededBy (s.recent.count true) s.recent.length then
    { s with
      tripped := true
      lastReason := some ⟨s.recent.count true, s.recent.length, s.failureSamples⟩ }
  else s

/-- `_update_sweep_state` -/
def update (cfg : ScraperSettings) (s3Exhausted : Bool) (s : SweepState) (outcome : TileOutcome)
    (t : Tile) : SweepState :=
  match outcome with
  | .missing => s
  | .storageError | .storageSkipped =>
    { s with
      storageErrors := s.storageErrors + 1
      storageAbandoned := s.storageAbandoned || s3Exhausted }
  | .ok => (s.observe cfg false t).judge cfg
  | .unavailable => (s.observe cfg true t).judge cfg

@[simp] theorem judge_storageErrors (cfg : ScraperSettings) (s : SweepState) :
    (s.judge cfg).storageErrors = s.storageErrors := by
  unfold judge
  split_ifs <;> rfl

theorem update_storageErrors (cfg : ScraperSettings) (ex : Bool) (s : SweepState)
    (o : TileOutcome) (t : Tile) :
    (s.update cfg ex o t).storageErrors =
      s.storageErrors + if o.isStorageFailure then 1 else 0 := by
  cases o <;> simp [update, observe, TileOutcome.isStorageFailure]

end SweepState

/-- `_SweepProgress`, without what only the progress log lines read. The watermark
and `done_above` are the frontier. -/
structure SweepProgress where
  frontier : Frontier
  lastFlushed : Nat
  lastFlushTime : Nat
  ok : Nat
  failed : Nat

def SweepProgress.start (resumeIndex now : Nat) : SweepProgress :=
  ⟨.start resumeIndex, resumeIndex, now, 0, 0⟩

/-- Where a running `_download_and_store` waits. `warming` holds whether a Redis
write was issued. -/
inductive TileStage where
  | created
  | fetching
  | uploading
  | warming (issued : Bool)
  deriving DecidableEq, Repr

structure TileTask where
  idx : Nat
  tile : Tile
  stage : TileStage
  deriving DecidableEq, Repr

structure DoneTile where
  idx : Nat
  tile : Tile
  result : Except ScrapeExn TileOutcome

/-- Memory of the process that all sweeps share, with its two clocks: `mono` in
milliseconds, `wall` in seconds. -/
structure Shared where
  mono : Nat
  wall : Nat
  s3Circuit : StorageCircuit
  redisCircuit : StorageCircuit
  redisWritesEnabled : Bool
  storageRetryDue : Bool
  storageDownThisCycle : Bool

/-- A new process: circuits closed, flags down. -/
def Shared.boot (mono wall : Nat) (redisWritesEnabled : Bool) : Shared :=
  { mono := mono, wall := wall, s3Circuit := .new .default, redisCircuit := .new .default,
    redisWritesEnabled := redisWritesEnabled, storageRetryDue := false,
    storageDownThisCycle := false }

/-- Memory of one running `_scrape_provider`. `done` holds finished tile tasks that
nobody has collected, in the order in which they finished. -/
structure Memory where
  sweep : SweepState
  progress : SweepProgress
  tasks : List TileTask
  done : List DoneTile

def Memory.new : Memory := ⟨.new, .start 0 0, [], []⟩

inductive Event where
  /-- a cycle got past its gates, with this cursor row and these failed rows -/
  | cycleStart (cursor : Option Cursor) (queue : List Tile)
  | attempt (t : Tile)
  | fetch (t : Tile)
  | stored (t : Tile)
  | outcome (t : Tile) (o : TileOutcome)
  | redisRaised
  /-- a row entered the failed table -/
  | queued (t : Tile)
  /-- a skipped tile was counted as done; `known` when it had a failed row or an
  OK or MISSING answer since the sweep began -/
  | passedOver (t : Tile) (known : Bool)
  | tripped
  | abandoned
  /-- `set_last_completed` is called -/
  | stamped
  /-- the health row is deleted -/
  | closed
  deriving DecidableEq, Repr

structure World where
  shared : Shared
  mem : Memory
  rows : ProviderRows
  log : List Event

/-- The reply of the tile host: retries exhausted, 404 or 403 or no bytes, or bytes. -/
inductive HttpReply where
  | unavailable
  | nothing
  | bytes
  deriving DecidableEq, Repr

/-- How the two Redis commands of a tile ended: with an exception that
`_write_through_redis` lists, or with a redis-py error, which it does not. -/
inductive RedisReply where
  | ok
  | listed
  | redisError
  deriving DecidableEq, Repr

inductive TileReply where
  | start
  | http (r : HttpReply)
  | s3 (ok : Bool)
  | redis (r : RedisReply)
  | raised (e : ScrapeExn)
  deriving DecidableEq, Repr

/-- How far one step brings a tile task. -/
inductive TileProgress where
  | waits (stage : TileStage)
  | returns (o : TileOutcome)
  | raises (e : ScrapeExn)
  deriving DecidableEq, Repr

namespace Shared

/-- `_persist_to_s3`, when the upload was answered. -/
def persistToS3 (sh : Shared) (uploaded : Bool) : Shared :=
  { sh with
    s3Circuit :=
      if uploaded then (sh.s3Circuit.recordSuccess sh.mono).1
      else (sh.s3Circuit.recordFailure sh.mono).1 }

/-- Whether `_write_through_redis` issues its commands. -/
def writesRedis (sh : Shared) : Bool :=
  sh.redisWritesEnabled && sh.redisCircuit.allowsWrite sh.mono

/-- `_write_through_redis`, when its commands were answered. -/
def writeThroughRedis (sh : Shared) (issued : Bool) (r : RedisReply) : Shared × TileProgress :=
  if issued then
    match r with
    | .ok =>
      ({ sh with redisCircuit := (sh.redisCircuit.recordSuccess sh.mono).1 }, .returns .ok)
    | .listed =>
      ({ sh with redisCircuit := (sh.redisCircuit.recordFailure sh.mono).1 }, .returns .ok)
    | .redisError => (sh, .raises .redisError)
  else (sh, .returns .ok)

/-- `_download_and_store`, from one await to the next. -/
def downloadAndStore (sh : Shared) : TileStage → TileReply → Option (Shared × TileProgress)
  | .created, .start =>
    if sh.s3Circuit.allowsWrite sh.mono then some (sh, .waits .fetching)
    else some (sh, .returns .storageSkipped)
  | .fetching, .http .unavailable => some (sh, .returns .unavailable)
  | .fetching, .http .nothing => some (sh, .returns .missing)
  | .fetching, .http .bytes => some (sh, .waits .uploading)
  | .uploading, .s3 true =>
    some (sh.persistToS3 true, .waits (.warming (sh.persistToS3 true).writesRedis))
  | .uploading, .s3 false => some (sh.persistToS3 false, .returns .storageError)
  | .warming issued, .redis r => some (sh.writeThroughRedis issued r)
  | .fetching, .raised e | .uploading, .raised e => some (sh, .raises e)
  | _, _ => none

end Shared

/-- What the log records of a step of the tile task, newest first. -/
def tileEvents (t : Tile) : TileStage → TileProgress → List Event
  | .created, .returns o => [.outcome t o, .attempt t]
  | .created, _ => [.fetch t, .attempt t]
  | .warming _, .raises _ => [.redisRaised]
  | _, .waits (.warming _) => [.stored t]
  | _, .returns o => [.outcome t o]
  | _, _ => []

def Memory.move (m : Memory) (i : Nat) (task : TileTask) : TileProgress → Memory
  | .waits stage => { m with tasks := m.tasks.set i { task with stage := stage } }
  | .returns o =>
    { m with tasks := m.tasks.eraseIdx i, done := m.done ++ [⟨task.idx, task.tile, .ok o⟩] }
  | .raises e =>
    { m with tasks := m.tasks.eraseIdx i, done := m.done ++ [⟨task.idx, task.tile, .error e⟩] }

/-- The `i`th tile task in flight is answered and runs to its next await. -/
def World.tileStep (w : World) (i : Nat) (r : TileReply) : Option World :=
  w.mem.tasks[i]?.bind fun task =>
    (w.shared.downloadAndStore task.stage r).map fun (sh, p) =>
      { w with
        shared := sh
        mem := w.mem.move i task p
        log := tileEvents task.tile task.stage p ++ w.log }

end DataService
