import DataService.Basemap.History
import DataService.Lib.Coroutine

/-! `BasemapScraperService._scrape_provider` and what it calls, as a coroutine of
the event loop. A database call is one await; a cancelled or failed write may or
may not have reached the file. Progress log lines are left out. -/

namespace DataService

open Coroutine Coro

/-- The answer to an await of the sweep: the call returned, a query returned its
rows, or an exception is thrown into the coroutine. -/
inductive Reply where
  | ok
  | rows (l : List Tile)
  | raised (e : ScrapeExn) (landed : Bool)
  deriving DecidableEq, Repr

abbrev Code := Coro World Reply ScrapeExn

def look {α : Type} (f : World → α) : Code α := act fun w => (f w, w)

def modify (f : World → World) : Code Unit := act fun w => ((), f w)

/-- Await something that only takes time. -/
def pause : Code Unit :=
  call fun w r =>
    match r with
    | .ok => some (.ok (), w)
    | .raised e _ => some (.error e, w)
    | .rows _ => none

def query {α : Type} (f : ProviderRows → α) : Code α :=
  call fun w r =>
    match r with
    | .ok => some (.ok (f w.rows), w)
    | .raised e _ => some (.error e, w)
    | .rows _ => none

def commit (f : World → World) : Code Unit :=
  call fun w r =>
    match r with
    | .ok => some (.ok (), f w)
    | .raised e landed => some (.error e, if landed then f w else w)
    | .rows _ => none

namespace World

def setRows (w : World) (f : ProviderRows → ProviderRows) : World := { w with rows := f w.rows }

def record (w : World) (e : Event) : World := { w with log := e :: w.log }

def setCursor (c : Cursor) (w : World) : World := w.setRows ({ · with cursor := some c })

def clearCursor (w : World) : World := w.setRows ({ · with cursor := none })

def addFailed (t : Tile) (w : World) : World :=
  if t ∈ w.rows.failed then w
  else (w.setRows fun r => { r with failed := r.failed.add t }).record (.queued t)

def removeFailed (t : Tile) (w : World) : World :=
  w.setRows fun r => { r with failed := r.failed.remove t }

def clearFailed (zoom : Nat) (w : World) : World :=
  w.setRows fun r => { r with failed := r.failed.clearZoom zoom }

def clearFailedForProvider (w : World) : World := w.setRows ({ · with failed := .empty })

def setLastCompleted (timestamp : Nat) (w : World) : World :=
  w.setRows ({ · with lastCompleted := some timestamp })

def openCircuit (trips cooldownUntil : Nat) (reason : Option TripReason) (w : World) : World :=
  w.setRows ({ · with health := some ⟨trips, cooldownUntil, w.shared.wall, reason⟩ })

def closeCircuit (w : World) : World := (w.setRows ({ · with health := none })).record .closed

def setScrapeStats (attempted ok failed : Nat) (completed : Bool) (w : World) : World :=
  w.setRows ({ · with stats := some ⟨attempted, ok, failed, completed, w.shared.wall⟩ })

def setShared (w : World) (sh : Shared) : World := { w with shared := sh }

def setSweep (w : World) (s : SweepState) : World := { w with mem := { w.mem with sweep := s } }

def setProgress (w : World) (p : SweepProgress) : World :=
  { w with mem := { w.mem with progress := p } }

def setTasks (w : World) (tasks : List TileTask) (done : List DoneTile) : World :=
  { w with mem := { w.mem with tasks := tasks, done := done } }

end World

/-- `list_failed`: the rows of one zoom, in whatever order the database has them. -/
def listFailed (zoom : Nat) : Code (List Tile) :=
  call fun w r =>
    match r with
    | .rows l => if l.isPerm (w.rows.failed.atZoom zoom) then some (.ok l, w) else none
    | .raised e _ => some (.error e, w)
    | .ok => none

def createTasks (tiles : List (Nat × Tile)) : Code Unit :=
  modify fun w => w.setTasks (tiles.map fun (idx, tile) => ⟨idx, tile, .created⟩) []

/-- The next finished task in the order of completion, or its exception. -/
def nextCompleted : Code (Nat × Tile × TileOutcome) :=
  call fun w r =>
    match r, w.mem.done with
    | .ok, d :: done =>
      match d.result with
      | .ok o => some (.ok (d.idx, d.tile, o), w.setTasks w.mem.tasks done)
      | .error e => some (.error e, w.setTasks w.mem.tasks done)
    | .raised e _, _ => some (.error e, w)
    | _, _ => none

/-- Cancel the tasks still running and wait for them to end. -/
def cancelPending : Code Unit := do
  let pending ← look fun w => !w.mem.tasks.isEmpty
  modify fun w => w.setTasks [] []
  if pending then pause else pure ()

/-- `await self._download_and_store(..)`: the awaited coroutine is cancelled with its
caller, as a task of its own is here. -/
def awaitDownload (t : Tile) : Code TileOutcome :=
  (do
    createTasks [(0, t)]
    let (_, _, outcome) ← nextCompleted
    pure outcome).tryFinally cancelPending

def stopped : Code Bool := look (·.mem.sweep.stopped)

def updateSweepState (cfg : ScrapeConfig) (outcome : TileOutcome) (t : Tile) : Code Unit :=
  modify fun w =>
    w.setSweep (w.mem.sweep.update cfg.settings w.shared.s3Circuit.exhausted outcome t)

/-- A retried tile leaves the failed table when it was stored. -/
def dequeueIfOk (outcome : TileOutcome) (t : Tile) : Code Unit :=
  if outcome = .ok then commit (World.removeFailed t) else pure ()

def retryEach (cfg : ScrapeConfig) : List Tile → Nat → Nat → Code (Nat × Nat)
  | [], ok, failed => pure (ok, failed)
  | t :: ts, ok, failed => do
    let outcome ← awaitDownload t
    updateSweepState cfg outcome t
    dequeueIfOk outcome t
    let ok := if outcome = .ok then ok + 1 else ok
    let failed := if outcome = .ok then failed else failed + 1
    if ← stopped then pure (ok, failed) else retryEach cfg ts ok failed

def retryFailedTiles (cfg : ScrapeConfig) (zoom : Nat) : Code (Nat × Nat) := do
  let failedTiles ← listFailed zoom
  retryEach cfg failedTiles 0 0

/-- `_advance_watermark` -/
def advanceWatermark (cfg : ScrapeConfig) (zoom idx : Nat) : Code Unit := do
  let p ← look (·.mem.progress)
  let now ← look (·.shared.mono)
  let frontier := p.frontier.advance idx
  let advanced := frontier.mark - p.lastFlushed
  if (cfg.settings.checkpointEvery ≤ advanced ∨
      cfg.settings.checkpointMillis ≤ now - p.lastFlushTime) ∧ 0 < advanced then
    commit (World.setCursor ⟨zoom, frontier.mark⟩)
    modify fun w => w.setProgress
      { w.mem.progress with
        frontier := frontier, lastFlushed := frontier.mark, lastFlushTime := w.shared.mono }
  else
    modify fun w => w.setProgress { w.mem.progress with frontier := frontier }

/-- Whether a tile has a failed row, or an OK or MISSING answer since the sweep was
started with no cursor. -/
def accountedFor (w : World) (t : Tile) : Bool :=
  decide (t ∈ w.rows.failed) ||
    (sweepEvents w.log).any fun e => e = .outcome t .ok || e = .outcome t .missing

/-- The part of `_handle_completion` that queues a tile which was not stored. -/
def queueUnlessSkipped (outcome : TileOutcome) (t : Tile) : Code Unit :=
  if outcome = .ok then pure ()
  else if outcome = .storageSkipped then
    modify fun w => w.record (.passedOver t (accountedFor w t))
  else commit (World.addFailed t)

def handleCompletion (cfg : ScrapeConfig) (zoom idx : Nat) (t : Tile) (outcome : TileOutcome) :
    Code Unit := do
  updateSweepState cfg outcome t
  modify fun w => w.setProgress
    { w.mem.progress with
      ok := w.mem.progress.ok + if outcome = .ok then 1 else 0
      failed := w.mem.progress.failed + if outcome = .ok then 0 else 1 }
  queueUnlessSkipped outcome t
  advanceWatermark cfg zoom idx

/-- Collect `n` completions, or stop at the one that trips or abandons the sweep. -/
def drainChunk (cfg : ScrapeConfig) (zoom : Nat) : Nat → Code Unit
  | 0 => pure ()
  | n + 1 => do
    let (idx, t, outcome) ← nextCompleted
    handleCompletion cfg zoom idx t outcome
    if ← stopped then pure () else drainChunk cfg zoom n

def chunkTiles (coords : List Tile) (chunkStart chunkEnd : Nat) : List (Nat × Tile) :=
  (List.range' chunkStart (chunkEnd - chunkStart)).filterMap fun idx =>
    coords[idx]?.map fun t => (idx, t)

def sweepChunk (cfg : ScrapeConfig) (zoom : Nat) (tiles : List (Nat × Tile)) : Code Unit := do
  createTasks tiles
  (drainChunk cfg zoom tiles.length).tryFinally cancelPending

/-- `_await_storage_cooldown`: sleep until the circuit admits a probe. The loop of the
source wakes and sleeps again while time remains; here it stays asleep. -/
def awaitStorageCooldown : Code Unit := do
  let remaining ← look fun w => w.shared.s3Circuit.cooldownRemaining w.shared.mono
  if remaining = 0 then pure ()
  else
    call fun w r =>
      match r with
      | .ok =>
        if w.shared.s3Circuit.cooldownRemaining w.shared.mono = 0 then some (.ok (), w) else none
      | .raised e _ => some (.error e, w)
      | .rows _ => none

def sweepChunks (cfg : ScrapeConfig) (zoom : Nat) (coords : List Tile) : List Nat → Code Unit
  | [] => pure ()
  | chunkStart :: starts => do
    awaitStorageCooldown
    if ← look (·.mem.sweep.storageAbandoned) then pure ()
    else
      let chunkEnd := min (chunkStart + cfg.settings.fanoutWindow) coords.length
      sweepChunk cfg zoom (chunkTiles coords chunkStart chunkEnd)
      if ← stopped then pure () else sweepChunks cfg zoom coords starts

/-- `range(resume_index, total, fanout_window)` -/
def chunkStarts (resumeIndex total window : Nat) : List Nat :=
  List.range' resumeIndex ((total - resumeIndex + window - 1) / window) window

/-- The `finally` block of `_run_indexed_sweep`. -/
def checkpoint (zoom total : Nat) : Code Unit := do
  let watermark ← look (·.mem.progress.frontier.mark)
  if total ≤ watermark then commit (World.setCursor ⟨zoom + 1, 0⟩)
  else commit (World.setCursor ⟨zoom, watermark⟩)

/-- A `range` with step 0 raises, inside the `try`. -/
def runIndexedSweep (cfg : ScrapeConfig) (zoom : Nat) (coords : List Tile) (resumeIndex : Nat) :
    Code (Nat × Nat) :=
  if coords.length ≤ resumeIndex then do
    commit (World.setCursor ⟨zoom + 1, 0⟩)
    pure (0, 0)
  else do
    modify fun w => w.setProgress (.start resumeIndex w.shared.mono)
    (if cfg.settings.fanoutWindow = 0 then raise .valueError
      else sweepChunks cfg zoom coords
        (chunkStarts resumeIndex coords.length cfg.settings.fanoutWindow)).tryFinally
      (checkpoint zoom coords.length)
    let p ← look (·.mem.progress)
    pure (p.ok, p.failed)

/-- End-of-zoom cleanup, when no failed row of the zoom remains. -/
def clearIfDrained (zoom : Nat) (remaining : List Tile) : Code Unit :=
  if remaining = [] then commit (World.clearFailed zoom) else pure ()

def scrapeZoom (cfg : ScrapeConfig) (zoom resumeIndex : Nat) : Code (Nat × Nat) := do
  let (retryOk, retryFailed) ← retryFailedTiles cfg zoom
  if ← stopped then pure (retryOk, retryFailed)
  else
    let (sweepOk, sweepFailed) ←
      runIndexedSweep cfg zoom (iterTiles zoom cfg.bbox) resumeIndex
    let remaining ← listFailed zoom
    clearIfDrained zoom remaining
    pure (retryOk + sweepOk, retryFailed + sweepFailed)

def scrapeZooms (cfg : ScrapeConfig) (start : Cursor) : List Nat → Nat → Nat → Code (Nat × Nat)
  | [], downloaded, failed => pure (downloaded, failed)
  | zoom :: zooms, downloaded, failed => do
    let (zoomOk, zoomFailed) ←
      scrapeZoom cfg zoom (if zoom = start.zoom then start.tileIndex else 0)
    if ← stopped then pure (downloaded + zoomOk, failed + zoomFailed)
    else scrapeZooms cfg start zooms (downloaded + zoomOk) (failed + zoomFailed)

def computeCooldown (schedule : List Nat) (consecutiveTrips : Nat) : Nat :=
  schedule.getD (min (consecutiveTrips - 1) (schedule.length - 1)) 300

def recordSweepStats (downloaded failed : Nat) (completed : Bool) : Code Unit :=
  commit (World.setScrapeStats (downloaded + failed) downloaded failed completed)

/-- A trip keeps the cursor and the failed rows; only a cycle that stored nothing
escalates the cooldown. -/
def finishTripped (cfg : ScrapeConfig) (health : Option ProviderHealth) (downloaded failed : Nat) :
    Code Unit := do
  modify (World.record · .tripped)
  let priorTrips := (health.map (·.consecutiveTrips)).getD 0
  let trips := if 0 < downloaded then 1 else priorTrips + 1
  let now ← look (·.shared.wall)
  let reason ← look (·.mem.sweep.lastReason)
  commit (World.openCircuit trips (now + computeCooldown cfg.settings.cooldownSchedule trips) reason)
  recordSweepStats downloaded failed false

def finishAbandonedSweep (downloaded failed : Nat) : Code Unit := do
  modify fun w => (w.record .abandoned).setShared
    { w.shared with storageRetryDue := true, storageDownThisCycle := true }
  recordSweepStats downloaded failed false

/-- The sweep ran to its end but storage failed for some tile. -/
def finishIncomplete (downloaded failed : Nat) : Code Unit := do
  commit World.clearCursor
  modify fun w => w.setShared { w.shared with storageRetryDue := true }
  recordSweepStats downloaded failed false

def finishCompleted (downloaded failed : Nat) : Code Unit := do
  commit World.clearCursor
  commit World.clearFailedForProvider
  modify (World.record · .stamped)
  let now ← look (·.shared.wall)
  commit (World.setLastCompleted now)
  commit World.closeCircuit
  recordSweepStats downloaded failed true

/-- The four verdicts on a sweep, in the order in which the source tests them. -/
def finishSweep (cfg : ScrapeConfig) (health : Option ProviderHealth) (downloaded failed : Nat) :
    Code Unit := do
  let sweep ← look (·.mem.sweep)
  if sweep.tripped then finishTripped cfg health downloaded failed
  else if sweep.storageAbandoned then finishAbandonedSweep downloaded failed
  else if 0 < sweep.storageErrors then finishIncomplete downloaded failed
  else finishCompleted downloaded failed

/-- The gate on `last_completed`, read only when there is no cursor. -/
def notDue (cfg : ScrapeConfig) (cursor : Option Cursor) (now : Nat) : Code Bool :=
  match cursor with
  | some _ => pure false
  | none => do
    let lastCompleted ← query (·.lastCompleted)
    pure (lastCompleted.any fun last => decide (now < last + cfg.settings.scrapeInterval))

def sweepProvider (cfg : ScrapeConfig) (health : Option ProviderHealth) (cursor : Option Cursor) :
    Code (Nat × Nat) := do
  modify fun w => (w.record (.cycleStart cursor w.rows.failed.rows)).setSweep .new
  let start := cursor.getD ⟨cfg.provider.minZoom, 0⟩
  let (downloaded, failed) ←
    scrapeZooms cfg start (List.range' start.zoom (cfg.maxZoom + 1 - start.zoom)) 0 0
  finishSweep cfg health downloaded failed
  pure (downloaded, failed)

def scrapeProvider (cfg : ScrapeConfig) : Code (Nat × Nat) := do
  if ← look (·.shared.storageDownThisCycle) then pure (0, 0)
  else
    let now ← look (·.shared.wall)
    let health ← query (·.health)
    if health.any fun h => decide (now < h.cooldownUntil) then pure (0, 0)
    else
      let cursor ← query (·.cursor)
      if ← notDue cfg cursor now then pure (0, 0) else sweepProvider cfg health cursor

end DataService
