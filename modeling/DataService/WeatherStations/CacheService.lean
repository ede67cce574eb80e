import DataService.Lib.StepSystem
import DataService.WeatherStations.CacheWorld

/-! The read service of the weather stations, the cycle of the scraper, and the runs of
both: any number of requests and write-backs beside one cycle. -/

namespace DataService.WeatherCache

open Coroutine Coro HourBuckets Raising Series UtcDateTime

variable {ρ π : Type} (cfg : CacheConfig ρ π)

/-- A cached value of another shape is no hit. -/
def asSnapshot : Option (Sourced (CacheValue ρ π)) → Option (Sourced (Body ρ))
  | some ⟨.snapshot body, origin⟩ => some ⟨body, origin⟩
  | _ => none

def asEntries : Option (Sourced (CacheValue ρ π)) → Option (Sourced (List TilesetEntry))
  | some ⟨.entries l, origin⟩ => some ⟨l, origin⟩
  | _ => none

def asPoints : Option (Sourced (CacheValue ρ π)) → Option (Sourced (List (Point π)))
  | some ⟨.points l, origin⟩ => some ⟨l, origin⟩
  | _ => none

theorem asSnapshot_some {cached : Option (Sourced (CacheValue ρ π))} {body : Sourced (Body ρ)}
    (h : asSnapshot cached = some body) : cached = some (body.map .snapshot) := by
  unfold asSnapshot at h
  split at h
  · cases h
    rfl
  · cases h

theorem asEntries_some {cached : Option (Sourced (CacheValue ρ π))}
    {l : Sourced (List TilesetEntry)} (h : asEntries cached = some l) :
    cached = some (l.map .entries) := by
  unfold asEntries at h
  split at h
  · cases h
    rfl
  · cases h

theorem asPoints_some {cached : Option (Sourced (CacheValue ρ π))} {l : Sourced (List (Point π))}
    (h : asPoints cached = some l) : cached = some (l.map .points) := by
  unfold asPoints at h
  split at h
  · cases h
    rfl
  · cases h

def asBody : Option (Sourced (S3Object ρ)) → Option (Sourced (Body ρ))
  | some ⟨.snapshot body, origin⟩ => some ⟨body, origin⟩
  | _ => none

theorem asBody_some {object : Option (Sourced (S3Object ρ))} {body : Sourced (Body ρ)}
    (h : asBody object = some body) : object = some (body.map .snapshot) := by
  unfold asBody at h
  split at h
  · cases h
    rfl
  · cases h

/-- `_read_station_count` -/
def stationCountOf : Option (Sourced (S3Object ρ)) → Int
  | some ⟨.info stationCount, _⟩ => stationCount
  | _ => 0

/-- The awaits of a gather, one after another. -/
def gatherEach {α β : Type} (f : α → Code ρ π β) : List α → Code ρ π (List β)
  | [] => pure []
  | a :: l => do
    let b ← f a
    let bs ← gatherEach f l
    pure (b :: bs)

section Reader

/-- `_cached_list`, which looks again when it has the lock. -/
def cachedList (worker : Nat) (p : S3Key) : Code ρ π (Sourced (List S3Key)) := do
  match ← look (World.freshKeys · worker p) with
  | some keys => pure keys
  | none => do
    acquireListLock worker
    tryFinally (do
      match ← look (World.freshKeys · worker p) with
      | some keys => pure keys
      | none => do
        let keys ← listObjectKeys .reader p
        update (World.rememberKeys · cfg.listCacheTtl worker p keys)
        pure keys) (releaseListLock worker)

/-- `_get_cached_object` and `_get_snapshot_body` -/
def getCachedObject (cacheKey : CacheKey) (key : S3Key) : Code ρ π (Option (Sourced (Body ρ))) := do
  let cached ← cacheGet cfg cacheKey
  match asSnapshot cached with
  | some body => pure (some body)
  | none => do
    let object ← downloadTile key
    match asBody object with
    | none => pure none
    | some body => do
      cacheSetBg cfg cacheKey (body.map .snapshot)
      pure (some body)

def getLatestSnapshot : Code ρ π (Option (Sourced (Body ρ))) :=
  getCachedObject cfg .latest latestObject

/-- The `.meta.json` objects that a listing has to read. -/
def representativeKeys (keys : List S3Key) : List S3Key :=
  (latestSnapshotPerBucket cfg.digits fun _ => keys).map (·.2.2)

def readStationCount (key : S3Key) : Code ρ π (S3Key × Int) := do
  let object ← downloadTile (snapshotMetaKey key)
  pure (key, stationCountOf object)

/-- `compute_tilesets_entries`, behind its LIST. -/
def computeEntries (keys : Sourced (List S3Key)) : Code ρ π (Sourced (List TilesetEntry)) := do
  let counts ← gatherEach readStationCount (representativeKeys cfg keys.value)
  pure (keys.map fun l =>
    computeTilesetsEntries cfg.digits (fun key => (counts.lookup key).getD 0) fun _ => l)

def listTilesets (worker : Nat) : Code ρ π (Sourced (List TilesetEntry)) := do
  let cached ← cacheGet cfg .tilesets
  match asEntries cached with
  | some entries => pure entries
  | none => do
    let keys ← cachedList cfg worker snapshotsPrefix
    let entries ← computeEntries cfg keys
    cacheSetBg cfg .tilesets (entries.map .entries)
    pure entries

def getSnapshotBody (key : S3Key) : Code ρ π (Option (Sourced (Body ρ))) :=
  getCachedObject cfg (.snapBody key) key

/-- The series of a station over the bodies that could be read. -/
def seriesOf (stationId : Int) (bodies : List (Option (Sourced (Body ρ)))) :
    Except PyError (List (Point π)) :=
  cfg.code.extractStationSeries ((bodies.filterMap id).map fun b => b.value.stations) stationId

def stationSeriesPoints (worker : Nat) (stationId : Int) (hours : Nat) :
    Code ρ π (Sourced (List (Point π))) := do
  let cached ← cacheGet cfg (.series stationId)
  match asPoints cached with
  | some points => pure points
  | none => do
    let keys ← cachedList cfg worker snapshotsPrefix
    let bodies ← gatherEach (getSnapshotBody cfg)
      (recentSnapshotKeys cfg.digits (fun _ => keys.value) hours)
    match seriesOf cfg stationId bodies with
    | .error _ => raise .error
    | .ok points => do
      cacheSetBg cfg (.series stationId) ⟨.points points, keys.origin⟩
      pure ⟨points, keys.origin⟩

def listUnder (worker : Nat) (p : S3Key) : Code ρ π (S3Key × List S3Key) := do
  let keys ← cachedList cfg worker p
  pure (p, keys.value)

/-- `get_snapshot_for_tileset`; an id or an hour out of range raises. -/
def getSnapshotForTileset (worker : Nat) (tilesetId : List Char) :
    Code ρ π (Option (Sourced (Body ρ))) :=
  match parseTilesetId cfg.digits tilesetId with
  | none => raise .error
  | some target =>
    match dayPrefixesCovering target target with
    | none => raise .error
    | some prefixes => do
      let listed ← gatherEach (listUnder cfg worker) prefixes
      match resolveBucketSnapshotKey cfg.digits (fun p => (listed.lookup p).getD []) target with
      | none => raise .error
      | some none => pure none
      | some (some key) => getSnapshotBody cfg key

end Reader

section Scraper

/-- `_upload_snapshot`; latest.json comes last. -/
def uploadSnapshot (body : Body ρ) : Code ρ π Unit := do
  uploadTile (snapshotKey body.scrapedAt) (.snapshot body)
  uploadTile (snapshotMetaKey (snapshotKey body.scrapedAt)) (.info body.stations.length)
  uploadTile latestObject (.snapshot body)

/-- `_warm_observation_cache`; the snapshot in hand is the one that S3 has. -/
def warmObservationCache (body : Body ρ) : Code ρ π Unit :=
  if cfg.cacheEnabled then do
    let moment ← look (·.history.moment)
    redisSet cfg .latest ⟨.snapshot body, ⟨moment, false⟩⟩
    let entries ← catchException (do
      let keys ← listObjectKeys .tilesetsWarmUp snapshotsPrefix
      let entries ← computeEntries cfg keys
      pure (some entries)) (pure none)
    match entries with
    | none => pure ()
    | some entries => redisSet cfg .tilesets (entries.map .entries)
  else pure ()

/-- The bodies below the keys, of which the first ones are cached. -/
def warmBodies : Nat → List S3Key → Code ρ π (List (Body ρ))
  | _, [] => pure []
  | index, key :: keys => do
    let object ← catchException (downloadTile key) (pure none)
    match asBody object with
    | none => warmBodies (index + 1) keys
    | some body => do
      if index < cfg.animationWarmBuckets then redisSet cfg (.snapBody key) (body.map .snapshot)
      else pure ()
      let bodies ← warmBodies (index + 1) keys
      pure (body.value :: bodies)

def warmEach (origin : Origin) : List (Int × List (Point π)) → Code ρ π Unit
  | [] => pure ()
  | p :: series => do
    redisSet cfg (.series p.1) ⟨.points p.2, origin⟩
    warmEach origin series

/-- `_warm_station_series` -/
def warmStationSeries (origin : Origin) (bodies : List (Body ρ)) : Code ρ π Unit :=
  if cfg.cacheEnabled = false ∨ cfg.seriesHours = 0 ∨ bodies.isEmpty then pure ()
  else
    match cfg.code.pivotStationSeries ((bodies.take cfg.seriesHours).map (·.stations)) with
    | .error _ => raise .error
    | .ok series => warmEach cfg origin series

def warmWindow : Nat := max cfg.animationWarmBuckets cfg.seriesHours

/-- `_warm_recent_snapshot_bodies` -/
def warmRecentSnapshotBodies : Code ρ π Unit :=
  if cfg.cacheEnabled = false ∨ warmWindow cfg = 0 then pure ()
  else do
    let listed ← catchException (do
      let keys ← listObjectKeys .recentWarmUp snapshotsPrefix
      pure (some keys)) (pure none)
    match listed with
    | none => pure ()
    | some keys => do
      let bodies ← warmBodies cfg 0
        (recentSnapshotKeys cfg.digits (fun _ => keys.value) (warmWindow cfg))
      warmStationSeries cfg keys.origin bodies

/-- `_run_sync`, from the observations on. -/
def runSync : Code ρ π Unit := do
  match ← fetchObservations with
  | none => pure ()
  | some stations => do
    let scrapedAt ← look (·.now)
    let uploaded ← catchException (do
      uploadSnapshot ⟨scrapedAt, stations⟩
      pure true) (pure false)
    if uploaded then do
      warmObservationCache cfg ⟨scrapedAt, stations⟩
      warmRecentSnapshotBodies cfg
    else pure ()

end Scraper

inductive ReadRequest where
  | latest
  | tilesets
  | series (stationId : Int) (hours : Nat)
  | tileset (tilesetId : List Char)
  deriving DecidableEq

inductive Answer (ρ π : Type) where
  | snapshot (body : Option (Sourced (Body ρ)))
  | entries (l : Sourced (List TilesetEntry))
  | points (l : Sourced (List (Point π)))

def serve (worker : Nat) : ReadRequest → Code ρ π (Answer ρ π)
  | .latest => do
    let body ← getLatestSnapshot cfg
    pure (.snapshot body)
  | .tilesets => do
    let entries ← listTilesets cfg worker
    pure (.entries entries)
  | .series stationId hours => do
    let points ← stationSeriesPoints cfg worker stationId hours
    pure (.points points)
  | .tileset tilesetId => do
    let body ← getSnapshotForTileset cfg worker tilesetId
    pure (.snapshot body)

/-- A request in progress, and the moment at which it came. -/
structure ReadTask (ρ π : Type) where
  request : ReadRequest
  arrived : Nat
  code : Code ρ π (Answer ρ π)

structure CacheState (ρ π : Type) where
  world : World ρ π
  tasks : List (ReadTask ρ π)
  cycle : Option (Code ρ π Unit)

inductive CacheAction (ρ : Type) where
  | arrive (worker : Nat) (request : ReadRequest)
  | resume (i : Nat) (r : Reply ρ)
  /-- a request that has its answer returns it -/
  | respond (i : Nat)
  | beginCycle
  | resumeCycle (r : Reply ρ)
  | writeBack (i : Nat) (landed : Bool)
  | expire (key : CacheKey)
  /-- the lifecycle rule deletes a snapshot -/
  | expireObject (key : S3Key)
  | tick (now : DateTime) (elapsed : Nat)
  /-- the web processes die and are started again -/
  | restart
  /-- the scraper's process dies -/
  | kill

namespace CacheState

def setTask (s : CacheState ρ π) (i : Nat) (task : ReadTask ρ π)
    (p : Code ρ π (Answer ρ π) × World ρ π) : CacheState ρ π :=
  { s with world := p.2, tasks := s.tasks.set i { task with code := p.1 } }

/-- The scraper's loop starts the next cycle when this one has ended. -/
def setCycle (s : CacheState ρ π) (p : Code ρ π Unit × World ρ π) : CacheState ρ π :=
  match p.1 with
  | .ret _ | .raise _ => { s with world := p.2, cycle := none }
  | c => { s with world := p.2, cycle := some c }

/-- A latest-snapshot request returns. -/
def record (s : CacheState ρ π) (task : ReadTask ρ π) (body : Sourced (Body ρ)) : CacheState ρ π :=
  { s with
    world :=
      { s.world with
        history := s.world.history.note
          (.returned ⟨task.arrived, body.origin.moment, body.value.scrapedAt.stamp⟩) } }

def respond (s : CacheState ρ π) (task : ReadTask ρ π) : Option (CacheState ρ π) :=
  match task.code with
  | .ret (.snapshot (some body)) =>
    some (if task.request = .latest then s.record task body else s)
  | .ret _ | .raise _ => some s
  | _ => none

end CacheState

def cacheStep (s : CacheState ρ π) : CacheAction ρ → Option (CacheState ρ π)
  | .arrive worker request =>
    some
      { s with
        world := ((serve cfg worker request).settle s.world).2
        tasks := s.tasks ++
          [⟨request, s.world.history.moment, ((serve cfg worker request).settle s.world).1⟩] }
  | .resume i r =>
    s.tasks[i]?.bind fun task => (task.code.answer s.world r).map (s.setTask i task)
  | .respond i =>
    s.tasks[i]?.bind fun task => ({ s with tasks := s.tasks.eraseIdx i }.respond task)
  | .beginCycle =>
    match s.cycle with
    | none => some (s.setCycle ((runSync cfg).settle s.world))
    | some _ => none
  | .resumeCycle r => s.cycle.bind fun c => (c.answer s.world r).map s.setCycle
  | .writeBack i landed =>
    s.world.writeBacks[i]?.map fun p =>
      { s with
        world :=
          { (if landed then s.world.setRedis p.1 p.2 else s.world) with
            writeBacks := s.world.writeBacks.eraseIdx i } }
  | .expire key => some { s with world := { s.world with redis := s.world.redis.erase key } }
  | .expireObject key =>
    if snapshotsPrefix <+: key then
      some { s with world := { s.world with bucket := s.world.bucket.erase key } }
    else none
  | .tick now elapsed =>
    some { s with world := { s.world with now := now, monotonic := s.world.monotonic + elapsed } }
  | .restart =>
    some { s with world := { s.world with listCache := ∅, listLocks := [], writeBacks := [] }, tasks := [] }
  | .kill => some { s with cycle := none }

/-- Nothing is cached and nothing was scraped. -/
def CacheState.boot (now : DateTime) : CacheState ρ π :=
  ⟨⟨now, 0, ∅, ∅, ∅, [], [], ⟨[], []⟩⟩, [], none⟩

section Example

/-- Redis is on, and only the latest snapshot and the tilesets are warmed up. -/
def bareConfig : CacheConfig Unit Unit where
  digits := .asciiOnly
  code := ⟨fun _ => .ok none, .ok⟩
  cacheEnabled := true
  listCacheTtl := 60000
  seriesHours := 0
  animationWarmBuckets := 0

def firstScrape : DateTime := ⟨2026, 5, 17, 12, 0, 0, by decide⟩

def replies (n : Nat) : List (CacheAction Unit) := List.replicate n (.resumeCycle .ok)

/-- A cycle up to the answer of its write-through of the latest snapshot. -/
def scrape : List (CacheAction Unit) :=
  [CacheAction.beginCycle, .resumeCycle (.observations [])] ++ replies 8

end Example

end DataService.WeatherCache
