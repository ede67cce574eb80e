import Mathlib.Data.List.Sort
import Mathlib.Data.String.Basic
import DataService.Lib.StepSystem
import DataService.Sync.Mirror

/-! One cycle of the satellite, radar, WRF and ECMWF total-precipitation loops, and the
runs of a loop: cycles, tile tasks, a clock, evictions, and cancellation at any await. -/

namespace DataService.Sync

open Coroutine Coro ExpiringStore

structure SyncConfig where
  names : NameCode
  satelliteChannels : List String
  satelliteTileTtl : Nat
  radarTileTtl : Nat
  ecmwfTileTtl : Nat
  ecmwfForecastsToKeep : Nat
  wrfTileTtl : Nat
  wrfGeojsonTtl : Nat
  wrfOverlayRecheckTtl : Nat
  wrfInitsToKeep : Nat

def sortAscending (l : List String) : List String := l.insertionSort (· ≤ ·)

def sortDescending (l : List String) : List String := l.insertionSort (· ≥ ·)

variable (cfg : SyncConfig)

section Satellite

def indexSatelliteTileset (channelDir tilesetId : String) (score : Nat) (w : World) : World :=
  (w.add (.satellite channelDir) tilesetId score).record
    (.indexed ⟨.satellite channelDir, tilesetId⟩)

/-- `add_satellite_tileset`: two commands. -/
def addSatelliteTileset (channelDir tilesetId : String) (score : Nat) : Code Unit := do
  command (indexSatelliteTileset channelDir tilesetId score)
  if cfg.satelliteTileTtl = 0 then pure ()
  else command (World.expire (.satellite channelDir) cfg.satelliteTileTtl)

def syncSatelliteTileset (now : Nat) (channelDir : String) (existing : List String)
    (tilesetId : String) : Code Unit :=
  if tilesetId ∈ existing then pure ()
  else do
    let downloaded ← syncUnitToRedis cfg.names ⟨.satellite channelDir, tilesetId⟩ cfg.satelliteTileTtl
    countDownloaded downloaded
    if 0 < downloaded then addSatelliteTileset cfg channelDir tilesetId now else pure ()

/-- Drop the members scored before `cutoff`. -/
def trimIndex (key : IndexKey) (cutoff : Int) : Code Unit :=
  command (World.keep key fun p => decide (cutoff ≤ p.2))

def syncSatellitePrefix (now : Nat) (channelDir : String) : Code Unit := do
  let tilesets ← listNames
  let existing ← readMembers (.satellite channelDir)
  forEach (syncSatelliteTileset cfg now channelDir existing) (sortAscending tilesets)
  trimIndex (.satellite channelDir) (now - cfg.satelliteTileTtl)

/-- Each prefix has its own `except`; the errors are counted. -/
def syncSatellitePrefixes (now : Nat) : List String → Nat → Code Nat
  | [], errors => pure errors
  | channelDir :: channels, errors => do
    let failed ← catchException (do
      syncSatellitePrefix cfg now channelDir
      pure false) (pure true)
    syncSatellitePrefixes now channels (if failed then errors + 1 else errors)

end Satellite

section Radar

def addRadarIndex (network radarId variableId elevationId tilesetId : String) (score ttl : Nat)
    (w : World) : World :=
  ((((w.addFor (.radars network) radarId 0 ttl).addFor
    (.radarVariables network radarId) variableId 0 ttl).addFor
    (.radarElevations network radarId variableId) elevationId 0 ttl).addFor
    (.radarTilesets network radarId variableId elevationId) tilesetId score ttl).record
    (.indexed ⟨.radarTilesets network radarId variableId elevationId, tilesetId⟩)

def syncRadarTileset (now : Nat) (network radarId variableId elevationId : String)
    (existing : List String) (tilesetId : String) : Code Unit :=
  if tilesetId ∈ existing then pure ()
  else do
    let downloaded ← syncUnitToRedis cfg.names
      ⟨.radarTilesets network radarId variableId elevationId, tilesetId⟩ cfg.radarTileTtl
    if 0 < downloaded then do
      command (addRadarIndex network radarId variableId elevationId tilesetId now cfg.radarTileTtl)
      countDownloaded downloaded
    else pure ()

def syncRadarElevation (now : Nat) (network radarId variableId elevationId : String) :
    Code Unit :=
  if "elev".toList.isPrefixOf elevationId.toList then do
    let existing ← readMembers (.radarTilesets network radarId variableId elevationId)
    let tilesets ← listNames
    forEach (syncRadarTileset cfg now network radarId variableId elevationId existing) tilesets
    trimIndex (.radarTilesets network radarId variableId elevationId) (now - cfg.radarTileTtl)
  else pure ()

def syncRadarVariable (now : Nat) (network radarId variableId : String) : Code Unit := do
  let elevations ← listNames
  forEach (syncRadarElevation cfg now network radarId variableId) elevations

def syncRadarSite (now : Nat) (network radarId : String) : Code Unit := do
  let variableIds ← listNames
  forEach (syncRadarVariable cfg now network radarId) variableIds

def syncRadar (now : Nat) (network : String) : Code Nat :=
  catchException (do
    let radars ← listNames
    forEach (syncRadarSite cfg now network) radars
    pure 0) (pure 1)

end Radar

section Wrf

def addWrfIndex (productId initTag fxxx : String) (initScore stepScore : Int) (ttl : Nat)
    (w : World) : World :=
  (((w.addFor .wrfProducts productId 0 ttl).addFor
    (.wrfInitRuns productId) initTag initScore ttl).addFor
    (.wrfSteps productId initTag) fxxx stepScore ttl).record
    (.indexed ⟨.wrfSteps productId initTag, fxxx⟩)

/-- `sync_wrf_geojson_to_redis`: an S3 read and a `SET`, with every `Exception` swallowed. -/
def syncWrfGeojsonToRedis (productId initTag fxxx layer : String) : Code Unit :=
  catchException (do
    fetchObject
    command (World.setEx (.wrfGeojson productId initTag fxxx layer) cfg.wrfGeojsonTtl))
    (pure ())

def addWrfLayers (productId initTag fxxx : String) (layers : List String) (ttl : Nat)
    (w : World) : World :=
  (layers.foldl (fun w layer => w.add (.wrfLayers productId initTag fxxx) layer 0) w).expire
    (.wrfLayers productId initTag fxxx) ttl

/-- Copy the layers that Redis does not list, or note that there are none. -/
def copyMissingLayers (productId initTag fxxx : String) (s3Layers missingLayers : List String) :
    Code Unit :=
  if missingLayers = [] then
    command (World.setEx (.wrfOverlaysDone productId initTag fxxx) cfg.wrfGeojsonTtl)
  else do
    command (addWrfLayers productId initTag fxxx s3Layers cfg.wrfGeojsonTtl)
    forEach (syncWrfGeojsonToRedis cfg productId initTag fxxx) missingLayers

def syncWrfOverlays (productId initTag fxxx : String) : Code Unit := do
  if ← readExists (.wrfOverlaysDone productId initTag fxxx) then pure ()
  else
    catchException (do
      let s3Layers ← listNames
      if s3Layers = [] then
        command (World.setEx (.wrfOverlaysDone productId initTag fxxx) cfg.wrfOverlayRecheckTtl)
      else
        let redisLayers ← readMembers (.wrfLayers productId initTag fxxx)
        copyMissingLayers cfg productId initTag fxxx s3Layers
          (s3Layers.filter fun layer => layer ∉ redisLayers))
      (pure ())

/-- The tiles of a step that is not indexed yet. A name without a score raises after
the tiles were stored. -/
def syncWrfStepTiles (productId initTag : String) (existingSteps : List String) (fxxx : String) :
    Code Unit :=
  if fxxx ∈ existingSteps then pure ()
  else do
    let downloaded ← syncUnitToRedis cfg.names ⟨.wrfSteps productId initTag, fxxx⟩ cfg.wrfTileTtl
    if 0 < downloaded then
      match cfg.names.extractWrfInitScore initTag, cfg.names.wrfStepScore fxxx with
      | some initScore, some stepScore => do
        command (addWrfIndex productId initTag fxxx initScore stepScore cfg.wrfTileTtl)
        countDownloaded downloaded
      | _, _ => raise .error
    else pure ()

def syncWrfStep (productId initTag : String) (existingSteps : List String) (fxxx : String) :
    Code Unit := do
  syncWrfStepTiles cfg productId initTag existingSteps fxxx
  syncWrfOverlays cfg productId initTag fxxx

def syncWrfInit (productId initTag : String) : Code Unit := do
  let steps ← listNames
  let existingSteps ← readMembers (.wrfSteps productId initTag)
  forEach (syncWrfStep cfg productId initTag existingSteps) steps

def removeMembers (key : IndexKey) (stale : List String) : Code Unit :=
  if stale = [] then pure () else command (World.keep key fun p => decide (p.1 ∉ stale))

/-- `_prune_index_set` and `_prune_sorted_index`. -/
def pruneIndex (key : IndexKey) (keep : List String) : Code Unit := do
  let names ← readMembers key
  removeMembers key (names.filter fun name => name ∉ keep)

def selectActiveInits (initTags : List String) : List String :=
  (sortDescending initTags).take cfg.wrfInitsToKeep

def syncWrfProduct (productId : String) : Code Unit := do
  let initTags ← listNames
  forEach (syncWrfInit cfg productId) (selectActiveInits cfg initTags)
  if selectActiveInits cfg initTags = [] then pure ()
  else pruneIndex (.wrfInitRuns productId) (selectActiveInits cfg initTags)

def syncWrf : Code Nat :=
  catchException (do
    let products ← listNames
    forEach (syncWrfProduct cfg) products
    pure 0) (pure 1)

end Wrf

section EcmwfTp

def addPeriods (forecastTs : String) (periods : List String) (w : World) : World :=
  periods.foldl (fun w period =>
    (w.add (.ecmwfTpPeriods forecastTs) period 0).record
      (.indexed ⟨.ecmwfTpPeriods forecastTs, period⟩)) w

def storeEcmwfTpIndex (forecastTs : String) (periods : List String) (ttl : Nat) (w : World) :
    World :=
  if periods = [] then w.addFor .ecmwfTpForecasts forecastTs 0 ttl
  else
    (addPeriods forecastTs periods (w.addFor .ecmwfTpForecasts forecastTs 0 ttl)).expire
      (.ecmwfTpPeriods forecastTs) ttl

def syncEcmwfTpPeriod (forecastTs periodTs : String) : Code Unit := do
  let stored ← syncUnitToRedis cfg.names ⟨.ecmwfTpPeriods forecastTs, periodTs⟩ cfg.ecmwfTileTtl
  countDownloaded stored
  if 0 < stored then command (storeEcmwfTpIndex forecastTs [periodTs] cfg.ecmwfTileTtl) else pure ()

/-- The names of the period directories, oldest first. -/
def listedPeriods (subdirs : List String) : List String :=
  sortAscending (subdirs.filter fun name =>
    decide (name ≠ "") && isValidTimestampFormat cfg.names.digits name)

/-- The last write refreshes the deadline of the index on quiet cycles. -/
def syncEcmwfTpForecast (forecastTs : String) : Code Unit := do
  let subdirs ← listNames
  let knownPeriods ← readMembers (.ecmwfTpPeriods forecastTs)
  forEach (syncEcmwfTpPeriod cfg forecastTs)
    ((listedPeriods cfg subdirs).filter fun period => period ∉ knownPeriods)
  command (storeEcmwfTpIndex forecastTs (listedPeriods cfg subdirs) cfg.ecmwfTileTtl)

def selectActiveForecasts (subdirs : List String) : List String :=
  (sortDescending (subdirs.filter (· ≠ ""))).take cfg.ecmwfForecastsToKeep

def syncActiveForecasts (activeForecasts : List String) : Code Unit :=
  if activeForecasts = [] then pure ()
  else do
    forEach (syncEcmwfTpForecast cfg) activeForecasts
    pruneIndex .ecmwfTpForecasts activeForecasts

def syncEcmwfTp : Code Nat :=
  catchException (do
    let subdirs ← listNames
    syncActiveForecasts cfg (selectActiveForecasts cfg subdirs)
    pure 0) (pure 1)

end EcmwfTp

inductive Domain where
  | satellite
  | radar (network : String)
  | wrf
  | ecmwfTp
  deriving DecidableEq, Repr

def syncDomain (now : Nat) : Domain → Code Nat
  | .satellite => syncSatellitePrefixes cfg now cfg.satelliteChannels 0
  | .radar network => syncRadar cfg now network
  | .wrf => syncWrf cfg
  | .ecmwfTp => syncEcmwfTp cfg

/-- One cycle of a loop. -/
def runSync (domain : Domain) : Code Unit := do
  let now ← look (·.now)
  modify fun w => { w.record (.cycleStart now) with downloaded := 0 }
  let errors ← syncDomain cfg now domain
  modify (World.record · (.cycleEnd errors))

inductive Action where
  | begin
  | tick (seconds : Nat)
  | evict (key : RedisKey)
  | tile (i : Nat) (r : TileReply)
  | resume (r : Reply)
  /-- the process dies and is started again -/
  | kill

/-- `main` is the running cycle, at an await. -/
structure SyncState where
  world : World
  main : Option (Code Unit)

/-- The loop starts over an empty Redis. -/
def SyncState.initial (now : Nat) : SyncState := ⟨⟨now, ∅, none, 0, []⟩, none⟩

/-- Where the cycle stands after running to its next await. -/
def arrive (p : Code Unit × World) : SyncState :=
  match p.1 with
  | .ret _ | .raise _ => ⟨p.2, none⟩
  | c => ⟨p.2, some c⟩

def syncStep (domain : Domain) (s : SyncState) : Action → Option SyncState
  | .begin =>
    match s.main with
    | none => some (arrive ((runSync cfg domain).settle s.world))
    | some _ => none
  | .tick seconds => some { s with world := { s.world with now := s.world.now + seconds } }
  | .evict key => some { s with world := s.world.setRedis (s.world.redis.del key) }
  | .tile i r => (s.world.tileStep cfg.names i r).map fun w => { s with world := w }
  | .resume r => s.main.bind fun c => (c.answer s.world r).map arrive
  | .kill => some ⟨{ s.world with gather := none, downloaded := 0 }, none⟩

/-- States that some run from an empty Redis reaches. -/
def SyncReachable (domain : Domain) (s : SyncState) : Prop :=
  ∃ now as, StepSystem.run (syncStep cfg domain) (.initial now) as = some s

end DataService.Sync
