import DataService.Lib.Teardown

/-! The start-up and the shutdown of the application: what it opens depends on its role and its
settings, and what it closes on what the start-up has handed over. -/

namespace DataService.App

open Teardown

inductive SyncLoop where
  | satellite
  | radar
  | intaRadar
  | ecmwfTp
  | ecmwfMslp
  | wrf
  | gfs
  deriving DecidableEq, Repr

/-- `_SYNC_SERVICES` -/
def syncServices : List SyncLoop :=
  [.satellite, .radar, .intaRadar, .ecmwfTp, .ecmwfMslp, .wrf, .gfs]

/-- What is connected, built or started, and closed or stopped again. -/
inductive Resource where
  | redisClient
  | metricsStore
  | s3Probe
  | s3Client
  | syncService (loop : SyncLoop)
  | basemapS3Client
  | readerHttpClient
  | reader
  | stateStore
  | scraperHttpClient
  | basemapScraper
  | apiKeysS3Client
  | keystore
  | weatherS3Client
  | smnClient
  | registryClient
  | weatherScraper
  | redisMetricsService
  deriving DecidableEq, Repr

namespace Resource

/-- What a resource is built with, and needs until it is closed itself. -/
def uses : Resource → List Resource
  | syncService _ => [redisClient, metricsStore]
  | reader => [redisClient, basemapS3Client, readerHttpClient]
  | basemapScraper => [basemapS3Client, redisClient, scraperHttpClient, stateStore, metricsStore]
  | keystore => [apiKeysS3Client]
  | weatherScraper => [weatherS3Client, smnClient, registryClient, redisClient, metricsStore]
  | redisMetricsService => [redisClient, metricsStore]
  | _ => []

/-- The loops of the worker. -/
def isJob : Resource → Bool
  | syncService _ | basemapScraper | weatherScraper | redisMetricsService => true
  | _ => false

end Resource

inductive AppRole where
  | web
  | worker
  | all
  deriving DecidableEq, Repr

inductive BackupMode where
  | backupAndPrefetch
  | backupAndCacheOnRead
  | backupOnly
  | relayOnly
  deriving DecidableEq, Repr

def BackupMode.s3Backed : BackupMode → Bool
  | relayOnly => false
  | _ => true

/-- The settings that the start-up looks at; `basemapProviders` says whether `load_providers` finds
one. -/
structure Deployment where
  appRole : AppRole
  s3Configured : Bool
  syncPrefetch : Bool
  metricsEnabled : Bool
  basemapProviders : Bool
  basemapBackupMode : BackupMode
  weatherStationsSyncEnabled : Bool
  deriving DecidableEq, Repr

/-- `_runs_background_jobs` -/
def Deployment.runsBackgroundJobs (d : Deployment) : Bool :=
  match d.appRole with
  | .web => false
  | .worker | .all => true

/-- What the start-up awaits. -/
inductive Step where
  | open (resource : Resource)
  | migrations
  | s3Reachable
  | probeClosed
  | bucket
  | assertion
  deriving DecidableEq, Repr

inductive Event where
  | opened (resource : Resource)
  | closed (resource : Resource)
  deriving DecidableEq, Repr

abbrev Starting := Startup Step Event

def openResource (r : Resource) : Starting Unit := do
  Startup.attempt (.open r)
  Startup.note (.opened r)

def onlyIf (b : Bool) (x : Starting Unit) : Starting Unit :=
  if b then x else pure ()

/-- Whether it has been opened. -/
def openIf (b : Bool) (r : Resource) : Starting Bool :=
  if b then do
    openResource r
    pure true
  else pure false

def openEach : List Resource → Starting Unit
  | [] => pure ()
  | r :: rs => do
    openResource r
    openEach rs

inductive WaitEnd where
  | reachable
  | unreachable (waited : Nat)
  | waiting (waited : Nat)
  deriving DecidableEq, Repr

/-- `_S3_STARTUP_WAIT_MAX_SECONDS` -/
def s3StartupWaitMaxSeconds : Nat := 120

/-- The answers of the probe so far. `bounded` is production, and the seconds are whole ones. -/
def waitForS3 (bounded : Bool) (backoff waited : Nat) : List Bool → WaitEnd
  | [] => .waiting waited
  | true :: _ => .reachable
  | false :: probes =>
    if bounded && s3StartupWaitMaxSeconds ≤ waited then .unreachable waited
    else waitForS3 bounded (min (backoff * 2) 30) (waited + backoff) probes

/-- `_wait_for_s3_reachable`; the loop in it is `waitForS3`. -/
def probeS3 : Starting Unit :=
  Startup.tryFinally
    (do
      openResource .s3Probe
      Startup.attempt .s3Reachable)
    (do
      Startup.note (.closed .s3Probe)
      Startup.attempt .probeClosed)

/-- The tile client, if there is one. -/
def configureStrategies (d : Deployment) : Starting Bool := do
  let s3Client ← openIf d.s3Configured .s3Client
  onlyIf (d.syncPrefetch && d.runsBackgroundJobs) (openEach (syncServices.map .syncService))
  pure s3Client

/-- `reader_http_client` and `reader` are always there. -/
structure BasemapRuntime where
  s3Client : Bool
  scraperHttpClient : Bool
  stateStore : Bool
  scraper : Bool
  deriving DecidableEq, Repr

def configureBasemap (d : Deployment) : Starting (Option BasemapRuntime) :=
  let runScraper := d.basemapBackupMode.s3Backed && d.runsBackgroundJobs
  let s3CacheEnabled := d.basemapBackupMode.s3Backed
  if !d.basemapProviders then pure none
  else if s3CacheEnabled && !d.s3Configured then pure none
  else do
    let s3Client ← openIf s3CacheEnabled .basemapS3Client
    openResource .readerHttpClient
    openResource .reader
    let stateStore ← openIf s3CacheEnabled .stateStore
    let scraperHttpClient ← openIf runScraper .scraperHttpClient
    -- `assert basemap_s3 is not None and state_store is not None`
    onlyIf (runScraper && !(s3Client && stateStore)) (Startup.raise .assertion)
    let scraper ← openIf runScraper .basemapScraper
    pure (some ⟨s3Client, scraperHttpClient, stateStore, scraper⟩)

structure WeatherStationsRuntime where
  keystore : Bool
  apiKeysS3Client : Bool
  s3Client : Bool
  smnClient : Bool
  registryClient : Bool
  scraper : Bool
  deriving DecidableEq, Repr

/-- `configure_weather_stations` behind the keystore. -/
def configureStationsSync (d : Deployment) (runtime : WeatherStationsRuntime) :
    Starting WeatherStationsRuntime :=
  if !d.weatherStationsSyncEnabled then pure runtime
  else if !d.s3Configured then pure runtime
  else do
    openResource .weatherS3Client
    let smnClient ← openIf d.runsBackgroundJobs .smnClient
    let registryClient ← openIf d.runsBackgroundJobs .registryClient
    let scraper ← openIf d.runsBackgroundJobs .weatherScraper
    pure { runtime with s3Client := true, smnClient, registryClient, scraper }

def configureWeatherStations (d : Deployment) : Starting WeatherStationsRuntime := do
  let apiKeysS3Client ← openIf d.s3Configured .apiKeysS3Client
  onlyIf d.s3Configured (Startup.attempt .bucket)
  let keystore ← openIf d.s3Configured .keystore
  configureStationsSync d ⟨keystore, apiKeysS3Client, false, false, false, false⟩

/-- The local variables of `lifespan` at its `yield`. -/
structure Runtime where
  s3Client : Bool
  basemap : Option BasemapRuntime
  weatherStations : WeatherStationsRuntime
  redisMetricsService : Bool
  deriving DecidableEq, Repr

/-- `lifespan` up to its `yield` -/
def startup (d : Deployment) : Starting Runtime := do
  openResource .redisClient
  Startup.attempt .migrations
  openResource .metricsStore
  onlyIf d.s3Configured probeS3
  let s3Client ← configureStrategies d
  let basemap ← configureBasemap d
  let weatherStations ← configureWeatherStations d
  let redisMetricsService ← openIf (d.metricsEnabled && d.runsBackgroundJobs) .redisMetricsService
  pure ⟨s3Client, basemap, weatherStations, redisMetricsService⟩

/-- `if runtime.x is not None` -/
def present (b : Bool) (r : Resource) : List Resource := if b then [r] else []

def shutdownWeatherStations (runtime : WeatherStationsRuntime) : List Resource :=
  present runtime.scraper .weatherScraper ++ present runtime.smnClient .smnClient ++
    present runtime.registryClient .registryClient ++ present runtime.s3Client .weatherS3Client ++
    present runtime.keystore .keystore ++ present runtime.apiKeysS3Client .apiKeysS3Client

def shutdownBasemap : Option BasemapRuntime → List Resource
  | none => []
  | some runtime =>
    present runtime.scraper .basemapScraper ++ present runtime.stateStore .stateStore ++
      [.reader, .readerHttpClient] ++ present runtime.scraperHttpClient .scraperHttpClient ++
      present runtime.s3Client .basemapS3Client

def shutdownServices (d : Deployment) : List Resource :=
  if d.syncPrefetch then syncServices.map .syncService else []

/-- `lifespan` behind its `yield`: the steps, each in a `_safe_shutdown` -/
def shutdownOrder (d : Deployment) (runtime : Runtime) : List Resource :=
  present runtime.redisMetricsService .redisMetricsService ++
    shutdownWeatherStations runtime.weatherStations ++ shutdownBasemap runtime.basemap ++
    shutdownServices d ++ present runtime.s3Client .s3Client ++ [.metricsStore, .redisClient]

/-- The resources that the shutdown closes. `_safe_shutdown` goes on behind an `Exception`, and a
`CancelledError` is none. -/
def shutdown (d : Deployment) (runtime : Runtime) (ends : Resource → CloseEnd) : List Resource :=
  Teardown.run ends (shutdownOrder d runtime)

def openedOf (log : List Event) : List Resource :=
  log.filterMap fun
    | .opened r => some r
    | .closed _ => none

def closedOf (log : List Event) : List Resource :=
  log.filterMap fun
    | .opened _ => none
    | .closed r => some r

end DataService.App
