import DataService.Sync.GfsService

/-! The listing operations of all read strategies, satellite, radar, ECMWF-TP, WRF and GFS:
on demand, and in full sync with the indexes that the loops keep in Redis. -/

namespace DataService.Sync

open ExpiringStore

/-- A listing operation of a read strategy. -/
inductive ReadRequest where
  | one (r : ListingRequest)
  | wrfListLayersBulk (productId initTag : String) (steps : List String)
  deriving DecidableEq, Repr

/-- The index of a listing, as it is served. The layers of a GFS cycle are indexed by step. -/
def OnDemandKey.indexed (w : World) : OnDemandKey → List String
  | .satTilesets channelDir => RankedSet.ascending (members w.redis w.now (.satellite channelDir))
  | .shared key => key.indexed (members w.redis w.now key.index)
  | .ecmwfTpForecasts => sortDescending (w.memberNames .ecmwfTpForecasts)
  | .ecmwfTpPeriods forecastTs => sortAscending (w.memberNames (.ecmwfTpPeriods forecastTs))
  | .wrfSteps productId initTag =>
    RankedSet.ascending (members w.redis w.now (.wrfSteps productId initTag))
  | .wrfLayers productId initTag fxxx =>
    sortAscending (w.memberNames (.wrfLayers productId initTag fxxx))
  | .gfsCycles productId => getGfsCycles w productId
  | .gfsSteps productId cycle => getGfsSteps w productId cycle
  | .gfsLayers _ _ => []

/-- The requests to the GFS strategies. -/
def ListingRequest.gfs : ListingRequest → Option GfsRequest
  | .list (.gfsCycles productId) => some (.listCycles productId)
  | .list (.gfsSteps productId cycle) => some (.listSteps productId cycle)
  | .gfsListLayers productId cycle fxxx => some (.listLayers productId cycle fxxx)
  | .gfsListLayersBulk productId cycle steps => some (.listLayersBulk productId cycle steps)
  | .list _ => none

variable (cfg : OnDemandConfig)

/-- `discover` for each step. At most eight are under way at a time; here one follows the
other. One that raises does not stop the others, and makes the whole raise. -/
def discoverEach (productId initTag : String) : List String → OnDemandState →
    Option (List (String × List String)) × OnDemandState
  | [], s => (some [], s)
  | fxxx :: steps, s =>
    let layers := onDemand cfg (.wrfLayers productId initTag fxxx) s
    let rest := discoverEach productId initTag steps layers.2
    (layers.1.bind fun listed => rest.1.map fun byStep => (fxxx, listed.toNames) :: byStep, rest.2)

/-- The on-demand strategies. -/
def onDemandRead (r : ReadRequest) (s : OnDemandState) : Option Listed × OnDemandState :=
  match r with
  | .one r => serve cfg r s
  | .wrfListLayersBulk productId initTag steps =>
    let discovered := discoverEach cfg productId initTag steps s
    (discovered.1.map .layers, discovered.2)

/-- `_fallback`: there is none without a client, except for GFS. -/
def readFallback (r : ListingRequest) (s : OnDemandState) : Option Listed × OnDemandState :=
  if s.s3.isNone then (some r.key.nothing, s) else serve cfg r s

/-- The full-sync strategies. -/
def fullSyncRead (w : World) (r : ReadRequest) (s : OnDemandState) :
    Option Listed × OnDemandState :=
  match r with
  | .one r =>
    match r.gfs with
    | some r => gfsFullSync cfg w r s
    | none => indexFirst (r.key.indexed w) (readFallback cfg r s) s
  | .wrfListLayersBulk productId initTag steps =>
    let indexed := fun fxxx => (OnDemandKey.wrfLayers productId initTag fxxx).indexed w
    let byStep := steps.map fun fxxx => (fxxx, indexed fxxx)
    let missing := steps.filter fun fxxx => indexed fxxx = []
    if missing = [] ∨ s.s3.isNone then (some (.layers byStep), s)
    else
      let discovered := onDemandRead cfg (.wrfListLayersBulk productId initTag missing) s
      (discovered.1.map (updateLayers byStep), discovered.2)

/-- A listing operation, with either strategy; none if it raises. -/
def GfsStrategy.read (strategy : GfsStrategy) (w : World) (r : ReadRequest) (s : OnDemandState) :
    Option Listed × OnDemandState :=
  match strategy with
  | .onDemand => onDemandRead cfg r s
  | .fullSync => fullSyncRead cfg w r s

end DataService.Sync
