import Mathlib.Data.List.Dedup
import DataService.Sync.Loops

/-! One cycle of the ECMWF mean-sea-level-pressure loop: the timestamps that the COGs of a
forecast name, and the isobars of each of them. -/

namespace DataService.Sync

open Coroutine Coro ExpiringStore

structure MslpConfig extends SyncConfig where
  ecmwfMslpGeojsonTtl : Nat

def storeEcmwfMslpIndex (forecastTs : String) (timestamps : List String) (ttl : Nat) (w : World) :
    World :=
  if timestamps = [] then w.addFor .ecmwfMslpForecasts forecastTs 0 ttl
  else
    (timestamps.foldl (fun w timestamp => w.add (.ecmwfMslpTimestamps forecastTs) timestamp 0)
      (w.addFor .ecmwfMslpForecasts forecastTs 0 ttl)).expire (.ecmwfMslpTimestamps forecastTs) ttl

variable (cfg : MslpConfig)

/-- `_download_ecmwf_mslp_geojson_to_redis`: whether the isobars were stored. -/
def downloadEcmwfMslpGeojson (forecastTs timestampTs : String) : Code Bool :=
  catchException (do
    fetchObject
    command (World.setEx (.ecmwfMslpGeojson forecastTs timestampTs) cfg.ecmwfMslpGeojsonTtl)
    pure true)
    (pure false)

/-- `sync_ecmwf_mslp_forecast_to_redis`: the timestamps whose isobars were stored. The
downloads write different keys; here one follows the other. -/
def syncEcmwfMslpGeojsons (forecastTs : String) : List String → Code (List String)
  | [] => pure []
  | timestampTs :: timestamps => do
    let ok ← downloadEcmwfMslpGeojson cfg forecastTs timestampTs
    let stored ← syncEcmwfMslpGeojsons forecastTs timestamps
    pure (if ok then timestampTs :: stored else stored)

/-- The timestamps of the COGs, oldest first. -/
def listedTimestamps (basenames : List String) : List String :=
  sortAscending (basenames.filter (isValidTimestampFormat cfg.names.digits))

/-- The known timestamps that still have a COG, and those stored in this cycle. -/
def indexedTimestamps (timestamps known stored : List String) : List String :=
  sortAscending (known.filter (· ∈ timestamps) ++ stored).dedup

def syncEcmwfMslpForecast (forecastTs : String) : Code Unit := do
  let basenames ← listNames
  let timestamps := listedTimestamps cfg basenames
  let known ← readMembers (.ecmwfMslpTimestamps forecastTs)
  let stored ← syncEcmwfMslpGeojsons cfg forecastTs (timestamps.filter fun t => t ∉ known)
  countDownloaded stored.length
  command (storeEcmwfMslpIndex forecastTs (indexedTimestamps timestamps known stored)
    cfg.ecmwfMslpGeojsonTtl)

def syncActiveMslpForecasts (activeForecasts : List String) : Code Unit :=
  if activeForecasts = [] then pure ()
  else do
    forEach (syncEcmwfMslpForecast cfg) activeForecasts
    pruneIndex .ecmwfMslpForecasts activeForecasts

/-- `_sync_ecmwf_mslp`: the errors. -/
def syncEcmwfMslp : Code Nat :=
  catchException (do
    let subdirs ← listNames
    syncActiveMslpForecasts cfg (selectActiveForecasts cfg.toSyncConfig subdirs)
    pure 0) (pure 1)

end DataService.Sync
