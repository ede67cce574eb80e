import DataService.Lib.NumberText
import DataService.Sync.Site

/-! One cycle of the WRF loop over an S3 whose tree of products, init runs and steps is
given. What the cycle does with Redis is that of the loop that takes any answers. -/

namespace DataService.Sync

open Coroutine Coro NumberText

structure WrfSettings where
  wrfTileTtl : Nat
  wrfGeojsonTtl : Nat
  wrfOverlayRecheckTtl : Nat
  wrfInitsToKeep : Nat
  reader : NumberReader

/-- What the LISTs of a cycle find: the directories by their names, which are distinct, and
the keys of the objects below a step. A GET returns the readable objects. -/
structure WrfTree where
  products : List String
  initRuns : String → List String
  steps : String → String → List String
  objects : String → String → String → List String
  layers : String → String → String → List String
  readable : String → Bool
  products_nodup : products.Nodup
  initRuns_nodup : ∀ productId, (initRuns productId).Nodup
  steps_nodup : ∀ productId initTag, (steps productId initTag).Nodup

abbrev WrfCode := SiteCode WrfTree

/-- `_parse_zxy` -/
def parseZxy (reader : NumberReader) (key : String) : Option (Int × Int × Int) :=
  match (key.toList.splitOn '/').reverse with
  | last :: x :: z :: _ => do
    let stem := if ".webp".toList.isSuffixOf last then last.take (last.length - 5) else last
    let z ← reader.int z
    let x ← reader.int x
    let y ← reader.int stem
    pure (z, x, y)
  | _ => none

def buildWrfGeojsonKey (productId initTag fxxx layer : String) : String :=
  "geojson/wrf-arg4k/" ++ productId ++ "/" ++ initTag ++ "/" ++ fxxx ++ "/" ++ layer ++ ".json"

/-- `_extract_wrf_init_score`; none where it raises. -/
def extractWrfInitScore (reader : NumberReader) (initTag : String) : Option Int :=
  reader.float (initTag.toList.filter (· ≠ '_'))

/-- `float(int(fxxx[1:]) if fxxx.startswith("F") else 0)`; none where it raises. -/
def wrfStepScore (reader : NumberReader) (fxxx : String) : Option Int :=
  if fxxx.toList.head? = some 'F' then (reader.int (fxxx.toList.drop 1)).bind reader.floatOfInt
  else some 0

variable (cfg : WrfSettings)

namespace WrfSync

/-- `_download_wrf_tile_to_redis` -/
def downloadTileToRedis (productId initTag fxxx key : String) : WrfCode Bool :=
  catchError (
    match parseZxy cfg.reader key with
    | none => pure false
    | some (z, x, y) => do
      getObject fun tree : WrfTree => tree.readable key
      storeEx (.tile ⟨.wrfSteps productId initTag, fxxx⟩ z x y) cfg.wrfTileTtl
      pure true)
    (pure false)

/-- The tiles of a step; the tasks write different keys, here one follows the other. -/
def downloadTiles (productId initTag fxxx : String) : List String → WrfCode Nat
  | [] => pure 0
  | key :: keys => do
    let ok ← downloadTileToRedis cfg productId initTag fxxx key
    let n ← downloadTiles productId initTag fxxx keys
    pure (if ok then n + 1 else n)

/-- `sync_wrf_step_to_redis` -/
def syncStepToRedis (productId initTag fxxx : String) : WrfCode Nat := do
  let objects ← askS3 fun tree : WrfTree => tree.objects productId initTag fxxx
  downloadTiles cfg productId initTag fxxx (objects.filter isWebp)

/-- `sync_wrf_geojson_to_redis` -/
def syncGeojsonToRedis (productId initTag fxxx layer : String) : WrfCode Unit :=
  catchError (do
    getObject fun tree : WrfTree =>
      tree.readable (buildWrfGeojsonKey productId initTag fxxx layer)
    storeEx (.wrfGeojson productId initTag fxxx layer) cfg.wrfGeojsonTtl)
    (pure ())

/-- Copy the layers that Redis does not list, or note that there are none. -/
def copyMissingLayers (productId initTag fxxx : String) (s3Layers missingLayers : List String) :
    WrfCode Unit :=
  if missingLayers = [] then storeEx (.wrfOverlaysDone productId initTag fxxx) cfg.wrfGeojsonTtl
  else do
    onWorld (command (addWrfLayers productId initTag fxxx s3Layers cfg.wrfGeojsonTtl))
    each (syncGeojsonToRedis cfg productId initTag fxxx) missingLayers

/-- `_sync_wrf_overlays` -/
def syncOverlays (productId initTag fxxx : String) : WrfCode Unit := do
  if ← onWorld (readExists (.wrfOverlaysDone productId initTag fxxx)) then pure ()
  else
    catchError (do
      let s3Layers ← askS3 fun tree : WrfTree => tree.layers productId initTag fxxx
      if s3Layers = [] then
        storeEx (.wrfOverlaysDone productId initTag fxxx) cfg.wrfOverlayRecheckTtl
      else
        let redisLayers ← onWorld (readMembers (.wrfLayers productId initTag fxxx))
        copyMissingLayers cfg productId initTag fxxx s3Layers
          (s3Layers.filter fun layer => layer ∉ redisLayers))
      (pure ())

/-- The tiles of a step that is not indexed yet, and then its entries in the index. -/
def syncStepTiles (productId initTag : String) (existingSteps : List String) (fxxx : String) :
    WrfCode Unit :=
  if fxxx ∈ existingSteps then pure ()
  else do
    let downloaded ← syncStepToRedis cfg productId initTag fxxx
    if 0 < downloaded then
      match extractWrfInitScore cfg.reader initTag, wrfStepScore cfg.reader fxxx with
      | some initScore, some stepScore =>
        onWorld (command (addWrfIndex productId initTag fxxx initScore stepScore cfg.wrfTileTtl))
      | _, _ => raise .error
    else pure ()

def syncStep (productId initTag : String) (existingSteps : List String) (fxxx : String) :
    WrfCode Unit := do
  syncStepTiles cfg productId initTag existingSteps fxxx
  syncOverlays cfg productId initTag fxxx

def syncInit (productId initTag : String) : WrfCode Unit := do
  let steps ← askS3 fun tree : WrfTree => tree.steps productId initTag
  let existingSteps ← onWorld (readMembers (.wrfSteps productId initTag))
  each (syncStep cfg productId initTag existingSteps) steps

/-- `_select_active_inits` -/
def activeInits (initTags : List String) : List String :=
  (sortDescending initTags).take cfg.wrfInitsToKeep

def syncProduct (productId : String) : WrfCode Unit := do
  let initTags ← askS3 fun tree : WrfTree => tree.initRuns productId
  each (syncInit cfg productId) (activeInits cfg initTags)
  if activeInits cfg initTags = [] then pure ()
  else onWorld (pruneIndex (.wrfInitRuns productId) (activeInits cfg initTags))

/-- `_sync_wrf`: the errors; one `try` block holds all products. -/
def syncWrf : WrfCode Nat :=
  catchError (do
    let products ← askS3 WrfTree.products
    each (syncProduct cfg) products
    pure 0) (pure 1)

end WrfSync

end DataService.Sync
