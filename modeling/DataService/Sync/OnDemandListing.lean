import DataService.Sync.GfsConfig

/-! The listings of the on-demand strategies of the satellite, radar, ECMWF-TP, WRF and GFS
endpoints: from a cached listing, else from S3. A LIST that fails counts as an empty one,
except where the layers of a WRF step are listed. -/

namespace DataService.Sync

open DecimalText DirectoryListing ExpiringStore

/-- A cached listing: names, or the layers of each step of a GFS cycle. -/
inductive Listed where
  | names (l : List String)
  | layers (byStep : List (String × List String))
  deriving DecidableEq, Repr

/-- The keys below `cache:listing:`. -/
inductive OnDemandKey where
  | satTilesets (channelDir : String)
  /-- a listing that the availability snapshot reads as well -/
  | shared (key : ListingKey)
  | ecmwfTpForecasts
  | ecmwfTpPeriods (forecastTs : String)
  | wrfSteps (productId initTag : String)
  | wrfLayers (productId initTag fxxx : String)
  | gfsCycles (productId : String)
  | gfsSteps (productId cycle : String)
  | gfsLayers (productId cycle : String)
  deriving DecidableEq, Repr

structure OnDemandConfig extends ListingConfig where
  gfsCyclesToKeep : Nat
  digits : DigitTable

/-- S3 as the strategies see it. -/
structure S3Site where
  objects : List S3Key
  up : Bool

namespace S3Site

/-- `try_get_subdirectories`, as names -/
def trySubdirectoryNames (site : S3Site) (path : S3Key) : List String :=
  if site.up then subdirectoryNames site.objects path else []

/-- `try_list_object_basenames` -/
def tryListObjectBasenames (site : S3Site) (directory suffix : S3Key) : List (List Char) :=
  if site.up then basenames site.objects directory suffix else []

/-- `list_object_basenames` -/
def listObjectBasenames (site : S3Site) (directory suffix : S3Key) : Option (List (List Char)) :=
  if site.up then some (basenames site.objects directory suffix) else none

end S3Site

def ecmwfTpTilesPrefix : S3Key := "tiles/ecmwf-ifs/total-precipitation".toList

def wrfTilesPrefix : S3Key := "tiles/wrf-arg4k".toList

def wrfGeojsonPrefix : S3Key := "geojson/wrf-arg4k".toList

/-- Append a layer to those of its step. -/
def addLayer (byStep : List (String × List String)) (step layer : String) :
    List (String × List String) :=
  if byStep.any fun p => p.1 == step then
    byStep.map fun p => if p.1 = step then (p.1, p.2 ++ [layer]) else p
  else byStep ++ [(step, [layer])]

/-- The layers of each step that the overlay names of a cycle tell. -/
def layersByStep (names : List (List Char)) (cycle : String) : List (String × List String) :=
  names.foldl (fun byStep name =>
    match stepAndLayerFromBasename name cycle.toList with
    | some (step, layer) => addLayer byStep (String.ofList step) (String.ofList layer)
    | none => byStep) []

/-- `by_step.get(fxxx, [])`, sorted -/
def layersOf (byStep : List (String × List String)) (fxxx : String) : List String :=
  sortAscending (((byStep.find? fun p => p.1 == fxxx).map Prod.snd).getD [])

variable (cfg : OnDemandConfig)

/-- The newest ones, if there is a cap. -/
def capped (keep : Nat) (newestFirst : List String) : List String :=
  if 0 < keep then newestFirst.take keep else newestFirst

namespace OnDemandKey

/-- What is answered without a client, or for an unknown product. -/
def nothing : OnDemandKey → Listed
  | .gfsLayers _ _ => .layers []
  | _ => .names []

/-- The product is in the catalogue. -/
def known : OnDemandKey → Bool
  | .gfsCycles productId | .gfsSteps productId _ | .gfsLayers productId _ =>
    (s3Segment productId).isSome
  | _ => true

/-- The listing made from S3; none if it raises. -/
def discover (site : S3Site) : OnDemandKey → Option Listed
  | .satTilesets channelDir =>
    let names := site.trySubdirectoryNames ("tiles/".toList ++ channelDir.toList ++ ['/'])
    some (.names (sortAscending (names.filter (· ≠ ""))))
  | .shared key =>
    some (.names (key.entries cfg.toListingConfig (site.trySubdirectoryNames key.directory)))
  | .ecmwfTpForecasts =>
    let names := site.trySubdirectoryNames ecmwfTpTilesPrefix
    some (.names (sortDescending (names.filter (· ≠ ""))))
  | .ecmwfTpPeriods forecastTs =>
    let names := site.trySubdirectoryNames (ecmwfTpTilesPrefix ++ '/' :: forecastTs.toList)
    some (.names (sortAscending (names.filter fun name =>
      decide (name ≠ "") && isValidTimestampFormat cfg.digits name)))
  | .wrfSteps productId initTag =>
    let names := site.trySubdirectoryNames
      (wrfTilesPrefix ++ '/' :: productId.toList ++ '/' :: initTag.toList)
    some (.names (sortAscending (names.filter (· ≠ ""))))
  | .wrfLayers productId initTag fxxx =>
    (site.listObjectBasenames (wrfGeojsonPrefix ++ '/' :: productId.toList ++ '/' :: initTag.toList ++
      '/' :: fxxx.toList ++ ['/']) ".json".toList).map fun names =>
        .names (sortAscending (names.map String.ofList))
  | .gfsCycles productId =>
    let objects := if site.up then site.objects else []
    some (.names (capped cfg.gfsCyclesToKeep (cogCycles objects ((s3Segment productId).getD ""))))
  | .gfsSteps productId cycle =>
    let objects := if site.up then site.objects else []
    some (.names (cogSteps objects ((s3Segment productId).getD "") cycle))
  | .gfsLayers productId cycle =>
    let directory := gfsGeojsonCyclePrefix ((s3Segment productId).getD "") cycle
    some (.layers (layersByStep (site.tryListObjectBasenames directory ".json".toList) cycle))

end OnDemandKey

/-- What the strategies share; `s3` is none without a client. -/
structure OnDemandState where
  now : Nat
  listings : Store OnDemandKey Listed
  s3 : Option S3Site

/-- A listing, from the cache or from S3; none if it raises. -/
def onDemand (key : OnDemandKey) (s : OnDemandState) : Option Listed × OnDemandState :=
  match s.listings.get s.now key with
  | some cached => (some cached, s)
  | none =>
    match s.s3 with
    | none => (some key.nothing, s)
    | some site =>
      if key.known then
        match key.discover cfg site with
        | none => (none, s)
        | some listed =>
          (some listed,
            { s with listings := s.listings.put key listed (some (s.now + cfg.tilesetListingTtl)) })
      else (some key.nothing, s)

section Answer

variable {cfg} {s : OnDemandState} {key : OnDemandKey} {site : S3Site}

theorem onDemand_cached {listed : Listed} (h : s.listings.get s.now key = some listed) :
    onDemand cfg key s = (some listed, s) := by
  simp only [onDemand, h]

theorem onDemand_missed (h : s.listings.get s.now key = none) (hs : s.s3 = some site)
    (hknown : key.known = true) : onDemand cfg key s =
      match key.discover cfg site with
      | none => (none, s)
      | some listed =>
        (some listed,
          { s with listings := s.listings.put key listed (some (s.now + cfg.tilesetListingTtl)) }) := by
  simp only [onDemand, h, hs, hknown, if_true]

theorem onDemand_unknown (h : s.listings.get s.now key = none) (hknown : key.known = false) :
    onDemand cfg key s = (some key.nothing, s) := by
  simp only [onDemand, h, hknown]
  cases s.s3 <;> simp

end Answer

/-- The listing operations of the strategies. -/
inductive ListingRequest where
  /-- any but those of the GFS layers -/
  | list (key : OnDemandKey)
  | gfsListLayers (productId cycle fxxx : String)
  | gfsListLayersBulk (productId cycle : String) (steps : List String)
  deriving DecidableEq, Repr

namespace ListingRequest

def key : ListingRequest → OnDemandKey
  | .list key => key
  | .gfsListLayers productId cycle _ => .gfsLayers productId cycle
  | .gfsListLayersBulk productId cycle _ => .gfsLayers productId cycle

/-- The answer, from the listing behind it. -/
def view : ListingRequest → Listed → Listed
  | .gfsListLayers _ _ fxxx, .layers byStep => .names (layersOf byStep fxxx)
  | .gfsListLayersBulk _ _ steps, .layers byStep =>
    .layers (steps.map fun fxxx => (fxxx, layersOf byStep fxxx))
  | _, listed => listed

/-- No listing is asked for: no step is given. -/
def idle : ListingRequest → Bool
  | .gfsListLayersBulk _ _ [] => true
  | _ => false

end ListingRequest

def serve (r : ListingRequest) (s : OnDemandState) : Option Listed × OnDemandState :=
  if r.idle then (some (.layers []), s)
  else ((onDemand cfg r.key s).1.map r.view, (onDemand cfg r.key s).2)

inductive OnDemandAction where
  | request (r : ListingRequest)
  | tick (seconds : Nat)
  | evict (key : OnDemandKey)
  /-- S3 changes, fails or recovers -/
  | s3 (site : S3Site)

/-- One request after the other, while time passes and S3 comes and goes. -/
def onDemandStep (s : OnDemandState) : OnDemandAction → Option OnDemandState
  | .request r => some (serve cfg r s).2
  | .tick seconds => some { s with now := s.now + seconds }
  | .evict key => some { s with listings := s.listings.del key }
  | .s3 site => some { s with s3 := s.s3.map fun _ => site }

end DataService.Sync
