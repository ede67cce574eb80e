import DataService.Lib.Revalidation
import DataService.Sync.TileReads

/-! The tile routes as conditional requests. A tile and the gap it may fill share a URL, and each
has its own `ETag`: a client that holds the gap asks again after a short while, one that holds the
tile is answered `304` without a look at the store. -/

namespace DataService.Sync

abbrev ETag := List Char

/-- `etag_pair`: for the tile and for its gap -/
def etagPair (identity : List Char) : ETag × ETag :=
  ('"' :: (identity ++ ['"']), '"' :: (identity ++ "-miss".toList ++ ['"']))

structure HttpResponse where
  status : Nat
  content : TileData
  etag : Option ETag
  cacheControl : Option String
  deriving DecidableEq, Repr

/-- an `HTTPException`, or a `304` that restates nothing -/
def statusOnly (status : Nat) : HttpResponse := ⟨status, [], none, none⟩

/-- `value.encode("latin-1")` goes through. -/
def Latin1 (value : List Char) : Prop := ∀ c ∈ value, c.toNat < 256

instance (value : List Char) : Decidable (Latin1 value) :=
  List.decidableBAll (fun c : Char => c.toNat < 256) value

/-- The headers of a `Response` are encoded when it is built; one that cannot be raises, and the
request ends with a `500`. -/
def notModified (cacheControl : String) : HttpResponse :=
  if Latin1 cacheControl.toList then ⟨304, [], none, some cacheControl⟩ else statusOnly 500

def createTileResponse (tileData : TileData) (etag : ETag) (cacheControl : String) : HttpResponse :=
  if Latin1 etag ∧ Latin1 cacheControl.toList then ⟨200, tileData, some etag, some cacheControl⟩
  else statusOnly 500

/-- What `get_tile_data` of a service comes to. -/
inductive ServiceAnswer where
  | data (bytes : Option TileData)
  /-- `BasemapNotConfiguredError` -/
  | notConfigured
  | raised
  deriving DecidableEq, Repr

/-- `if not tile_data`: an empty object is no tile -/
def ServiceAnswer.tile : ServiceAnswer → Option TileData
  | .data bytes => bytes.filter fun b => !b.isEmpty
  | _ => none

/-- The service has answered, and with no tile. -/
def ServiceAnswer.Missing : ServiceAnswer → Prop
  | .data bytes => bytes.filter (fun b => !b.isEmpty) = none
  | _ => False

instance (a : ServiceAnswer) : Decidable a.Missing :=
  match a with
  | .data bytes => inferInstanceAs (Decidable (bytes.filter (fun b => !b.isEmpty) = none))
  | .notConfigured => isFalse id
  | .raised => isFalse id

/-- What a route answers in the place of a missing tile. -/
structure Gap where
  etag : ETag
  content : TileData
  cacheControl : String

/-- The errors with which a route turns a request down. -/
inductive Refusal where
  | badRequest
  | notFound
  | unprocessable
  deriving DecidableEq, Repr

def Refusal.status : Refusal → Nat
  | .badRequest => 400
  | .notFound => 404
  | .unprocessable => 422

/-- `refusal`: the request is turned down before its `ETag` is looked at. Without a gap a missing
tile is a `404`. -/
structure TileRoute where
  refusal : Option Refusal
  etag : ETag
  gap : Option Gap
  cacheControl : String

namespace TileRoute

/-- The body of each of the routes below. -/
def respond (r : TileRoute) (ifNoneMatch : Option ETag) (found : ServiceAnswer) : HttpResponse :=
  match r.refusal with
  | some refusal => statusOnly refusal.status
  | none =>
    if ifNoneMatch = some r.etag then statusOnly 304
    else
      match found.tile with
      | some tileData => createTileResponse tileData r.etag r.cacheControl
      | none =>
        match found with
        | .notConfigured => statusOnly 503
        | .raised => statusOnly 500
        | .data _ =>
          match r.gap with
          | some g =>
            if ifNoneMatch = some g.etag then notModified g.cacheControl
            else createTileResponse g.content g.etag g.cacheControl
          | none => statusOnly 404

def withGap (identity : List Char) (content : TileData) (cacheControlMiss cacheControl : String) :
    TileRoute :=
  ⟨none, (etagPair identity).1, some ⟨(etagPair identity).2, content, cacheControlMiss⟩,
    cacheControl⟩

def orNotFound (identity : List Char) (cacheControl : String) : TileRoute :=
  ⟨none, '"' :: (identity ++ ['"']), none, cacheControl⟩

def refusedIf (r : TileRoute) (refusal : Refusal) (refused : Bool) : TileRoute :=
  if refused then { r with refusal := some refusal } else r

end TileRoute

structure RouteSettings where
  cacheControlTile : String
  radarCacheControlTileMiss : String
  wrfCacheControlTileMiss : String
  gfsCacheControlTileMiss : String
  basemapCacheControlTileMiss : String
  basemapCacheControlTile : String
  /-- the zoom levels of a channel, where the catalogue has it -/
  zoomLevels : String → String → String → Option (Int × Int)
  validateProvider : String → Bool
  /-- `TRANSPARENT_TILE` -/
  transparentTile : TileData
  /-- `TRANSPARENT_PNG_TILE` -/
  transparentPngTile : TileData

def dashed (names : List (List Char)) : List Char := List.intercalate ['-'] names

def emptyFeatureCollection : TileData :=
  "\x7b\"type\":\"FeatureCollection\",\"features\":[]\x7d".toUTF8.toList

section Routes

variable (c : RouteSettings)

def getRadarTile (radarId variableId elevationId tilesetId : String) (z x y : Int) : TileRoute :=
  .withGap (dashed [radarId.toList, variableId.toList, elevationId.toList, tilesetId.toList,
    numeral z, numeral x, numeral y]) c.transparentTile c.radarCacheControlTileMiss
    c.cacheControlTile

def getSatelliteTile (productId instrumentId channelId tilesetId : String) (z x y : Int) :
    TileRoute :=
  let route : TileRoute :=
    .orNotFound (dashed [tilesetId.toList, numeral z, numeral x, numeral y]) c.cacheControlTile
  match c.zoomLevels productId instrumentId channelId with
  | none => route.refusedIf .notFound true
  | some (low, high) => route.refusedIf .badRequest (z < low || high < z)

def getEcmwfTpTile (forecastTs periodTs : String) (z x y : Int) : TileRoute :=
  (TileRoute.orNotFound (dashed [forecastTs.toList, periodTs.toList, numeral z, numeral x,
    numeral y]) c.cacheControlTile).refusedIf .badRequest (z < 3 || 7 < z)

def getWrfTile (productId initTag fxxx : String) (z x y : Int) : TileRoute :=
  (TileRoute.withGap (dashed [productId.toList, initTag.toList, fxxx.toList, numeral z, numeral x,
    numeral y]) c.transparentTile c.wrfCacheControlTileMiss c.cacheControlTile).refusedIf
    .badRequest (z < 4 || 9 < z)

def getWrfBarbTile (productId initTag fxxx : String) (z x y : Int) : TileRoute :=
  (TileRoute.withGap (dashed [productId.toList, initTag.toList, fxxx.toList, "barbs".toList,
    numeral z, numeral x, numeral y]) emptyFeatureCollection c.wrfCacheControlTileMiss
    c.cacheControlTile).refusedIf .badRequest (z ∉ [2, 4, 6, 8, 10, 12])

def getWrfGeojsonLayer (productId initTag fxxx layer : String) : TileRoute :=
  .orNotFound (dashed [productId.toList, initTag.toList, fxxx.toList, layer.toList])
    c.cacheControlTile

def getGfsTile (productId cycle fxxx : String) (z x y : Int) : TileRoute :=
  (TileRoute.withGap (dashed [productId.toList, cycle.toList, fxxx.toList, numeral z, numeral x,
    numeral y]) c.transparentTile c.gfsCacheControlTileMiss c.cacheControlTile).refusedIf
    .badRequest (z < 3 || 7 < z)

def getGfsBarbTile (productId cycle fxxx : String) (z x y : Int) : TileRoute :=
  (TileRoute.withGap (dashed [productId.toList, cycle.toList, fxxx.toList, "barbs".toList,
    numeral z, numeral x, numeral y]) emptyFeatureCollection c.gfsCacheControlTileMiss
    c.cacheControlTile).refusedIf .badRequest (z ∉ [2, 4, 6, 8])

def getGfsGeojsonLayer (productId cycle fxxx layer : String) : TileRoute :=
  .orNotFound (dashed [productId.toList, cycle.toList, fxxx.toList, layer.toList])
    c.cacheControlTile

def getIsobarsGeojson (forecastTs timestampTs : String) : TileRoute :=
  .orNotFound (dashed [forecastTs.toList, timestampTs.toList]) c.cacheControlTile

/-- The bounds are those of the path parameters, which are checked first. -/
def getBasemapTile (providerId : String) (z x y : Int) : TileRoute :=
  ((TileRoute.withGap (dashed [providerId.toList, numeral z, numeral x, numeral y])
    c.transparentPngTile c.basemapCacheControlTileMiss c.basemapCacheControlTile).refusedIf
    .notFound (!c.validateProvider providerId)).refusedIf .unprocessable
    (z < 0 || 22 < z || x < 0 || y < 0)

end Routes

/-- A URL under which a tile or an overlay is served. -/
inductive Resource where
  | radarTile (network radarId variableId elevationId tilesetId : String) (z x y : Int)
  | satelliteTile (productId instrumentId channelId tilesetId : String) (z x y : Int)
  | ecmwfTpTile (forecastTs periodTs : String) (z x y : Int)
  | wrfTile (productId initTag fxxx : String) (z x y : Int)
  | wrfBarbTile (productId initTag fxxx : String) (z x y : Int)
  | wrfLayer (productId initTag fxxx layer : String)
  | gfsTile (productId cycle fxxx : String) (z x y : Int)
  | gfsBarbTile (productId cycle fxxx : String) (z x y : Int)
  | gfsLayer (productId cycle fxxx layer : String)
  | isobars (forecastTs timestampTs : String)
  | basemapTile (providerId : String) (z x y : Int)
  deriving DecidableEq, Repr

/-- The network of a radar is in its URL, not in its `ETag`. -/
def route (c : RouteSettings) : Resource → TileRoute
  | .radarTile _ radarId variableId elevationId tilesetId z x y =>
    getRadarTile c radarId variableId elevationId tilesetId z x y
  | .satelliteTile productId instrumentId channelId tilesetId z x y =>
    getSatelliteTile c productId instrumentId channelId tilesetId z x y
  | .ecmwfTpTile forecastTs periodTs z x y => getEcmwfTpTile c forecastTs periodTs z x y
  | .wrfTile productId initTag fxxx z x y => getWrfTile c productId initTag fxxx z x y
  | .wrfBarbTile productId initTag fxxx z x y => getWrfBarbTile c productId initTag fxxx z x y
  | .wrfLayer productId initTag fxxx layer => getWrfGeojsonLayer c productId initTag fxxx layer
  | .gfsTile productId cycle fxxx z x y => getGfsTile c productId cycle fxxx z x y
  | .gfsBarbTile productId cycle fxxx z x y => getGfsBarbTile c productId cycle fxxx z x y
  | .gfsLayer productId cycle fxxx layer => getGfsGeojsonLayer c productId cycle fxxx layer
  | .isobars forecastTs timestampTs => getIsobarsGeojson c forecastTs timestampTs
  | .basemapTile providerId z x y => getBasemapTile c providerId z x y

/-- A client keeps its copies by URL. `resource` reads one; where a path parameter is no integer, the
request is turned down. -/
def routeAt {Url : Type*} (c : RouteSettings) (resource : Url → Option Resource) (url : Url) :
    TileRoute :=
  match resource url with
  | some k => route c k
  | none => (TileRoute.orNotFound [] c.cacheControlTile).refusedIf .unprocessable true

/-- What a cache makes of a response; `maxAge` reads a lifetime from a `Cache-Control`. -/
def HttpResponse.answer (maxAge : String → Nat) (response : HttpResponse) :
    Revalidation.Answer ETag TileData :=
  match response.etag with
  | some etag => .full etag response.content ((response.cacheControl.map maxAge).getD 0)
  | none =>
    if response.status = 304 then .notModified (response.cacheControl.map maxAge)
    else .error response.status

section Clients

variable {κ : Type*}

def answerOf (routes : κ → TileRoute) (maxAge : String → Nat) :
    Revalidation.Handler κ ETag TileData ServiceAnswer :=
  fun k ifNoneMatch found => ((routes k).respond ifNoneMatch found).answer maxAge

abbrev Client (κ : Type*) := Revalidation.Cache κ ETag TileData ServiceAnswer

abbrev ClientAction (κ : Type*) := Revalidation.Action κ ServiceAnswer

def clientStep [DecidableEq κ] (routes : κ → TileRoute) (maxAge : String → Nat) :
    Client κ → ClientAction κ → Option (Client κ) :=
  Revalidation.Cache.step (answerOf routes maxAge)

end Clients

end DataService.Sync
