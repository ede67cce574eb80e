import DataService.Lib.Segments
import DataService.Sync.Availability
import DataService.Sync.GfsConfig

/-! The keys of the tiles, in S3 and in Redis. Both are put together from the names of what a
tile belongs to and its coordinates. -/

namespace DataService.Sync

/-- `str` of an integer -/
def numeral : Int → List Char
  | .ofNat n => Nat.toDigits 10 n
  | .negSucc n => '-' :: Nat.toDigits 10 (n + 1)

/-- Names and coordinates with slashes between them. -/
def tilePath (names : List (List Char)) (z x y : Int) : List Char :=
  List.intercalate ['/'] (names ++ [numeral z, numeral x, numeral y])

section Builders

variable (z x y : Int)

def buildSatelliteTileKey (channelDir tilesetId : String) : S3Key :=
  tilePath ["tiles".toList, channelDir.toList, tilesetId.toList] z x y ++ ".webp".toList

def buildRadarTileKey (network radarId variableId tilesetId elevationId : String) : S3Key :=
  tilePath ["tiles".toList, "radar".toList, network.toList, radarId.toList, variableId.toList,
    elevationId.toList, tilesetId.toList] z x y ++ ".webp".toList

def buildWrfTileKey (productId initTag fxxx : String) : S3Key :=
  tilePath ["tiles".toList, "wrf-arg4k".toList, productId.toList, initTag.toList, fxxx.toList]
    z x y ++
    ".webp".toList

def buildEcmwfTpTileKey (forecastTs periodTs : String) : S3Key :=
  tilePath ["tiles".toList, "ecmwf-ifs".toList, "total-precipitation".toList, forecastTs.toList,
    periodTs.toList] z x y ++ ".webp".toList

def buildGfsTileKey (segment cycle fxxx : String) : S3Key :=
  tilePath ["tiles".toList, "gfs".toList, segment.toList, cycle.toList, gfsStepId cycle fxxx] z x y ++
    ".webp".toList

def buildBasemapTileKey (providerId : String) : S3Key :=
  tilePath ["basemap".toList, providerId.toList] z x y ++ ".png".toList

/-- `_radar_ns` -/
def radarNs (network : String) : List Char :=
  if network = "sinarame" then "radar".toList else "radar-".toList ++ network.toList

def satTileKey (channelDir tilesetId : String) : List Char :=
  "tile:sat:".toList ++ tilePath [channelDir.toList, tilesetId.toList] z x y

/-- `_radar_tile_key` -/
def radarTileKey (network radarId variableId tilesetId elevationId : String) : List Char :=
  "tile:".toList ++ radarNs network ++ ':' ::
    tilePath [radarId.toList, variableId.toList, tilesetId.toList ++ '_' :: elevationId.toList] z x y

def wrfTileKey (productId initTag fxxx : String) : List Char :=
  "tile:wrf:".toList ++ tilePath [productId.toList, initTag.toList, fxxx.toList] z x y

def ecmwfTpTileKey (forecastTs periodTs : String) : List Char :=
  "tile:ecmwf_tp:".toList ++ tilePath [forecastTs.toList, periodTs.toList] z x y

def gfsTileKey (productId cycle fxxx : String) : List Char :=
  "tile:gfs:".toList ++ tilePath [productId.toList, cycle.toList, fxxx.toList] z x y

def basemapTileKey (providerId : String) : List Char :=
  "tile:basemap:".toList ++ providerId.toList ++
    ':' :: (numeral z ++ ':' :: (numeral x ++ ':' :: numeral y))

end Builders

/-- What a tile belongs to. -/
inductive TileUnit where
  | satellite (channelDir tilesetId : String)
  | radar (network : RadarNetwork) (radarId variableId tilesetId elevationId : String)
  | wrf (productId initTag fxxx : String)
  | ecmwfTp (forecastTs periodTs : String)
  | gfs (product : GfsProduct) (cycle fxxx : String)
  | basemap (providerId : String)
  deriving DecidableEq, Repr

namespace TileUnit

def s3Key (z x y : Int) : TileUnit → S3Key
  | satellite channelDir tilesetId => buildSatelliteTileKey z x y channelDir tilesetId
  | radar network radarId variableId tilesetId elevationId =>
    buildRadarTileKey z x y network.name radarId variableId tilesetId elevationId
  | wrf productId initTag fxxx => buildWrfTileKey z x y productId initTag fxxx
  | ecmwfTp forecastTs periodTs => buildEcmwfTpTileKey z x y forecastTs periodTs
  | gfs product cycle fxxx => buildGfsTileKey z x y product.s3Segment cycle fxxx
  | basemap providerId => buildBasemapTileKey z x y providerId

def redisKey (z x y : Int) : TileUnit → List Char
  | satellite channelDir tilesetId => satTileKey z x y channelDir tilesetId
  | radar network radarId variableId tilesetId elevationId =>
    radarTileKey z x y network.name radarId variableId tilesetId elevationId
  | wrf productId initTag fxxx => wrfTileKey z x y productId initTag fxxx
  | ecmwfTp forecastTs periodTs => ecmwfTpTileKey z x y forecastTs periodTs
  | gfs product cycle fxxx => gfsTileKey z x y product.productId cycle fxxx
  | basemap providerId => basemapTileKey z x y providerId

/-- The names that a request or a listing gives. A channel directory is a path of names. -/
def names : TileUnit → List (List Char)
  | satellite channelDir tilesetId => channelDir.toList.splitOn '/' ++ [tilesetId.toList]
  | radar _ radarId variableId tilesetId elevationId =>
    [radarId.toList, variableId.toList, tilesetId.toList, elevationId.toList]
  | wrf productId initTag fxxx => [productId.toList, initTag.toList, fxxx.toList]
  | ecmwfTp forecastTs periodTs => [forecastTs.toList, periodTs.toList]
  | gfs _ cycle fxxx => [cycle.toList, fxxx.toList]
  | basemap providerId => [providerId.toList]

def WellNamed (unit : TileUnit) : Prop :=
  (∀ name ∈ unit.names, name ≠ [] ∧ '/' ∉ name) ∧
    match unit with
    | radar _ _ _ _ elevationId => "elev".toList <+: elevationId.toList
    | gfs product _ _ => product ∈ gfsProducts
    | _ => True

/-- In a radar tile the elevation can be told from the tileset. -/
def Unambiguous : TileUnit → Prop
  | radar _ _ _ tilesetId elevationId =>
    ¬ "_elev".toList <:+: tilesetId.toList.drop 1 ∧ ¬ "_elev".toList <:+: elevationId.toList
  | _ => True

end TileUnit

/-- A tile of a well-named unit. -/
structure TileAddress where
  unit : TileUnit
  wellNamed : unit.WellNamed
  z : Int
  x : Int
  y : Int

namespace TileAddress

def s3Key (a : TileAddress) : S3Key := a.unit.s3Key a.z a.x a.y

def redisKey (a : TileAddress) : List Char := a.unit.redisKey a.z a.x a.y

end TileAddress

section Paths

variable {names names' : List (List Char)} {z x y z' x' y' : Int}

/-- A numeral has digits and at most a sign. -/
theorem notMem_numeral {c : Char} (hdigit : c.isDigit = false) (hsign : c ≠ '-') (n : Int) :
    c ∉ numeral n := by
  have hdigits : ∀ m : Nat, c ∉ Nat.toDigits 10 m := by
    intro m hc
    have htrue := Nat.isDigit_of_mem_toDigits (by omega) (by omega) hc
    rw [hdigit] at htrue
    cases htrue
  cases n with
  | ofNat n => exact hdigits n
  | negSucc n => exact fun hc => (List.mem_cons.mp hc).elim hsign (hdigits (n + 1))

theorem toDigits_injective {m n : Nat} (h : Nat.toDigits 10 m = Nat.toDigits 10 n) : m = n := by
  have hm := Nat.ofDigitChars_toDigits (b := 10) (n := m) (by omega) (by omega)
  have hn := Nat.ofDigitChars_toDigits (b := 10) (n := n) (by omega) (by omega)
  rw [← hm, h, hn]

theorem numeral_injective : Function.Injective numeral := by
  have hsign : ∀ m n : Nat, Nat.toDigits 10 m ≠ '-' :: Nat.toDigits 10 n := by
    intro m n h
    have hmem : '-' ∈ Nat.toDigits 10 m := h ▸ List.mem_cons_self
    have hdigit := Nat.isDigit_of_mem_toDigits (by omega) (by omega) hmem
    cases hdigit
  intro m n h
  cases m with
  | ofNat m =>
    cases n with
    | ofNat n => exact congrArg Int.ofNat (toDigits_injective h)
    | negSucc n => exact absurd h (hsign m (n + 1))
  | negSucc m =>
    cases n with
    | ofNat n => exact absurd h.symm (hsign n (m + 1))
    | negSucc n =>
      have hsame : m + 1 = n + 1 := toDigits_injective (List.cons.inj h).2
      rw [Nat.succ.inj hsame]

theorem slash_notMem_path (h : ∀ name ∈ names, '/' ∉ name) :
    ∀ part ∈ names ++ [numeral z, numeral x, numeral y], '/' ∉ part := by
  have hnumeral : ∀ n : Int, '/' ∉ numeral n := notMem_numeral (by decide) (by decide)
  intro part hpart
  rcases List.mem_append.mp hpart with hname | hcoordinate
  · exact h part hname
  · simp only [List.mem_cons, List.not_mem_nil, or_false] at hcoordinate
    rcases hcoordinate with rfl | rfl | rfl
    · exact hnumeral z
    · exact hnumeral x
    · exact hnumeral y

theorem tilePath_inj (h : ∀ name ∈ names, '/' ∉ name) (h' : ∀ name ∈ names', '/' ∉ name)
    (hsame : tilePath names z x y = tilePath names' z' x' y') :
    names = names' ∧ z = z' ∧ x = x' ∧ y = y' := by
  have hparts := Segments.intercalate_inj (slash_notMem_path h) (slash_notMem_path h') (by simp)
    (by simp) hsame
  obtain ⟨hnames, hcoordinates⟩ := List.append_inj' hparts rfl
  simp only [List.cons.injEq, numeral_injective.eq_iff] at hcoordinates
  exact ⟨hnames, hcoordinates.1, hcoordinates.2.1, hcoordinates.2.2.1⟩

end Paths

end DataService.Sync
