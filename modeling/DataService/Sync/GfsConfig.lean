import DataService.Sync.ListingStrategy

/-! The catalogue of the GFS products, the keys of their objects in S3, and how the names
of the objects are read back. -/

namespace DataService.Sync

structure GfsProduct where
  productId : String
  s3Segment : String
  layers : List String
  deriving DecidableEq, Repr

def gfsMslp : GfsProduct :=
  ⟨"mean-sea-level-pressure", "mean-sea-level-pressure", ["isobars", "thickness"]⟩

def gfs500hpa : GfsProduct :=
  ⟨"geopotential-500hpa", "geopotential-500hpa", ["heights", "isotherms"]⟩

def gfs250hpa : GfsProduct := ⟨"geopotential-250hpa", "geopotential-250hpa", ["heights"]⟩

/-- `GFS_PRODUCTS`, in the order of the catalogue -/
def gfsProducts : List GfsProduct := [gfsMslp, gfs500hpa, gfs250hpa]

def getProduct (productId : String) : Option GfsProduct :=
  gfsProducts.find? fun product => product.productId == productId

def s3Segment (productId : String) : Option String := (getProduct productId).map (·.s3Segment)

/-- `_gfs_step_id` -/
def gfsStepId (cycle fxxx : String) : S3Key := cycle.toList ++ '_' :: fxxx.toList

def gfsCogCyclePrefix (segment : String) : S3Key := "cog/gfs/".toList ++ segment.toList ++ ['/']

def gfsGeojsonCyclePrefix (segment cycle : String) : S3Key :=
  "geojson/gfs/".toList ++ segment.toList ++ '/' :: cycle.toList ++ ['/']

def buildGfsGeojsonKey (segment cycle fxxx layer : String) : S3Key :=
  gfsGeojsonCyclePrefix segment cycle ++ gfsStepId cycle fxxx ++ '_' :: layer.toList ++
    ".json".toList

/-- `{cycle}_{fxxx}` back into `{fxxx}` -/
def stepFromBasename (basename cycle : List Char) : Option (List Char) :=
  let marker := cycle ++ ['_']
  if marker <+: basename then
    let step := basename.drop marker.length
    if step = [] then none else some step
  else none

/-- `{cycle}_{fxxx}_{layer}` into `(fxxx, layer)`, split at the first underscore -/
def stepAndLayerFromBasename (basename cycle : List Char) : Option (List Char × List Char) :=
  (stepFromBasename basename cycle).bind fun tail =>
    if '_' ∈ tail then
      let fxxx := tail.takeWhile (· ≠ '_')
      let layer := tail.drop (fxxx.length + 1)
      if fxxx = [] ∨ layer = [] then none else some (fxxx, layer)
    else none

/-- The names of the directories right below a path. -/
def subdirectoryNames (objects : List S3Key) (path : S3Key) : List String :=
  (DirectoryListing.subdirectories objects path).map fun d =>
    String.ofList (DirectoryListing.lastName d)

/-- The steps that the COGs of a cycle name, sorted. -/
def cogSteps (objects : List S3Key) (segment cycle : String) : List String :=
  let names := DirectoryListing.basenames objects (gfsCogCyclePrefix segment ++ cycle.toList ++ ['/'])
    ".tif".toList
  sortAscending (names.filterMap fun name => (stepFromBasename name cycle.toList).map String.ofList)

/-- The cycles that the COGs of a product lie in, newest first. -/
def cogCycles (objects : List S3Key) (segment : String) : List String :=
  sortDescending ((subdirectoryNames objects (gfsCogCyclePrefix segment)).filter (· ≠ ""))

end DataService.Sync
