import DataService.Sync.GfsIndexed

/-! The names of the GFS objects, as the client lists them and the catalogue reads them back:
the steps and overlays that come out are those whose keys exist. -/

namespace DataService.Sync

open DirectoryListing

/-- `_list_objects`: what a LIST returns, the keys of directories apart. With a delimiter it
returns the keys that have no further slash. -/
def listObjects (objects : List S3Key) (directory : S3Key) (delimited : Bool) : List S3Key :=
  objects.filter fun key => directory <+: key ∧
    (delimited = true → '/' ∉ key.drop directory.length) ∧ key.getLast? ≠ some '/'

/-- `tail[: -n]` -/
def cutEnd (tail : List Char) (n : Nat) : List Char :=
  if n = 0 then [] else tail.take (tail.length - n)

def listObjectBasenames (objects : List S3Key) (directory suffix : S3Key) (delimited : Bool) :
    List (List Char) :=
  (listObjects objects directory delimited).filterMap fun key =>
    if suffix <:+ key then
      let tail := (key.drop directory.length).dropWhile (· = '/')
      if '/' ∈ tail then none else some (cutEnd tail suffix.length)
    else none

/-- The steps and layers that the overlays of a cycle tell. -/
def overlayPairs (objects : List S3Key) (segment cycle : String) : List (String × String) :=
  (listObjectBasenames objects (gfsGeojsonCyclePrefix segment cycle) ".json".toList true).filterMap
    fun basename => (stepAndLayerFromBasename basename cycle.toList).map fun pair =>
      (String.ofList pair.1, String.ofList pair.2)

/-- The steps that the COGs of a cycle tell. -/
def cogStepTags (objects : List S3Key) (segment cycle : String) : List String :=
  (listObjectBasenames objects (gfsCogCyclePrefix segment ++ cycle.toList ++ ['/'])
    ".tif".toList true).filterMap
    fun basename => (stepFromBasename basename cycle.toList).map String.ofList

section Listing

variable {objects : List S3Key} {directory suffix : S3Key}

theorem listObjectBasenames_delimited (hne : suffix ≠ []) (hslash : '/' ∉ suffix) :
    listObjectBasenames objects directory suffix true = basenames objects directory suffix := by
  rw [listObjectBasenames, listObjects, List.filterMap_filter, basenames]
  apply List.filterMap_congr
  intro key _
  by_cases hbelow : directory <+: key ∧ '/' ∉ key.drop directory.length
  · have hdrop : (key.drop directory.length).dropWhile (· = '/') = key.drop directory.length := by
      cases htail : key.drop directory.length with
      | nil => rfl
      | cons c tail =>
        have hc : c ≠ '/' := by
          rintro rfl
          exact hbelow.2 (htail ▸ List.mem_cons_self)
        simp [hc]
    by_cases hend : suffix <:+ key
    · have hlast : key.getLast? ≠ some '/' := by
        obtain ⟨front, rfl⟩ := hend
        rw [List.getLast?_append_of_ne_nil _ hne]
        exact fun h => hslash (List.mem_of_getLast? h)
      have hlength : suffix.length ≠ 0 := fun h => hne (List.eq_nil_of_length_eq_zero h)
      simp [hbelow, hend, hlast, hdrop, cutEnd, hlength]
    · simp [hend]
  · have hnot : ¬ (directory <+: key ∧ '/' ∉ key.drop directory.length ∧ suffix <:+ key) :=
      fun h => hbelow ⟨h.1, h.2.1⟩
    have hnot' : ¬ (directory <+: key ∧ (true = true → '/' ∉ key.drop directory.length) ∧
        key.getLast? ≠ some '/') := fun h => hbelow ⟨h.1, h.2.1 rfl⟩
    rw [if_neg hnot, if_neg (by simpa using hnot')]

end Listing

section Names

variable {objects : List S3Key} {segment cycle step layer : String}

theorem ne_nil_of_ne_empty {name : String} : name.toList ≠ [] ↔ name ≠ "" := by simp

theorem mem_overlayPairs (hcycle : '/' ∉ cycle.toList) :
    (step, layer) ∈ overlayPairs objects segment cycle ↔
      step ≠ "" ∧ '/' ∉ step.toList ∧ '_' ∉ step.toList ∧ layer ≠ "" ∧ '/' ∉ layer.toList ∧
        buildGfsGeojsonKey segment cycle step layer ∈ objects := by
  have hne : ".json".toList ≠ [] := by decide
  have hsuffix : '/' ∉ ".json".toList := by decide
  have hlisted : ∀ name, name ∈ listObjectBasenames objects (gfsGeojsonCyclePrefix segment cycle)
      ".json".toList true ↔ gfsGeojsonCyclePrefix segment cycle ++ name ++ ".json".toList ∈ objects ∧
        '/' ∉ name := by
    intro name
    have hstart : gfsGeojsonCyclePrefix segment cycle =
        "geojson/gfs/".toList ++ segment.toList ++ '/' :: cycle.toList ++ ['/'] := rfl
    rw [listObjectBasenames_delimited hne hsuffix, hstart, mem_basenames hsuffix]
    simp
  have hkey : buildGfsGeojsonKey segment cycle step layer = gfsGeojsonCyclePrefix segment cycle ++
      (cycle.toList ++ '_' :: (step.toList ++ '_' :: layer.toList)) ++ ".json".toList := by
    simp [buildGfsGeojsonKey, gfsStepId]
  rw [overlayPairs, List.mem_filterMap]
  constructor
  · rintro ⟨basename, hmem, h⟩
    obtain ⟨⟨step', layer'⟩, hpair, hsame⟩ := Option.map_eq_some_iff.mp h
    simp only [Prod.mk.injEq] at hsame
    obtain ⟨rfl, rfl⟩ := hsame
    obtain ⟨rfl, hunderscore, hstep, hlayer⟩ := stepAndLayerFromBasename_eq_some.mp hpair
    obtain ⟨hobject, hslash⟩ := (hlisted _).mp hmem
    rw [← ne_nil_of_ne_empty, ← ne_nil_of_ne_empty, hkey]
    simp only [String.toList_ofList]
    refine ⟨hstep, ?_, hunderscore, hlayer, ?_, hobject⟩
    · exact fun hc => hslash (by simp [hc])
    · exact fun hc => hslash (by simp [hc])
  · rintro ⟨hstep, hstepSlash, hunderscore, hlayer, hlayerSlash, hobject⟩
    rw [hkey] at hobject
    refine ⟨_, (hlisted _).mpr ⟨hobject, by simp [hcycle, hstepSlash, hlayerSlash]⟩, ?_⟩
    rw [stepAndLayerFromBasename_eq_some.mpr
      ⟨rfl, hunderscore, ne_nil_of_ne_empty.mpr hstep, ne_nil_of_ne_empty.mpr hlayer⟩]
    simp

theorem nodup_overlayPairs (h : objects.Nodup) :
    (overlayPairs objects segment cycle).Nodup := by
  have hsuffix : '/' ∉ ".json".toList := by decide
  rw [overlayPairs, listObjectBasenames_delimited (by decide) hsuffix]
  refine List.Nodup.filterMap ?_ (nodup_basenames hsuffix h)
  intro name name' pair hname hname'
  obtain ⟨⟨step, layer⟩, hpair, rfl⟩ := Option.map_eq_some_iff.mp hname
  obtain ⟨⟨step', layer'⟩, hpair', hsame⟩ := Option.map_eq_some_iff.mp hname'
  simp only [Prod.mk.injEq] at hsame
  obtain ⟨hstep, hlayer⟩ := hsame
  obtain rfl := String.ofList_injective hstep
  obtain rfl := String.ofList_injective hlayer
  rw [(stepAndLayerFromBasename_eq_some.mp hpair).1, (stepAndLayerFromBasename_eq_some.mp hpair').1]

/-- The service sorts the steps that the listing tells. -/
theorem cogSteps_eq :
    cogSteps objects segment cycle = sortAscending (cogStepTags objects segment cycle) := by
  rw [cogStepTags, listObjectBasenames_delimited (by decide) (by decide)]
  rfl

theorem cogSteps_perm :
    (cogSteps objects segment cycle).Perm (cogStepTags objects segment cycle) :=
  cogSteps_eq ▸ List.perm_insertionSort _ _

/-- What the listings of a cycle tell is what the keys of its objects say, each name once. -/
theorem gfs_objects_named (h : objects.Nodup) (hcycle : '/' ∉ cycle.toList) :
    (overlayPairs objects segment cycle).Nodup ∧
    (∀ step layer, (step, layer) ∈ overlayPairs objects segment cycle ↔
      step ≠ "" ∧ '/' ∉ step.toList ∧ '_' ∉ step.toList ∧ layer ≠ "" ∧ '/' ∉ layer.toList ∧
        buildGfsGeojsonKey segment cycle step layer ∈ objects) ∧
    (cogStepTags objects segment cycle).Nodup ∧
    ∀ step, step ∈ cogStepTags objects segment cycle ↔
      step ≠ "" ∧ '/' ∉ step.toList ∧ buildGfsCogKey segment cycle step ∈ objects := by
  have hsteps : (cogSteps objects segment cycle).Nodup := (pairwise_cogSteps h).imp ne_of_lt
  have hperm : (cogSteps objects segment cycle).Perm (cogStepTags objects segment cycle) :=
    cogSteps_perm
  refine ⟨nodup_overlayPairs h, fun _ _ => mem_overlayPairs hcycle, hperm.nodup_iff.mp hsteps, ?_⟩
  intro step
  rw [← hperm.mem_iff, mem_cogSteps, gfsStepId]
  simp [hcycle]
  tauto

/-- An overlay, a barb tile, a COG, a secondary COG and a foreign name of one cycle. -/
def storedCycle : List S3Key :=
  ["geojson/gfs/wind/20260808T0000Z/20260808T0000Z_f003_isobars.json",
    "geojson/gfs/wind/20260808T0000Z/20260808T0000Z_f003_barbs/3/1/2.json",
    "geojson/gfs/wind/20260808T0000Z/notes.json",
    "cog/gfs/wind/20260808T0000Z/20260808T0000Z_f003.tif",
    "cog/gfs/wind/20260808T0000Z/speed/20260808T0000Z_f006.tif"].map String.toList

theorem gfs_objects_named_stored :
    ("f003", "isobars") ∈ overlayPairs storedCycle "wind" "20260808T0000Z" ∧
    ("f003", "barbs/3/1/2") ∉ overlayPairs storedCycle "wind" "20260808T0000Z" ∧
    "f003" ∈ cogStepTags storedCycle "wind" "20260808T0000Z" ∧
    "f006" ∉ cogStepTags storedCycle "wind" "20260808T0000Z" := by
  obtain ⟨-, hpairs, -, hsteps⟩ :=
    @gfs_objects_named storedCycle "wind" "20260808T0000Z" (by decide) (by decide)
  rw [hpairs, hpairs, hsteps, hsteps]
  decide

end Names

end DataService.Sync
