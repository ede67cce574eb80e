import DataService.Lib.Segments
import DataService.Sync.GfsFullSync
import DataService.Sync.GfsNames
import DataService.Sync.GfsPass

/-! The indexes that a GFS pass leaves over an S3 whose objects are well named, read as lists:
they say of cycles, steps and layers what the names of the objects say. -/

namespace DataService.Sync

open Coroutine Coro DirectoryListing ExpiringStore NumberText

def cogDirectories (bucket : Bucket) (product : GfsProduct) : List String :=
  subdirectoryNames bucket.keys (gfsCogCyclePrefix product.s3Segment)

/-- The cycles have tags and a step with a tag each, and their overlays are filled objects
of the catalogue. -/
structure WellNamed (bucket : Bucket) : Prop where
  cycles : ∀ product ∈ gfsProducts, ∀ cycle ∈ cogDirectories bucket product, IsCycleTag cycle
  steps : ∀ product ∈ gfsProducts, ∀ cycle ∈ cogDirectories bucket product,
    ∃ fxxx, IsGfsStepTag fxxx ∧ buildGfsCogKey product.s3Segment cycle fxxx ∈ bucket.keys
  overlays : ∀ product ∈ gfsProducts, ∀ cycle ∈ cogDirectories bucket product,
    ∀ name ∈ basenames bucket.keys (gfsGeojsonCyclePrefix product.s3Segment cycle) ".json".toList,
      ∃ fxxx, IsGfsStepTag fxxx ∧ ∃ layer ∈ product.layers,
        name = gfsStepId cycle fxxx ++ '_' :: layer.toList ∧
        bucket.lookup (buildGfsGeojsonKey product.s3Segment cycle fxxx layer) = some .filled

section Listings

variable {objects : List S3Key} {segment cycle fxxx : String}

theorem mem_cogSteps : fxxx ∈ cogSteps objects segment cycle ↔
    buildGfsCogKey segment cycle fxxx ∈ objects ∧ '/' ∉ gfsStepId cycle fxxx ∧ fxxx ≠ "" := by
  have hsuffix : '/' ∉ ".tif".toList := by decide
  have hkey : buildGfsCogKey segment cycle fxxx =
      gfsCogCyclePrefix segment ++ cycle.toList ++ '/' :: gfsStepId cycle fxxx ++ ".tif".toList := rfl
  have hempty : fxxx.toList ≠ [] ↔ fxxx ≠ "" := by simp
  rw [cogSteps, mem_sortAscending, List.mem_filterMap, hkey, ← and_assoc,
    ← mem_basenames hsuffix, ← hempty]
  constructor
  · rintro ⟨name, hname, h⟩
    obtain ⟨step, hstep, rfl⟩ := Option.map_eq_some_iff.mp h
    obtain ⟨rfl, hne⟩ := stepFromBasename_eq_some.mp hstep
    exact ⟨by simpa [gfsStepId] using hname, by simpa using hne⟩
  · rintro ⟨hname, hne⟩
    refine ⟨_, hname, ?_⟩
    have hstep : stepFromBasename (gfsStepId cycle fxxx) cycle.toList = some fxxx.toList :=
      stepFromBasename_eq_some.mpr ⟨rfl, hne⟩
    simp [hstep]

/-- The steps of a cycle, each once and in the order of their names. -/
theorem pairwise_cogSteps (h : objects.Nodup) :
    (cogSteps objects segment cycle).Pairwise (· < ·) := by
  have hsuffix : '/' ∉ ".tif".toList := by decide
  apply sorted_sortAscending
  refine List.Nodup.filterMap ?_ (nodup_basenames hsuffix h)
  intro name name' step hname hname'
  obtain ⟨chars, hchars, rfl⟩ := Option.map_eq_some_iff.mp hname
  obtain ⟨chars', hchars', hsame⟩ := Option.map_eq_some_iff.mp hname'
  obtain rfl : chars' = chars := String.ofList_injective hsame
  rw [(stepFromBasename_eq_some.mp hchars).1, (stepFromBasename_eq_some.mp hchars').1]

theorem nodup_layerNames {names : List (List Char)} (h : names.Nodup) :
    (layerNames names cycle fxxx).Nodup := by
  refine h.filterMap ?_
  intro name name' layer hname hname'
  obtain ⟨p, hp, hlayer⟩ := Option.bind_eq_some_iff.mp hname
  obtain ⟨p', hp', hlayer'⟩ := Option.bind_eq_some_iff.mp hname'
  split_ifs at hlayer hlayer' with hstep hstep'
  obtain ⟨step, chars⟩ := p
  obtain ⟨step', chars'⟩ := p'
  have hsteps : step' = step := String.ofList_injective (hstep'.trans hstep.symm)
  have hchars : chars' = chars := String.ofList_injective
    ((Option.some.inj hlayer').trans (Option.some.inj hlayer).symm)
  rw [(stepAndLayerFromBasename_eq_some.mp hp).1, (stepAndLayerFromBasename_eq_some.mp hp').1,
    hsteps, hchars]

theorem mem_layerNames {names : List (List Char)} {layer : String} :
    layer ∈ layerNames names cycle fxxx ↔
      gfsStepId cycle fxxx ++ '_' :: layer.toList ∈ names ∧ '_' ∉ fxxx.toList ∧ fxxx ≠ "" ∧
        layer ≠ "" := by
  have hempty : ∀ name : String, name.toList ≠ [] ↔ name ≠ "" := fun name => by simp
  rw [layerNames, List.mem_filterMap, ← hempty, ← hempty]
  constructor
  · rintro ⟨name, hname, h⟩
    obtain ⟨⟨step, chars⟩, hp, hlayer⟩ := Option.bind_eq_some_iff.mp h
    split_ifs at hlayer with hstep
    obtain ⟨rfl, hrest⟩ := stepAndLayerFromBasename_eq_some.mp hp
    obtain rfl := hstep
    obtain rfl := Option.some.inj hlayer
    exact ⟨by simpa [gfsStepId] using hname, by simpa using hrest⟩
  · rintro ⟨hname, hrest⟩
    refine ⟨_, hname, ?_⟩
    have hp : stepAndLayerFromBasename (gfsStepId cycle fxxx ++ '_' :: layer.toList) cycle.toList =
        some (fxxx.toList, layer.toList) :=
      stepAndLayerFromBasename_eq_some.mpr ⟨by simp [gfsStepId], hrest⟩
    simp [hp]

end Listings

section Catalogue

variable {product : GfsProduct}

/-- No name in the catalogue has a slash or an underscore, and no product is named like a
cycle. -/
theorem catalogue_names (hp : product ∈ gfsProducts) :
    ¬ IsCycleTag (String.ofList (lastName ("cog/gfs/".toList ++ product.s3Segment.toList))) ∧
      ∀ layer ∈ product.layers, '_' ∉ layer.toList ∧ '/' ∉ layer.toList ∧ layer ≠ "" := by
  simp only [gfsProducts, List.mem_cons, List.not_mem_nil, or_false] at hp
  rcases hp with rfl | rfl | rfl <;> decide

theorem pairwise_cogCycles {bucket : Bucket} (hnamed : WellNamed bucket)
    (hp : product ∈ gfsProducts) :
    (cogCycles bucket.keys product.s3Segment).Pairwise (· > ·) := by
  have hstart : gfsCogCyclePrefix product.s3Segment =
      "cog/gfs/".toList ++ product.s3Segment.toList ++ ['/'] := rfl
  have hnames : (cogDirectories bucket product).Nodup := by
    have hchars : ((subdirectories bucket.keys (gfsCogCyclePrefix product.s3Segment)).map
        lastName).Nodup := by
      rw [hstart]
      refine nodup_lastNames fun d hd hlast => (catalogue_names hp).1 ?_
      rw [← hlast]
      exact hnamed.cycles product hp _ (List.mem_map.mpr ⟨d, hd, rfl⟩)
    have hmap := hchars.map (f := String.ofList) fun _ _ h => String.ofList_injective h
    rwa [List.map_map] at hmap
  exact sorted_sortDescending (hnames.filter _)

end Catalogue

/-- The indexes as a pass over the bucket writes them. -/
structure AfterPass (cfg : GfsSettings) (bucket : Bucket) (w : World) : Prop where
  cycles : ∀ productId cycle, cycle ∈ w.memberNames (.gfsCycles productId) ↔
    ∃ x ∈ scanned cfg bucket gfsProducts, x.productId = productId ∧ x.cycle = cycle
  steps : ∀ x : GfsStep, x.fxxx ∈ w.memberNames (.gfsSteps x.productId x.cycle) ↔
    x ∈ scanned cfg bucket gfsProducts
  layers : ∀ (x : GfsStep) layer,
    layer ∈ w.memberNames (.gfsLayers x.productId x.cycle x.fxxx) ↔
      x ∈ scanned cfg bucket gfsProducts ∧ layer ∈ layersFor x.productId ∧
        bucket.lookup (overlayKey (x, layer)) = some .filled
  ranked : ∀ key, KeyRanked (gfsRank cfg.reader key) key w

section AfterPass

variable {cfg : GfsSettings} {bucket : Bucket} {w : World} {product : GfsProduct}
  {productId cycle fxxx : String}

/-- Until a key of an index has run out. -/
theorem afterPass {now copied : Nat} {s : Site Bucket}
    (hpass : (syncGfs cfg).answered .ok ⟨World.initial now, bucket⟩ = some (.ok (copied, 0), s))
    (hlive : ∀ key, members w.redis w.now key = members s.world.redis s.world.now key) :
    AfterPass cfg bucket w := by
  have hmirror := gfsMirror_pass hpass
  have hnames : ∀ key, w.memberNames key = s.world.memberNames key := fun key => by
    simp only [World.memberNames, memberNames, hlive key]
  refine ⟨fun p c => ?_, fun x => ?_, fun x layer => ?_, fun key => ?_⟩
  · rw [hnames]
    change (p, c) ∈ (gfsMirror s.world).cycles ↔ _
    rw [hmirror]
    simp [GfsMirror.add]
  · rw [hnames]
    change x ∈ (gfsMirror s.world).steps ↔ _
    rw [hmirror]
    simp [GfsMirror.add]
  · rw [hnames]
    change (x, layer) ∈ (gfsMirror s.world).layers ↔ _
    rw [hmirror]
    simp [GfsMirror.add, GfsMirror.found, GfsMirror.Retrievable]
  · have hranked : KeyRanked (gfsRank cfg.reader key) key s.world := ranked_pass hpass
    obtain ⟨hnodup, hscores⟩ := hranked
    exact ⟨by rwa [hnames], by rwa [hlive]⟩

theorem scanned_product {x : GfsStep} (hx : x ∈ scanned cfg bucket gfsProducts) :
    ∃ product ∈ gfsProducts, product.productId = x.productId :=
  List.mem_map.mp hx.1

theorem mem_scanned (hp : product ∈ gfsProducts) :
    (⟨product.productId, cycle, fxxx⟩ : GfsStep) ∈ scanned cfg bucket gfsProducts ↔
      cycle ∈ activeCycles cfg bucket product.productId ∧
        fxxx ∈ cogSteps bucket.keys product.s3Segment cycle := by
  rw [scanned, Set.mem_ofPred_eq, listedSteps, segmentOf_of_mem hp]
  exact and_iff_right (List.mem_map_of_mem hp)

theorem activeCycles_of_mem (hp : product ∈ gfsProducts) :
    activeCycles cfg bucket product.productId =
      (cogCycles bucket.keys product.s3Segment).take cfg.gfsCyclesToKeep := by
  rw [activeCycles, segmentOf_of_mem hp]

theorem directory_of_active (hp : product ∈ gfsProducts)
    (hcycle : cycle ∈ activeCycles cfg bucket product.productId) :
    cycle ∈ cogDirectories bucket product := by
  rw [activeCycles_of_mem hp] at hcycle
  exact (List.mem_filter.mp (mem_sortDescending.mp (List.mem_of_mem_take hcycle))).1

/-- The index of cycles is the listing that the cap leaves. -/
theorem getGfsCycles_eq (h : AfterPass cfg bucket w) (hnamed : WellNamed bucket)
    (hp : product ∈ gfsProducts) :
    getGfsCycles w product.productId = activeCycles cfg bucket product.productId := by
  let score : String → Int := fun cycle => (cycleScore cfg.reader cycle).getD 0
  have hranked := h.ranked (.gfsCycles product.productId)
  have hscore : ∀ p ∈ members w.redis w.now (.gfsCycles product.productId), p.2 = score p.1 := by
    intro p hmem
    have hvalue : cycleScore cfg.reader p.1 = some p.2 := hranked.scores p hmem
    simp [score, hvalue]
  have hsorted : (activeCycles cfg bucket product.productId).Pairwise (· > ·) := by
    rw [activeCycles_of_mem hp]
    exact (pairwise_cogCycles hnamed hp).sublist (List.take_sublist _ _)
  have htag : ∀ cycle ∈ activeCycles cfg bucket product.productId, IsCycleTag cycle :=
    fun cycle hcycle => hnamed.cycles product hp cycle (directory_of_active hp hcycle)
  have hvalue : ∀ cycle ∈ activeCycles cfg bucket product.productId,
      cycleScore cfg.reader cycle = some (score cycle) := by
    intro cycle hcycle
    obtain ⟨date, time, hname, hdate, htime, hdigits⟩ := (htag cycle hcycle).split
    simp [score, cycleScore_tag hname hdate htime hdigits]
  refine (RankedSet.descending_eq_iff hscore hranked.nodup hsorted).mpr ⟨fun cycle => ?_, ?_⟩
  · refine Iff.trans ?_ (h.cycles product.productId cycle).symm
    constructor
    · intro hcycle
      obtain ⟨fxxx, hstep, hcog⟩ := hnamed.steps product hp cycle (directory_of_active hp hcycle)
      have htagged := htag cycle hcycle
      have hlisted : fxxx ∈ cogSteps bucket.keys product.s3Segment cycle :=
        mem_cogSteps.mpr ⟨hcog, slash_notMem_stepId htagged hstep, hstep.ne_empty⟩
      exact ⟨_, (mem_scanned hp).mpr ⟨hcycle, hlisted⟩, rfl, rfl⟩
    · rintro ⟨x, hx, hxp, rfl⟩
      rw [← hxp]
      exact hx.2.1
  · intro cycle hcycle cycle' hcycle' hlt
    exact cycleTag_scores (htag cycle hcycle) (htag cycle' hcycle') hlt (hvalue cycle hcycle)
      (hvalue cycle' hcycle')

def overlayNames (bucket : Bucket) (segment cycle : String) : List (List Char) :=
  basenames bucket.keys (gfsGeojsonCyclePrefix segment cycle) ".json".toList

theorem mem_overlayNames {segment layer : String} :
    gfsStepId cycle fxxx ++ '_' :: layer.toList ∈ overlayNames bucket segment cycle ↔
      buildGfsGeojsonKey segment cycle fxxx layer ∈ bucket.keys ∧
        '/' ∉ gfsStepId cycle fxxx ++ '_' :: layer.toList := by
  have hsuffix : '/' ∉ ".json".toList := by decide
  have hstart : gfsGeojsonCyclePrefix segment cycle =
      "geojson/gfs/".toList ++ segment.toList ++ '/' :: cycle.toList ++ ['/'] := rfl
  rw [overlayNames, hstart, mem_basenames hsuffix, buildGfsGeojsonKey, hstart]
  simp

/-- What the index says of the layers of a step, S3 says too. -/
theorem mem_layers_iff (h : AfterPass cfg bucket w) (hnamed : WellNamed bucket)
    (hp : product ∈ gfsProducts)
    (hx : (⟨product.productId, cycle, fxxx⟩ : GfsStep) ∈ scanned cfg bucket gfsProducts)
    {layer : String} : layer ∈ w.memberNames (.gfsLayers product.productId cycle fxxx) ↔
      layer ∈ layerNames (overlayNames bucket product.s3Segment cycle) cycle fxxx := by
  obtain ⟨hcycle, hstep⟩ := (mem_scanned hp).mp hx
  have hdirectory := directory_of_active hp hcycle
  obtain ⟨-, hslash, hne⟩ := mem_cogSteps.mp hstep
  have hkey : overlayKey (⟨product.productId, cycle, fxxx⟩, layer) =
      buildGfsGeojsonKey product.s3Segment cycle fxxx layer := by
    simp only [overlayKey, segmentOf_of_mem hp]
  have hindex := h.layers ⟨product.productId, cycle, fxxx⟩ layer
  rw [layersFor_of_mem hp, hkey] at hindex
  rw [hindex, mem_layerNames]
  constructor
  · rintro ⟨-, hlayer, hlookup⟩
    obtain ⟨hplain, hlayerSlash, hlayerNe⟩ := (catalogue_names hp).2 layer hlayer
    have hmem : gfsStepId cycle fxxx ++ '_' :: layer.toList ∈
        overlayNames bucket product.s3Segment cycle := by
      refine mem_overlayNames.mpr ⟨AList.mem_keys.mp (AList.lookup_isSome.mp (by simp [hlookup])), ?_⟩
      simp [hslash, hlayerSlash]
    obtain ⟨fxxx', htag, layer', hlayer', hname, -⟩ := hnamed.overlays product hp cycle hdirectory _ hmem
    have hsame := (Segments.last_eq hplain ((catalogue_names hp).2 layer' hlayer').1 hname).1
    have hfxxx : fxxx = fxxx' := by
      apply String.toList_injective
      simpa [gfsStepId] using hsame
    subst hfxxx
    exact ⟨hmem, htag.plain.1, hne, hlayerNe⟩
  · rintro ⟨hmem, hplain, -, -⟩
    obtain ⟨fxxx', htag, layer', hlayer', hname, hlookup⟩ :=
      hnamed.overlays product hp cycle hdirectory _ hmem
    have hsplit : fxxx.toList ++ '_' :: layer.toList = fxxx'.toList ++ '_' :: layer'.toList := by
      simpa [gfsStepId] using hname
    obtain ⟨hsame, hsame'⟩ := Segments.first_eq hplain htag.plain.1 hsplit
    obtain rfl := String.toList_injective hsame
    obtain rfl := String.toList_injective hsame'
    exact ⟨hx, hlayer', hlookup⟩

theorem getGfsLayers_eq (h : AfterPass cfg bucket w) (hnamed : WellNamed bucket)
    (hp : product ∈ gfsProducts)
    (hx : (⟨product.productId, cycle, fxxx⟩ : GfsStep) ∈ scanned cfg bucket gfsProducts) :
    getGfsLayers w product.productId cycle fxxx =
      layersOf (layersByStep (overlayNames bucket product.s3Segment cycle) cycle) fxxx := by
  have hsuffix : '/' ∉ ".json".toList := by decide
  have hnodup : (overlayNames bucket product.s3Segment cycle).Nodup :=
    nodup_basenames hsuffix bucket.nodupKeys
  rw [layersOf_layersByStep]
  refine List.Pairwise.eq_of_mem_iff
    (sorted_sortAscending (h.ranked (.gfsLayers product.productId cycle fxxx)).nodup)
    (sorted_sortAscending (nodup_layerNames hnodup)) fun layer => ?_
  rw [getGfsLayers, mem_sortAscending, mem_sortAscending]
  exact mem_layers_iff h hnamed hp hx

/-- The steps of a scanned cycle are in the order of their scores. -/
def StepsInOrder (cfg : GfsSettings) (bucket : Bucket) (productId cycle : String) : Prop :=
  ∀ fxxx fxxx', ⟨productId, cycle, fxxx⟩ ∈ scanned cfg bucket gfsProducts →
    ⟨productId, cycle, fxxx'⟩ ∈ scanned cfg bucket gfsProducts → fxxx < fxxx' →
    ∀ score score', stepScore cfg.reader fxxx = some score →
      stepScore cfg.reader fxxx' = some score' → score ≤ score'

theorem getGfsSteps_eq_iff (h : AfterPass cfg bucket w) (hp : product ∈ gfsProducts)
    (hcycle : cycle ∈ activeCycles cfg bucket product.productId) :
    getGfsSteps w product.productId cycle = cogSteps bucket.keys product.s3Segment cycle ↔
      StepsInOrder cfg bucket product.productId cycle := by
  let score : String → Int := fun fxxx => (stepScore cfg.reader fxxx).getD 0
  have hranked := h.ranked (.gfsSteps product.productId cycle)
  have hscore : ∀ p ∈ members w.redis w.now (.gfsSteps product.productId cycle),
      p.2 = score p.1 := by
    intro p hmem
    have hvalue : stepScore cfg.reader p.1 = some p.2 := hranked.scores p hmem
    simp [score, hvalue]
  have hsteps : ∀ fxxx, fxxx ∈ cogSteps bucket.keys product.s3Segment cycle ↔
      fxxx ∈ w.memberNames (.gfsSteps product.productId cycle) := by
    intro fxxx
    rw [h.steps ⟨product.productId, cycle, fxxx⟩, mem_scanned hp]
    simp [hcycle]
  refine (RankedSet.ascending_eq_iff hscore hranked.nodup
    (pairwise_cogSteps bucket.nodupKeys)).trans ?_
  constructor
  · rintro ⟨-, horder⟩ fxxx fxxx' hx hx' hlt value value' hvalue hvalue'
    have hle := horder fxxx ((mem_scanned hp).mp hx).2 fxxx' ((mem_scanned hp).mp hx').2 hlt
    simpa [score, hvalue, hvalue'] using hle
  · intro horder
    refine ⟨hsteps, fun fxxx hmem fxxx' hmem' hlt => ?_⟩
    have hvalue : ∀ f ∈ cogSteps bucket.keys product.s3Segment cycle,
        stepScore cfg.reader f = some (score f) := by
      intro f hf
      obtain ⟨p, hpm, rfl⟩ := List.mem_map.mp ((hsteps f).mp hf)
      have hp2 : stepScore cfg.reader p.1 = some p.2 := hranked.scores p hpm
      simp [score, hp2]
    exact horder fxxx fxxx' ((mem_scanned hp).mpr ⟨hcycle, hmem⟩)
      ((mem_scanned hp).mpr ⟨hcycle, hmem'⟩) hlt _ _ (hvalue fxxx hmem) (hvalue fxxx' hmem')

end AfterPass

end DataService.Sync
