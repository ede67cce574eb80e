import DataService.Sync.GfsIndexed

/-! The two GFS read paths after a pass over the same S3: the indexes, with the on-demand
strategy behind them, and the on-demand strategy alone. -/

namespace DataService.Sync

open Coroutine Coro DirectoryListing ExpiringStore NumberText

/-- S3 with this bucket, while it answers. -/
def bucketSite (bucket : Bucket) : S3Site := ⟨bucket.keys, true⟩

section OnDemand

variable {ocfg : OnDemandConfig} {bucket : Bucket} {o : OnDemandState} {product : GfsProduct}
  {productId cycle : String}

/-- The layers that S3 shows of the steps of a cycle; none for an unknown product. -/
def shownLayers (bucket : Bucket) (productId cycle : String) : List (String × List String) :=
  if (s3Segment productId).isSome then
    layersByStep (overlayNames bucket (segmentOf productId) cycle) cycle
  else []

theorem known_of_mem (hp : product ∈ gfsProducts) : (s3Segment product.productId).isSome = true := by
  rw [s3Segment, getProduct_of_mem hp]
  rfl

theorem onDemand_listCycles (ho : Coherent ocfg (bucketSite bucket) o) (hp : product ∈ gfsProducts) :
    (gfsOnDemand ocfg (.listCycles product.productId) o).1 =
      some (.names (capped ocfg.gfsCyclesToKeep (cogCycles bucket.keys product.s3Segment))) := by
  have hserve : (gfsOnDemand ocfg (.listCycles product.productId) o).1 =
      (onDemand ocfg (.gfsCycles product.productId) o).1.map id := rfl
  have hknown : (OnDemandKey.gfsCycles product.productId).known = true := known_of_mem hp
  rw [hserve, onDemand_of_coherent ho, if_pos hknown, Option.map_id, id, ← segmentOf_of_mem hp]
  rfl

theorem onDemand_listSteps (ho : Coherent ocfg (bucketSite bucket) o) (hp : product ∈ gfsProducts) :
    (gfsOnDemand ocfg (.listSteps product.productId cycle) o).1 =
      some (.names (cogSteps bucket.keys product.s3Segment cycle)) := by
  have hserve : (gfsOnDemand ocfg (.listSteps product.productId cycle) o).1 =
      (onDemand ocfg (.gfsSteps product.productId cycle) o).1.map id := rfl
  have hknown : (OnDemandKey.gfsSteps product.productId cycle).known = true := known_of_mem hp
  rw [hserve, onDemand_of_coherent ho, if_pos hknown, Option.map_id, id, ← segmentOf_of_mem hp]
  rfl

theorem onDemand_gfsLayers (ho : Coherent ocfg (bucketSite bucket) o) :
    (onDemand ocfg (.gfsLayers productId cycle) o).1 =
      some (.layers (shownLayers bucket productId cycle)) := by
  rw [onDemand_of_coherent ho, shownLayers]
  by_cases hknown : (s3Segment productId).isSome = true
  · have hkey : (OnDemandKey.gfsLayers productId cycle).known = true := hknown
    rw [if_pos hkey, if_pos hknown]
    rfl
  · have hkey : ¬ (OnDemandKey.gfsLayers productId cycle).known = true := hknown
    rw [if_neg hkey, if_neg hknown]
    rfl

theorem onDemand_listLayers {fxxx : String} (ho : Coherent ocfg (bucketSite bucket) o) :
    (gfsOnDemand ocfg (.listLayers productId cycle fxxx) o).1 =
      some (.names (layersOf (shownLayers bucket productId cycle) fxxx)) := by
  have hserve : (gfsOnDemand ocfg (.listLayers productId cycle fxxx) o).1 =
      (onDemand ocfg (.gfsLayers productId cycle) o).1.map
        (ListingRequest.gfsListLayers productId cycle fxxx).view := rfl
  rw [hserve, onDemand_gfsLayers ho]
  rfl

theorem onDemand_listLayersBulk {steps : List String} (ho : Coherent ocfg (bucketSite bucket) o) :
    (gfsOnDemand ocfg (.listLayersBulk productId cycle steps) o).1 =
      some (.layers (steps.map fun fxxx =>
        (fxxx, layersOf (shownLayers bucket productId cycle) fxxx))) := by
  cases steps with
  | nil => rfl
  | cons fxxx steps =>
    have hserve : (gfsOnDemand ocfg (.listLayersBulk productId cycle (fxxx :: steps)) o).1 =
        (onDemand ocfg (.gfsLayers productId cycle) o).1.map
          (ListingRequest.gfsListLayersBulk productId cycle (fxxx :: steps)).view := rfl
    rw [hserve, onDemand_gfsLayers ho]
    rfl

end OnDemand

section Agreement

variable {cfg : GfsSettings} {ocfg : OnDemandConfig} {bucket : Bucket} {w : World}
  {o o' : OnDemandState} {productId cycle fxxx : String}

theorem onDemand_congr (ho : Coherent ocfg (bucketSite bucket) o)
    (ho' : Coherent ocfg (bucketSite bucket) o') (r : GfsRequest) :
    (gfsOnDemand ocfg r o).1 = (gfsOnDemand ocfg r o').1 := by
  unfold gfsOnDemand serve
  split
  · rfl
  · rw [onDemand_of_coherent ho, onDemand_of_coherent ho']

theorem cycles_agree (h : AfterPass cfg bucket w) (hnamed : WellNamed bucket)
    (hcap : ocfg.gfsCyclesToKeep = cfg.gfsCyclesToKeep) (ho : Coherent ocfg (bucketSite bucket) o)
    (ho' : Coherent ocfg (bucketSite bucket) o') :
    (gfsFullSync ocfg w (.listCycles productId) o).1 =
      (gfsOnDemand ocfg (.listCycles productId) o').1 := by
  rw [gfsFullSync, indexFirst]
  split
  · exact onDemand_congr ho ho' _
  · rename_i hne
    obtain ⟨cycle, hcycle⟩ := List.exists_mem_of_ne_nil _ hne
    obtain ⟨x, hx, rfl, -⟩ := (h.cycles productId cycle).mp (RankedSet.mem_descending.mp hcycle)
    obtain ⟨product, hp, hproduct⟩ := scanned_product hx
    rw [← hproduct, getGfsCycles_eq h hnamed hp, onDemand_listCycles ho' hp, hcap, capped,
      if_pos cfg.gfsCyclesToKeep_pos, activeCycles_of_mem hp]

theorem layers_indexed (h : AfterPass cfg bucket w) (hnamed : WellNamed bucket)
    (hne : getGfsLayers w productId cycle fxxx ≠ []) :
    getGfsLayers w productId cycle fxxx = layersOf (shownLayers bucket productId cycle) fxxx := by
  obtain ⟨layer, hlayer⟩ := List.exists_mem_of_ne_nil _ hne
  rw [getGfsLayers, mem_sortAscending] at hlayer
  have hx := ((h.layers ⟨productId, cycle, fxxx⟩ layer).mp hlayer).1
  obtain ⟨product, hp, hproduct⟩ := scanned_product hx
  obtain rfl : product.productId = productId := hproduct
  rw [getGfsLayers_eq h hnamed hp hx, shownLayers, if_pos (known_of_mem hp), segmentOf_of_mem hp]

/-- The steps that the index does not have are filled up from S3. -/
theorem updateLayers_map (L index : String → List String) (steps : List String)
    (h : ∀ fxxx ∈ steps, index fxxx ≠ [] → index fxxx = L fxxx) :
    updateLayers (steps.map fun fxxx => (fxxx, index fxxx))
      (.layers ((steps.filter fun fxxx => index fxxx = []).map fun fxxx => (fxxx, L fxxx))) =
      .layers (steps.map fun fxxx => (fxxx, L fxxx)) := by
  rw [updateLayers, List.map_map, Listed.layers.injEq]
  refine List.map_congr_left fun fxxx hmem => ?_
  have hfind : ((steps.filter fun fxxx => index fxxx = []).map fun fxxx => (fxxx, L fxxx)).find?
      (fun q => q.1 == fxxx) = if index fxxx = [] then some (fxxx, L fxxx) else none := by
    rw [List.find?_map]
    split
    · rename_i hnone
      have hin : fxxx ∈ steps.filter fun fxxx => index fxxx = [] :=
        List.mem_filter.mpr ⟨hmem, decide_eq_true hnone⟩
      cases hfound : (steps.filter fun fxxx => index fxxx = []).find?
          ((fun q : String × List String => q.1 == fxxx) ∘ fun fxxx => (fxxx, L fxxx)) with
      | none => exact absurd (List.find?_eq_none.mp hfound fxxx hin) (by simp)
      | some other =>
        obtain rfl : other = fxxx := by simpa using List.find?_some hfound
        rfl
    · rename_i hsome
      rw [List.find?_eq_none.mpr]
      · rfl
      · intro other hother hsame
        obtain rfl : other = fxxx := by simpa using hsame
        exact hsome (of_decide_eq_true (List.mem_filter.mp hother).2)
  simp only [Function.comp, hfind]
  split
  · rfl
  · rename_i hsome
    simp [h fxxx hmem hsome]

theorem layersBulk_agree (h : AfterPass cfg bucket w) (hnamed : WellNamed bucket)
    (ho : Coherent ocfg (bucketSite bucket) o) (ho' : Coherent ocfg (bucketSite bucket) o')
    (steps : List String) : (gfsFullSync ocfg w (.listLayersBulk productId cycle steps) o).1 =
      (gfsOnDemand ocfg (.listLayersBulk productId cycle steps) o').1 := by
  have hindexed : ∀ fxxx ∈ steps, getGfsLayers w productId cycle fxxx ≠ [] →
      getGfsLayers w productId cycle fxxx = layersOf (shownLayers bucket productId cycle) fxxx :=
    fun fxxx _ hne => layers_indexed h hnamed hne
  rw [onDemand_listLayersBulk ho']
  simp only [gfsFullSync]
  split
  · rename_i hnone
    refine congrArg (fun l => some (Listed.layers l)) (List.map_congr_left fun fxxx hmem => ?_)
    have hne : getGfsLayers w productId cycle fxxx ≠ [] := by
      intro hempty
      have hmissing : fxxx ∈ steps.filter fun fxxx => getGfsLayers w productId cycle fxxx = [] :=
        List.mem_filter.mpr ⟨hmem, decide_eq_true hempty⟩
      rw [hnone] at hmissing
      cases hmissing
    rw [hindexed fxxx hmem hne]
  · rw [onDemand_listLayersBulk ho, Option.map_some]
    exact congrArg some (updateLayers_map _ _ steps hindexed)

theorem steps_agree_iff (h : AfterPass cfg bucket w) (ho : Coherent ocfg (bucketSite bucket) o)
    (ho' : Coherent ocfg (bucketSite bucket) o') :
    (gfsFullSync ocfg w (.listSteps productId cycle) o).1 =
        (gfsOnDemand ocfg (.listSteps productId cycle) o').1 ↔
      StepsInOrder cfg bucket productId cycle := by
  rw [gfsFullSync, indexFirst]
  split
  · rename_i hnone
    refine iff_of_true (onDemand_congr ho ho' _) fun fxxx _ hx => ?_
    have hmem := (h.steps ⟨productId, cycle, fxxx⟩).mpr hx
    have hindex := RankedSet.mem_ascending.mpr hmem
    rw [← getGfsSteps, hnone] at hindex
    cases hindex
  · rename_i hne
    obtain ⟨fxxx, hfxxx⟩ := List.exists_mem_of_ne_nil _ hne
    have hx := (h.steps ⟨productId, cycle, fxxx⟩).mp (RankedSet.mem_ascending.mp hfxxx)
    obtain ⟨product, hp, hproduct⟩ := scanned_product hx
    obtain rfl : product.productId = productId := hproduct
    rw [onDemand_listSteps ho' hp, Option.some.injEq, Listed.names.injEq]
    exact getGfsSteps_eq_iff h hp ((mem_scanned hp).mp hx).1

/-- After a pass in which every request was answered, and as long as no index has run out, the
warm path and the cold path list the same cycles and layers; the steps of a cycle come in the
same order exactly if their scores are in the order of their names. -/
theorem gfs_paths_agree (cfg : GfsSettings) (ocfg : OnDemandConfig)
    (hcap : ocfg.gfsCyclesToKeep = cfg.gfsCyclesToKeep) (hnamed : WellNamed bucket)
    {now copied : Nat} {s : Site Bucket}
    (hpass : (syncGfs cfg).answered .ok ⟨World.initial now, bucket⟩ = some (.ok (copied, 0), s))
    (hlive : ∀ key, members w.redis w.now key = members s.world.redis s.world.now key)
    (ho : Coherent ocfg (bucketSite bucket) o) (ho' : Coherent ocfg (bucketSite bucket) o') :
    (∀ r, (∀ productId cycle, r ≠ .listSteps productId cycle) →
      (gfsFullSync ocfg w r o).1 = (gfsOnDemand ocfg r o').1) ∧
    ∀ productId cycle, (gfsFullSync ocfg w (.listSteps productId cycle) o).1 =
        (gfsOnDemand ocfg (.listSteps productId cycle) o').1 ↔
      StepsInOrder cfg bucket productId cycle := by
  have h := afterPass hpass hlive
  refine ⟨fun r hr => ?_, fun productId cycle => steps_agree_iff h ho ho'⟩
  cases r with
  | listCycles productId => exact cycles_agree h hnamed hcap ho ho'
  | listSteps productId cycle => exact absurd rfl (hr productId cycle)
  | listLayers productId cycle fxxx =>
    rw [gfsFullSync, indexFirst]
    split
    · exact onDemand_congr ho ho' _
    · rename_i hne
      rw [onDemand_listLayers ho', layers_indexed h hnamed hne]
  | listLayersBulk productId cycle steps => exact layersBulk_agree h hnamed ho ho' steps

theorem stepsInOrder_of_tags (h : ∀ x ∈ scanned cfg bucket gfsProducts, x.productId = productId →
    x.cycle = cycle → IsGfsStepTag x.fxxx) : StepsInOrder cfg bucket productId cycle :=
  fun _ _ hx hx' hlt _ _ hscore hscore' =>
    stepTag_scores (h _ hx rfl rfl) (h _ hx' rfl rfl) hlt hscore hscore'

end Agreement

/-- One cycle of one product, with the COGs of the steps and one overlay. -/
def mslpBucket (steps : List String) : Bucket :=
  steps.foldl (fun bucket fxxx => bucket.insert
    (buildGfsCogKey "mean-sea-level-pressure" "20260101T0000Z" fxxx) .filled)
    ((∅ : Bucket).insert
      (buildGfsGeojsonKey "mean-sea-level-pressure" "20260101T0000Z" "f001" "isobars") .filled)

def keepTwoCycles : GfsSettings := ⟨2, Nat.two_pos, 60, minute_pos, .asciiOnly⟩

def twoCycles : OnDemandConfig :=
  { syncPrefetch := true, tilesetListingTtl := 60, tilesetListingTtl_pos := minute_pos,
    wrfInitsToKeep := 2, gfsCyclesToKeep := 2, digits := .asciiOnly }

theorem wellNamed_mslp {bucket : Bucket}
    (hdirectories : ∀ product ∈ gfsProducts, ∀ cycle ∈ cogDirectories bucket product,
      product = gfsMslp ∧ cycle = "20260101T0000Z")
    (hstep : buildGfsCogKey "mean-sea-level-pressure" "20260101T0000Z" "f001" ∈ bucket.keys)
    (hnames : overlayNames bucket "mean-sea-level-pressure" "20260101T0000Z" =
      ["20260101T0000Z_f001_isobars".toList])
    (hfilled : bucket.lookup (buildGfsGeojsonKey "mean-sea-level-pressure" "20260101T0000Z" "f001"
      "isobars") = some .filled) : WellNamed bucket := by
  refine ⟨fun product hp cycle hcycle => ?_, fun product hp cycle hcycle => ?_,
    fun product hp cycle hcycle name hname => ?_⟩
  · rw [(hdirectories product hp cycle hcycle).2]
    decide
  · obtain ⟨rfl, rfl⟩ := hdirectories product hp cycle hcycle
    exact ⟨"f001", by decide, hstep⟩
  · obtain ⟨rfl, rfl⟩ := hdirectories product hp cycle hcycle
    have hname' : name ∈ ["20260101T0000Z_f001_isobars".toList] := hnames ▸ hname
    obtain rfl := List.mem_singleton.mp hname'
    exact ⟨"f001", by decide, "isobars", by decide, by decide, hfilled⟩

/-- One step with a tag. -/
theorem gfs_paths_agree_mslp : ∃ s,
    (syncGfs keepTwoCycles).answered .ok ⟨World.initial 0, mslpBucket ["f001"]⟩ =
      some (.ok (1, 0), s) ∧
    ∀ r, (gfsFullSync twoCycles s.world r ⟨0, ∅, some (bucketSite (mslpBucket ["f001"]))⟩).1 =
      (gfsOnDemand twoCycles r ⟨0, ∅, some (bucketSite (mslpBucket ["f001"]))⟩).1 := by
  have hends : ((syncGfs keepTwoCycles).answered .ok ⟨World.initial 0, mslpBucket ["f001"]⟩).map
      (fun p => (p.1.toOption, ())) = some (some (1, 0), ()) := by decide +kernel
  obtain ⟨s, hpass, -⟩ := answered_of_view (c := syncGfs keepTwoCycles) (f := fun _ => ()) hends
  have hnamed : WellNamed (mslpBucket ["f001"]) :=
    wellNamed_mslp (by decide +kernel) (by decide +kernel) (by decide +kernel) (by decide +kernel)
  have hcoherent : Coherent twoCycles (bucketSite (mslpBucket ["f001"]))
      ⟨0, ∅, some (bucketSite (mslpBucket ["f001"]))⟩ := coherent_empty 0
  have hagree := gfs_paths_agree keepTwoCycles twoCycles rfl hnamed hpass (fun _ => rfl) hcoherent
    hcoherent
  refine ⟨s, hpass, fun r => ?_⟩
  by_cases hr : ∀ productId cycle, r ≠ .listSteps productId cycle
  · exact hagree.1 r hr
  · push Not at hr
    obtain ⟨productId, cycle, rfl⟩ := hr
    have htags : ∀ product ∈ gfsProducts, ∀ cycle ∈ activeCycles keepTwoCycles
        (mslpBucket ["f001"]) product.productId, ∀ fxxx ∈ listedSteps (mslpBucket ["f001"])
          product.productId cycle, IsGfsStepTag fxxx := by decide +kernel
    refine (hagree.2 productId cycle).mpr (stepsInOrder_of_tags fun x hx _ _ => ?_)
    obtain ⟨product, hp, hproduct⟩ := scanned_product hx
    obtain ⟨-, hcycle, hstep⟩ := hx
    rw [← hproduct] at hcycle hstep
    exact htags product hp x.cycle hcycle x.fxxx hstep

/-- A COG whose step is no number has score 0. -/
theorem stray_cog_listed_first : ∃ s,
    WellNamed (mslpBucket ["f001", "g"]) ∧
    (syncGfs keepTwoCycles).answered .ok ⟨World.initial 0, mslpBucket ["f001", "g"]⟩ =
      some (.ok (1, 0), s) ∧
    (gfsFullSync twoCycles s.world (.listSteps "mean-sea-level-pressure" "20260101T0000Z")
      ⟨0, ∅, some (bucketSite (mslpBucket ["f001", "g"]))⟩).1 = some (.names ["g", "f001"]) ∧
    (gfsOnDemand twoCycles (.listSteps "mean-sea-level-pressure" "20260101T0000Z")
      ⟨0, ∅, some (bucketSite (mslpBucket ["f001", "g"]))⟩).1 = some (.names ["f001", "g"]) := by
  have hends : ((syncGfs keepTwoCycles).answered .ok
      ⟨World.initial 0, mslpBucket ["f001", "g"]⟩).map (fun p => (p.1.toOption,
        (gfsFullSync twoCycles p.2.world (.listSteps "mean-sea-level-pressure" "20260101T0000Z")
          ⟨0, ∅, some (bucketSite (mslpBucket ["f001", "g"]))⟩).1)) =
      some (some (1, 0), some (.names ["g", "f001"])) := by decide +kernel
  obtain ⟨s, hpass, hwarm⟩ := answered_of_view (c := syncGfs keepTwoCycles)
    (f := fun t : Site Bucket => (gfsFullSync twoCycles t.world
      (.listSteps "mean-sea-level-pressure" "20260101T0000Z")
      ⟨0, ∅, some (bucketSite (mslpBucket ["f001", "g"]))⟩).1) hends
  have hnamed : WellNamed (mslpBucket ["f001", "g"]) :=
    wellNamed_mslp (by decide +kernel) (by decide +kernel) (by decide +kernel) (by decide +kernel)
  exact ⟨s, hnamed, hpass, hwarm, by decide +kernel⟩

end DataService.Sync
