import DataService.Sync.DegradedListing
import DataService.Sync.ReadStrategies

/-! Listings during an outage of S3, when every call fails with an error that the `try_` helpers
turn into an empty listing. What Redis knows is all that there is to answer with, and the
listings of the layers of a WRF step raise where Redis knows nothing. -/

namespace DataService.Sync

open ExpiringStore

/-- The cached listing, or an empty one. -/
def OnDemandState.recalled (s : OnDemandState) (key : OnDemandKey) : Listed :=
  (s.listings.get s.now key).getD key.nothing

def ListingRequest.recalled (s : OnDemandState) (r : ListingRequest) : Listed :=
  if r.idle then .layers [] else r.view (s.recalled r.key)

/-- The indexed names, unless there are none. -/
def namesOr (index : List String) (listed : Listed) : Listed :=
  if index = [] then listed else .names index

/-- The indexes of GFS, and the cached listing for what they lack. -/
def GfsRequest.degraded (w : World) (s : OnDemandState) : GfsRequest → Listed
  | .listCycles productId =>
    namesOr (getGfsCycles w productId) ((GfsRequest.listCycles productId).toListing.recalled s)
  | .listSteps productId cycle =>
    namesOr (getGfsSteps w productId cycle)
      ((GfsRequest.listSteps productId cycle).toListing.recalled s)
  | .listLayers productId cycle fxxx =>
    namesOr (getGfsLayers w productId cycle fxxx)
      ((GfsRequest.listLayers productId cycle fxxx).toListing.recalled s)
  | .listLayersBulk productId cycle steps =>
    let byStep := steps.map fun fxxx => (fxxx, getGfsLayers w productId cycle fxxx)
    let missing := steps.filter fun fxxx => getGfsLayers w productId cycle fxxx = []
    if missing = [] then .layers byStep
    else updateLayers byStep ((GfsRequest.listLayersBulk productId cycle missing).toListing.recalled s)

/-- What Redis knows: the index in full sync, else the cached listing, else nothing. -/
def ReadRequest.degraded (w : World) (s : OnDemandState) :
    GfsStrategy → ReadRequest → Listed
  | .onDemand, .one r => r.recalled s
  | .onDemand, .wrfListLayersBulk productId initTag steps =>
    .layers (steps.map fun fxxx => (fxxx, (s.recalled (.wrfLayers productId initTag fxxx)).toNames))
  | .fullSync, .one r =>
    match r.gfs with
    | some r => r.degraded w s
    | none => namesOr (r.key.indexed w) (if s.s3.isNone then r.key.nothing else r.recalled s)
  | .fullSync, .wrfListLayersBulk productId initTag steps =>
    .layers (steps.map fun fxxx =>
      let key := OnDemandKey.wrfLayers productId initTag fxxx
      (fxxx, if key.indexed w = [] ∧ s.s3.isNone = false then (s.recalled key).toNames
        else key.indexed w))

/-- The layers listings of WRF steps that a request needs. -/
def ReadRequest.wrfLayers : ReadRequest → List OnDemandKey
  | .one r => if r.key.raises then [r.key] else []
  | .wrfListLayersBulk productId initTag steps => steps.map (.wrfLayers productId initTag)

/-- A listing is answered without S3. -/
def AnswersWithoutS3 (strategy : GfsStrategy) (w : World) (s : OnDemandState)
    (key : OnDemandKey) : Prop :=
  s.s3 = none ∨ s.listings.get s.now key ≠ none ∨ (strategy = .fullSync ∧ key.indexed w ≠ [])

instance (strategy : GfsStrategy) (w : World) (s : OnDemandState) (key : OnDemandKey) :
    Decidable (AnswersWithoutS3 strategy w s key) :=
  inferInstanceAs (Decidable (s.s3 = none ∨ s.listings.get s.now key ≠ none ∨
    (strategy = .fullSync ∧ key.indexed w ≠ [])))

section Outage

variable {cfg : OnDemandConfig} {w : World} {s : OnDemandState} {key : OnDemandKey}

theorem onDemand_outage (hdown : ∀ site ∈ s.s3, site.up = false) : (onDemand cfg key s).1 =
    if key.raises ∧ s.s3 ≠ none ∧ s.listings.get s.now key = none then none
    else some (s.recalled key) := by
  unfold OnDemandState.recalled
  cases hget : s.listings.get s.now key with
  | some listed => simp [onDemand_cached hget]
  | none =>
    cases hs : s.s3 with
    | none => simp [onDemand, hget, hs]
    | some site =>
      cases hknown : key.known with
      | false =>
        have hraises : key.raises = false := by
          cases key <;> first | rfl | cases hknown
        simp [onDemand_unknown hget hknown, hraises]
      | true =>
        have hsite : site.up = false := hdown site (by simp [hs])
        rw [onDemand_missed hget hs hknown, discover_down hsite]
        cases key.raises <;> simp

/-- A listing that raises caches nothing. -/
theorem onDemand_wrfLayers_outage (hdown : ∀ site ∈ s.s3, site.up = false)
    (productId initTag fxxx : String) :
    (onDemand cfg (.wrfLayers productId initTag fxxx) s).2 = s := by
  cases hget : s.listings.get s.now (.wrfLayers productId initTag fxxx) with
  | some listed => rw [onDemand_cached hget]
  | none =>
    cases hs : s.s3 with
    | none => simp [onDemand, hget, hs]
    | some site =>
      have hsite : site.up = false := hdown site (by simp [hs])
      rw [onDemand_missed hget hs rfl, discover_down hsite]
      rfl

theorem serve_outage (hdown : ∀ site ∈ s.s3, site.up = false) (r : ListingRequest) :
    (serve cfg r s).1 =
      if r.key.raises ∧ s.s3 ≠ none ∧ s.listings.get s.now r.key = none then none
      else some (r.recalled s) := by
  unfold serve ListingRequest.recalled
  by_cases hidle : r.idle = true
  · have hraises : r.key.raises = false := by
      cases r with
      | list key => cases hidle
      | gfsListLayers productId cycle fxxx => cases hidle
      | gfsListLayersBulk productId cycle steps => rfl
    simp [hidle, hraises]
  · rw [if_neg hidle, if_neg hidle, onDemand_outage hdown]
    split <;> rfl

theorem gfsOnDemand_outage (hdown : ∀ site ∈ s.s3, site.up = false) (r : GfsRequest) :
    (gfsOnDemand cfg r s).1 = some (r.toListing.recalled s) := by
  have hraises : r.toListing.key.raises = false := by cases r <;> rfl
  rw [gfsOnDemand, serve_outage hdown, hraises]
  simp

theorem indexFirst_fst (index : List String) (fallback : Option Listed × OnDemandState) :
    (indexFirst index fallback s).1 = if index = [] then fallback.1 else some (.names index) := by
  unfold indexFirst
  split <;> rfl

theorem gfsFullSync_outage (hdown : ∀ site ∈ s.s3, site.up = false) (r : GfsRequest) :
    (gfsFullSync cfg w r s).1 = some (r.degraded w s) := by
  cases r with
  | listCycles productId =>
    simp only [gfsFullSync, GfsRequest.degraded, indexFirst_fst, gfsOnDemand_outage hdown, namesOr]
    split <;> rfl
  | listSteps productId cycle =>
    simp only [gfsFullSync, GfsRequest.degraded, indexFirst_fst, gfsOnDemand_outage hdown, namesOr]
    split <;> rfl
  | listLayers productId cycle fxxx =>
    simp only [gfsFullSync, GfsRequest.degraded, indexFirst_fst, gfsOnDemand_outage hdown, namesOr]
    split <;> rfl
  | listLayersBulk productId cycle steps =>
    simp only [gfsFullSync, GfsRequest.degraded]
    split
    · rfl
    · rw [gfsOnDemand_outage hdown]
      rfl

/-- All steps are answered, or the whole raises. -/
theorem discoverEach_outage (hdown : ∀ site ∈ s.s3, site.up = false)
    (productId initTag : String) (steps : List String) :
    (discoverEach cfg productId initTag steps s).1 =
      if ∀ fxxx ∈ steps, s.s3 = none ∨ s.listings.get s.now (.wrfLayers productId initTag fxxx) ≠ none
      then some (steps.map fun fxxx =>
        (fxxx, (s.recalled (.wrfLayers productId initTag fxxx)).toNames))
      else none := by
  induction steps with
  | nil => simp [discoverEach]
  | cons fxxx steps ih =>
    simp only [discoverEach, onDemand_wrfLayers_outage hdown, ih, List.forall_mem_cons]
    rw [onDemand_outage hdown]
    by_cases hfxxx : s.s3 = none ∨ s.listings.get s.now (.wrfLayers productId initTag fxxx) ≠ none
    · have hanswered : ¬(OnDemandKey.raises (.wrfLayers productId initTag fxxx) ∧ s.s3 ≠ none ∧
          s.listings.get s.now (.wrfLayers productId initTag fxxx) = none) := by tauto
      rw [if_neg hanswered]
      simp only [hfxxx, true_and, Option.bind_some]
      split <;> simp
    · have hraised : OnDemandKey.raises (.wrfLayers productId initTag fxxx) ∧ s.s3 ≠ none ∧
          s.listings.get s.now (.wrfLayers productId initTag fxxx) = none := by
        refine ⟨rfl, ?_⟩
        tauto
      rw [if_pos hraised]
      simp [hfxxx]

theorem answersWithoutS3_onDemand : AnswersWithoutS3 .onDemand w s key ↔
    s.s3 = none ∨ s.listings.get s.now key ≠ none := by
  simp [AnswersWithoutS3]

theorem raises_of_gfs {r : ListingRequest} {g : GfsRequest} (h : r.gfs = some g) :
    r.key.raises = false := by
  cases r with
  | list key => cases key <;> first | rfl | cases h
  | gfsListLayers productId cycle fxxx => rfl
  | gfsListLayersBulk productId cycle steps => rfl

theorem forall_wrfLayers_one {r : ListingRequest} {P : OnDemandKey → Prop} :
    (∀ key ∈ (ReadRequest.one r).wrfLayers, P key) ↔ (r.key.raises = true → P r.key) := by
  cases hraises : r.key.raises <;> simp [ReadRequest.wrfLayers, hraises]

theorem forall_wrfLayers_bulk {productId initTag : String} {steps : List String}
    {P : OnDemandKey → Prop} :
    (∀ key ∈ (ReadRequest.wrfListLayersBulk productId initTag steps).wrfLayers, P key) ↔
      ∀ fxxx ∈ steps, P (.wrfLayers productId initTag fxxx) := by
  simp [ReadRequest.wrfLayers]

theorem onDemandRead_outage (hdown : ∀ site ∈ s.s3, site.up = false) (r : ReadRequest) :
    (onDemandRead cfg r s).1 =
      if ∀ key ∈ r.wrfLayers, AnswersWithoutS3 .onDemand w s key then
        some (r.degraded w s .onDemand)
      else none := by
  cases r with
  | one r =>
    have hcond : (∀ key ∈ (ReadRequest.one r).wrfLayers, AnswersWithoutS3 .onDemand w s key) ↔
        ¬(r.key.raises ∧ s.s3 ≠ none ∧ s.listings.get s.now r.key = none) := by
      rw [forall_wrfLayers_one, answersWithoutS3_onDemand]
      tauto
    simp only [onDemandRead, serve_outage hdown, hcond, ite_not, ReadRequest.degraded]
  | wrfListLayersBulk productId initTag steps =>
    simp only [onDemandRead, discoverEach_outage hdown, forall_wrfLayers_bulk,
      answersWithoutS3_onDemand, ReadRequest.degraded]
    split <;> rfl

theorem fullSyncRead_one_outage (hdown : ∀ site ∈ s.s3, site.up = false) (r : ListingRequest) :
    (fullSyncRead cfg w (.one r) s).1 =
      if ∀ key ∈ (ReadRequest.one r).wrfLayers, AnswersWithoutS3 .fullSync w s key then
        some ((ReadRequest.one r).degraded w s .fullSync)
      else none := by
  cases hgfs : r.gfs with
  | some g =>
    have hanswers : ∀ key ∈ (ReadRequest.one r).wrfLayers, AnswersWithoutS3 .fullSync w s key := by
      rw [forall_wrfLayers_one, raises_of_gfs hgfs]
      exact nofun
    rw [if_pos hanswers]
    simp only [fullSyncRead, ReadRequest.degraded, hgfs, gfsFullSync_outage hdown]
  | none =>
    simp only [fullSyncRead, ReadRequest.degraded, hgfs, indexFirst_fst, namesOr,
      forall_wrfLayers_one]
    by_cases hindex : r.key.indexed w = []
    · simp only [hindex, if_true, readFallback]
      cases hs : s.s3 with
      | none => simp [AnswersWithoutS3, hs]
      | some site =>
        have hcond : (r.key.raises = true → AnswersWithoutS3 .fullSync w s r.key) ↔
            ¬(r.key.raises ∧ s.s3 ≠ none ∧ s.listings.get s.now r.key = none) := by
          simp only [AnswersWithoutS3, hindex, ne_eq, not_true, and_false, or_false]
          tauto
        simp only [hcond, ite_not]
        simp [serve_outage hdown, hs]
    · have hanswers : AnswersWithoutS3 .fullSync w s r.key := .inr (.inr ⟨rfl, hindex⟩)
      simp [hindex, hanswers]

/-- The steps that the index lacks are those that have to be answered otherwise. -/
theorem forall_missing_iff {productId initTag : String} {steps : List String} :
    (∀ fxxx ∈ steps.filter fun fxxx => (OnDemandKey.wrfLayers productId initTag fxxx).indexed w = [],
      s.s3 = none ∨ s.listings.get s.now (.wrfLayers productId initTag fxxx) ≠ none) ↔
    ∀ fxxx ∈ steps, AnswersWithoutS3 .fullSync w s (.wrfLayers productId initTag fxxx) := by
  constructor
  · intro h fxxx hfxxx
    by_cases hindex : (OnDemandKey.wrfLayers productId initTag fxxx).indexed w = []
    · rcases h fxxx (List.mem_filter.mpr ⟨hfxxx, decide_eq_true hindex⟩) with h | h
      · exact .inl h
      · exact .inr (.inl h)
    · exact .inr (.inr ⟨rfl, hindex⟩)
  · intro h fxxx hfxxx
    obtain ⟨hstep, hindex⟩ := List.mem_filter.mp hfxxx
    rcases h fxxx hstep with h | h | ⟨-, h⟩
    · exact .inl h
    · exact .inr h
    · exact absurd (of_decide_eq_true hindex) h

theorem fullSyncRead_bulk_outage (hdown : ∀ site ∈ s.s3, site.up = false)
    (productId initTag : String) (steps : List String) :
    (fullSyncRead cfg w (.wrfListLayersBulk productId initTag steps) s).1 =
      if ∀ key ∈ (ReadRequest.wrfListLayersBulk productId initTag steps).wrfLayers,
        AnswersWithoutS3 .fullSync w s key then
        some ((ReadRequest.wrfListLayersBulk productId initTag steps).degraded w s .fullSync)
      else none := by
  let indexed := fun fxxx => (OnDemandKey.wrfLayers productId initTag fxxx).indexed w
  let recalled := fun fxxx => (s.recalled (.wrfLayers productId initTag fxxx)).toNames
  let missing := steps.filter fun fxxx => indexed fxxx = []
  have hrun : fullSyncRead cfg w (.wrfListLayersBulk productId initTag steps) s =
      if missing = [] ∨ s.s3.isNone then
        (some (.layers (steps.map fun fxxx => (fxxx, indexed fxxx))), s)
      else
        (((onDemandRead cfg (.wrfListLayersBulk productId initTag missing) s).1.map
            (updateLayers (steps.map fun fxxx => (fxxx, indexed fxxx)))),
          (onDemandRead cfg (.wrfListLayersBulk productId initTag missing) s).2) := rfl
  have hcond : (∀ fxxx ∈ missing, s.s3 = none ∨
      s.listings.get s.now (.wrfLayers productId initTag fxxx) ≠ none) ↔
      ∀ fxxx ∈ steps, AnswersWithoutS3 .fullSync w s (.wrfLayers productId initTag fxxx) :=
    forall_missing_iff
  have hmissing : ∀ fxxx ∈ missing, indexed fxxx = [] :=
    fun fxxx hfxxx => of_decide_eq_true (List.mem_filter.mp hfxxx).2
  simp only [hrun, forall_wrfLayers_bulk, ← hcond]
  by_cases hdone : missing = [] ∨ s.s3.isNone
  · have hanswers : ∀ fxxx ∈ missing, s.s3 = none ∨
        s.listings.get s.now (.wrfLayers productId initTag fxxx) ≠ none := by
      rcases hdone with hnone | hs
      · simp [hnone]
      · exact fun _ _ => .inl (Option.isNone_iff_eq_none.mp hs)
    rw [if_pos hdone, if_pos hanswers]
    refine congrArg (some ∘ Listed.layers) (List.map_congr_left fun fxxx hfxxx => ?_)
    have hindexed : ¬(indexed fxxx = [] ∧ s.s3.isNone = false) := by
      rintro ⟨hindex, hs⟩
      have hmem : fxxx ∈ missing := List.mem_filter.mpr ⟨hfxxx, decide_eq_true hindex⟩
      rcases hdone with hnone | hs'
      · rw [hnone] at hmem
        cases hmem
      · rw [hs] at hs'
        cases hs'
    exact congrArg (Prod.mk fxxx) (if_neg hindexed).symm
  · have hs : s.s3.isNone = false := Bool.eq_false_iff.mpr fun h => hdone (.inr h)
    let served := fun fxxx => if indexed fxxx = [] then recalled fxxx else indexed fxxx
    have hfound : missing.map (fun fxxx => (fxxx, recalled fxxx)) =
        missing.map fun fxxx => (fxxx, served fxxx) := by
      refine List.map_congr_left fun fxxx hfxxx => ?_
      exact congrArg (Prod.mk fxxx) (if_pos (hmissing fxxx hfxxx)).symm
    have hmerge : updateLayers (steps.map fun fxxx => (fxxx, indexed fxxx))
        (.layers (missing.map fun fxxx => (fxxx, served fxxx))) =
        .layers (steps.map fun fxxx => (fxxx, served fxxx)) :=
      updateLayers_map served indexed steps fun fxxx _ hindex => (if_neg hindex).symm
    have hdegraded : (ReadRequest.wrfListLayersBulk productId initTag steps).degraded w s .fullSync =
        .layers (steps.map fun fxxx => (fxxx, served fxxx)) := by
      simp [ReadRequest.degraded, hs, served, recalled, indexed]
    rw [← hfound] at hmerge
    simp only [if_neg hdone, onDemandRead, discoverEach_outage hdown, hdegraded]
    split
    · exact congrArg some hmerge
    · rfl

/-- Whether a listing operation is answered, and with what. -/
theorem read_outage (hdown : ∀ site ∈ s.s3, site.up = false) (strategy : GfsStrategy)
    (r : ReadRequest) : (strategy.read cfg w r s).1 =
      if ∀ key ∈ r.wrfLayers, AnswersWithoutS3 strategy w s key then some (r.degraded w s strategy)
      else none := by
  cases strategy with
  | onDemand => exact onDemandRead_outage hdown r
  | fullSync =>
    cases r with
    | one r => exact fullSyncRead_one_outage hdown r
    | wrfListLayersBulk productId initTag steps =>
      exact fullSyncRead_bulk_outage hdown productId initTag steps

/-- While S3 is down, a listing operation is answered with what Redis knows if and only if the
layers of no WRF step have to be listed in S3 for it. -/
theorem listing_survives_iff (cfg : OnDemandConfig) (w : World) {s : OnDemandState}
    (hdown : ∀ site ∈ s.s3, site.up = false) (strategy : GfsStrategy) (r : ReadRequest) :
    (strategy.read cfg w r s).1 = some (r.degraded w s strategy) ↔
      ∀ key ∈ r.wrfLayers, AnswersWithoutS3 strategy w s key := by
  rw [read_outage hdown]
  split
  · rename_i hanswers
    exact iff_of_true rfl hanswers
  · rename_i hraises
    exact iff_of_false (by simp) hraises

end Outage

/-- One tileset is cached. -/
def cachedTileset : OnDemandState :=
  ⟨100, (∅ : Store OnDemandKey Listed).put (.satTilesets "C13") (.names ["20260101T0000Z"]) (some 160),
    some (oneTileset false)⟩

theorem listing_survives_cached :
    (GfsStrategy.fullSync.read listingSettings (.initial 100) (.one satelliteRequest)
      cachedTileset).1 = some (.names ["20260101T0000Z"]) := by
  have hdown : ∀ site ∈ cachedTileset.s3, site.up = false := by
    intro site hsite
    obtain rfl : oneTileset false = site := by simpa [cachedTileset] using hsite
    rfl
  have hsurvives := listing_survives_iff listingSettings (.initial 100) hdown .fullSync
    (.one satelliteRequest)
  exact hsurvives.mpr (by simp [ReadRequest.wrfLayers, satelliteRequest, ListingRequest.key,
    OnDemandKey.raises])

/-- The layers of a WRF step raise in either strategy, alone and in bulk; the steps of the same
run and the layers of a GFS step do not. -/
theorem wrf_layers_raise_in_outage :
    let answer (strategy : GfsStrategy) (r : ReadRequest) :=
      (strategy.read listingSettings (.initial 100) r ⟨100, ∅, some (oneTileset false)⟩).1
    let layers : ReadRequest := .one (.list (.wrfLayers "t2m" "20260101_000000" "F001"))
    let bulk : ReadRequest := .wrfListLayersBulk "t2m" "20260101_000000" ["F001"]
    (∀ strategy, answer strategy layers = none ∧ answer strategy bulk = none) ∧
    (∀ strategy, answer strategy (.one (.list (.wrfSteps "t2m" "20260101_000000"))) =
      some (.names [])) ∧
    ∀ strategy, answer strategy (.one (.gfsListLayers "mslp" "20260101_000000" "f003")) =
      some (.names []) := by
  refine ⟨?_, ?_, ?_⟩ <;> rintro (_ | _) <;> decide

end DataService.Sync
