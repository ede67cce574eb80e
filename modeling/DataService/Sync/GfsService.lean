import DataService.Sync.GfsAgreement

/-! The GFS endpoints and the state behind them: Redis and S3, the running pass, the cached
listings and the cache writes. A listing that is not cached anew shows S3 as it is. -/

namespace DataService.Sync

open Coroutine Coro DirectoryListing ExpiringStore

/-- The read strategies. -/
inductive GfsStrategy where
  | onDemand
  | fullSync
  deriving DecidableEq, Repr

def Listed.toNames : Listed → List String
  | .names l => l
  | .layers _ => []

def Listed.toLayers : Listed → List (String × List String)
  | .names _ => []
  | .layers byStep => byStep

section Service

variable (ocfg : OnDemandConfig)

/-- A request to a strategy; the GFS listings do not raise. -/
def GfsStrategy.ask (strategy : GfsStrategy) (w : World) (r : GfsRequest) (o : OnDemandState) :
    Listed × OnDemandState :=
  let answer := match strategy with
    | .onDemand => gfsOnDemand ocfg r o
    | .fullSync => gfsFullSync ocfg w r o
  (answer.1.getD r.toListing.key.nothing, answer.2)

/-- `_advertised_cycles` -/
def advertisedCycles (strategy : GfsStrategy) (w : World) (productId : String) (o : OnDemandState) :
    List String × OnDemandState :=
  let cycles := strategy.ask ocfg w (.listCycles productId) o
  (cycles.1.toNames.take ocfg.gfsCyclesToKeep, cycles.2)

/-- `GfsService.list_steps`: the steps with their layers. -/
def serviceListSteps (strategy : GfsStrategy) (w : World) (productId cycle : String)
    (o : OnDemandState) : Option (List (String × List String)) × OnDemandState :=
  if (getProduct productId).isSome then
    let cycles := advertisedCycles ocfg strategy w productId o
    if cycle ∈ cycles.1 then
      let steps := strategy.ask ocfg w (.listSteps productId cycle) cycles.2
      if steps.1.toNames = [] then (none, steps.2)
      else
        let layers := strategy.ask ocfg w (.listLayersBulk productId cycle steps.1.toNames) steps.2
        (some (steps.1.toNames.map fun fxxx => (fxxx, layersAt layers.1.toLayers fxxx)), layers.2)
    else (none, cycles.2)
  else (none, o)

end Service

/-- `GfsService.get_geojson` while S3 answers, with either strategy. -/
def serviceGetGeojson (w : World) (bucket : Bucket) (productId cycle fxxx layer : String) :
    Option Blob :=
  match getProduct productId with
  | none => none
  | some product =>
    if layer ∈ product.layers then
      if (w.redis.get w.now (.gfsGeojson productId cycle fxxx layer)).isSome then some .filled
      else bucket.lookup (buildGfsGeojsonKey product.s3Segment cycle fxxx layer)
    else none

/-- Redis and S3, the running pass at an await, the cached listings, the cache writes of
overlays that are scheduled, and when S3 changed last. -/
structure GfsState where
  site : Site Bucket
  pass : Option (GfsCode (Nat × Nat))
  listings : Store OnDemandKey Listed
  writes : List Overlay
  changedAt : Nat

namespace GfsState

/-- An empty Redis over an empty bucket. -/
def initial (now : Nat) : GfsState := ⟨⟨World.initial now, ∅⟩, none, ∅, [], now⟩

/-- What the listings see. -/
def reads (s : GfsState) (up : Bool) : OnDemandState :=
  ⟨s.site.world.now, s.listings, some ⟨s.site.s3.keys, up⟩⟩

/-- Where the pass stands after running to its next await. -/
def arrive (s : GfsState) (p : GfsCode (Nat × Nat) × Site Bucket) : GfsState :=
  match p.1 with
  | .ret _ | .raise _ => { s with site := p.2, pass := none }
  | c => { s with site := p.2, pass := some c }

end GfsState

inductive GfsAction where
  /-- objects come, go or are replaced -/
  | upload (bucket : Bucket)
  | begin
  | resume (r : Reply)
  /-- the process dies and is started again -/
  | kill
  | tick (seconds : Nat)
  | evict (key : RedisKey)
  | evictListing (key : OnDemandKey)
  | list (strategy : GfsStrategy) (r : GfsRequest) (up : Bool)
  /-- `get_geojson`; a body from S3 is to be cached -/
  | getGeojson (x : Overlay)
  /-- a scheduled cache write ends -/
  | cacheWrite (x : Overlay) (landed : Bool)

def gfsStep (cfg : GfsSettings) (ocfg : OnDemandConfig) (s : GfsState) : GfsAction → Option GfsState
  | .upload bucket =>
    some { s with site := { s.site with s3 := bucket }, changedAt := s.site.world.now }
  | .begin =>
    match s.pass with
    | none => some (s.arrive ((syncGfs cfg).settle s.site))
    | some _ => none
  | .resume r => s.pass.bind fun c => (c.answer s.site r).map s.arrive
  | .kill => some { s with pass := none, writes := [] }
  | .tick seconds =>
    some { s with site.world.now := s.site.world.now + seconds }
  | .evict key =>
    some { s with site.world := s.site.world.setRedis (s.site.world.redis.del key) }
  | .evictListing key => some { s with listings := s.listings.del key }
  | .list strategy r up =>
    some { s with listings := (strategy.ask ocfg s.site.world r (s.reads up)).2.listings }
  | .getGeojson x =>
    let cached := s.site.world.redis.get s.site.world.now
      (.gfsGeojson x.1.productId x.1.cycle x.1.fxxx x.2)
    if x.2 ∈ layersFor x.1.productId ∧ cached = none ∧
        s.site.s3.lookup (overlayKey x) = some .filled then
      some { s with writes := x :: s.writes }
    else some s
  | .cacheWrite x landed =>
    if x ∈ s.writes then
      let stored := if landed then s.site.world.setEx
        (.gfsGeojson x.1.productId x.1.cycle x.1.fxxx x.2) cfg.gfsGeojsonTtl else s.site.world
      some { s with site.world := stored, writes := s.writes.erase x }
    else none

section Listings

/-- The cached listings: each was made of what S3 has now, or expires in time. -/
structure UpToDate (ocfg : OnDemandConfig) (objects : List S3Key) (changedAt now : Nat)
    (o : OnDemandState) : Prop where
  clock : o.now = now
  s3 : ∃ up, o.s3 = some ⟨objects, up⟩
  cached : ∀ key slot, o.listings.lookup key = some slot → ∃ deadline,
    slot.deadline = some deadline ∧ deadline ≤ now + ocfg.tilesetListingTtl ∧
      (deadline ≤ changedAt + ocfg.tilesetListingTtl ∨
        ∃ up, key.discover ocfg ⟨objects, up⟩ = some slot.value)

variable {ocfg : OnDemandConfig} {objects : List S3Key} {changedAt now : Nat} {o : OnDemandState}
  {key : OnDemandKey} {w : World} {strategy : GfsStrategy}

theorem upToDate_onDemand (h : UpToDate ocfg objects changedAt now o) :
    UpToDate ocfg objects changedAt now (onDemand ocfg key o).2 := by
  obtain ⟨up, hs3⟩ := h.s3
  cases hget : o.listings.get o.now key with
  | some listed =>
    rw [onDemand_cached hget]
    exact h
  | none =>
    cases hknown : key.known with
    | false =>
      rw [onDemand_unknown hget hknown]
      exact h
    | true =>
      rw [onDemand_missed hget hs3 hknown]
      cases hlisted : key.discover ocfg ⟨objects, up⟩ with
      | none => exact h
      | some listed =>
        refine ⟨h.clock, h.s3, fun other slot hslot => ?_⟩
        by_cases hkey : other = key
        · subst hkey
          simp only [Store.put, AList.lookup_insert, Option.some.injEq] at hslot
          subst hslot
          exact ⟨_, rfl, by rw [h.clock], .inr ⟨up, hlisted⟩⟩
        · simp only [Store.put, AList.lookup_insert_ne hkey] at hslot
          exact h.cached other slot hslot

theorem upToDate_serve {r : ListingRequest} (h : UpToDate ocfg objects changedAt now o) :
    UpToDate ocfg objects changedAt now (serve ocfg r o).2 := by
  unfold serve
  split
  · exact h
  · exact upToDate_onDemand h

theorem upToDate_ask (strategy : GfsStrategy) (w : World) (r : GfsRequest)
    (h : UpToDate ocfg objects changedAt now o) :
    UpToDate ocfg objects changedAt now (strategy.ask ocfg w r o).2 := by
  have hindexFirst : ∀ index, UpToDate ocfg objects changedAt now
      (indexFirst index (gfsOnDemand ocfg r o) o).2 := by
    intro index
    unfold indexFirst
    split
    · exact upToDate_serve h
    · exact h
  cases strategy with
  | onDemand => exact upToDate_serve h
  | fullSync =>
    cases r with
    | listCycles productId => exact hindexFirst _
    | listSteps productId cycle => exact hindexFirst _
    | listLayers productId cycle fxxx => exact hindexFirst _
    | listLayersBulk productId cycle steps =>
      show UpToDate ocfg objects changedAt now (gfsFullSync ocfg w _ o).2
      simp only [gfsFullSync]
      split
      · exact h
      · exact upToDate_serve h

/-- Once the older listings have expired, an answer comes from S3 as it is, or as it failed. -/
theorem upToDate_answer (key : OnDemandKey) (h : UpToDate ocfg objects changedAt now o)
    (hquiet : changedAt + ocfg.tilesetListingTtl ≤ now) :
    (onDemand ocfg key o).1 = some key.nothing ∨
      ∃ up, (onDemand ocfg key o).1 = key.discover ocfg ⟨objects, up⟩ := by
  obtain ⟨up, hs3⟩ := h.s3
  cases hget : o.listings.get o.now key with
  | some listed =>
    rw [onDemand_cached hget]
    obtain ⟨slot, hslot, rfl⟩ := Option.map_eq_some_iff.mp hget
    obtain ⟨hlookup, hlive⟩ := Option.filter_eq_some_iff.mp hslot
    obtain ⟨deadline, hdeadline, -, hold | ⟨up, hlisted⟩⟩ := h.cached key slot hlookup
    · have hlt : o.now < deadline := by simpa [Slot.live, hdeadline] using hlive
      rw [h.clock] at hlt
      omega
    · exact .inr ⟨up, hlisted.symm⟩
  | none =>
    cases hknown : key.known with
    | false =>
      rw [onDemand_unknown hget hknown]
      exact .inl rfl
    | true =>
      rw [onDemand_missed hget hs3 hknown]
      refine .inr ⟨up, ?_⟩
      cases key.discover ocfg ⟨objects, up⟩ <;> rfl

variable {bucket : Bucket} {productId cycle fxxx layer : String}

theorem layersAt_map (M : String → List String) {steps : List String} (h : fxxx ∈ steps) :
    layersAt (steps.map fun fxxx => (fxxx, M fxxx)) fxxx = M fxxx := by
  have hsame : ((fun p : String × List String => p.1 == fxxx) ∘ fun fxxx => (fxxx, M fxxx)) =
      fun step => step == fxxx := rfl
  rw [layersAt, List.find?_map, hsame]
  cases hfind : steps.find? fun step => step == fxxx with
  | none => exact absurd (List.find?_eq_none.mp hfind fxxx h) (by simp)
  | some step =>
    obtain rfl : step = fxxx := by simpa using List.find?_some hfind
    rfl

/-- What a layers listing made of the bucket, or of nothing, shows of a step. -/
theorem shown_onDemand (productId cycle : String) (ho : UpToDate ocfg bucket.keys changedAt now o)
    (hquiet : changedAt + ocfg.tilesetListingTtl ≤ now) :
    ∃ byStep, (onDemand ocfg (.gfsLayers productId cycle) o).1 = some (.layers byStep) ∧
      ∀ fxxx, ∀ layer ∈ layersOf byStep fxxx,
        layer ∈ layerNames (overlayNames bucket (segmentOf productId) cycle) cycle fxxx := by
  have hnothing : ∀ fxxx, ∀ layer ∈ layersOf [] fxxx,
      layer ∈ layerNames (overlayNames bucket (segmentOf productId) cycle) cycle fxxx := by
    intro fxxx layer hlayer
    cases hlayer
  rcases upToDate_answer (.gfsLayers productId cycle) ho hquiet with h | ⟨up, h⟩
  · exact ⟨[], h, hnothing⟩
  · cases up with
    | false => exact ⟨[], h, hnothing⟩
    | true =>
      refine ⟨layersByStep (overlayNames bucket (segmentOf productId) cycle) cycle, h, ?_⟩
      intro fxxx layer hlayer
      rwa [layersOf_layersByStep, mem_sortAscending] at hlayer

theorem shown_bulk (productId cycle : String) (ho : UpToDate ocfg bucket.keys changedAt now o)
    (hquiet : changedAt + ocfg.tilesetListingTtl ≤ now) (steps : List String) :
    ∃ L : String → List String, (gfsOnDemand ocfg (.listLayersBulk productId cycle steps) o).1 =
        some (.layers (steps.map fun fxxx => (fxxx, L fxxx))) ∧
      ∀ fxxx, ∀ layer ∈ L fxxx,
        layer ∈ layerNames (overlayNames bucket (segmentOf productId) cycle) cycle fxxx := by
  obtain ⟨byStep, hanswer, hshown⟩ := shown_onDemand productId cycle ho hquiet
  refine ⟨layersOf byStep, ?_, hshown⟩
  cases steps with
  | nil => rfl
  | cons fxxx steps =>
    have hserve : (gfsOnDemand ocfg (.listLayersBulk productId cycle (fxxx :: steps)) o).1 =
        (onDemand ocfg (.gfsLayers productId cycle) o).1.map
          (ListingRequest.gfsListLayersBulk productId cycle (fxxx :: steps)).view := rfl
    rw [hserve, hanswer]
    rfl

/-- A layer that is listed is in the index, or S3 shows it. -/
theorem listed_layers (strategy : GfsStrategy) (w : World) (productId cycle : String)
    (ho : UpToDate ocfg bucket.keys changedAt now o)
    (hquiet : changedAt + ocfg.tilesetListingTtl ≤ now) (steps : List String) :
    ∃ M : String → List String,
      (strategy.ask ocfg w (.listLayersBulk productId cycle steps) o).1.toLayers =
        steps.map (fun fxxx => (fxxx, M fxxx)) ∧
      ∀ fxxx, ∀ layer ∈ M fxxx, layer ∈ w.memberNames (.gfsLayers productId cycle fxxx) ∨
        layer ∈ layerNames (overlayNames bucket (segmentOf productId) cycle) cycle fxxx := by
  cases strategy with
  | onDemand =>
    obtain ⟨L, hanswer, hshown⟩ := shown_bulk productId cycle ho hquiet steps
    refine ⟨L, ?_, fun fxxx layer hlayer => .inr (hshown fxxx layer hlayer)⟩
    simp only [GfsStrategy.ask, hanswer]
    rfl
  | fullSync =>
    have hindexed : ∀ fxxx, ∀ layer ∈ getGfsLayers w productId cycle fxxx,
        layer ∈ w.memberNames (.gfsLayers productId cycle fxxx) :=
      fun fxxx layer hlayer => mem_sortAscending.mp hlayer
    obtain ⟨L, hanswer, hshown⟩ := shown_bulk productId cycle ho hquiet
      (steps.filter fun fxxx => getGfsLayers w productId cycle fxxx = [])
    by_cases hnone : (steps.filter fun fxxx => getGfsLayers w productId cycle fxxx = []) = []
    · refine ⟨getGfsLayers w productId cycle, ?_, fun fxxx layer hlayer =>
        .inl (hindexed fxxx layer hlayer)⟩
      simp only [GfsStrategy.ask, gfsFullSync, if_pos hnone]
      rfl
    · let M := fun fxxx => if getGfsLayers w productId cycle fxxx = [] then L fxxx
        else getGfsLayers w productId cycle fxxx
      have hmissing : ((steps.filter fun fxxx => getGfsLayers w productId cycle fxxx = []).map
          fun fxxx => (fxxx, L fxxx)) =
          (steps.filter fun fxxx => getGfsLayers w productId cycle fxxx = []).map
            fun fxxx => (fxxx, M fxxx) := by
        refine List.map_congr_left fun fxxx hmem => ?_
        rw [show M fxxx = L fxxx from if_pos (of_decide_eq_true (List.mem_filter.mp hmem).2)]
      refine ⟨M, ?_, fun fxxx layer hlayer => ?_⟩
      · simp only [GfsStrategy.ask, gfsFullSync, if_neg hnone, hanswer, Option.map_some, hmissing]
        rw [updateLayers_map M _ steps fun fxxx _ hne => (if_neg hne).symm]
        rfl
      · by_cases hempty : getGfsLayers w productId cycle fxxx = []
        · rw [show M fxxx = L fxxx from if_pos hempty] at hlayer
          exact .inr (hshown fxxx layer hlayer)
        · rw [show M fxxx = getGfsLayers w productId cycle fxxx from if_neg hempty] at hlayer
          exact .inl (hindexed fxxx layer hlayer)

end Listings

end DataService.Sync
