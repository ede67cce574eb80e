import DataService.Lib.RankedSet
import DataService.Sync.GfsSync
import DataService.Sync.OnDemandListing

/-! The listings of the GFS full-sync strategy: from the indexes that the loop keeps in Redis,
and from the on-demand strategy where an index is empty. -/

namespace DataService.Sync

open ExpiringStore

/-- `get_gfs_cycles`: `ZREVRANGE` -/
def getGfsCycles (w : World) (productId : String) : List String :=
  RankedSet.descending (members w.redis w.now (.gfsCycles productId))

/-- `get_gfs_steps`: `ZRANGE` -/
def getGfsSteps (w : World) (productId cycle : String) : List String :=
  RankedSet.ascending (members w.redis w.now (.gfsSteps productId cycle))

/-- `get_gfs_layers`: `SMEMBERS`, sorted -/
def getGfsLayers (w : World) (productId cycle fxxx : String) : List String :=
  sortAscending (w.memberNames (.gfsLayers productId cycle fxxx))

/-- The listing operations of the GFS strategies. -/
inductive GfsRequest where
  | listCycles (productId : String)
  | listSteps (productId cycle : String)
  | listLayers (productId cycle fxxx : String)
  | listLayersBulk (productId cycle : String) (steps : List String)
  deriving DecidableEq, Repr

def GfsRequest.toListing : GfsRequest → ListingRequest
  | .listCycles productId => .list (.gfsCycles productId)
  | .listSteps productId cycle => .list (.gfsSteps productId cycle)
  | .listLayers productId cycle fxxx => .gfsListLayers productId cycle fxxx
  | .listLayersBulk productId cycle steps => .gfsListLayersBulk productId cycle steps

variable (cfg : OnDemandConfig)

/-- `GfsOnDemandStrategy` -/
def gfsOnDemand (r : GfsRequest) (s : OnDemandState) : Option Listed × OnDemandState :=
  serve cfg r.toListing s

/-- The index, unless it is empty. -/
def indexFirst (index : List String) (fallback : Option Listed × OnDemandState)
    (s : OnDemandState) : Option Listed × OnDemandState :=
  if index = [] then fallback else (some (.names index), s)

/-- `by_step.update(discovered)`; the steps of `discovered` are all there. -/
def updateLayers (byStep : List (String × List String)) : Listed → Listed
  | .layers discovered =>
    .layers (byStep.map fun p => (discovered.find? fun q => q.1 == p.1).getD p)
  | listed => listed

/-- `GfsFullSyncStrategy` -/
def gfsFullSync (w : World) (r : GfsRequest) (s : OnDemandState) :
    Option Listed × OnDemandState :=
  match r with
  | .listCycles productId => indexFirst (getGfsCycles w productId) (gfsOnDemand cfg r s) s
  | .listSteps productId cycle => indexFirst (getGfsSteps w productId cycle) (gfsOnDemand cfg r s) s
  | .listLayers productId cycle fxxx =>
    indexFirst (getGfsLayers w productId cycle fxxx) (gfsOnDemand cfg r s) s
  | .listLayersBulk productId cycle steps =>
    let byStep := steps.map fun fxxx => (fxxx, getGfsLayers w productId cycle fxxx)
    let missing := steps.filter fun fxxx => getGfsLayers w productId cycle fxxx = []
    if missing = [] then (some (.layers byStep), s)
    else
      let discovered := gfsOnDemand cfg (.listLayersBulk productId cycle missing) s
      (discovered.1.map (updateLayers byStep), discovered.2)

section Coherent

/-- Every cached listing is what S3 gives now. -/
structure Coherent (site : S3Site) (s : OnDemandState) : Prop where
  s3 : s.s3 = some site
  cached : ∀ key listed, s.listings.get s.now key = some listed →
    key.known = true ∧ key.discover cfg site = some listed

variable {cfg} {site : S3Site} {s t : OnDemandState} {key : OnDemandKey}

theorem coherent_empty (now : Nat) : Coherent cfg site ⟨now, ∅, some site⟩ :=
  ⟨rfl, fun key listed h => by simp [Store.get] at h⟩

/-- What is not cached is listed, and the listing is the same. -/
theorem onDemand_of_coherent (h : Coherent cfg site s) : (onDemand cfg key s).1 =
    if key.known then key.discover cfg site else some key.nothing := by
  cases hget : s.listings.get s.now key with
  | some listed =>
    obtain ⟨hknown, hlisted⟩ := h.cached key listed hget
    rw [onDemand_cached hget, if_pos hknown, hlisted]
  | none =>
    cases hknown : key.known with
    | true =>
      rw [onDemand_missed hget h.s3 hknown, if_pos rfl]
      cases key.discover cfg site <;> rfl
    | false =>
      rw [onDemand_unknown hget hknown]
      rfl

end Coherent

section Layers

/-- The layers that the names tell of a step. -/
def layerNames (names : List (List Char)) (cycle fxxx : String) : List String :=
  names.filterMap fun name => (stepAndLayerFromBasename name cycle.toList).bind fun p =>
    if String.ofList p.1 = fxxx then some (String.ofList p.2) else none

def layersAt (byStep : List (String × List String)) (fxxx : String) : List String :=
  ((byStep.find? fun p => p.1 == fxxx).map Prod.snd).getD []

theorem layersAt_addLayer (byStep : List (String × List String)) (step layer fxxx : String) :
    layersAt (addLayer byStep step layer) fxxx =
      if step = fxxx then layersAt byStep fxxx ++ [layer] else layersAt byStep fxxx := by
  unfold addLayer layersAt
  by_cases hany : byStep.any (fun p => p.1 == step) = true
  · rw [if_pos hany, List.find?_map]
    have hkeys : ((fun p : String × List String => p.1 == fxxx) ∘ fun p =>
        if p.1 = step then (p.1, p.2 ++ [layer]) else p) = fun p => p.1 == fxxx := by
      funext p
      simp only [Function.comp]
      split <;> rfl
    rw [hkeys]
    cases hfind : byStep.find? fun p => p.1 == fxxx with
    | some p =>
      have hp : p.1 = fxxx := by simpa using List.find?_some hfind
      by_cases hstep : step = fxxx
      · simp [hp, hstep]
      · simp [hp, hstep, Ne.symm hstep]
    | none =>
      have hne : step ≠ fxxx := by
        rintro rfl
        obtain ⟨p, hp, hstep⟩ := List.any_eq_true.mp hany
        exact List.find?_eq_none.mp hfind p hp hstep
      simp [hne]
  · rw [if_neg hany, List.find?_append]
    by_cases hstep : step = fxxx
    · subst hstep
      have hnone : byStep.find? (fun p => p.1 == step) = none :=
        List.find?_eq_none.mpr fun p hp hstep => hany (List.any_eq_true.mpr ⟨p, hp, hstep⟩)
      simp [hnone]
    · simp [hstep]

variable {names : List (List Char)} {name step layer : List Char} {cycle : String}

theorem layersByStep_concat_none (h : stepAndLayerFromBasename name cycle.toList = none) :
    layersByStep (names ++ [name]) cycle = layersByStep names cycle := by
  rw [layersByStep, List.foldl_concat, h]
  rfl

theorem layersByStep_concat_some
    (h : stepAndLayerFromBasename name cycle.toList = some (step, layer)) :
    layersByStep (names ++ [name]) cycle =
      addLayer (layersByStep names cycle) (String.ofList step) (String.ofList layer) := by
  rw [layersByStep, List.foldl_concat, h]
  rfl

theorem layersAt_layersByStep (names : List (List Char)) (cycle fxxx : String) :
    layersAt (layersByStep names cycle) fxxx = layerNames names cycle fxxx := by
  induction names using List.reverseRecOn with
  | nil => rfl
  | append_singleton names name ih =>
    cases hname : stepAndLayerFromBasename name cycle.toList with
    | none =>
      rw [layersByStep_concat_none hname, ih]
      simp [layerNames, hname]
    | some p =>
      obtain ⟨step, layer⟩ := p
      rw [layersByStep_concat_some hname, layersAt_addLayer, ih]
      by_cases hstep : String.ofList step = fxxx
      · simp [layerNames, hname, hstep]
      · simp [layerNames, hname, hstep]

theorem layersOf_layersByStep (names : List (List Char)) (cycle fxxx : String) :
    layersOf (layersByStep names cycle) fxxx = sortAscending (layerNames names cycle fxxx) :=
  congrArg sortAscending (layersAt_layersByStep names cycle fxxx)

end Layers

end DataService.Sync
