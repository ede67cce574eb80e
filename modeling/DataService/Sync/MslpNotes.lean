import DataService.Sync.EcmwfMslp
import DataService.Sync.NotedCode

/-! The ECMWF-MSLP cycle with notes of what it was told: the active forecasts, the timestamps
of their COGs, and the timestamps whose isobars Redis took. -/

namespace DataService.Sync

open Coroutine Coro

structure MslpNotes where
  active : List String
  cogs : String → List String
  stored : String → List String

namespace MslpNotes

def empty : MslpNotes := ⟨[], fun _ => [], fun _ => []⟩

def activate (activeForecasts : List String) (n : MslpNotes) : MslpNotes :=
  { n with active := activeForecasts }

def list (forecastTs : String) (timestamps : List String) (n : MslpNotes) : MslpNotes :=
  { n with cogs := Function.update n.cogs forecastTs timestamps }

def store (forecastTs : String) (timestamps : List String) (n : MslpNotes) : MslpNotes :=
  { n with stored := Function.update n.stored forecastTs (n.stored forecastTs ++ timestamps) }

variable {n : MslpNotes} {forecastTs : String}

@[simp] theorem store_nil : n.store forecastTs [] = n := by
  simp [store]

@[simp] theorem store_store (timestamps timestamps' : List String) :
    (n.store forecastTs timestamps).store forecastTs timestamps' =
      n.store forecastTs (timestamps ++ timestamps') := by
  simp [store]

theorem mem_store {timestamps : List String} {other timestampTs : String} :
    timestampTs ∈ (n.store forecastTs timestamps).stored other ↔
      timestampTs ∈ n.stored other ∨ (other = forecastTs ∧ timestampTs ∈ timestamps) := by
  by_cases h : other = forecastTs
  · subst h
    simp [store]
  · simp [store, h]

end MslpNotes

variable (cfg : MslpConfig)

/-- The isobars are noted when the `SET` has been answered. -/
def downloadNoted (forecastTs timestampTs : String) : NotedCode MslpNotes Bool :=
  catchNoted (do
    silent fetchObject
    silent (command (World.setEx (.ecmwfMslpGeojson forecastTs timestampTs) cfg.ecmwfMslpGeojsonTtl))
    jot (MslpNotes.store forecastTs [timestampTs])
    pure true)
    (pure false)

def syncGeojsonsNoted (forecastTs : String) : List String → NotedCode MslpNotes (List String)
  | [] => pure []
  | timestampTs :: timestamps => do
    let ok ← downloadNoted cfg forecastTs timestampTs
    let stored ← syncGeojsonsNoted forecastTs timestamps
    pure (if ok then timestampTs :: stored else stored)

def syncForecastNoted (forecastTs : String) : NotedCode MslpNotes Unit := do
  let basenames ← silent listNames
  let timestamps := listedTimestamps cfg basenames
  jot (MslpNotes.list forecastTs timestamps)
  let known ← silent (readMembers (.ecmwfMslpTimestamps forecastTs))
  let stored ← syncGeojsonsNoted cfg forecastTs (timestamps.filter fun t => t ∉ known)
  silent (countDownloaded stored.length)
  silent (command (storeEcmwfMslpIndex forecastTs (indexedTimestamps timestamps known stored)
    cfg.ecmwfMslpGeojsonTtl))

def syncActiveNoted (activeForecasts : List String) : NotedCode MslpNotes Unit := do
  jot (MslpNotes.activate activeForecasts)
  if activeForecasts = [] then pure ()
  else do
    forEachNoted (syncForecastNoted cfg) activeForecasts
    silent (pruneIndex .ecmwfMslpForecasts activeForecasts)

def syncMslpNoted : NotedCode MslpNotes Nat :=
  catchNoted (do
    let subdirs ← silent listNames
    syncActiveNoted cfg (selectActiveForecasts cfg.toSyncConfig subdirs)
    pure 0) (pure 1)

section Annotated

variable {cfg} {forecastTs : String}

theorem annotates_download (timestampTs : String) : (downloadNoted cfg forecastTs timestampTs).Annotates
    (downloadEcmwfMslpGeojson cfg forecastTs timestampTs) := by
  refine annotates_catch ?_ (.ret false)
  apply annotates_bind (annotates_silent _)
  intro _
  apply annotates_bind (annotates_silent _)
  exact fun _ => annotates_jot (.ret true)

theorem annotates_syncGeojsons (timestamps : List String) :
    (syncGeojsonsNoted cfg forecastTs timestamps).Annotates
      (syncEcmwfMslpGeojsons cfg forecastTs timestamps) := by
  induction timestamps with
  | nil => exact .ret []
  | cons timestampTs timestamps ih =>
    apply annotates_bind (annotates_download timestampTs)
    exact fun ok => annotates_bind ih fun stored => .ret _

theorem annotates_syncForecast (forecastTs : String) :
    (syncForecastNoted cfg forecastTs).Annotates (syncEcmwfMslpForecast cfg forecastTs) := by
  apply annotates_bind (annotates_silent _)
  intro basenames
  apply annotates_jot
  apply annotates_bind (annotates_silent _)
  intro known
  apply annotates_bind (annotates_syncGeojsons _)
  intro stored
  exact annotates_bind (annotates_silent _) fun _ => annotates_silent _

theorem annotates_syncActive (activeForecasts : List String) :
    (syncActiveNoted cfg activeForecasts).Annotates (syncActiveMslpForecasts cfg activeForecasts) := by
  apply annotates_jot
  unfold syncActiveMslpForecasts
  split
  · exact .ret ()
  · apply annotates_bind (annotates_forEach annotates_syncForecast _)
    exact fun _ => annotates_silent _

/-- Without its notes, this is the cycle. -/
theorem annotates_syncMslp : (syncMslpNoted cfg).Annotates (syncEcmwfMslp cfg) := by
  refine annotates_catch ?_ (.ret 1)
  apply annotates_bind (annotates_silent _)
  exact fun subdirs => annotates_bind (annotates_syncActive _) fun _ => .ret 0

end Annotated

end DataService.Sync
