import DataService.Lib.Repeated
import DataService.Sync.Loops
import DataService.Sync.NotedCode

/-! The passes over the overlays of one WRF step, with notes of what they did: the layers that
were stored, those that were registered and are still owed, and what a pass concluded. -/

namespace DataService.Sync

open Coroutine Coro

/-- A pass that ended without an exception, after S3 had listed layers. -/
structure OverlayPass where
  listed : List String
  owedBefore : List String
  fetched : List String
  deriving DecidableEq, Repr

/-- `owed` are the layers that were registered and not stored since: the copy failed, was cut
off, or is still to come. `latched` holds what S3 had listed when a pass set the marker for
good, and what had been stored by then. -/
structure OverlayNotes where
  stored : List String
  owed : List String
  owedBefore : List String
  fetched : List String
  latched : List (List String × List String)
  passes : List OverlayPass
  deriving DecidableEq, Repr

namespace OverlayNotes

def empty : OverlayNotes := ⟨[], [], [], [], [], []⟩

def beginPass (n : OverlayNotes) : OverlayNotes := { n with owedBefore := n.owed, fetched := [] }

def register (layers : List String) (n : OverlayNotes) : OverlayNotes :=
  { n with owed := n.owed ++ layers }

def fetch (layer : String) (n : OverlayNotes) : OverlayNotes :=
  { n with fetched := n.fetched ++ [layer] }

def store (layer : String) (n : OverlayNotes) : OverlayNotes :=
  { n with stored := n.stored ++ [layer], owed := n.owed.filter (· ≠ layer) }

/-- A copy that fails is owed, also if an earlier one of the same layer did not. -/
def fail (layer : String) (n : OverlayNotes) : OverlayNotes :=
  { n with owed := n.owed.filter (· ≠ layer) ++ [layer] }

def latch (listed : List String) (n : OverlayNotes) : OverlayNotes :=
  { n with latched := n.latched ++ [(listed, n.stored)] }

def endPass (listed : List String) (n : OverlayNotes) : OverlayNotes :=
  { n with passes := n.passes ++ [⟨listed, n.owedBefore, n.fetched⟩] }

end OverlayNotes

variable (cfg : SyncConfig) (productId initTag fxxx : String)

def copyLayerNoted (layer : String) : NotedCode OverlayNotes Unit := do
  jot (OverlayNotes.fetch layer)
  catchNoted (do
    silent fetchObject
    silent (command (World.setEx (.wrfGeojson productId initTag fxxx layer) cfg.wrfGeojsonTtl))
    jot (OverlayNotes.store layer))
    (jot (OverlayNotes.fail layer))

def copyMissingNoted (s3Layers missingLayers : List String) : NotedCode OverlayNotes Unit :=
  if missingLayers = [] then do
    jot (OverlayNotes.latch s3Layers)
    silent (command (World.setEx (.wrfOverlaysDone productId initTag fxxx) cfg.wrfGeojsonTtl))
  else do
    jot (OverlayNotes.register missingLayers)
    silent (command (addWrfLayers productId initTag fxxx s3Layers cfg.wrfGeojsonTtl))
    forEachNoted (copyLayerNoted cfg productId initTag fxxx) missingLayers

def mirrorLayersNoted (s3Layers : List String) : NotedCode OverlayNotes Unit := do
  let redisLayers ← silent (readMembers (.wrfLayers productId initTag fxxx))
  copyMissingNoted cfg productId initTag fxxx s3Layers
    (s3Layers.filter fun layer => layer ∉ redisLayers)
  jot (OverlayNotes.endPass s3Layers)

def syncOverlaysNoted : NotedCode OverlayNotes Unit := do
  jot OverlayNotes.beginPass
  if ← silent (readExists (.wrfOverlaysDone productId initTag fxxx)) then pure ()
  else
    catchNoted (do
      let s3Layers ← silent listNames
      if s3Layers = [] then
        silent (command
          (World.setEx (.wrfOverlaysDone productId initTag fxxx) cfg.wrfOverlayRecheckTtl))
      else mirrorLayersNoted cfg productId initTag fxxx s3Layers)
      (pure ())

section Annotated

variable {cfg productId initTag fxxx}

/-- A note that is taken last. -/
theorem annotates_last {c' : NotedCode OverlayNotes Unit} {c : Code Unit} (h : c'.Annotates c)
    (f : OverlayNotes → OverlayNotes) : (do c'; jot f : NotedCode OverlayNotes Unit).Annotates c := by
  have hbind : (c >>= fun _ => (pure () : Code Unit)) = c := by
    change c.bind (fun _ => ret ()) = c
    induction h with
    | ret a => rfl
    | raise e => rfl
    | atom hf _ ih => simp only [Coro.bind, ih]
    | await hf _ ih => simp only [Coro.bind, ih]
    | jot _ ih => exact ih
  rw [← hbind]
  exact annotates_bind h fun _ => .jot (.ret ())

theorem annotates_copyLayer (layer : String) :
    (copyLayerNoted cfg productId initTag fxxx layer).Annotates
      (syncWrfGeojsonToRedis cfg productId initTag fxxx layer) := by
  apply annotates_jot
  refine annotates_catch ?_ (.jot (.ret ()))
  apply annotates_bind (annotates_silent _)
  exact fun _ => annotates_last (annotates_silent _) _

theorem annotates_copyMissing (s3Layers missingLayers : List String) :
    (copyMissingNoted cfg productId initTag fxxx s3Layers missingLayers).Annotates
      (copyMissingLayers cfg productId initTag fxxx s3Layers missingLayers) := by
  unfold copyMissingNoted copyMissingLayers
  split
  · exact annotates_jot (annotates_silent _)
  · apply annotates_jot
    apply annotates_bind (annotates_silent _)
    exact fun _ => annotates_forEach annotates_copyLayer _

theorem annotates_syncOverlays : (syncOverlaysNoted cfg productId initTag fxxx).Annotates
    (syncWrfOverlays cfg productId initTag fxxx) := by
  apply annotates_jot
  apply annotates_bind (annotates_silent _)
  intro done
  split
  · exact .ret ()
  · refine annotates_catch ?_ (.ret ())
    apply annotates_bind (annotates_silent _)
    intro s3Layers
    split
    · exact annotates_silent _
    · apply annotates_bind (annotates_silent _)
      exact fun redisLayers => annotates_last (annotates_copyMissing _ _) _

end Annotated

end DataService.Sync
