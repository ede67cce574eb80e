import DataService.Lib.NumberText
import DataService.Sync.GfsConfig
import DataService.Sync.Site

/-! One cycle of the GFS loop: the cycles and steps that the COGs in S3 name, and the
overlays of each step, which are copied when Redis lacks them. -/

namespace DataService.Sync

open Coroutine Coro NumberText

/-- The settings check that both numbers are positive. -/
structure GfsSettings where
  gfsCyclesToKeep : Nat
  gfsCyclesToKeep_pos : 0 < gfsCyclesToKeep
  gfsGeojsonTtl : Nat
  gfsGeojsonTtl_pos : 0 < gfsGeojsonTtl
  reader : NumberReader

/-- The bytes of an object, as far as the loop tells them apart. -/
inductive Blob where
  | empty
  | filled
  deriving DecidableEq, Repr

abbrev Bucket := AList fun _ : S3Key => Blob

abbrev GfsCode := SiteCode Bucket

/-- `_cycle_score`; none where it raises. -/
def cycleScore (reader : NumberReader) (cycle : String) : Option Int :=
  let digits := cycle.toList.filter reader.isDigit
  if digits = [] then some 0 else reader.float digits

/-- `_step_score`; none where it raises. -/
def stepScore (reader : NumberReader) (fxxx : String) : Option Int :=
  let digits := if fxxx.toList.head? = some 'f' then fxxx.toList.drop 1 else fxxx.toList
  if digits ≠ [] ∧ digits.all reader.isDigit then reader.float digits else some 0

def addGfsIndex (productId cycle fxxx : String) (cycleScore stepScore : Int) (ttl : Nat)
    (w : World) : World :=
  (w.addFor (.gfsCycles productId) cycle cycleScore ttl).addFor (.gfsSteps productId cycle) fxxx
    stepScore ttl

def addGfsLayers (productId cycle fxxx : String) (layers : List String) (ttl : Nat) (w : World) :
    World :=
  (layers.foldl (fun w layer => w.add (.gfsLayers productId cycle fxxx) layer 0) w).expire
    (.gfsLayers productId cycle fxxx) ttl

variable (cfg : GfsSettings) (product : GfsProduct)

/-- The layers of the list that Redis or S3 has, and how many were copied. -/
def mirrorOverlays (cycle fxxx : String) : List String → GfsCode (List String × Nat)
  | [] => pure ([], 0)
  | layer :: layers => do
    if ← onWorld (readExists (.gfsGeojson product.productId cycle fxxx layer)) then
      let (present, copied) ← mirrorOverlays cycle fxxx layers
      pure (layer :: present, copied)
    else
      let key := buildGfsGeojsonKey product.s3Segment cycle fxxx layer
      let data ← downloadTile fun bucket : Bucket => bucket.lookup key
      if data = some .filled then
        onWorld (command
          (World.setEx (.gfsGeojson product.productId cycle fxxx layer) cfg.gfsGeojsonTtl))
        let (present, copied) ← mirrorOverlays cycle fxxx layers
        pure (layer :: present, copied + 1)
      else mirrorOverlays cycle fxxx layers

def indexGfsLayers (cycle fxxx : String) (present : List String) : GfsCode Unit :=
  if present = [] then pure ()
  else onWorld (command (addGfsLayers product.productId cycle fxxx present cfg.gfsGeojsonTtl))

/-- `_sync_step` -/
def syncGfsStep (cycle fxxx : String) : GfsCode Nat :=
  match cycleScore cfg.reader cycle, stepScore cfg.reader fxxx with
  | some cycleScore, some stepScore => do
    onWorld (command
      (addGfsIndex product.productId cycle fxxx cycleScore stepScore cfg.gfsGeojsonTtl))
    let (present, copied) ← mirrorOverlays cfg product cycle fxxx product.layers
    indexGfsLayers cfg product cycle fxxx present
    pure copied
  | _, _ => raise .error

def syncGfsSteps (cycle : String) : List String → GfsCode Nat
  | [] => pure 0
  | fxxx :: steps => do
    let copied ← syncGfsStep cfg product cycle fxxx
    let more ← syncGfsSteps cycle steps
    pure (copied + more)

/-- `_list_steps` -/
def listGfsSteps (cycle : String) : GfsCode (List String) :=
  askS3 fun bucket : Bucket => cogSteps bucket.keys product.s3Segment cycle

def syncGfsCycles : List String → GfsCode Nat
  | [] => pure 0
  | cycle :: cycles => do
    let steps ← listGfsSteps product cycle
    let copied ← syncGfsSteps cfg product cycle steps
    let more ← syncGfsCycles cycles
    pure (copied + more)

/-- `_active_cycles` -/
def activeGfsCycles : GfsCode (List String) :=
  askS3 fun bucket : Bucket => (cogCycles bucket.keys product.s3Segment).take cfg.gfsCyclesToKeep

/-- `_sync_product`, behind its listing -/
def syncListedGfsProduct (cycles : List String) : GfsCode Nat :=
  if cycles = [] then pure 0
  else do
    let copied ← syncGfsCycles cfg product cycles
    onWorld (pruneIndex (.gfsCycles product.productId) cycles)
    pure copied

/-- `_sync_product` -/
def syncGfsProduct : GfsCode Nat := do
  let cycles ← activeGfsCycles cfg product
  syncListedGfsProduct cfg product cycles

/-- The overlays copied, and the errors; each product has its own `except`. -/
def syncGfsProducts : List GfsProduct → GfsCode (Nat × Nat)
  | [] => pure (0, 0)
  | product :: products => do
    let copied ← catchError (do
      let copied ← syncGfsProduct cfg product
      pure (some copied)) (pure none)
    let (total, errors) ← syncGfsProducts products
    match copied with
    | some copied => pure (copied + total, errors)
    | none => pure (total, errors + 1)

/-- `_sync_gfs` -/
def syncGfs : GfsCode (Nat × Nat) := syncGfsProducts cfg gfsProducts

section Moves

/-- What one command of a pass does to Redis: `D` has the cycles it goes through, and the
cycle indexes are pruned if `prunes`. -/
inductive GfsMove (cfg : GfsSettings) (D : String → String → Prop) (prunes : Prop) (w : World) :
    World → Prop where
  | idle : GfsMove cfg D prunes w w
  | index {productId cycle fxxx : String} {cycleScore stepScore : Int} (hcycle : D productId cycle)
      (hscore : Sync.cycleScore cfg.reader cycle = some cycleScore)
      (hstep : Sync.stepScore cfg.reader fxxx = some stepScore) :
      GfsMove cfg D prunes w
        (addGfsIndex productId cycle fxxx cycleScore stepScore cfg.gfsGeojsonTtl w)
  | copy (productId cycle fxxx layer : String) :
      GfsMove cfg D prunes w
        (w.setEx (.gfsGeojson productId cycle fxxx layer) cfg.gfsGeojsonTtl)
  | advertise (productId cycle fxxx : String) (layers : List String) :
      GfsMove cfg D prunes w (addGfsLayers productId cycle fxxx layers cfg.gfsGeojsonTtl w)
  | prune (hprune : prunes) (productId : String) (p : String × Int → Bool) :
      GfsMove cfg D prunes w (w.keep (.gfsCycles productId) p)

/-- S3 is only read. -/
def GfsSiteMove (cfg : GfsSettings) (D : String → String → Prop) (prunes : Prop)
    (s t : Site Bucket) : Prop :=
  t.s3 = s.s3 ∧ GfsMove cfg D prunes s.world t.world

variable {cfg} {product} {D : String → String → Prop} {prunes : Prop} {α : Type}

theorem addGfsLayers_now (productId cycle fxxx : String) (layers : List String) (ttl : Nat)
    (w : World) : (addGfsLayers productId cycle fxxx layers ttl w).now = w.now := by
  show (layers.foldl _ w).now = w.now
  induction layers generalizing w with
  | nil => rfl
  | cons layer layers ih => exact ih (w.add (.gfsLayers productId cycle fxxx) layer 0)

theorem GfsMove.now_eq {w w' : World} (h : GfsMove cfg D prunes w w') : w'.now = w.now := by
  cases h with
  | idle => rfl
  | index hcycle hscore hstep => rfl
  | copy productId cycle fxxx layer => rfl
  | advertise productId cycle fxxx layers => exact addGfsLayers_now _ _ _ _ _ _
  | prune hprune productId p =>
    unfold World.keep
    split <;> rfl

theorem moves_onWorld {c : Code α} (h : c.Within (GfsMove cfg D prunes)) :
    (onWorld c : GfsCode α).Within (GfsSiteMove cfg D prunes) := by
  refine within_mono ?_ (within_onPart (worldPart Bucket) h)
  rintro s t ⟨w, hw, rfl⟩
  exact ⟨rfl, hw⟩

theorem moves_askS3 (f : Bucket → α) : (askS3 f).Within (GfsSiteMove cfg D prunes) := by
  apply within_call
  intro s r x t ht
  cases r <;> cases ht <;> exact ⟨rfl, .idle⟩

theorem moves_downloadTile (f : Bucket → Option α) :
    (downloadTile f).Within (GfsSiteMove cfg D prunes) := by
  apply within_call
  intro s r x t ht
  cases r with
  | raised e landed => cases e <;> cases ht <;> exact ⟨rfl, .idle⟩
  | ok =>
    cases ht
    exact ⟨rfl, .idle⟩
  | names l => cases ht

theorem moves_mirrorOverlays (cycle fxxx : String) (layers : List String) :
    (mirrorOverlays cfg product cycle fxxx layers).Within (GfsSiteMove cfg D prunes) := by
  induction layers with
  | nil => trivial
  | cons layer layers ih =>
    apply within_bind (moves_onWorld (within_readExists (fun _ => .idle) _))
    intro found
    split
    · exact within_bind ih fun _ => trivial
    · apply within_bind (moves_downloadTile _)
      intro data
      split
      · apply within_bind (moves_onWorld (within_command (fun _ => .idle) fun _ => .copy _ _ _ _))
        exact fun _ => within_bind ih fun _ => trivial
      · exact ih

theorem moves_syncGfsStep {cycle : String} (hcycle : D product.productId cycle) (fxxx : String) :
    (syncGfsStep cfg product cycle fxxx).Within (GfsSiteMove cfg D prunes) := by
  unfold syncGfsStep
  split
  · rename_i cycleScore stepScore hscore hstep
    apply within_bind (moves_onWorld (within_command (fun _ => .idle) fun _ =>
      .index hcycle hscore hstep))
    intro _
    apply within_bind (moves_mirrorOverlays _ _ _)
    intro mirrored
    have hlayers : (indexGfsLayers cfg product cycle fxxx mirrored.1).Within
        (GfsSiteMove cfg D prunes) := by
      unfold indexGfsLayers
      split
      · trivial
      · exact moves_onWorld (within_command (fun _ => .idle) fun _ => .advertise _ _ _ _)
    exact within_bind hlayers fun _ => trivial
  · trivial

theorem moves_syncGfsCycles {cycles : List String}
    (hcycles : ∀ cycle ∈ cycles, D product.productId cycle) :
    (syncGfsCycles cfg product cycles).Within (GfsSiteMove cfg D prunes) := by
  have hsteps : ∀ cycle, D product.productId cycle → ∀ steps,
      (syncGfsSteps cfg product cycle steps).Within (GfsSiteMove cfg D prunes) := by
    intro cycle hcycle steps
    induction steps with
    | nil => trivial
    | cons fxxx steps ih =>
      exact within_bind (moves_syncGfsStep hcycle fxxx) fun _ => within_bind ih fun _ => trivial
  induction cycles with
  | nil => trivial
  | cons cycle cycles ih =>
    apply within_bind (moves_askS3 _)
    intro steps
    apply within_bind (hsteps cycle (hcycles cycle List.mem_cons_self) steps)
    intro copied
    exact within_bind (ih fun c hc => hcycles c (List.mem_cons_of_mem cycle hc)) fun _ => trivial

/-- A whole pass: every cycle may be gone through, and the cycle indexes are pruned. -/
theorem moves_syncGfs : (syncGfs cfg).Within (GfsSiteMove cfg (fun _ _ => True) True) := by
  have hproduct : ∀ product,
      (syncGfsProduct cfg product).Within (GfsSiteMove cfg (fun _ _ => True) True) := by
    intro product
    apply within_bind (moves_askS3 _)
    intro cycles
    unfold syncListedGfsProduct
    split
    · trivial
    · apply within_bind (moves_syncGfsCycles fun _ _ => trivial)
      intro copied
      refine within_bind (moves_onWorld ?_) fun _ => trivial
      apply within_bind
      · apply within_call
        intro w r x t ht
        cases r <;> cases ht <;> exact .idle
      · intro names
        unfold removeMembers
        split
        · trivial
        · exact within_command (fun _ => .idle) fun _ => .prune trivial _ _
  unfold syncGfs
  induction gfsProducts with
  | nil => trivial
  | cons product products ih =>
    apply within_bind
    · exact within_catchError (within_bind (hproduct product) fun _ => trivial) trivial
    · intro copied
      apply within_bind ih
      intro total
      cases copied <;> trivial

end Moves

end DataService.Sync
