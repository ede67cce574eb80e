import DataService.Sync.BackedOverlays
import DataService.Sync.GfsService

/-! The overlays that the GFS endpoints list and those that they serve, while S3 changes, the
loop passes over it, Redis loses entries and listings are cached. -/

namespace DataService.Sync

open Coroutine Coro DirectoryListing ExpiringStore

section Run

variable {cfg : GfsSettings} {ocfg : OnDemandConfig} {s t : GfsState} {a : GfsAction} {x : Overlay}

/-- The pass writes to Redis alone, and takes no time. -/
def Steady (s t : Site Bucket) : Prop := t.s3 = s.s3 ∧ t.world.now = s.world.now

theorem Steady.refl (s : Site Bucket) : Steady s s := ⟨rfl, rfl⟩

theorem Steady.trans {s t u : Site Bucket} (h : Steady s t) (h' : Steady t u) : Steady s u :=
  ⟨h'.1.trans h.1, h'.2.trans h.2⟩

theorem steady_syncGfs (cfg : GfsSettings) : (syncGfs cfg).Within Steady :=
  within_mono (fun _ _ h => ⟨h.1, h.2.now_eq⟩) moves_syncGfs

/-- A pass at an await, and what it keeps. -/
structure PassOk (x : Overlay) (c : GfsCode (Nat × Nat)) (s : Site Bucket) : Prop where
  pending : c.Pending
  safe : KeepsBacked x (fun _ t => Backed x t) c s
  steady : c.Within Steady

namespace GfsState

/-- If Redis lists or holds the overlay, or is about to hold it, it is in S3. -/
structure Sound (ocfg : OnDemandConfig) (x : Overlay) (s : GfsState) : Prop where
  backed : Backed x s.site
  writes : x ∈ s.writes → InStore s.site.s3 x
  pass : ∀ c, s.pass = some c → PassOk x c s.site
  listings : UpToDate ocfg s.site.s3.keys s.changedAt s.site.world.now (s.reads true)

/-- The overlay does not go from S3 while Redis lists or holds it or is about to hold it, nor
during a pass. -/
def Spares (x : Overlay) (s : GfsState) : GfsAction → Prop
  | .upload bucket =>
    (s.pass.isSome ∨ x ∈ heldOverlays s.site.world ∨ x ∈ s.writes) →
      InStore s.site.s3 x → InStore bucket x
  | _ => True

theorem sound_initial (now : Nat) : (initial now).Sound ocfg x where
  backed hx := by
    rcases hx with hx | hx
    · simp [initial, gfsMirror_initial] at hx
    · simp [initial, gfsMirror_initial] at hx
  writes := by simp [initial]
  pass := by simp [initial]
  listings := ⟨rfl, ⟨true, rfl⟩, by simp [initial, reads]⟩

/-- The pass moves on. -/
theorem Sound.withPass (h : s.Sound ocfg x) {site : Site Bucket}
    {pass : Option (GfsCode (Nat × Nat))} (hsteady : Steady s.site site) (hbacked : Backed x site)
    (hpass : ∀ c, pass = some c → PassOk x c site) :
    Sound ocfg x { s with site := site, pass := pass } := by
  obtain ⟨hs3, hnow⟩ := hsteady
  refine ⟨hbacked, ?_, hpass, ?_⟩
  · rw [hs3]
    exact h.writes
  · have hlistings := h.listings
    rw [← hs3, ← hnow] at hlistings
    exact ⟨rfl, ⟨true, rfl⟩, hlistings.cached⟩

theorem sound_arrive (h : s.Sound ocfg x) {p : GfsCode (Nat × Nat) × Site Bucket}
    (hp : p.1.Settled) (hmoves : Steady s.site p.2 ∧ p.1.Within Steady)
    (hsafe : KeepsBacked x (fun _ t => Backed x t) p.1 p.2) : (s.arrive p).Sound ocfg x := by
  obtain ⟨c, site⟩ := p
  obtain ⟨hsteady, hmoves⟩ := hmoves
  cases c with
  | ret r => exact h.withPass hsteady hsafe (by simp)
  | raise e => exact h.withPass hsteady hsafe (by simp)
  | atom f next => exact hp.elim
  | await f next =>
    have hpending : (Coro.await f next : GfsCode (Nat × Nat)).Pending := trivial
    refine h.withPass hsteady (safe_crash hpending hsafe (.refl _)) fun d hd => ?_
    cases hd
    exact ⟨hpending, hsafe, hmoves⟩

/-- Redis moves while the pass waits. -/
theorem Sound.withWorld (h : s.Sound ocfg x) {w : World} (hnow : s.site.world.now ≤ w.now)
    (hbacked : Backed x { s.site with world := w }) :
    Sound ocfg x { s with site := { s.site with world := w } } := by
  refine ⟨hbacked, h.writes, fun c hc => ?_, rfl, ⟨true, rfl⟩, fun key slot hslot => ?_⟩
  · obtain ⟨hpending, hsafe, hmoves⟩ := h.pass c hc
    have hstays : LosesNone x s.site { s.site with world := w } := ⟨id, fun _ => hbacked⟩
    exact ⟨hpending, safe_interfere hpending (fun u hu => hstays.trans hu) hsafe, hmoves⟩
  · obtain ⟨deadline, hdeadline, hle, hlisted⟩ := h.listings.cached key slot hslot
    exact ⟨deadline, hdeadline, hle.trans (Nat.add_le_add_right hnow _), hlisted⟩

theorem sound_upload {bucket : Bucket} (h : s.Sound ocfg x) (ha : s.Spares x (.upload bucket)) :
    Sound ocfg x { s with
      site := { s.site with s3 := bucket }
      changedAt := s.site.world.now } := by
  have hbacked : Backed x { s.site with s3 := bucket } := fun hx =>
    ha (.inr (.inl hx)) (h.backed hx)
  refine ⟨hbacked, ?_, fun c hc => ?_, rfl, ⟨true, rfl⟩, fun key slot hslot => ?_⟩
  · exact fun hx => ha (.inr (.inr hx)) (h.writes hx)
  · obtain ⟨hpending, hsafe, hmoves⟩ := h.pass c hc
    have hrunning : s.pass.isSome := by rw [show s.pass = some c from hc]; rfl
    have hstays : LosesNone x s.site { s.site with s3 := bucket } :=
      ⟨ha (.inl hrunning), fun _ => hbacked⟩
    exact ⟨hpending, safe_interfere hpending (fun u hu => hstays.trans hu) hsafe, hmoves⟩
  · -- what was listed before the upload expires in time
    obtain ⟨deadline, hdeadline, hle, -⟩ := h.listings.cached key slot hslot
    exact ⟨deadline, hdeadline, hle, .inl hle⟩

theorem sound_step (h : s.Sound ocfg x) (ha : s.Spares x a) (hs : gfsStep cfg ocfg s a = some t) :
    t.Sound ocfg x := by
  cases a with
  | upload bucket =>
    cases hs
    exact sound_upload h ha
  | begin =>
    simp only [gfsStep] at hs
    split at hs
    · cases hs
      have hmoves := within_settle Steady.refl (fun _ _ _ => Steady.trans) (steady_syncGfs cfg)
        s.site
      exact sound_arrive h (settled_settle _ _) hmoves (safe_settle (safe_syncGfs h.backed))
    · cases hs
  | resume r =>
    obtain ⟨c, hc, hs⟩ := Option.bind_eq_some_iff.mp hs
    obtain ⟨p, hp, rfl⟩ := Option.map_eq_some_iff.mp hs
    obtain ⟨hpending, hsafe, hmoves⟩ := h.pass c hc
    have hmoved := within_answer Steady.refl (fun _ _ _ => Steady.trans) hmoves hp
    exact sound_arrive h (settled_answer hp) hmoved (safe_answer hsafe (.refl _) hp)
  | kill =>
    cases hs
    exact ⟨h.backed, by simp, by simp, h.listings⟩
  | tick seconds =>
    cases hs
    refine h.withWorld (Nat.le_add_right _ _) (backed_of_subset h.backed (held_of_get ?_))
    exact fun k v hv => Store.get_later (Nat.le_add_right _ _) hv
  | evict key =>
    cases hs
    refine h.withWorld (Nat.le_refl _) (backed_of_subset h.backed (held_of_get ?_))
    intro k v hv
    by_cases hk : k = key
    · subst hk
      simp [World.setRedis, Store.get_del_self] at hv
    · simpa [World.setRedis, Store.get_del_ne hk] using hv
  | evictListing key =>
    cases hs
    refine ⟨h.backed, h.writes, h.pass, rfl, ⟨true, rfl⟩, fun other slot hslot => ?_⟩
    by_cases hk : other = key
    · subst hk
      simp [reads, Store.del] at hslot
    · simp only [reads, Store.del, AList.lookup_erase_ne hk] at hslot
      exact h.listings.cached other slot hslot
  | list strategy r up =>
    cases hs
    have hbefore : UpToDate ocfg s.site.s3.keys s.changedAt s.site.world.now (s.reads up) :=
      ⟨rfl, ⟨up, rfl⟩, h.listings.cached⟩
    have hafter := upToDate_ask strategy s.site.world r hbefore
    exact ⟨h.backed, h.writes, h.pass, rfl, ⟨true, rfl⟩, hafter.cached⟩
  | getGeojson y =>
    simp only [gfsStep] at hs
    split_ifs at hs with hread
    · cases hs
      refine ⟨h.backed, fun hx => ?_, h.pass, h.listings⟩
      rcases List.mem_cons.mp hx with rfl | hx
      · exact inStore_of_lookup hread.2.2
      · exact h.writes hx
    · cases hs
      exact h
  | cacheWrite y landed =>
    simp only [gfsStep] at hs
    split_ifs at hs with hy hlanded
    · cases hs
      have hnow : s.site.world.now ≤ (s.site.world.setEx
          (.gfsGeojson y.1.productId y.1.cycle y.1.fxxx y.2) cfg.gfsGeojsonTtl).now := Nat.le_refl _
      have hstored := h.withWorld hnow (backed_store cfg h.backed fun hyx => h.writes (hyx ▸ hy))
      exact ⟨hstored.backed, fun hx => h.writes (List.mem_of_mem_erase hx), hstored.pass,
        hstored.listings⟩
    · cases hs
      exact ⟨h.backed, fun hx => h.writes (List.mem_of_mem_erase hx), h.pass, h.listings⟩

end GfsState

end Run

section Served

variable {ocfg : OnDemandConfig} {bucket : Bucket} {w : World} {strategy : GfsStrategy}
  {productId cycle fxxx layer : String}

theorem inStore_of_layerNames
    (h : layer ∈ layerNames (overlayNames bucket (segmentOf productId) cycle) cycle fxxx) :
    InStore bucket (⟨productId, cycle, fxxx⟩, layer) :=
  (mem_overlayNames.mp (mem_layerNames.mp h).1).1

theorem served_of_inStore {x : Overlay} (hlayer : x.2 ∈ layersFor x.1.productId)
    (h : InStore bucket x) (w : World) :
    (serviceGetGeojson w bucket x.1.productId x.1.cycle x.1.fxxx x.2).isSome := by
  unfold serviceGetGeojson
  cases hproduct : getProduct x.1.productId with
  | none => simp [layersFor, hproduct] at hlayer
  | some product =>
    have hlayers : x.2 ∈ product.layers := by simpa [layersFor, hproduct] using hlayer
    have hsegment : segmentOf x.1.productId = product.s3Segment := by
      simp [segmentOf, s3Segment, hproduct]
    rw [InStore, overlayKey, hsegment] at h
    simp only [hlayers, if_true]
    split
    · rfl
    · exact AList.lookup_isSome.mpr (AList.mem_keys.mpr h)

/-- Nothing is served that the product does not have. -/
theorem layer_of_served {x : Overlay}
    (h : (serviceGetGeojson w bucket x.1.productId x.1.cycle x.1.fxxx x.2).isSome) :
    x.2 ∈ layersFor x.1.productId := by
  unfold serviceGetGeojson at h
  cases hproduct : getProduct x.1.productId with
  | none => simp [hproduct] at h
  | some product =>
    simp only [hproduct] at h
    split at h
    · simpa [layersFor, hproduct]
    · cases h

/-- `list_steps` shows the layer with the step. -/
def GfsState.Lists (ocfg : OnDemandConfig) (strategy : GfsStrategy) (s : GfsState) (x : Overlay) :
    Prop :=
  ∃ steps, (serviceListSteps ocfg strategy s.site.world x.1.productId x.1.cycle (s.reads true)).1 =
    some steps ∧ ∃ p ∈ steps, p.1 = x.1.fxxx ∧ x.2 ∈ p.2

/-- `get_geojson` has bytes, whatever Redis has by then. -/
def GfsState.Serves (s : GfsState) (x : Overlay) : Prop :=
  ∀ w, (serviceGetGeojson w s.site.s3 x.1.productId x.1.cycle x.1.fxxx x.2).isSome

theorem inStore_of_lists {s : GfsState} {x : Overlay} (h : s.Sound ocfg x)
    (hquiet : s.changedAt + ocfg.tilesetListingTtl ≤ s.site.world.now)
    (hlists : s.Lists ocfg strategy x) : InStore s.site.s3 x := by
  obtain ⟨⟨productId, cycle, fxxx⟩, layer⟩ := x
  obtain ⟨steps, hsteps, p, hp, rfl, hlayer⟩ := hlists
  let cycles := advertisedCycles ocfg strategy s.site.world productId (s.reads true)
  let listed := strategy.ask ocfg s.site.world (.listSteps productId cycle) cycles.2
  have hcycles : UpToDate ocfg s.site.s3.keys s.changedAt s.site.world.now cycles.2 :=
    upToDate_ask _ _ _ h.listings
  have hlisted : UpToDate ocfg s.site.s3.keys s.changedAt s.site.world.now listed.2 :=
    upToDate_ask _ _ _ hcycles
  obtain ⟨M, hlayers, hshown⟩ := listed_layers strategy s.site.world productId cycle hlisted
    hquiet listed.1.toNames
  unfold serviceListSteps at hsteps
  split at hsteps
  · dsimp only at hsteps
    split at hsteps
    · split at hsteps
      · cases hsteps
      · obtain rfl := Option.some.inj hsteps
        obtain ⟨fxxx, hfxxx, rfl⟩ := List.mem_map.mp hp
        have hat : layer ∈ M fxxx := by
          have hsame := layersAt_map M hfxxx
          rw [← hlayers] at hsame
          rwa [← hsame]
        rcases hshown fxxx layer hat with hindex | hs3
        · exact h.backed (.inl hindex)
        · exact inStore_of_layerNames hs3
    · cases hsteps
  · cases hsteps

end Served

/-- For every overlay, strategy and run of uploads, deletions, passes, evictions and requests:
if the object of the overlay did not go while Redis had it or a pass was at work, then once the
older listings have expired a listed layer is served iff it belongs to the product. -/
theorem listed_overlay_served_iff (cfg : GfsSettings) (ocfg : OnDemandConfig)
    (strategy : GfsStrategy) (x : Overlay) {now : Nat} {as : List GfsAction} {s : GfsState}
    (hrun : StepSystem.run (gfsStep cfg ocfg) (.initial now) as = some s)
    (hspares : StepSystem.Along (gfsStep cfg ocfg) (GfsState.Spares x) (.initial now) as)
    (hquiet : s.changedAt + ocfg.tilesetListingTtl ≤ s.site.world.now)
    (hlists : s.Lists ocfg strategy x) : s.Serves x ↔ x.2 ∈ layersFor x.1.productId := by
  have hsound : s.Sound ocfg x := StepSystem.run_invariant_along
    (fun _ _ _ h ha hs => GfsState.sound_step h ha hs) (GfsState.sound_initial now) hspares hrun
  constructor
  · exact fun hserves => layer_of_served (hserves s.site.world)
  · exact fun hlayer => served_of_inStore hlayer (inStore_of_lists hsound hquiet hlists)

section Runs

def pressureOverlay (layer : String) : Overlay :=
  (⟨"mean-sea-level-pressure", "20260101T0000Z", "f001"⟩, layer)

/-- One step of a cycle, with these overlays. -/
def pressureBucket (layers : List String) : Bucket :=
  layers.foldl (fun bucket layer => bucket.insert (overlayKey (pressureOverlay layer)) .filled)
    ((∅ : Bucket).insert (buildGfsCogKey "mean-sea-level-pressure" "20260101T0000Z" "f001") .filled)

/-- A pass to its end, with that many awaits. -/
def quietPass (awaits : Nat) : List GfsAction := .begin :: List.replicate awaits (.resume .ok)

/-- The overlays are mirrored, and stay in S3. -/
def servedRun : List GfsAction :=
  .upload (pressureBucket ["isobars", "thickness"]) :: .tick 60 :: quietPass 13

/-- An object that is named like an overlay. -/
def strayRun : List GfsAction :=
  .upload (pressureBucket ["foo"]) :: .tick 60 :: quietPass 10

/-- An overlay is deleted after a pass, and two more passes follow. -/
def deletedRun : List GfsAction :=
  .upload (pressureBucket ["isobars", "thickness"]) :: quietPass 13 ++
    .tick 30 :: .upload (pressureBucket ["thickness"]) :: quietPass 9 ++
    .tick 40 :: quietPass 12 ++ [.tick 20]

/-- What a client sees, and whether S3 has been as it is for long enough. -/
structure ClientView where
  quiet : Bool
  listed : Option (List (String × List String))
  served : Option Blob
  deriving DecidableEq

def GfsState.view (strategy : GfsStrategy) (x : Overlay) (s : GfsState) : ClientView where
  quiet := decide (s.changedAt + twoCycles.tilesetListingTtl ≤ s.site.world.now)
  listed := (serviceListSteps twoCycles strategy s.site.world x.1.productId x.1.cycle
    (s.reads true)).1
  served := serviceGetGeojson s.site.world s.site.s3 x.1.productId x.1.cycle x.1.fxxx x.2

theorem reached_of_view (as : List GfsAction) (strategy : GfsStrategy) (x : Overlay)
    (layers : List String) (served : Option Blob) (hmem : x.2 ∈ layers)
    (h : (StepSystem.run (gfsStep keepTwoCycles twoCycles) (.initial 0) as).map
      (GfsState.view strategy x) = some ⟨true, some [(x.1.fxxx, layers)], served⟩) :
    ∃ s, StepSystem.run (gfsStep keepTwoCycles twoCycles) (.initial 0) as = some s ∧
      s.changedAt + twoCycles.tilesetListingTtl ≤ s.site.world.now ∧
      s.Lists twoCycles strategy x ∧
      serviceGetGeojson s.site.world s.site.s3 x.1.productId x.1.cycle x.1.fxxx x.2 = served := by
  obtain ⟨s, hrun, hview⟩ := Option.map_eq_some_iff.mp h
  have hquiet := of_decide_eq_true (congrArg ClientView.quiet hview)
  have hlisted := congrArg ClientView.listed hview
  have hserved := congrArg ClientView.served hview
  exact ⟨s, hrun, hquiet, ⟨_, hlisted, _, List.mem_singleton_self _, rfl, hmem⟩, hserved⟩

/-- Nothing is deleted after the first upload. -/
theorem spares_first_upload {cfg : GfsSettings} {ocfg : OnDemandConfig} {x : Overlay} (now : Nat)
    (bucket : Bucket) {as : List GfsAction} (h : ∀ other, .upload other ∉ as) :
    StepSystem.Along (gfsStep cfg ocfg) (GfsState.Spares x) (.initial now)
      (.upload bucket :: as) := by
  have hrest : ∀ s, StepSystem.Along (gfsStep cfg ocfg) (GfsState.Spares x) s as := by
    induction as with
    | nil => exact fun _ => trivial
    | cons a as ih =>
      intro s
      refine ⟨?_, fun t _ => ih (fun other hmem => h other (List.mem_cons_of_mem a hmem)) t⟩
      cases a with
      | upload other => exact absurd List.mem_cons_self (h other)
      | _ => trivial
  refine ⟨fun _ hx => ?_, fun t _ => hrest t⟩
  cases hx

/-- The warm path lists an overlay, and it is served. -/
theorem listed_overlay_served_isobars : ∃ s,
    StepSystem.run (gfsStep keepTwoCycles twoCycles) (.initial 0) servedRun = some s ∧
      s.Lists twoCycles .fullSync (pressureOverlay "isobars") ∧
      s.Serves (pressureOverlay "isobars") := by
  obtain ⟨s, hrun, hquiet, hlists, -⟩ := reached_of_view servedRun .fullSync
    (pressureOverlay "isobars") ["isobars", "thickness"] (some .filled) (by decide)
    (by decide +kernel)
  have hspares : StepSystem.Along (gfsStep keepTwoCycles twoCycles)
      (GfsState.Spares (pressureOverlay "isobars")) (.initial 0) servedRun :=
    spares_first_upload 0 _ (by simp [quietPass])
  have hiff := listed_overlay_served_iff keepTwoCycles twoCycles .fullSync
    (pressureOverlay "isobars") hrun hspares hquiet hlists
  exact ⟨s, hrun, hlists, hiff.mpr (by decide)⟩

/-- The cold path lists a stray object, and the warm path an overlay that is gone. -/
theorem listed_overlay_missing :
    (∃ s, StepSystem.run (gfsStep keepTwoCycles twoCycles) (.initial 0) strayRun = some s ∧
      s.changedAt + twoCycles.tilesetListingTtl ≤ s.site.world.now ∧
      s.Lists twoCycles .onDemand (pressureOverlay "foo") ∧
      serviceGetGeojson s.site.world s.site.s3 "mean-sea-level-pressure" "20260101T0000Z" "f001"
        "foo" = none) ∧
    ∃ s, StepSystem.run (gfsStep keepTwoCycles twoCycles) (.initial 0) deletedRun = some s ∧
      s.changedAt + twoCycles.tilesetListingTtl ≤ s.site.world.now ∧
      s.Lists twoCycles .fullSync (pressureOverlay "isobars") ∧
      serviceGetGeojson s.site.world s.site.s3 "mean-sea-level-pressure" "20260101T0000Z" "f001"
        "isobars" = none :=
  ⟨reached_of_view _ _ (pressureOverlay "foo") ["foo"] none (by decide) (by decide +kernel),
    reached_of_view _ _ (pressureOverlay "isobars") ["isobars", "thickness"] none (by decide)
      (by decide +kernel)⟩

end Runs

end DataService.Sync
