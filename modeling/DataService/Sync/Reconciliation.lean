import DataService.Sync.RunIndex

/-! Each loop reconciles the index of its runs to the newest runs that S3 lists. Nothing
leaves the index before that, and what is inside the newest runs never does. -/

namespace DataService.Sync

open Coroutine Coro

variable {σ α β : Type} {world : σ → World} {index : IndexKey} {newest : List String}

/-- While the cycle waits, nobody else writes the index, and it neither expires nor is
evicted. -/
def IndexUndisturbed (world : σ → World) (index : IndexKey) (s t : σ) : Prop :=
  (world t).memberNames index = (world s).memberNames index

/-- No run has left the index since `s`. -/
def Retains (world : σ → World) (index : IndexKey) (s t : σ) : Prop :=
  (world s).memberNames index ⊆ (world t).memberNames index

/-- No run inside the newest has left the index since `s`. -/
def RetainsNewest (world : σ → World) (index : IndexKey) (newest : List String) (s t : σ) : Prop :=
  ∀ run ∈ (world s).memberNames index, run ∈ newest → run ∈ (world t).memberNames index

/-- A part of a cycle works on the newest runs, and reconciles the index after that. -/
structure Reconciles (world : σ → World) (index : IndexKey) (newest : List String)
    (work : Coro σ Reply SyncExn α) (prune : α → Coro σ Reply SyncExn β)
    (part : Coro σ Reply SyncExn β) : Prop where
  order : part = work >>= prune
  /-- wherever it stands, raises or is cancelled before the prune -/
  beforePrune : ∀ s, work.Safe (IndexUndisturbed world index) (Retains world index s)
    (fun _ t => Retains world index s t) (fun _ t => Retains world index s t) s
  finished : ∀ s, part.Safe (IndexUndisturbed world index) (RetainsNewest world index newest s)
    (fun _ t => (world t).memberNames index ⊆ newest ∧ RetainsNewest world index newest s t)
    (fun _ t => RetainsNewest world index newest s t) s

theorem retains_of_grows {s t : σ} (h : Grows index newest (world s) (world t)) {u : σ}
    (hu : Retains world index u s) : Retains world index u t :=
  List.Subset.trans hu h.retained

theorem retains_undisturbed {s t u : σ} (h : IndexUndisturbed world index s t)
    (hu : Retains world index u s) : Retains world index u t := by
  unfold Retains
  rw [h]
  exact hu

theorem retainsNewest_undisturbed {s t u : σ} (h : IndexUndisturbed world index s t)
    (hu : RetainsNewest world index newest u s) : RetainsNewest world index newest u t := by
  intro run hrun hnewest
  rw [h]
  exact hu run hrun hnewest

theorem retains_newest {s t : σ} (h : Retains world index s t) :
    RetainsNewest world index newest s t :=
  fun _ hrun _ => h hrun

section Prune

/-- `_prune_index_set` and `_prune_sorted_index` take out exactly what is not to be kept. -/
theorem pruneIndex_safe {w₀ w : World} (h : RetainsNewest id index newest w₀ w) :
    (pruneIndex index newest).Safe (IndexUndisturbed id index) (RetainsNewest id index newest w₀)
      (fun _ t => t.memberNames index ⊆ newest ∧ RetainsNewest id index newest w₀ t)
      (fun _ t => RetainsNewest id index newest w₀ t) w := by
  have hremove : ∀ (stale : List String) (t : World), (∀ run ∈ stale, run ∉ newest) →
      RetainsNewest id index newest w₀ t →
      RetainsNewest id index newest w₀ (t.keep index fun p => decide (p.1 ∉ stale)) := by
    intro stale t hstale ht run hrun hnewest
    exact mem_memberNames_remove.mpr ⟨ht run hrun hnewest, fun hs => hstale run hs hnewest⟩
  have hread : (readMembers index).Safe (IndexUndisturbed id index)
      (RetainsNewest id index newest w₀)
      (fun names t => names = t.memberNames index ∧ RetainsNewest id index newest w₀ t)
      (fun _ t => RetainsNewest id index newest w₀ t) w := by
    apply safe_call
    intro t ht
    have hkept : RetainsNewest id index newest w₀ t := retainsNewest_undisturbed ht h
    refine ⟨hkept, fun r names u hu => ?_, fun r e u hu => ?_⟩
    · cases r <;> cases hu
      split
      · exact ⟨rfl, hkept⟩
      · exact ⟨rfl, hkept⟩
    · cases r <;> cases hu
      exact hkept
  apply safe_bind
  refine safe_mono ?_ (fun _ _ he => he) hread
  rintro names t ⟨rfl, ht⟩
  have hstale : ∀ run ∈ (t.memberNames index).filter fun name => name ∉ newest, run ∉ newest :=
    fun run hrun => of_decide_eq_true (List.mem_filter.mp hrun).2
  unfold removeMembers
  split
  · rename_i hnone
    refine ⟨fun run hrun => ?_, ht⟩
    by_contra hnot
    have hmem : run ∈ (t.memberNames index).filter fun name => name ∉ newest :=
      List.mem_filter.mpr ⟨hrun, decide_eq_true hnot⟩
    rw [hnone] at hmem
    cases hmem
  · apply safe_call
    intro u hu
    have hkept : RetainsNewest id index newest w₀ u := retainsNewest_undisturbed hu ht
    refine ⟨hkept, fun r _ v hv => ?_, fun r e v hv => ?_⟩
    · cases r <;> cases hv
      refine ⟨fun run hrun => ?_, hremove _ u hstale hkept⟩
      obtain ⟨hmem, hnot⟩ := mem_memberNames_remove.mp hrun
      by_contra hout
      have hmem' : run ∈ t.memberNames index := by
        have hsame : u.memberNames index = t.memberNames index := hu
        rwa [hsame] at hmem
      exact hnot (List.mem_filter.mpr ⟨hmem', decide_eq_true hout⟩)
    · cases r with
      | raised e landed =>
        cases landed <;> cases hv
        · exact hkept
        · exact hremove _ u hstale hkept
      | ok => cases hv
      | names l => cases hv

end Prune

/-- Work that lets the index grow takes no run out of it. -/
theorem retains_safe {work : Coro σ Reply SyncExn α}
    (hwork : work.Within fun s t => Grows index newest (world s) (world t)) (s : σ) :
    work.Safe (IndexUndisturbed world index) (Retains world index s)
      (fun _ t => Retains world index s t) (fun _ t => Retains world index s t) s := by
  have hrely : ∀ t u, IndexUndisturbed world index t u → Retains world index s t →
      Retains world index s u := fun t u h ht => retains_undisturbed h ht
  have hmove : ∀ t u, Grows index newest (world t) (world u) → Retains world index s t →
      Retains world index s u := fun t u h ht => retains_of_grows h ht
  exact hwork.safe hrely hmove (List.Subset.refl _)

/-- The rule: work that only lets the index grow, and then a prune that is safe. -/
theorem reconciles_of_within {work : Coro σ Reply SyncExn α} {prune : α → Coro σ Reply SyncExn β}
    (hwork : work.Within fun s t => Grows index newest (world s) (world t))
    (hprune : ∀ a s t, RetainsNewest world index newest s t →
      (prune a).Safe (IndexUndisturbed world index) (RetainsNewest world index newest s)
        (fun _ u => (world u).memberNames index ⊆ newest ∧ RetainsNewest world index newest s u)
        (fun _ u => RetainsNewest world index newest s u) t) :
    Reconciles world index newest work prune (work >>= prune) where
  order := rfl
  beforePrune s := retains_safe hwork s
  finished s := by
    have hcrash : ∀ t, Retains world index s t → RetainsNewest world index newest s t :=
      fun t ht => retains_newest ht
    have hwork' := safe_mono_crash hcrash (retains_safe hwork s)
    apply safe_bind
    exact safe_mono (fun a t ht => hprune a s t (hcrash t ht)) (fun _ t ht => hcrash t ht) hwork'

variable {cfg : MslpConfig} {gfs : GfsSettings} {product : GfsProduct}

/-- The part of the WRF cycle behind the listing of a product's runs. -/
def syncListedInits (cfg : SyncConfig) (productId : String) (initTags : List String) : Code Unit := do
  forEach (syncWrfInit cfg productId) (selectActiveInits cfg initTags)
  if selectActiveInits cfg initTags = [] then pure ()
  else pruneIndex (.wrfInitRuns productId) (selectActiveInits cfg initTags)

/-- Pruning the index of a site. -/
theorem pruneGfsCycles_safe {s t : Site Bucket} (copied : Nat)
    (h : RetainsNewest Site.world index newest s t) :
    (do
      onWorld (pruneIndex index newest)
      pure copied : GfsCode Nat).Safe (IndexUndisturbed Site.world index)
      (RetainsNewest Site.world index newest s)
      (fun _ u => u.world.memberNames index ⊆ newest ∧ RetainsNewest Site.world index newest s u)
      (fun _ u => RetainsNewest Site.world index newest s u) t := by
  apply safe_bind
  have hworld : RetainsNewest id index newest s.world t.world := h
  have hprune := pruneIndex_safe hworld
  exact safe_onPart (worldPart Bucket) (fun _ _ ht => ht) hprune

def smallMirror : MslpConfig where
  names :=
    { parseZxy := fun _ => none, extractWrfInitScore := fun _ => some 0,
      wrfStepScore := fun _ => some 0, digits := .asciiOnly }
  satelliteChannels := []
  satelliteTileTtl := 60
  radarTileTtl := 60
  ecmwfTileTtl := 60
  ecmwfForecastsToKeep := 1
  wrfTileTtl := 60
  wrfGeojsonTtl := 60
  wrfOverlayRecheckTtl := 60
  wrfInitsToKeep := 1
  ecmwfMslpGeojsonTtl := 60

def smallGfs : GfsSettings := ⟨1, Nat.one_pos, 60, minute_pos, .asciiOnly⟩

end DataService.Sync
