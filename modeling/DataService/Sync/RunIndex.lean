import DataService.Sync.EcmwfMslp
import DataService.Sync.Frame
import DataService.Sync.GfsSync

/-! The index of the runs that a loop goes through. Up to the prune it only gains runs that
the cycle goes through; the prune takes the others out. -/

namespace DataService.Sync

open Coroutine Coro ExpiringStore NumberText

variable {α β : Type} {w w' : World} {index key : IndexKey} {keep : List String} {name : String}
  {names : NameCode}

/-- The index has lost no member, and gained at most members of the list. -/
structure Grows (index : IndexKey) (keep : List String) (w w' : World) : Prop where
  retained : w.memberNames index ⊆ w'.memberNames index
  gained : ∀ name ∈ w'.memberNames index, name ∈ w.memberNames index ∨ name ∈ keep

theorem grows_of_eq (h : w'.memberNames index = w.memberNames index) : Grows index keep w w' :=
  ⟨by rw [h]; exact List.Subset.refl _, fun name hn => .inl (by rwa [h] at hn)⟩

theorem Grows.refl (w : World) : Grows index keep w w := grows_of_eq rfl

theorem Grows.trans {u : World} (h : Grows index keep w w') (h' : Grows index keep w' u) :
    Grows index keep w u where
  retained := List.Subset.trans h.retained h'.retained
  gained name hn := by
    rcases h'.gained name hn with hn | hn
    · exact h.gained name hn
    · exact .inr hn

theorem grows_add {score : Int} (h : key = index → name ∈ keep) :
    Grows index keep w (w.add key name score) where
  retained _ hn := mem_add.mpr (.inl hn)
  gained n hn := by
    rcases mem_add.mp hn with hn | ⟨rfl, rfl⟩
    · exact .inl hn
    · exact .inr (h rfl)

theorem grows_expire {ttl : Nat} (h : 0 < ttl) : Grows index keep w (w.expire key ttl) :=
  grows_of_eq (memberNames_expire fun _ => h)

theorem grows_addFor {score : Int} {ttl : Nat} (h : 0 < ttl) (hname : key = index → name ∈ keep) :
    Grows index keep w (w.addFor key name score ttl) :=
  (grows_add hname).trans (grows_expire h)

theorem grows_foldl {f : World → α → World} (hf : ∀ w a, Grows index keep w (f w a)) (l : List α) :
    Grows index keep w (l.foldl f w) := by
  induction l generalizing w with
  | nil => exact .refl w
  | cons a l ih => exact (hf w a).trans ih

/-- The deadline of another index. -/
theorem grows_expire_ne {ttl : Nat} (h : index ≠ key) : Grows index keep w (w.expire key ttl) :=
  grows_of_eq (memberNames_expire fun he => absurd he h)

/-- Code of which no move takes a member out of the index. -/
abbrev Growing (index : IndexKey) (keep : List String) (c : Code α) : Prop :=
  c.Within (Grows index keep)

section Rules

theorem growing_pure (a : α) : Growing index keep (pure a) := trivial

theorem growing_modify {f : World → World} (h : ∀ w, Grows index keep w (f w)) :
    Growing index keep (modify f) :=
  within_act h

theorem growing_command {f : World → World} (h : ∀ w, Grows index keep w (f w)) :
    Growing index keep (command f) :=
  within_command Grows.refl h

theorem growing_listNames : Growing index keep listNames := within_listNames Grows.refl

theorem growing_readMembers (key : IndexKey) : Growing index keep (readMembers key) :=
  within_readMembers Grows.refl (fun _ _ => grows_of_eq rfl) key

theorem growing_awaitTiles : Growing index keep awaitTiles := by
  apply within_call
  intro w r x t ht
  split at ht
  · split at ht <;> cases ht
    exact grows_of_eq rfl
  · cases ht
    exact grows_of_eq rfl
  · cases ht

theorem growing_countDownloaded (n : Nat) : Growing index keep (countDownloaded n) :=
  growing_modify fun _ => grows_of_eq rfl

theorem growing_startTiles (unit : UnitId) (ttl : Nat) (listed : List String) :
    Growing index keep (startTiles names unit ttl listed) :=
  growing_modify fun _ => grows_of_eq rfl

theorem growing_syncUnitToRedis (unit : UnitId) (ttl : Nat) :
    Growing index keep (syncUnitToRedis names unit ttl) := by
  apply within_bind growing_listNames
  intro objects
  by_cases hobjects : objects.filter isWebp = []
  · simp only [hobjects, if_true]
    exact within_bind (growing_modify fun _ => grows_of_eq rfl) fun _ => growing_pure _
  · simp only [hobjects, if_false]
    apply within_bind (growing_startTiles unit ttl _)
    exact fun _ => within_bind growing_awaitTiles fun _ => growing_pure _

theorem growing_setEx {k : RedisKey} (hk : ∀ i, k ≠ .index i) (ttl : Nat) :
    Growing index keep (command (World.setEx k ttl)) :=
  growing_command fun _ => grows_of_eq (memberNames_setEx hk ttl)

end Rules

section Wrf

variable {cfg : SyncConfig} {productId initTag fxxx : String}

theorem addWrfIndex_grows (httl : 0 < cfg.wrfTileTtl) (hinit : initTag ∈ keep)
    (initScore stepScore : Int) (w : World) :
    Grows (.wrfInitRuns productId) keep w
      (addWrfIndex productId initTag fxxx initScore stepScore cfg.wrfTileTtl w) := by
  have hproducts : Grows (.wrfInitRuns productId) keep w
      (w.addFor .wrfProducts productId 0 cfg.wrfTileTtl) := grows_addFor httl (by simp)
  have hinits : ∀ u, Grows (.wrfInitRuns productId) keep u
      (u.addFor (.wrfInitRuns productId) initTag initScore cfg.wrfTileTtl) :=
    fun u => grows_addFor httl fun _ => hinit
  have hsteps : ∀ u, Grows (.wrfInitRuns productId) keep u
      (u.addFor (.wrfSteps productId initTag) fxxx stepScore cfg.wrfTileTtl) :=
    fun u => grows_addFor httl (by simp)
  exact ((hproducts.trans (hinits _)).trans (hsteps _)).trans (grows_of_eq rfl)

theorem addWrfLayers_grows (layers : List String) (ttl : Nat) (w : World) :
    Grows (.wrfInitRuns productId) keep w (addWrfLayers productId initTag fxxx layers ttl w) :=
  (grows_foldl (fun _ _ => grows_add (by simp)) layers).trans (grows_expire_ne (by simp))

theorem syncWrfOverlays_growing :
    Growing (.wrfInitRuns productId) keep (syncWrfOverlays cfg productId initTag fxxx) := by
  have hgeojson : ∀ layer, Growing (.wrfInitRuns productId) keep
      (syncWrfGeojsonToRedis cfg productId initTag fxxx layer) := by
    intro layer
    apply within_catchException ?_ (growing_pure ())
    exact within_bind (within_fetchObject Grows.refl) fun _ => growing_setEx (by simp) _
  have hcopy : ∀ s3Layers missing, Growing (.wrfInitRuns productId) keep
      (copyMissingLayers cfg productId initTag fxxx s3Layers missing) := by
    intro s3Layers missing
    unfold copyMissingLayers
    split
    · exact growing_setEx (by simp) _
    · apply within_bind (growing_command (addWrfLayers_grows s3Layers _))
      exact fun _ => within_forEach fun layer _ => hgeojson layer
  apply within_bind (within_readExists Grows.refl _)
  intro done
  split
  · exact growing_pure ()
  · apply within_catchException ?_ (growing_pure ())
    apply within_bind growing_listNames
    intro s3Layers
    split
    · exact growing_setEx (by simp) _
    · exact within_bind (growing_readMembers _) fun redisLayers => hcopy _ _

theorem syncWrfInit_growing (httl : 0 < cfg.wrfTileTtl) (hinit : initTag ∈ keep) :
    Growing (.wrfInitRuns productId) keep (syncWrfInit cfg productId initTag) := by
  have htiles : ∀ existing fxxx, Growing (.wrfInitRuns productId) keep
      (syncWrfStepTiles cfg productId initTag existing fxxx) := by
    intro existing fxxx
    unfold syncWrfStepTiles
    split
    · exact growing_pure ()
    · apply within_bind (growing_syncUnitToRedis _ _)
      intro downloaded
      split
      · split
        · exact within_bind (growing_command (addWrfIndex_grows httl hinit _ _)) fun _ =>
            growing_countDownloaded _
        · trivial
      · exact growing_pure ()
  apply within_bind growing_listNames
  intro steps
  apply within_bind (growing_readMembers _)
  intro existing
  exact within_forEach fun fxxx _ => within_bind (htiles existing fxxx) fun _ =>
    syncWrfOverlays_growing

end Wrf

section EcmwfTp

variable {cfg : SyncConfig} {forecastTs : String}

theorem storeEcmwfTpIndex_grows (httl : 0 < cfg.ecmwfTileTtl) (hforecast : forecastTs ∈ keep)
    (periods : List String) (w : World) :
    Grows .ecmwfTpForecasts keep w (storeEcmwfTpIndex forecastTs periods cfg.ecmwfTileTtl w) := by
  have hforecasts : Grows .ecmwfTpForecasts keep w
      (w.addFor .ecmwfTpForecasts forecastTs 0 cfg.ecmwfTileTtl) :=
    grows_addFor httl fun _ => hforecast
  have hperiods : ∀ w, Grows .ecmwfTpForecasts keep w (addPeriods forecastTs periods w) := by
    intro w
    refine grows_foldl (fun u period => ?_) periods
    have hadd : Grows .ecmwfTpForecasts keep u (u.add (.ecmwfTpPeriods forecastTs) period 0) :=
      grows_add (by simp)
    exact hadd.trans (grows_of_eq rfl)
  unfold storeEcmwfTpIndex
  split
  · exact hforecasts
  · exact (hforecasts.trans (hperiods _)).trans (grows_expire httl)

theorem syncEcmwfTpForecast_growing (httl : 0 < cfg.ecmwfTileTtl) (hforecast : forecastTs ∈ keep) :
    Growing .ecmwfTpForecasts keep (syncEcmwfTpForecast cfg forecastTs) := by
  have hperiod : ∀ periodTs, Growing .ecmwfTpForecasts keep
      (syncEcmwfTpPeriod cfg forecastTs periodTs) := by
    intro periodTs
    apply within_bind (growing_syncUnitToRedis _ _)
    intro stored
    apply within_bind (growing_countDownloaded stored)
    intro _
    split
    · exact growing_command (storeEcmwfTpIndex_grows httl hforecast _)
    · exact growing_pure ()
  apply within_bind growing_listNames
  intro subdirs
  apply within_bind (growing_readMembers _)
  intro known
  apply within_bind (within_forEach fun periodTs _ => hperiod periodTs)
  exact fun _ => growing_command (storeEcmwfTpIndex_grows httl hforecast _)

end EcmwfTp

section EcmwfMslp

variable {cfg : MslpConfig} {forecastTs : String}

theorem storeEcmwfMslpIndex_grows (httl : 0 < cfg.ecmwfMslpGeojsonTtl)
    (hforecast : forecastTs ∈ keep) (timestamps : List String) (w : World) :
    Grows .ecmwfMslpForecasts keep w
      (storeEcmwfMslpIndex forecastTs timestamps cfg.ecmwfMslpGeojsonTtl w) := by
  have hforecasts : Grows .ecmwfMslpForecasts keep w
      (w.addFor .ecmwfMslpForecasts forecastTs 0 cfg.ecmwfMslpGeojsonTtl) :=
    grows_addFor httl fun _ => hforecast
  unfold storeEcmwfMslpIndex
  split
  · exact hforecasts
  · refine (hforecasts.trans (grows_foldl (fun u timestamp => ?_) timestamps)).trans
      (grows_expire httl)
    exact grows_add (by simp)

theorem syncEcmwfMslpGeojsons_growing (timestamps : List String) :
    Growing .ecmwfMslpForecasts keep (syncEcmwfMslpGeojsons cfg forecastTs timestamps) := by
  induction timestamps with
  | nil => trivial
  | cons timestampTs timestamps ih =>
    have hdownload : Growing .ecmwfMslpForecasts keep
        (downloadEcmwfMslpGeojson cfg forecastTs timestampTs) := by
      apply within_catchException ?_ (growing_pure false)
      apply within_bind (within_fetchObject Grows.refl)
      exact fun _ => within_bind (growing_setEx (by simp) _) fun _ => growing_pure true
    exact within_bind hdownload fun ok => within_bind ih fun stored => growing_pure _

theorem syncEcmwfMslpForecast_growing (httl : 0 < cfg.ecmwfMslpGeojsonTtl)
    (hforecast : forecastTs ∈ keep) :
    Growing .ecmwfMslpForecasts keep (syncEcmwfMslpForecast cfg forecastTs) := by
  apply within_bind growing_listNames
  intro basenames
  apply within_bind (growing_readMembers _)
  intro known
  apply within_bind (syncEcmwfMslpGeojsons_growing _)
  intro stored
  apply within_bind (growing_countDownloaded _)
  exact fun _ => growing_command (storeEcmwfMslpIndex_grows httl hforecast _)

end EcmwfMslp

section Gfs

variable {cfg : GfsSettings} {product : GfsProduct}

/-- The moves of a pass before it prunes. -/
theorem grows_of_move (h : GfsMove cfg
    (fun productId cycle => productId = product.productId → cycle ∈ keep) False w w') :
    Grows (.gfsCycles product.productId) keep w w' := by
  cases h with
  | idle => exact .refl w
  | @index productId cycle fxxx cycleScore stepScore hcycle hscore hstep =>
    have hcycles : Grows (.gfsCycles product.productId) keep w
        (w.addFor (.gfsCycles productId) cycle cycleScore cfg.gfsGeojsonTtl) :=
      grows_addFor cfg.gfsGeojsonTtl_pos fun hkey => hcycle (IndexKey.gfsCycles.inj hkey)
    exact hcycles.trans (grows_addFor cfg.gfsGeojsonTtl_pos (by simp))
  | copy productId cycle fxxx layer => exact grows_of_eq (memberNames_setEx (by simp) _)
  | advertise productId cycle fxxx layers =>
    exact (grows_foldl (fun _ _ => grows_add (by simp)) layers).trans (grows_expire_ne (by simp))
  | prune hprune productId p => exact hprune.elim

theorem syncGfsCycles_growing {cycles : List String} (hcycles : ∀ cycle ∈ cycles, cycle ∈ keep) :
    (syncGfsCycles cfg product cycles).Within fun s t =>
      Grows (.gfsCycles product.productId) keep s.world t.world :=
  within_mono (fun _ _ h => grows_of_move h.2)
    (moves_syncGfsCycles fun cycle hcycle _ => hcycles cycle hcycle)

end Gfs

end DataService.Sync
