import DataService.Sync.GfsMirror
import DataService.Sync.Ranks

/-! A pass of the GFS loop over an S3 that answers: the steps that enter the indexes are those
that the COGs of the newest cycles name. -/

namespace DataService.Sync

open Coroutine Coro ExpiringStore NumberText

variable {cfg : GfsSettings} {bucket : Bucket} {m : GfsMirror} {s : Site Bucket}
  {product : GfsProduct} {cycle fxxx : String}

/-- The newest cycles of a product. -/
def activeCycles (cfg : GfsSettings) (bucket : Bucket) (productId : String) : List String :=
  (cogCycles bucket.keys (segmentOf productId)).take cfg.gfsCyclesToKeep

def listedSteps (bucket : Bucket) (productId cycle : String) : List String :=
  cogSteps bucket.keys (segmentOf productId) cycle

/-- The steps of the newest cycles of the products. -/
def scanned (cfg : GfsSettings) (bucket : Bucket) (products : List GfsProduct) : Set GfsStep :=
  {x | x.productId ∈ products.map (·.productId) ∧ x.cycle ∈ activeCycles cfg bucket x.productId ∧
    x.fxxx ∈ listedSteps bucket x.productId x.cycle}

/-- The state of a pass, as far as the mirror goes. -/
def GfsAt (bucket : Bucket) (m : GfsMirror) (s : Site Bucket) : Prop :=
  s.s3 = bucket ∧ gfsMirror s.world = m

/-- How a pass stops if it does. -/
def Fails (e : SyncExn) (_ : Site Bucket) : Prop := e = .error

theorem ends_mirrorOverlays (hp : product ∈ gfsProducts) (layers : List String)
    (h : GfsAt bucket m s) :
    (mirrorOverlays cfg product cycle fxxx layers).Ends .ok
      (fun r t => (∀ layer, layer ∈ r.1 ↔ (⟨product.productId, cycle, fxxx⟩, layer) ∈
          m.foundIn bucket ⟨product.productId, cycle, fxxx⟩ layers) ∧
        GfsAt bucket (m.copy (m.foundIn bucket ⟨product.productId, cycle, fxxx⟩ layers)) t)
      Fails s := by
  let step : GfsStep := ⟨product.productId, cycle, fxxx⟩
  induction layers generalizing s m with
  | nil => exact ⟨by simp, by simpa using h⟩
  | cons layer layers ih =>
    have hkey : overlayKey (step, layer) = buildGfsGeojsonKey product.s3Segment cycle fxxx layer := by
      simp only [overlayKey, step, segmentOf_of_mem hp]
    have hbodies : (step, layer) ∈ m.bodies ↔ (s.world.redis.get s.world.now
        (.gfsGeojson product.productId cycle fxxx layer)).isSome = true := by
      rw [← h.2]
      rfl
    apply ends_bind
    apply ends_readExists
    split
    · rename_i hbody
      have hmem := hbodies.mpr hbody
      have hcons : m.foundIn bucket step (layer :: layers) =
          insert (step, layer) (m.foundIn bucket step layers) :=
        GfsMirror.foundIn_cons (.inl hmem)
      apply ends_bind
      refine ends_mono (fun r t ht => ?_) (fun _ _ he => he) (ih h)
      rw [hcons, GfsMirror.copy_insert hmem]
      refine ⟨fun other => ?_, ht.2⟩
      rw [List.mem_cons, ht.1, Set.mem_insert_iff]
      simp [step]
    · rename_i hbody
      apply ends_bind
      apply ends_downloadTile
      rw [h.1]
      split
      · rename_i hfilled
        rw [← hkey] at hfilled
        have hret : m.Retrievable bucket (step, layer) := .inr hfilled
        have hcons : m.foundIn bucket step (layer :: layers) =
            insert (step, layer) (m.foundIn bucket step layers) :=
          GfsMirror.foundIn_cons hret
        have hkept : (m.copy {(step, layer)}).foundIn bucket step layers =
            m.foundIn bucket step layers := by
          apply GfsMirror.foundIn_copy
          rintro x rfl
          exact hret
        apply ends_bind
        apply ends_command
        have hstored : gfsMirror (s.world.setEx (.gfsGeojson product.productId cycle fxxx layer)
            cfg.gfsGeojsonTtl) = m.copy {(step, layer)} := by
          rw [← h.2]
          exact gfsMirror_storeGeojson (step, layer) cfg.gfsGeojsonTtl_pos
        apply ends_bind
        refine ends_mono (fun r t ht => ?_) (fun _ _ he => he) (ih ⟨h.1, hstored⟩)
        rw [hkept, GfsMirror.copy_copy] at ht
        rw [hcons]
        refine ⟨fun other => ?_, ht.2⟩
        rw [List.mem_cons, ht.1, Set.mem_insert_iff]
        simp [step]
      · rename_i hfilled
        rw [← hkey] at hfilled
        have hret : ¬ m.Retrievable bucket (step, layer) := fun hret =>
          hret.elim (fun hmem => hbody (hbodies.mp hmem)) hfilled
        rw [GfsMirror.foundIn_cons_not hret]
        exact ih h

theorem ends_indexGfsLayers {present : List String}
    (hpresent : ∀ layer, layer ∈ present ↔ (⟨product.productId, cycle, fxxx⟩, layer) ∈
      m.foundIn bucket ⟨product.productId, cycle, fxxx⟩ product.layers)
    {m' : GfsMirror} (h : GfsAt bucket m' s) :
    (indexGfsLayers cfg product cycle fxxx present).Ends .ok
      (fun _ t => GfsAt bucket (m'.advertise
        (m.foundIn bucket ⟨product.productId, cycle, fxxx⟩ product.layers)) t) Fails s := by
  have hset : m.foundIn bucket ⟨product.productId, cycle, fxxx⟩ product.layers =
      {x | x.1 = ⟨product.productId, cycle, fxxx⟩ ∧ x.2 ∈ present} := by
    ext ⟨y, layer⟩
    constructor
    · intro hx
      obtain rfl := hx.1
      exact ⟨rfl, (hpresent layer).mpr hx⟩
    · rintro ⟨rfl, hx⟩
      exact (hpresent layer).mp hx
  unfold indexGfsLayers
  split
  · rename_i hnone
    refine ⟨h.1, h.2.trans ?_⟩
    rw [hset, hnone]
    ext <;> simp [GfsMirror.advertise]
  · apply ends_command
    have hindex := gfsMirror_addGfsLayers (w := s.world) ⟨product.productId, cycle, fxxx⟩ present
      cfg.gfsGeojsonTtl_pos
    rw [← hset, h.2] at hindex
    exact ⟨h.1, hindex⟩

/-- One step is indexed, with the overlays that are retrievable. -/
theorem ends_syncGfsStep (hp : product ∈ gfsProducts) (h : GfsAt bucket m s) :
    (syncGfsStep cfg product cycle fxxx).Ends .ok
      (fun _ t => GfsAt bucket (m.add bucket {⟨product.productId, cycle, fxxx⟩}) t) Fails s := by
  let step : GfsStep := ⟨product.productId, cycle, fxxx⟩
  unfold syncGfsStep
  split
  · rename_i cycleScore stepScore _ _
    apply ends_bind
    apply ends_command
    have hentered := gfsMirror_addGfsIndex (w := s.world) step cycleScore stepScore
      cfg.gfsGeojsonTtl_pos
    rw [h.2] at hentered
    apply ends_bind
    refine ends_mono (fun r t ht => ?_) (fun _ _ he => he)
      (ends_mirrorOverlays hp product.layers ⟨h.1, hentered⟩)
    obtain ⟨hpresent, ht⟩ := ht
    apply ends_bind
    refine ends_mono (fun _ u hu => ?_) (fun _ _ he => he) (ends_indexGfsLayers hpresent ht)
    refine ⟨hu.1, hu.2.trans ?_⟩
    have hlayers : layersFor step.productId = product.layers := layersFor_of_mem hp
    rw [← GfsMirror.add_single, hlayers]
    rfl
  · exact rfl

theorem ends_syncGfsSteps (hp : product ∈ gfsProducts) (steps : List String)
    (h : GfsAt bucket m s) :
    (syncGfsSteps cfg product cycle steps).Ends .ok
      (fun _ t => GfsAt bucket (m.add bucket
        {x | x.productId = product.productId ∧ x.cycle = cycle ∧ x.fxxx ∈ steps}) t) Fails s := by
  induction steps generalizing s m with
  | nil =>
    have hnone : {x : GfsStep | x.productId = product.productId ∧ x.cycle = cycle ∧
        x.fxxx ∈ ([] : List String)} = ∅ := by
      ext x
      simp
    rw [hnone, GfsMirror.add_empty]
    exact h
  | cons fxxx steps ih =>
    apply ends_bind
    refine ends_mono (fun _ t ht => ?_) (fun _ _ he => he) (ends_syncGfsStep hp h)
    apply ends_bind
    refine ends_mono (fun _ u hu => ?_) (fun _ _ he => he) (ih ht)
    rw [GfsMirror.add_union] at hu
    have hset : ({⟨product.productId, cycle, fxxx⟩} : Set GfsStep) ∪
        {x | x.productId = product.productId ∧ x.cycle = cycle ∧ x.fxxx ∈ steps} =
        {x | x.productId = product.productId ∧ x.cycle = cycle ∧ x.fxxx ∈ fxxx :: steps} := by
      ext x
      simp only [Set.mem_union, Set.mem_singleton_iff, Set.mem_ofPred_eq, List.mem_cons,
        GfsStep.ext_iff]
      tauto
    rwa [hset] at hu

theorem ends_syncGfsCycles (hp : product ∈ gfsProducts) (cycles : List String)
    (h : GfsAt bucket m s) :
    (syncGfsCycles cfg product cycles).Ends .ok
      (fun _ t => GfsAt bucket (m.add bucket {x | x.productId = product.productId ∧
        x.cycle ∈ cycles ∧ x.fxxx ∈ listedSteps bucket x.productId x.cycle}) t) Fails s := by
  induction cycles generalizing s m with
  | nil =>
    have hnone : {x : GfsStep | x.productId = product.productId ∧ x.cycle ∈ ([] : List String) ∧
        x.fxxx ∈ listedSteps bucket x.productId x.cycle} = ∅ := by
      ext x
      simp
    rw [hnone, GfsMirror.add_empty]
    exact h
  | cons cycle cycles ih =>
    apply ends_bind
    apply ends_askS3
    rw [h.1]
    apply ends_bind
    refine ends_mono (fun _ t ht => ?_) (fun _ _ he => he) (ends_syncGfsSteps hp _ h)
    apply ends_bind
    refine ends_mono (fun _ u hu => ?_) (fun _ _ he => he) (ih ht)
    rw [GfsMirror.add_union] at hu
    have hset : {x : GfsStep | x.productId = product.productId ∧ x.cycle = cycle ∧
          x.fxxx ∈ cogSteps bucket.keys product.s3Segment cycle} ∪
        {x | x.productId = product.productId ∧ x.cycle ∈ cycles ∧
          x.fxxx ∈ listedSteps bucket x.productId x.cycle} =
        {x | x.productId = product.productId ∧ x.cycle ∈ cycle :: cycles ∧
          x.fxxx ∈ listedSteps bucket x.productId x.cycle} := by
      have hlisted : ∀ c, listedSteps bucket product.productId c =
          cogSteps bucket.keys product.s3Segment c := by
        intro c
        rw [listedSteps, segmentOf_of_mem hp]
      ext ⟨p, c, f⟩
      simp only [Set.mem_union, Set.mem_ofPred_eq, List.mem_cons]
      constructor
      · rintro (⟨rfl, rfl, hf⟩ | ⟨rfl, hc, hf⟩)
        · exact ⟨rfl, .inl rfl, by rwa [hlisted]⟩
        · exact ⟨rfl, .inr hc, hf⟩
      · rintro ⟨rfl, rfl | hc, hf⟩
        · exact .inl ⟨rfl, rfl, by rwa [hlisted] at hf⟩
        · exact .inr ⟨rfl, hc, hf⟩
    rwa [hset] at hu

/-- The index has no cycles but the newest, so that there is nothing to prune. -/
def OnlyActive (cfg : GfsSettings) (bucket : Bucket) (m : GfsMirror) : Prop :=
  ∀ r ∈ m.cycles, r.2 ∈ activeCycles cfg bucket r.1

theorem ends_syncGfsProduct (hp : product ∈ gfsProducts) (h : GfsAt bucket m s) :
    (syncGfsProduct cfg product).Ends .ok
      (fun _ t => OnlyActive cfg bucket m →
        GfsAt bucket (m.add bucket (scanned cfg bucket [product])) t) Fails s := by
  have hactive : activeCycles cfg bucket product.productId =
      (cogCycles bucket.keys product.s3Segment).take cfg.gfsCyclesToKeep := by
    rw [activeCycles, segmentOf_of_mem hp]
  have hscanned : {x : GfsStep | x.productId = product.productId ∧
      x.cycle ∈ activeCycles cfg bucket product.productId ∧
      x.fxxx ∈ listedSteps bucket x.productId x.cycle} = scanned cfg bucket [product] := by
    ext x
    simp only [scanned, Set.mem_ofPred_eq, List.map_cons, List.map_nil, List.mem_singleton]
    refine and_congr_right ?_
    rintro hx
    rw [hx]
  apply ends_bind
  apply ends_askS3
  rw [h.1, ← hactive]
  unfold syncListedGfsProduct
  split
  · rename_i hnone
    have hempty : scanned cfg bucket [product] = ∅ := by
      rw [← hscanned, hnone]
      ext x
      simp
    rw [hempty, GfsMirror.add_empty]
    exact fun _ => h
  · apply ends_bind
    refine ends_mono (fun _ t ht => ?_) (fun _ _ he => he) (ends_syncGfsCycles hp _ h)
    rw [hscanned] at ht
    apply ends_bind
    apply ends_pruneIndex rfl
    refine fun hm => ⟨ht.1, ?_⟩
    show gfsMirror (t.world.reconcile _ _) = _
    rw [gfsMirror_reconcile, ht.2]
    apply GfsMirror.prune_self
    rintro r (hr | ⟨x, hx, hxp, hxc⟩) hrp
    · rw [← hrp]
      exact hm r hr
    · rw [← hrp, ← hxp, ← hxc]
      exact hx.2.1

theorem scanned_cons (product : GfsProduct) (products : List GfsProduct) :
    scanned cfg bucket [product] ∪ scanned cfg bucket products =
      scanned cfg bucket (product :: products) := by
  ext x
  simp only [scanned, Set.mem_union, Set.mem_ofPred_eq, List.map_cons, List.map_nil,
    List.mem_cons, List.not_mem_nil, or_false]
  tauto

theorem onlyActive_add {products : List GfsProduct} (h : OnlyActive cfg bucket m) :
    OnlyActive cfg bucket (m.add bucket (scanned cfg bucket products)) := by
  rintro r (hr | ⟨x, hx, hxp, hxc⟩)
  · exact h r hr
  · rw [← hxp, ← hxc]
    exact hx.2.1

/-- The products have an `except` each; with no error all of them got through. -/
theorem ends_syncGfsProducts (products : List GfsProduct) (hproducts : products ⊆ gfsProducts)
    (h : GfsAt bucket m s) :
    (syncGfsProducts cfg products).Ends .ok
      (fun r t => OnlyActive cfg bucket m → r.2 = 0 →
        GfsAt bucket (m.add bucket (scanned cfg bucket products)) t)
      (fun _ _ => False) s := by
  induction products generalizing s m bucket with
  | nil =>
    have hnone : scanned cfg bucket [] = ∅ := by
      ext x
      simp [scanned]
    rw [hnone, GfsMirror.add_empty]
    exact fun _ _ => h
  | cons product products ih =>
    have hp : product ∈ gfsProducts := hproducts List.mem_cons_self
    have hrest : products ⊆ gfsProducts := List.Subset.trans (List.subset_cons_self _ _) hproducts
    apply ends_bind
    apply ends_catchError
    apply ends_bind
    refine ends_mono (fun copied t ht => ?_) (fun e t he => ⟨he, ?_⟩) (ends_syncGfsProduct hp h)
    · apply ends_bind
      refine ends_mono (fun r u hu => ?_) (fun _ _ he => he) (ih hrest ⟨rfl, rfl⟩)
      intro hm hnone
      obtain ⟨hs3, hmirror⟩ := ht hm
      rw [hs3, hmirror] at hu
      have hboth := hu (onlyActive_add hm) hnone
      rwa [GfsMirror.add_union, scanned_cons] at hboth
    · -- this product failed, and the pass counts an error
      apply ends_bind
      refine ends_mono (fun r u _ => ?_) (fun _ _ he => he) (ih hrest ⟨rfl, rfl⟩)
      exact fun _ hnone => absurd hnone (by simp)

/-- A pass with no error from an empty Redis. -/
theorem gfsMirror_pass {now copied : Nat} {t : Site Bucket}
    (h : (syncGfs cfg).answered .ok ⟨World.initial now, bucket⟩ = some (.ok (copied, 0), t)) :
    gfsMirror t.world = (⟨∅, ∅, ∅, ∅⟩ : GfsMirror).add bucket (scanned cfg bucket gfsProducts) := by
  have hstart : GfsAt bucket ⟨∅, ∅, ∅, ∅⟩ ⟨World.initial now, bucket⟩ :=
    ⟨rfl, gfsMirror_initial now⟩
  have hends := @ends_syncGfsProducts cfg bucket _ _ gfsProducts (List.Subset.refl _) hstart
  obtain ⟨o, u, hu, hok, -⟩ := Ends.answered (c := syncGfs cfg) hends
  obtain ⟨rfl, rfl⟩ : o = .ok (copied, 0) ∧ u = t := by
    simpa using hu.symm.trans h
  exact (hok _ rfl (fun r hr => hr.elim) rfl).2

section Ranked

variable {key : IndexKey}

/-- The scores that the pass gives. -/
def gfsRank (reader : NumberReader) : IndexKey → String → Int → Prop
  | .gfsCycles _, cycle, score => cycleScore reader cycle = some score
  | .gfsSteps .., fxxx, score => stepScore reader fxxx = some score
  | _, _, _ => True

theorem keyRanked_of_move {D : String → String → Prop} {prunes : Prop} {w w' : World}
    (h : GfsMove cfg D prunes w w') : KeyRankedMove (gfsRank cfg.reader key) key w w' := by
  intro hw
  cases h with
  | idle => exact hw
  | index hcycle hscore hstep =>
    apply keyRanked_addFor
    · rintro rfl
      exact hstep
    · apply keyRanked_addFor _ hw
      rintro rfl
      exact hscore
  | copy productId cycle fxxx layer => exact keyRanked_setEx (by simp) hw
  | advertise productId cycle fxxx layers =>
    refine keyRanked_addAll ?_ hw
    rintro layer - rfl
    trivial
  | prune hprune productId p => exact keyRanked_keep hw

end Ranked

theorem ranked_pass {key : IndexKey} {now copied : Nat} {t : Site Bucket}
    (h : (syncGfs cfg).answered .ok ⟨World.initial now, bucket⟩ = some (.ok (copied, 0), t)) :
    KeyRanked (gfsRank cfg.reader key) key t.world := by
  have hmove : ∀ s t : Site Bucket, GfsSiteMove cfg (fun _ _ => True) True s t →
      KeyRanked (gfsRank cfg.reader key) key s.world →
      KeyRanked (gfsRank cfg.reader key) key t.world := fun _ _ hm => keyRanked_of_move hm.2
  exact Within.answered (P := fun s : Site Bucket => KeyRanked (gfsRank cfg.reader key) key s.world)
    moves_syncGfs hmove (keyRanked_initial now) h

end DataService.Sync
