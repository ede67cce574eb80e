import DataService.Sync.GfsPass

/-! An overlay and a pass: the pass lists and copies it only if it is in S3, as long as it does
not go meanwhile. -/

namespace DataService.Sync

open Coroutine Coro

section Backed

/-- The overlays that Redis lists or holds. -/
def heldOverlays (w : World) : Set Overlay := (gfsMirror w).layers ∪ (gfsMirror w).bodies

/-- The object of the overlay is in S3. -/
def InStore (bucket : Bucket) (x : Overlay) : Prop := overlayKey x ∈ bucket.keys

/-- If Redis lists or holds the overlay, it is in S3. -/
def Backed (x : Overlay) (s : Site Bucket) : Prop := x ∈ heldOverlays s.world → InStore s.s3 x

/-- What may happen while a pass waits: the overlay stays in S3. -/
def LosesNone (x : Overlay) (s t : Site Bucket) : Prop :=
  (InStore s.s3 x → InStore t.s3 x) ∧ (Backed x s → Backed x t)

variable {x : Overlay}

theorem LosesNone.refl (s : Site Bucket) : LosesNone x s s := ⟨id, id⟩

theorem LosesNone.trans {s t u : Site Bucket} (h : LosesNone x s t) (h' : LosesNone x t u) :
    LosesNone x s u :=
  ⟨fun hx => h'.1 (h.1 hx), fun hs => h'.2 (h.2 hs)⟩

theorem inStore_of_lookup {bucket : Bucket} (h : bucket.lookup (overlayKey x) = some .filled) :
    InStore bucket x :=
  AList.mem_keys.mp (AList.lookup_isSome.mp (by rw [h]; rfl))

variable {s : Site Bucket} {w : World}

theorem backed_of_subset (h : Backed x s) (hw : heldOverlays w ⊆ heldOverlays s.world) :
    Backed x { s with world := w } :=
  fun hx => h (hw hx)

theorem held_addGfsIndex (cfg : GfsSettings) (product : GfsProduct) (cycle fxxx : String)
    (cycleScore stepScore : Int) :
    heldOverlays (addGfsIndex product.productId cycle fxxx cycleScore stepScore
      cfg.gfsGeojsonTtl w) = heldOverlays w := by
  have hentered := gfsMirror_addGfsIndex (w := w) ⟨product.productId, cycle, fxxx⟩ cycleScore
    stepScore cfg.gfsGeojsonTtl_pos
  rw [heldOverlays, hentered]
  rfl

theorem held_keep (productId : String) (p : String × Int → Bool) :
    heldOverlays (w.keep (.gfsCycles productId) p) = heldOverlays w := by
  ext x
  simp only [heldOverlays, gfsMirror, Set.mem_union, Set.mem_ofPred_eq]
  rw [memberNames_congr (get_keep_ne (by simp)), get_keep_ne (by simp)]

theorem held_of_get {w w' : World} (h : ∀ k v, w'.redis.get w'.now k = some v →
    w.redis.get w.now k = some v) : heldOverlays w' ⊆ heldOverlays w := by
  rintro y (hy | hy)
  · exact .inl (memberNames_subset_of_get (fun v hv => h _ v hv) hy)
  · obtain ⟨v, hv⟩ := Option.isSome_iff_exists.mp hy
    exact .inr (Option.isSome_iff_exists.mpr ⟨v, h _ v hv⟩)

theorem backed_store (cfg : GfsSettings) (h : Backed x s) {y : Overlay}
    (hy : y = x → InStore s.s3 x) :
    Backed x { s with
      world := s.world.setEx (.gfsGeojson y.1.productId y.1.cycle y.1.fxxx y.2)
        cfg.gfsGeojsonTtl } := by
  have hcopied := gfsMirror_storeGeojson (w := s.world) y cfg.gfsGeojsonTtl_pos
  intro hx
  simp only [heldOverlays, hcopied] at hx
  rcases hx with hx | hx | hx
  · exact h (.inl hx)
  · exact h (.inr hx)
  · exact hy hx.symm

theorem backed_addGfsLayers (cfg : GfsSettings) (h : Backed x s) {product : GfsProduct}
    {cycle fxxx : String} {present : List String}
    (hpresent : ∀ layer ∈ present, (⟨product.productId, cycle, fxxx⟩, layer) = x → InStore s.s3 x) :
    Backed x { s with
      world := addGfsLayers product.productId cycle fxxx present cfg.gfsGeojsonTtl s.world } := by
  have hlisted := gfsMirror_addGfsLayers (w := s.world) ⟨product.productId, cycle, fxxx⟩ present
    cfg.gfsGeojsonTtl_pos
  intro hx
  simp only [heldOverlays, hlisted] at hx
  rcases hx with (hx | hx) | hx
  · exact h (.inl hx)
  · exact hpresent x.2 hx.2 (Prod.ext hx.1.symm rfl)
  · exact h (.inr hx)

end Backed

section Pass

/-- The pass lists and copies the overlay only if it is in S3, as long as it stays there. -/
abbrev KeepsBacked {α : Type} (x : Overlay) (Q : α → Site Bucket → Prop) (c : GfsCode α)
    (s : Site Bucket) : Prop :=
  c.Safe (LosesNone x) (Backed x) Q (fun _ t => Backed x t) s

variable {cfg : GfsSettings} {product : GfsProduct} {cycle fxxx : String} {s : Site Bucket}
  {x : Overlay}

/-- What of the overlay is left to know once the layers of a step are mirrored. -/
structure MirroredStep (x : Overlay) (step : GfsStep) (s : Site Bucket) (present : List String)
    (t : Site Bucket) : Prop where
  backed : Backed x t
  stays : InStore s.s3 x → InStore t.s3 x
  present : ∀ layer ∈ present, (step, layer) = x → InStore t.s3 x

theorem MirroredStep.cons {step : GfsStep} {t u : Site Bucket} {layer : String}
    {present : List String} (h : MirroredStep x step t present u)
    (hs : InStore s.s3 x → InStore t.s3 x)
    (hlayer : (step, layer) = x → InStore t.s3 x) : MirroredStep x step s (layer :: present) u where
  backed := h.backed
  stays hx := h.stays (hs hx)
  present other hother := by
    rcases List.mem_cons.mp hother with rfl | hother
    · exact fun hx => h.stays (hlayer hx)
    · exact h.present other hother

theorem safe_mirrorOverlays (hp : product ∈ gfsProducts) (layers : List String) (h : Backed x s) :
    KeepsBacked x (fun r t => MirroredStep x ⟨product.productId, cycle, fxxx⟩ s r.1 t)
      (mirrorOverlays cfg product cycle fxxx layers) s := by
  induction layers generalizing s with
  | nil => exact ⟨h, id, by simp⟩
  | cons layer layers ih =>
    apply safe_bind
    apply safe_onReadExists
    intro t ht
    have hbacked := ht.2 h
    refine ⟨hbacked, ?_, fun _ => hbacked⟩
    split
    · rename_i hbody
      have hstored : (⟨product.productId, cycle, fxxx⟩, layer) = x → InStore t.s3 x := by
        rintro rfl
        exact hbacked (.inr hbody)
      apply safe_bind
      exact safe_mono (fun r u hu => hu.cons ht.1 hstored) (fun _ _ he => he) (ih hbacked)
    · have hskip : ∀ u, LosesNone x t u → KeepsBacked x
          (fun r v => MirroredStep x ⟨product.productId, cycle, fxxx⟩ s r.1 v)
          (mirrorOverlays cfg product cycle fxxx layers) u := by
        intro u hu
        refine safe_mono (fun r v hv => ?_) (fun _ _ he => he) (ih (hu.2 hbacked))
        exact ⟨hv.backed, fun hx => hv.stays (hu.1 (ht.1 hx)), hv.present⟩
      apply safe_bind
      apply safe_downloadTile
      intro u hu
      have hbacked' := hu.2 hbacked
      refine ⟨hbacked', ?_, ?_, fun _ => hbacked'⟩
      · split
        · rename_i hfilled
          have hstored : (⟨product.productId, cycle, fxxx⟩, layer) = x → InStore u.s3 x := by
            rintro rfl
            apply inStore_of_lookup
            rw [overlayKey, segmentOf_of_mem hp]
            exact hfilled
          apply safe_bind
          apply safe_onCommand
          intro v hv
          have hkept : (⟨product.productId, cycle, fxxx⟩, layer) = x → InStore v.s3 x :=
            fun hx => hv.1 (hstored hx)
          have hcopied := backed_store cfg (hv.2 hbacked') hkept
          refine ⟨hv.2 hbacked', ?_, fun _ => ⟨hv.2 hbacked', hcopied⟩⟩
          apply safe_bind
          refine safe_mono (fun r z hz => ?_) (fun _ _ he => he) (ih hcopied)
          exact hz.cons (fun hx => hv.1 (hu.1 (ht.1 hx))) hkept
        · exact hskip u hu
      · exact hskip u hu

theorem safe_syncGfsStep (hp : product ∈ gfsProducts) (h : Backed x s) :
    KeepsBacked x (fun _ t => Backed x t) (syncGfsStep cfg product cycle fxxx) s := by
  unfold syncGfsStep
  split
  · rename_i cycleScore stepScore _ _
    apply safe_bind
    apply safe_onCommand
    intro t ht
    have hbacked := ht.2 h
    have hindexed := backed_of_subset hbacked
      (held_addGfsIndex (w := t.world) cfg product cycle fxxx cycleScore stepScore).le
    refine ⟨hbacked, ?_, fun _ => ⟨hbacked, hindexed⟩⟩
    apply safe_bind
    refine safe_mono (fun r u hu => ?_) (fun _ _ he => he)
      (safe_mirrorOverlays hp product.layers hindexed)
    apply safe_bind
    unfold indexGfsLayers
    split
    · exact hu.backed
    · apply safe_onCommand
      intro v hv
      have hbacked' := hv.2 hu.backed
      have hlisted := backed_addGfsLayers cfg hbacked' fun layer hl hx =>
        hv.1 (hu.present layer hl hx)
      exact ⟨hbacked', hlisted, fun _ => ⟨hbacked', hlisted⟩⟩
  · exact h

theorem safe_pruneCycles {productId : String} {keep : List String} (h : Backed x s) :
    KeepsBacked x (fun _ t => Backed x t) (onWorld (pruneIndex (.gfsCycles productId) keep)) s := by
  intro t ht
  have hbacked := ht.2 h
  refine ⟨hbacked, fun r b u hu => ?_⟩
  cases r with
  | names l => cases hu
  | raised e landed =>
    cases hu
    exact hbacked
  | ok =>
    cases hu
    show Safe _ _ _ _ (onWorld (removeMembers _ _)) t
    unfold removeMembers
    split
    · exact hbacked
    · apply safe_onCommand
      intro v hv
      have hkept : ∀ p, Backed x { v with world := v.world.keep (.gfsCycles productId) p } :=
        fun p => backed_of_subset (hv.2 hbacked) (held_keep productId p).le
      exact ⟨hv.2 hbacked, hkept _, fun _ => ⟨hv.2 hbacked, hkept _⟩⟩

theorem safe_syncGfsProduct (hp : product ∈ gfsProducts) (h : Backed x s) :
    KeepsBacked x (fun _ t => Backed x t) (syncGfsProduct cfg product) s := by
  have hsteps : ∀ cycle steps t, Backed x t →
      KeepsBacked x (fun _ t => Backed x t) (syncGfsSteps cfg product cycle steps) t := by
    intro cycle steps
    induction steps with
    | nil => exact fun t ht => ht
    | cons fxxx steps ih =>
      intro t ht
      apply safe_bind
      refine safe_mono (fun _ u hu => ?_) (fun _ _ he => he) (safe_syncGfsStep hp ht)
      apply safe_bind
      exact safe_mono (fun _ _ hv => hv) (fun _ _ he => he) (ih u hu)
  have hlist : ∀ {α : Type} {Q : α → Site Bucket → Prop} {f : Bucket → α} {t : Site Bucket},
      Backed x t → (∀ u, Backed x u → Q (f u.s3) u) → KeepsBacked x Q (askS3 f) t := by
    intro α Q f t ht hQ
    apply safe_askS3
    exact fun u hu => ⟨hu.2 ht, hQ u (hu.2 ht), fun _ => hu.2 ht⟩
  have hcycles : ∀ cycles t, Backed x t →
      KeepsBacked x (fun _ t => Backed x t) (syncGfsCycles cfg product cycles) t := by
    intro cycles
    induction cycles with
    | nil => exact fun t ht => ht
    | cons cycle cycles ih =>
      intro t ht
      apply safe_bind
      refine hlist ht fun u hu => ?_
      apply safe_bind
      refine safe_mono (fun _ v hv => ?_) (fun _ _ he => he) (hsteps cycle _ u hu)
      apply safe_bind
      exact safe_mono (fun _ _ hz => hz) (fun _ _ he => he) (ih v hv)
  apply safe_bind
  refine hlist h fun t ht => ?_
  unfold syncListedGfsProduct
  split
  · exact ht
  · apply safe_bind
    refine safe_mono (fun _ u hu => ?_) (fun _ _ he => he) (hcycles _ t ht)
    apply safe_bind
    exact safe_pruneCycles hu

theorem safe_syncGfs (h : Backed x s) : KeepsBacked x (fun _ t => Backed x t) (syncGfs cfg) s := by
  suffices hall : ∀ products ⊆ gfsProducts, ∀ t, Backed x t →
      KeepsBacked x (fun _ t => Backed x t) (syncGfsProducts cfg products) t from
    hall gfsProducts (List.Subset.refl _) s h
  intro products
  induction products with
  | nil => exact fun _ t ht => ht
  | cons product products ih =>
    intro hsub t ht
    -- The totals are added up without a command.
    have hrest : ∀ (next : Nat × Nat → GfsCode (Nat × Nat)) u,
        (∀ r v, Backed x v → KeepsBacked x (fun _ t => Backed x t) (next r) v) → Backed x u →
        KeepsBacked x (fun _ t => Backed x t) (syncGfsProducts cfg products >>= next) u := by
      intro next u hnext hu
      apply safe_bind
      exact safe_mono hnext (fun _ _ he => he)
        (ih (List.Subset.trans (List.subset_cons_self _ _) hsub) u hu)
    apply safe_bind
    apply safe_catchError
    apply safe_bind
    exact safe_mono (fun copied u hu => hrest _ u (fun _ _ hv => hv) hu)
      (fun e u hu => ⟨hu, hrest _ u (fun _ _ hv => hv) hu⟩)
      (safe_syncGfsProduct (hsub List.mem_cons_self) ht)

end Pass

end DataService.Sync
