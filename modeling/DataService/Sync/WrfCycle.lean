import DataService.Sync.WrfMirror

/-! What a cycle of the WRF loop does to the indexes and tiles when S3 and Redis answer: it
ends with no error exactly if every step that it copies has a score. -/

namespace DataService.Sync

open Coroutine Coro ExpiringStore NumberText

variable (cfg : WrfSettings) (tree : WrfTree)

/-- The tile that an object becomes, if it is copied. -/
def storedSpot (key : String) : Option Spot :=
  if cfg.wrfTileTtl ≠ 0 ∧ tree.readable key then parseZxy cfg.reader key else none

def storedSpots (s : WrfStep) : List Spot :=
  ((tree.objects s.productId s.initTag s.fxxx).filter isWebp).filterMap (storedSpot cfg tree)

/-- Both names of the step are converted to scores. -/
def Scored (s : WrfStep) : Prop :=
  (extractWrfInitScore cfg.reader s.initTag).isSome ∧ (wrfStepScore cfg.reader s.fxxx).isSome

/-- The step is listed and not in the index, and it has tiles. -/
def Uncopied (m : WrfMirror) (s : WrfStep) : Prop :=
  s.fxxx ∈ tree.steps s.productId s.initTag ∧ s ∉ m.steps ∧ storedSpots cfg tree s ≠ []

/-- The newest runs of a product. -/
def activeRuns (productId : String) : List String :=
  WrfSync.activeInits cfg (tree.initRuns productId)

/-- The steps that a cycle copies for the products. -/
def copies (products : List String) (m : WrfMirror) : Set WrfStep :=
  {s | s.productId ∈ products ∧ s.initTag ∈ activeRuns cfg tree s.productId ∧ Uncopied cfg tree m s}

/-- The mirror after the products are through. -/
def cycled (products : List String) (m : WrfMirror) : WrfMirror :=
  { m.add (storedSpots cfg tree) (copies cfg tree products m) with
    inits := {r | r ∈ (m.add (storedSpots cfg tree) (copies cfg tree products m)).inits ∧
      (r.1 ∈ products → activeRuns cfg tree r.1 ≠ [] → r.2 ∈ activeRuns cfg tree r.1)} }

/-- The state of the cycle, as far as the mirror goes. -/
def At (m : WrfMirror) (s : Site WrfTree) : Prop := s.s3 = tree ∧ wrfMirror s.world = m

/-- Some step of the set stops the cycle. -/
def Stops (S : Set WrfStep) (e : SyncExn) (_ : Site WrfTree) : Prop :=
  e = .error ∧ ∃ s ∈ S, ¬ Scored cfg s

variable {cfg tree} {m : WrfMirror} {s : Site WrfTree} {productId initTag fxxx : String}
  {E : SyncExn → Site WrfTree → Prop}

theorem At.setEx {k : RedisKey} {ttl : Nat} (h : At tree m s) (hk : ¬ k.mirrorsWrf) :
    At tree m { s with world := s.world.setEx k ttl } :=
  ⟨h.1, (wrfMirror_setEx hk).trans h.2⟩

theorem At.record {e : Event} (h : At tree m s) :
    At tree m { s with world := s.world.record e } :=
  ⟨h.1, (wrfMirror_record e).trans h.2⟩

theorem stops_mono {S S' : Set WrfStep} (hS : ∀ s ∈ S, s ∈ S') {e : SyncExn} {t : Site WrfTree}
    (h : Stops cfg S e t) : Stops cfg S' e t := by
  obtain ⟨he, s, hs, hscore⟩ := h
  exact ⟨he, s, hS s hs, hscore⟩

section Tiles

theorem ends_downloadTileToRedis (key : String) (h : At tree m s) :
    (WrfSync.downloadTileToRedis cfg productId initTag fxxx key).Ends .ok
      (fun ok t => ok = (storedSpot cfg tree key).isSome ∧
        At tree (m.store ⟨productId, initTag, fxxx⟩ (storedSpot cfg tree key).toList) t) E s := by
  apply ends_catchError
  cases hparse : parseZxy cfg.reader key with
  | none =>
    have hnone : storedSpot cfg tree key = none := by simp [storedSpot, hparse]
    rw [hnone]
    exact ⟨rfl, by simpa using h⟩
  | some spot =>
    obtain ⟨z, x, y⟩ := spot
    have hhandler : ∀ u, At tree m u → storedSpot cfg tree key = none →
        (pure false : WrfCode Bool).Ends .ok
          (fun ok t => ok = (storedSpot cfg tree key).isSome ∧
            At tree (m.store ⟨productId, initTag, fxxx⟩ (storedSpot cfg tree key).toList) t) E u := by
      intro u hu hnone
      rw [hnone]
      exact ⟨rfl, by simpa using hu⟩
    apply ends_bind
    apply ends_getObject
    · intro hread
      rw [h.1] at hread
      apply ends_bind
      by_cases httl : cfg.wrfTileTtl = 0
      · rw [storeEx, if_pos httl]
        exact ⟨rfl, hhandler s h (by simp [storedSpot, httl])⟩
      · rw [storeEx, if_neg httl]
        have hspot : storedSpot cfg tree key = some (z, x, y) := by
          simp [storedSpot, httl, hread, hparse]
        apply ends_command
        rw [hspot]
        refine ⟨rfl, h.1, ?_⟩
        have hstore := wrfMirror_storeTile (w := s.world) ⟨productId, initTag, fxxx⟩ z x y
          (Nat.pos_of_ne_zero httl)
        rw [h.2] at hstore
        exact hstore
    · intro hread
      rw [h.1] at hread
      exact ⟨rfl, hhandler s h (by simp [storedSpot, hread])⟩

theorem ends_downloadTiles (keys : List String) (h : At tree m s) :
    (WrfSync.downloadTiles cfg productId initTag fxxx keys).Ends .ok
      (fun n t => n = (keys.filterMap (storedSpot cfg tree)).length ∧
        At tree (m.store ⟨productId, initTag, fxxx⟩ (keys.filterMap (storedSpot cfg tree))) t) E s := by
  induction keys generalizing s m with
  | nil => exact ⟨rfl, by simpa using h⟩
  | cons key keys ih =>
    apply ends_bind
    refine ends_mono (fun ok t ht => ?_) (fun _ _ he => he) (ends_downloadTileToRedis key h)
    obtain ⟨rfl, ht⟩ := ht
    apply ends_bind
    refine ends_mono (fun n u hu => ?_) (fun _ _ he => he) (ih ht)
    obtain ⟨rfl, hu⟩ := hu
    rw [WrfMirror.store_append] at hu
    cases hspot : storedSpot cfg tree key with
    | none =>
      rw [hspot] at hu
      exact ⟨by simp [hspot], by simpa [hspot] using hu⟩
    | some spot =>
      rw [hspot] at hu
      exact ⟨by simp [hspot], by simpa [hspot] using hu⟩

end Tiles

theorem ends_syncOverlays (h : At tree m s) :
    (WrfSync.syncOverlays cfg productId initTag fxxx).Ends .ok (fun _ t => At tree m t) E s := by
  have hstore : ∀ (k : RedisKey) (ttl : Nat) t, ¬ k.mirrorsWrf → At tree m t →
      (storeEx k ttl : WrfCode Unit).Ends .ok (fun _ u => At tree m u)
        (fun e u => e = .error ∧ At tree m u) t := by
    intro k ttl t hk ht
    unfold storeEx
    split
    · exact ⟨rfl, ht⟩
    · exact ends_command (ht.setEx hk)
  have hgeojson : ∀ layer t, At tree m t →
      (WrfSync.syncGeojsonToRedis cfg productId initTag fxxx layer).Ends .ok
        (fun _ u => At tree m u) (fun e u => e = .error ∧ At tree m u) t := by
    intro layer t ht
    apply ends_catchError
    apply ends_bind
    apply ends_getObject
    · intro _
      exact ends_mono (fun _ _ hu => hu) (fun _ u hu => ⟨hu.1, hu.2⟩)
        (hstore _ _ t (by simp [RedisKey.mirrorsWrf]) ht)
    · exact fun _ => ⟨rfl, ht⟩
  have hcopy : ∀ s3Layers missing t, At tree m t →
      (WrfSync.copyMissingLayers cfg productId initTag fxxx s3Layers missing).Ends .ok
        (fun _ u => At tree m u) (fun e u => e = .error ∧ At tree m u) t := by
    intro s3Layers missing t ht
    unfold WrfSync.copyMissingLayers
    split
    · exact hstore _ _ t (by simp [RedisKey.mirrorsWrf]) ht
    · apply ends_bind
      apply ends_command
      have hlayers : At tree m { t with
          world := addWrfLayers productId initTag fxxx s3Layers cfg.wrfGeojsonTtl t.world } :=
        ⟨ht.1, (wrfMirror_addWrfLayers productId initTag fxxx s3Layers).trans ht.2⟩
      exact ends_each (P := fun _ u => At tree m u) (fun _ layer _ u _ hu => hgeojson layer u hu)
        hlayers
  apply ends_bind
  apply ends_readExists
  split
  · exact h
  · apply ends_catchError
    refine ends_mono (fun _ _ hu => hu) (fun _ u hu => ⟨hu.1, hu.2⟩) ?_
      (E := fun e u => e = .error ∧ At tree m u)
    apply ends_bind
    apply ends_askS3
    split
    · exact hstore _ _ s (by simp [RedisKey.mirrorsWrf]) h
    · apply ends_bind
      apply ends_readMembers
      rw [if_neg (by simp [IndexKey.listsUnits])]
      exact hcopy _ _ s h

section Steps

/-- What is added for one step. -/
theorem ends_syncStep (existing : List String) (h : At tree m s) :
    (WrfSync.syncStep cfg productId initTag existing fxxx).Ends .ok
      (fun _ t => At tree (m.add (storedSpots cfg tree)
        {x | x = ⟨productId, initTag, fxxx⟩ ∧ fxxx ∉ existing ∧ storedSpots cfg tree x ≠ []}) t ∧
        (fxxx ∉ existing → storedSpots cfg tree ⟨productId, initTag, fxxx⟩ ≠ [] →
          Scored cfg ⟨productId, initTag, fxxx⟩))
      (Stops cfg {x | x = ⟨productId, initTag, fxxx⟩ ∧ fxxx ∉ existing ∧ storedSpots cfg tree x ≠ []})
      s := by
  let step : WrfStep := ⟨productId, initTag, fxxx⟩
  have htiles : (WrfSync.syncStepTiles cfg productId initTag existing fxxx).Ends .ok
      (fun _ t => At tree (m.add (storedSpots cfg tree)
        {x | x = step ∧ fxxx ∉ existing ∧ storedSpots cfg tree x ≠ []}) t ∧
        (fxxx ∉ existing → storedSpots cfg tree step ≠ [] → Scored cfg step))
      (Stops cfg {x | x = step ∧ fxxx ∉ existing ∧ storedSpots cfg tree x ≠ []}) s := by
    unfold WrfSync.syncStepTiles
    by_cases hmem : fxxx ∈ existing
    · rw [if_pos hmem]
      exact ⟨by simpa [hmem] using h, fun hnot => absurd hmem hnot⟩
    · rw [if_neg hmem]
      apply ends_bind
      have hdownload : (WrfSync.syncStepToRedis cfg productId initTag fxxx).Ends .ok
          (fun n t => n = (storedSpots cfg tree step).length ∧
            At tree (m.store step (storedSpots cfg tree step)) t)
          (Stops cfg {x | x = step ∧ fxxx ∉ existing ∧ storedSpots cfg tree x ≠ []}) s := by
        apply ends_bind
        apply ends_askS3
        rw [h.1]
        exact ends_downloadTiles _ h
      refine ends_mono (fun n t ht => ?_) (fun _ _ he => he) hdownload
      obtain ⟨rfl, ht⟩ := ht
      by_cases hspots : storedSpots cfg tree step = []
      · rw [hspots] at ht ⊢
        have hempty : {x | x = step ∧ fxxx ∉ existing ∧ storedSpots cfg tree x ≠ []} = (∅ : Set _) := by
          ext x
          simp only [Set.mem_ofPred_eq, Set.mem_empty_iff_false, iff_false]
          rintro ⟨rfl, -, hne⟩
          exact hne hspots
        rw [hempty]
        exact ⟨by simpa using ht, fun _ hne => absurd rfl hne⟩
      · have hset : {x | x = step ∧ fxxx ∉ existing ∧ storedSpots cfg tree x ≠ []} = {step} := by
          ext x
          simp only [Set.mem_ofPred_eq, Set.mem_singleton_iff]
          constructor
          · exact fun hx => hx.1
          · rintro rfl
            exact ⟨rfl, hmem, hspots⟩
        have httl : 0 < cfg.wrfTileTtl := by
          apply Nat.pos_of_ne_zero
          intro hzero
          apply hspots
          simp [storedSpots, storedSpot, hzero]
        rw [hset, if_pos (List.length_pos_of_ne_nil hspots)]
        cases hinit : extractWrfInitScore cfg.reader initTag with
        | none => exact ⟨rfl, step, rfl, fun hscored => by simp [Scored, step, hinit] at hscored⟩
        | some initScore =>
          cases hstep : wrfStepScore cfg.reader fxxx with
          | none => exact ⟨rfl, step, rfl, fun hscored => by simp [Scored, step, hstep] at hscored⟩
          | some stepScore =>
            apply ends_command
            have hindex := wrfMirror_addWrfIndex (w := t.world) step initScore stepScore httl
            rw [ht.2] at hindex
            rw [WrfMirror.add_store] at hindex
            exact ⟨⟨ht.1, hindex⟩, fun _ _ => by simp [Scored, step, hinit, hstep]⟩
  apply ends_bind
  refine ends_mono (fun _ t ht => ?_) (fun _ _ he => he) htiles
  exact ends_mono (fun _ u hu => ⟨hu, ht.2⟩) (fun _ _ he => he) (ends_syncOverlays ht.1)

theorem ends_syncSteps (existing fxxxs : List String) (h : At tree m s) :
    (each (WrfSync.syncStep cfg productId initTag existing) fxxxs).Ends .ok
      (fun _ t => At tree (m.add (storedSpots cfg tree)
        {x | x.productId = productId ∧ x.initTag = initTag ∧ x.fxxx ∈ fxxxs ∧ x.fxxx ∉ existing ∧
          storedSpots cfg tree x ≠ []}) t ∧
        ∀ fxxx ∈ fxxxs, fxxx ∉ existing → storedSpots cfg tree ⟨productId, initTag, fxxx⟩ ≠ [] →
          Scored cfg ⟨productId, initTag, fxxx⟩)
      (Stops cfg {x | x.productId = productId ∧ x.initTag = initTag ∧ x.fxxx ∈ fxxxs ∧
        x.fxxx ∉ existing ∧ storedSpots cfg tree x ≠ []}) s := by
  apply ends_each (P := fun done t => At tree (m.add (storedSpots cfg tree)
    {x | x.productId = productId ∧ x.initTag = initTag ∧ x.fxxx ∈ done ∧ x.fxxx ∉ existing ∧
      storedSpots cfg tree x ≠ []}) t ∧
    ∀ fxxx ∈ done, fxxx ∉ existing → storedSpots cfg tree ⟨productId, initTag, fxxx⟩ ≠ [] →
      Scored cfg ⟨productId, initTag, fxxx⟩)
  · rintro before fxxx after t rfl ⟨ht, hscored⟩
    refine ends_mono (fun _ u hu => ?_) (fun _ u hu => stops_mono ?_ hu) (ends_syncStep existing ht)
    · obtain ⟨hu, hscore⟩ := hu
      rw [WrfMirror.add_union] at hu
      constructor
      · convert hu using 2
        ext x
        simp only [Set.mem_union, Set.mem_ofPred_eq, List.mem_append, List.mem_singleton,
          WrfStep.ext_iff]
        grind
      · intro f hf
        rcases List.mem_append.mp hf with hf | hf
        · exact hscored f hf
        · obtain rfl := List.mem_singleton.mp hf
          exact hscore
    · rintro x ⟨rfl, hnot, hne⟩
      exact ⟨rfl, rfl, by simp, hnot, hne⟩
  · refine ⟨?_, fun f hf => by cases hf⟩
    simpa using h

end Steps

/-- The steps that one run gains. -/
theorem ends_syncInit (h : At tree m s) :
    (WrfSync.syncInit cfg productId initTag).Ends .ok
      (fun _ t => At tree (m.add (storedSpots cfg tree)
        {x | x.productId = productId ∧ x.initTag = initTag ∧ Uncopied cfg tree m x}) t ∧
        ∀ x, x.productId = productId → x.initTag = initTag → Uncopied cfg tree m x → Scored cfg x)
      (Stops cfg {x | x.productId = productId ∧ x.initTag = initTag ∧ Uncopied cfg tree m x}) s := by
  have hexisting : ∀ x : WrfStep, x.productId = productId → x.initTag = initTag →
      (x.fxxx ∈ s.world.memberNames (.wrfSteps productId initTag) ↔ x ∈ m.steps) := by
    rintro x rfl rfl
    rw [← h.2]
    rfl
  have huncopied : ∀ x : WrfStep, (x.productId = productId ∧ x.initTag = initTag ∧
      x.fxxx ∈ tree.steps productId initTag ∧
      x.fxxx ∉ s.world.memberNames (.wrfSteps productId initTag) ∧ storedSpots cfg tree x ≠ []) ↔
      x.productId = productId ∧ x.initTag = initTag ∧ Uncopied cfg tree m x := by
    intro x
    constructor
    · rintro ⟨hp, hi, hlisted, hnot, hspots⟩
      rw [hexisting x hp hi] at hnot
      exact ⟨hp, hi, by rwa [hp, hi], hnot, hspots⟩
    · rintro ⟨hp, hi, hlisted, hnot, hspots⟩
      rw [← hexisting x hp hi] at hnot
      exact ⟨hp, hi, by rwa [hp, hi] at hlisted, hnot, hspots⟩
  apply ends_bind
  apply ends_askS3
  rw [h.1]
  apply ends_bind
  apply ends_readMembers
  have hunits : (IndexKey.wrfSteps productId initTag).listsUnits = true := rfl
  rw [if_pos hunits]
  refine ends_mono (fun _ t ht => ?_) (fun _ t ht => ?_) (ends_syncSteps _ _ (At.record h))
  · obtain ⟨ht, hscored⟩ := ht
    constructor
    · simpa only [huncopied] using ht
    · rintro ⟨p, i, f⟩ rfl rfl hx
      obtain ⟨-, -, hlisted, hnot, hspots⟩ := (huncopied _).mpr ⟨rfl, rfl, hx⟩
      exact hscored f hlisted hnot hspots
  · simpa only [huncopied] using ht

/-- The steps that the runs of a product gain. -/
theorem ends_syncInits (inits : List String) (hnodup : inits.Nodup) (h : At tree m s) :
    (each (WrfSync.syncInit cfg productId) inits).Ends .ok
      (fun _ t => At tree (m.add (storedSpots cfg tree)
        {x | x.productId = productId ∧ x.initTag ∈ inits ∧ Uncopied cfg tree m x}) t ∧
        ∀ x, x.productId = productId → x.initTag ∈ inits → Uncopied cfg tree m x → Scored cfg x)
      (Stops cfg {x | x.productId = productId ∧ x.initTag ∈ inits ∧ Uncopied cfg tree m x}) s := by
  apply ends_each (P := fun done t => At tree (m.add (storedSpots cfg tree)
    {x | x.productId = productId ∧ x.initTag ∈ done ∧ Uncopied cfg tree m x}) t ∧
    ∀ x, x.productId = productId → x.initTag ∈ done → Uncopied cfg tree m x → Scored cfg x)
  · rintro before initTag after t rfl ⟨ht, hscored⟩
    have hnot : initTag ∉ before := by
      intro hmem
      exact (List.nodup_append.mp hnodup).2.2 initTag hmem initTag List.mem_cons_self rfl
    -- the runs before this one gained steps of their own only
    have hsame : ∀ x : WrfStep, x.initTag = initTag →
        (Uncopied cfg tree (m.add (storedSpots cfg tree)
          {x | x.productId = productId ∧ x.initTag ∈ before ∧ Uncopied cfg tree m x}) x ↔
          Uncopied cfg tree m x) := by
      rintro x rfl
      simp only [Uncopied, WrfMirror.add, Set.mem_union, Set.mem_ofPred_eq, hnot, false_and, and_false,
        or_false]
    have hset : ∀ x : WrfStep, (x.productId = productId ∧ x.initTag = initTag ∧
        Uncopied cfg tree (m.add (storedSpots cfg tree)
          {x | x.productId = productId ∧ x.initTag ∈ before ∧ Uncopied cfg tree m x}) x) ↔
        (x.productId = productId ∧ x.initTag = initTag ∧ Uncopied cfg tree m x) := by
      intro x
      constructor
      · rintro ⟨hp, hi, hx⟩
        exact ⟨hp, hi, (hsame x hi).mp hx⟩
      · rintro ⟨hp, hi, hx⟩
        exact ⟨hp, hi, (hsame x hi).mpr hx⟩
    refine ends_mono (fun _ u hu => ?_) (fun _ u hu => stops_mono ?_ hu) (ends_syncInit ht)
    · obtain ⟨hu, hscore⟩ := hu
      simp only [hset] at hu
      rw [WrfMirror.add_union] at hu
      constructor
      · convert hu using 2
        ext x
        simp only [Set.mem_union, Set.mem_ofPred_eq, List.mem_append, List.mem_singleton]
        tauto
      · intro x hp hi hx
        rcases List.mem_append.mp hi with hi | hi
        · exact hscored x hp hi hx
        · exact hscore x hp (List.mem_singleton.mp hi) ((hsame x (List.mem_singleton.mp hi)).mpr hx)
    · intro x hx
      obtain ⟨hp, rfl, huncopied⟩ := (hset x).mp hx
      exact ⟨hp, by simp, huncopied⟩
  · refine ⟨?_, fun x _ hi => by cases hi⟩
    simpa using h

theorem nodup_activeRuns (cfg : WrfSettings) (tree : WrfTree) (productId : String) :
    (activeRuns cfg tree productId).Nodup :=
  (List.take_sublist _ _).nodup (nodup_sortDescending (tree.initRuns_nodup productId))

theorem ends_syncProduct (productId : String) (h : At tree m s) :
    (WrfSync.syncProduct cfg productId).Ends .ok
      (fun _ t => At tree (if activeRuns cfg tree productId = [] then m else
        (m.add (storedSpots cfg tree)
          {x | x.productId = productId ∧ x.initTag ∈ activeRuns cfg tree productId ∧
            Uncopied cfg tree m x}).prune productId (activeRuns cfg tree productId)) t ∧
        ∀ x, x.productId = productId → x.initTag ∈ activeRuns cfg tree productId →
          Uncopied cfg tree m x → Scored cfg x)
      (Stops cfg {x | x.productId = productId ∧ x.initTag ∈ activeRuns cfg tree productId ∧
        Uncopied cfg tree m x}) s := by
  apply ends_bind
  apply ends_askS3
  rw [h.1]
  apply ends_bind
  refine ends_mono (fun _ t ht => ?_) (fun _ _ he => he)
    (ends_syncInits (activeRuns cfg tree productId) (nodup_activeRuns cfg tree productId) h)
  obtain ⟨ht, hscored⟩ := ht
  change (if activeRuns cfg tree productId = [] then pure () else
    onWorld (pruneIndex (.wrfInitRuns productId) (activeRuns cfg tree productId))).Ends _ _ _ t
  split
  · rename_i hnone
    refine ⟨?_, hscored⟩
    simpa [hnone] using ht
  · apply ends_pruneIndex rfl
    refine ⟨⟨ht.1, ?_⟩, hscored⟩
    show wrfMirror (t.world.reconcile _ _) = _
    rw [wrfMirror_reconcile, ht.2]

theorem copies_append (before : List String) :
    copies cfg tree (before ++ [productId]) m = copies cfg tree before m ∪
      {x | x.productId = productId ∧ x.initTag ∈ activeRuns cfg tree productId ∧
        Uncopied cfg tree m x} := by
  ext x
  simp only [copies, Set.mem_union, Set.mem_ofPred_eq, List.mem_append, List.mem_singleton]
  constructor
  · rintro ⟨hp | rfl, hx⟩
    · exact .inl ⟨hp, hx⟩
    · exact .inr ⟨rfl, hx⟩
  · rintro (⟨hp, hx⟩ | ⟨rfl, hx⟩)
    · exact ⟨.inl hp, hx⟩
    · exact ⟨.inr rfl, hx⟩

/-- The products before gained steps of their own only. -/
theorem uncopied_cycled {before : List String} {x : WrfStep} (hnot : x.productId ∉ before) :
    Uncopied cfg tree (cycled cfg tree before m) x ↔ Uncopied cfg tree m x := by
  have hsteps : x ∈ (cycled cfg tree before m).steps ↔ x ∈ m.steps := by
    simp [cycled, WrfMirror.add, copies, hnot]
  rw [Uncopied, Uncopied, hsteps]

theorem cycled_append (before : List String) :
    cycled cfg tree (before ++ [productId]) m =
      if activeRuns cfg tree productId = [] then cycled cfg tree before m else
        ((cycled cfg tree before m).add (storedSpots cfg tree)
          {x | x.productId = productId ∧ x.initTag ∈ activeRuns cfg tree productId ∧
            Uncopied cfg tree m x}).prune productId (activeRuns cfg tree productId) := by
  have happend : copies cfg tree (before ++ [productId]) m = copies cfg tree before m ∪
      {x | x.productId = productId ∧ x.initTag ∈ activeRuns cfg tree productId ∧
        Uncopied cfg tree m x} := copies_append before
  split
  · rename_i hnone
    simp only [hnone, List.not_mem_nil, false_and, and_false, Set.ofPred_false, Set.union_empty]
      at happend
    apply WrfMirror.ext
    · simp only [cycled, happend]
    · ext r
      simp only [cycled, happend, Set.mem_ofPred_eq, List.mem_append, List.mem_singleton]
      constructor
      · exact fun h => ⟨h.1, fun hp => h.2 (.inl hp)⟩
      · rintro ⟨h, hkept⟩
        refine ⟨h, ?_⟩
        rintro (hp | hp) hne
        · exact hkept hp hne
        · rw [hp] at hne
          exact absurd hnone hne
    · simp only [cycled, happend]
    · simp only [cycled, happend]
  · rename_i hsome
    apply WrfMirror.ext
    · simp only [cycled, happend, WrfMirror.prune, ← WrfMirror.add_union]
      rfl
    · ext r
      simp only [cycled, happend, WrfMirror.prune, WrfMirror.add, Set.mem_ofPred_eq, Set.mem_union,
        List.mem_append, List.mem_singleton]
      constructor
      · rintro ⟨h, hkept⟩
        refine ⟨?_, fun hp => ?_⟩
        · rcases h with h | ⟨x, hx | hx, hr⟩
          · exact .inl ⟨.inl h, fun hp => hkept (.inl hp)⟩
          · exact .inl ⟨.inr ⟨x, hx, hr⟩, fun hp => hkept (.inl hp)⟩
          · exact .inr ⟨x, hx, hr⟩
        · rw [← hp] at hsome ⊢
          exact hkept (.inr hp) hsome
      · rintro ⟨h, hkept⟩
        rcases h with ⟨h | ⟨x, hx, hr⟩, hbefore⟩ | ⟨x, hx, hr⟩
        · refine ⟨.inl h, ?_⟩
          rintro (hp | hp) hne
          · exact hbefore hp hne
          · rw [hp]
            exact hkept hp
        · refine ⟨.inr ⟨x, .inl hx, hr⟩, ?_⟩
          rintro (hp | hp) hne
          · exact hbefore hp hne
          · rw [hp]
            exact hkept hp
        · refine ⟨.inr ⟨x, .inr hx, hr⟩, ?_⟩
          have hp : r.1 = productId := hr.1.symm.trans hx.1
          rintro - -
          rw [hp]
          exact hkept hp
    · simp only [cycled, happend, WrfMirror.prune, ← WrfMirror.add_union]
      rfl
    · simp only [cycled, happend, WrfMirror.prune, ← WrfMirror.add_union]
      rfl

theorem cycled_nil : cycled cfg tree [] m = m := by
  have hnone : copies cfg tree [] m = ∅ := by
    ext x
    simp [copies]
  simp [cycled, hnone]

theorem ends_syncProducts (products : List String) (hnodup : products.Nodup) (h : At tree m s) :
    (each (WrfSync.syncProduct cfg) products).Ends .ok
      (fun _ t => At tree (cycled cfg tree products m) t ∧
        ∀ x ∈ copies cfg tree products m, Scored cfg x)
      (Stops cfg (copies cfg tree products m)) s := by
  apply ends_each (P := fun done t => At tree (cycled cfg tree done m) t ∧
    ∀ x ∈ copies cfg tree done m, Scored cfg x)
  · rintro before productId after t rfl ⟨ht, hscored⟩
    have hnot : productId ∉ before := by
      intro hmem
      exact (List.nodup_append.mp hnodup).2.2 productId hmem productId List.mem_cons_self rfl
    have hset : ∀ x : WrfStep, (x.productId = productId ∧
        x.initTag ∈ activeRuns cfg tree productId ∧ Uncopied cfg tree (cycled cfg tree before m) x) ↔
        (x.productId = productId ∧ x.initTag ∈ activeRuns cfg tree productId ∧
          Uncopied cfg tree m x) := by
      intro x
      constructor
      · rintro ⟨rfl, hi, hx⟩
        exact ⟨rfl, hi, (uncopied_cycled hnot).mp hx⟩
      · rintro ⟨rfl, hi, hx⟩
        exact ⟨rfl, hi, (uncopied_cycled hnot).mpr hx⟩
    refine ends_mono (fun _ u hu => ?_) (fun _ u hu => stops_mono ?_ hu)
      (ends_syncProduct productId ht)
    · obtain ⟨hu, hscore⟩ := hu
      simp only [hset] at hu
      rw [cycled_append, copies_append]
      refine ⟨hu, fun x hx => ?_⟩
      rcases hx with hx | hx
      · exact hscored x hx
      · have hx' := (hset x).mpr hx
        exact hscore x hx'.1 hx'.2.1 hx'.2.2
    · intro x hx
      obtain ⟨rfl, hi, huncopied⟩ := (hset x).mp hx
      exact ⟨by simp, hi, huncopied⟩
  · rw [cycled_nil]
    exact ⟨h, fun x hx => by simp [copies] at hx⟩

/-- A cycle ends without an error and leaves `cycled`, or a name without a score stops it. -/
theorem ends_syncWrf (h : At tree m s) :
    (WrfSync.syncWrf cfg).Ends .ok
      (fun n t => (n = 0 ∧ At tree (cycled cfg tree tree.products m) t ∧
          ∀ x ∈ copies cfg tree tree.products m, Scored cfg x) ∨
        (n = 1 ∧ ∃ x ∈ copies cfg tree tree.products m, ¬ Scored cfg x))
      (fun _ _ => False) s := by
  apply ends_catchError
  apply ends_bind
  apply ends_askS3
  rw [h.1]
  apply ends_bind
  refine ends_mono (fun _ t ht => ?_) (fun _ t ht => ?_)
    (ends_syncProducts tree.products tree.products_nodup h)
  · exact .inl ⟨rfl, ht⟩
  · exact ⟨ht.1, .inr ⟨rfl, ht.2⟩⟩

/-- How a cycle over an S3 that answers ends. -/
def wrfCycleOver (cfg : WrfSettings) (w : World) (tree : WrfTree) :
    Option (Except SyncExn Nat × Site WrfTree) :=
  (WrfSync.syncWrf cfg).answered .ok ⟨w, tree⟩

theorem wrfCycleOver_cases (cfg : WrfSettings) (w : World) (tree : WrfTree) : ∃ n s,
    wrfCycleOver cfg w tree = some (.ok n, s) ∧
      ((n = 0 ∧ wrfMirror s.world = cycled cfg tree tree.products (wrfMirror w) ∧
          ∀ x ∈ copies cfg tree tree.products (wrfMirror w), Scored cfg x) ∨
        (n = 1 ∧ ∃ x ∈ copies cfg tree tree.products (wrfMirror w), ¬ Scored cfg x)) := by
  have hat : At tree (wrfMirror w) ⟨w, tree⟩ := ⟨rfl, rfl⟩
  obtain ⟨o, s, hend, hok, herror⟩ := Ends.answered (c := WrfSync.syncWrf cfg) (ends_syncWrf hat)
  cases o with
  | error e => exact (herror e rfl).elim
  | ok n =>
    refine ⟨n, s, hend, ?_⟩
    rcases hok n rfl with ⟨hn, ht, hscored⟩ | h
    · exact .inl ⟨hn, ht.2, hscored⟩
    · exact .inr h

end DataService.Sync
