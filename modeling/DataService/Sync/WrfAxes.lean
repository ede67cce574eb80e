import DataService.Lib.RankedSet
import DataService.Lib.StepSystem
import DataService.Sync.ListingStrategy
import DataService.Sync.Ranks
import DataService.Sync.WrfCycle
import DataService.Sync.WrfNames

/-! The three WRF indexes over time: error-free cycles over any S3, and between them keys
that run out or are evicted. A cycle writes the index of runs only with a new step. -/

namespace DataService.Sync

open Coroutine Coro ExpiringStore NumberText StepSystem

/-- What happens to the indexes: a cycle of the loop, time, and the loss of a key. -/
inductive WrfAction where
  | cycle (tree : WrfTree)
  | tick (seconds : Nat)
  | evict (key : RedisKey)

/-- A cycle that ends with an error is no step. -/
def wrfStep (cfg : WrfSettings) (w : World) : WrfAction → Option World
  | .cycle tree =>
    match wrfCycleOver cfg w tree with
    | some (.ok 0, s) => some s.world
    | _ => none
  | .tick seconds => some { w with now := w.now + seconds }
  | .evict key => some (w.setRedis (w.redis.del key))

/-- `get_wrf_init_runs` -/
def getWrfInitRuns (w : World) (productId : String) : List String :=
  ListingKey.byRank (members w.redis w.now (.wrfInitRuns productId))

/-- The active runs whose index of steps is not empty, newest first. -/
def heldRuns (cfg : WrfSettings) (tree : WrfTree) (w : World) (productId : String) : List String :=
  (activeRuns cfg tree productId).filter fun run =>
    decide (w.memberNames (.wrfSteps productId run) ≠ [])

/-- The three indexes say the same. -/
structure AxesConsistent (cfg : WrfSettings) (tree : WrfTree) (w : World) (productId : String) :
    Prop where
  runs : getWrfInitRuns w productId = heldRuns cfg tree w productId
  product : heldRuns cfg tree w productId ≠ [] → productId ∈ w.memberNames .wrfProducts

/-- The cycle copies a step of the run: one that is listed and not indexed, and has tiles. -/
def CopiesStep (cfg : WrfSettings) (tree : WrfTree) (w : World) (productId run : String) : Prop :=
  ∃ fxxx ∈ tree.steps productId run, fxxx ∉ w.memberNames (.wrfSteps productId run) ∧
    storedSpots cfg tree ⟨productId, run, fxxx⟩ ≠ []

/-- Before a cycle: what the cycle will not write is in the indexes already. -/
structure AxesRecorded (cfg : WrfSettings) (tree : WrfTree) (w : World) (productId : String) :
    Prop where
  runs : ∀ run ∈ activeRuns cfg tree productId, ¬ CopiesStep cfg tree w productId run →
    (run ∈ w.memberNames (.wrfInitRuns productId) ↔ w.memberNames (.wrfSteps productId run) ≠ [])
  product : (∀ run ∈ activeRuns cfg tree productId, ¬ CopiesStep cfg tree w productId run) →
    heldRuns cfg tree w productId ≠ [] → productId ∈ w.memberNames .wrfProducts
  /-- as it is with tags of one width -/
  scores : ∀ run ∈ activeRuns cfg tree productId, ∀ run' ∈ activeRuns cfg tree productId,
    (w.memberNames (.wrfSteps productId run) ≠ [] ∨ CopiesStep cfg tree w productId run) →
    (w.memberNames (.wrfSteps productId run') ≠ [] ∨ CopiesStep cfg tree w productId run') →
    run' < run → ∀ score score', extractWrfInitScore cfg.reader run = some score →
      extractWrfInitScore cfg.reader run' = some score' → score' ≤ score

section Ranked

/-- The index of runs has each run once, with the score of its name. -/
def Ranked (cfg : WrfSettings) (w : World) : Prop :=
  ∀ productId, (w.memberNames (.wrfInitRuns productId)).Nodup ∧
    ∀ p ∈ members w.redis w.now (.wrfInitRuns productId),
      extractWrfInitScore cfg.reader p.1 = some p.2

variable {cfg : WrfSettings} {w w' : World} {key : IndexKey}

theorem ranked_iff : Ranked cfg w ↔ ∀ productId,
    KeyRanked (fun run score => extractWrfInitScore cfg.reader run = some score)
      (.wrfInitRuns productId) w :=
  ⟨fun h productId => ⟨(h productId).1, (h productId).2⟩,
    fun h productId => ⟨(h productId).nodup, (h productId).scores⟩⟩

theorem ranked_addFor {name : String} {score : Int} {ttl : Nat}
    (hscore : ∀ productId, .wrfInitRuns productId = key →
      extractWrfInitScore cfg.reader name = some score) (hw : Ranked cfg w) :
    Ranked cfg (w.addFor key name score ttl) :=
  ranked_iff.mpr fun productId => keyRanked_addFor (hscore productId) (ranked_iff.mp hw productId)

theorem ranked_record (e : Event) (hw : Ranked cfg w) : Ranked cfg (w.record e) := hw

theorem ranked_addWrfIndex {productId initTag fxxx : String} {initScore stepScore : Int} {ttl : Nat}
    (hscore : extractWrfInitScore cfg.reader initTag = some initScore) (hw : Ranked cfg w) :
    Ranked cfg (addWrfIndex productId initTag fxxx initScore stepScore ttl w) := by
  have hproducts : Ranked cfg (w.addFor .wrfProducts productId 0 ttl) := ranked_addFor (by simp) hw
  have hinits : Ranked cfg ((w.addFor .wrfProducts productId 0 ttl).addFor
      (.wrfInitRuns productId) initTag initScore ttl) :=
    ranked_addFor (fun _ _ => hscore) hproducts
  unfold addWrfIndex
  exact ranked_record _ (ranked_addFor (by simp) hinits)

theorem ranked_keep {p : String × Int → Bool} (hw : Ranked cfg w) : Ranked cfg (w.keep key p) :=
  ranked_iff.mpr fun productId => keyRanked_keep (ranked_iff.mp hw productId)

theorem ranked_setEx {k : RedisKey} {ttl : Nat} (hk : ∀ i, k ≠ .index i) (hw : Ranked cfg w) :
    Ranked cfg (w.setEx k ttl) :=
  ranked_iff.mpr fun productId => keyRanked_setEx hk (ranked_iff.mp hw productId)

theorem ranked_addWrfLayers {productId initTag fxxx : String} (layers : List String) {ttl : Nat}
    (hw : Ranked cfg w) : Ranked cfg (addWrfLayers productId initTag fxxx layers ttl w) := by
  refine ranked_iff.mpr fun productId' => ?_
  exact keyRanked_addAll (fun _ _ => by simp) (ranked_iff.mp hw productId')

def RankedMove (cfg : WrfSettings) (w w' : World) : Prop := Ranked cfg w → Ranked cfg w'

theorem RankedMove.refl (w : World) : RankedMove cfg w w := id

/-- Every move of a cycle keeps the index of runs ranked. -/
abbrev KeepsRanked {α : Type} (cfg : WrfSettings) (c : WrfCode α) : Prop :=
  c.Within fun s t => RankedMove cfg s.world t.world

variable {productId initTag fxxx : String}

theorem keepsRanked_storeEx {k : RedisKey} (hk : ∀ i, k ≠ .index i) (ttl : Nat) :
    KeepsRanked cfg (storeEx k ttl) :=
  within_storeEx RankedMove.refl fun _ => ranked_setEx hk

theorem keepsRanked_readMembers (key : IndexKey) :
    KeepsRanked cfg (onWorld (readMembers key)) :=
  within_onWorld (within_readMembers RankedMove.refl (fun _ _ => id) key)

theorem keepsRanked_syncStepToRedis :
    KeepsRanked cfg (WrfSync.syncStepToRedis cfg productId initTag fxxx) := by
  have htile : ∀ key, KeepsRanked cfg
      (WrfSync.downloadTileToRedis cfg productId initTag fxxx key) := by
    intro key
    refine within_catchError ?_ trivial
    split
    · trivial
    · apply within_bind (within_getObject RankedMove.refl _)
      exact fun _ => within_bind (keepsRanked_storeEx (by simp) _) fun _ => trivial
  have htiles : ∀ keys, KeepsRanked cfg
      (WrfSync.downloadTiles cfg productId initTag fxxx keys) := by
    intro keys
    induction keys with
    | nil => trivial
    | cons key keys ih => exact within_bind (htile key) fun _ => within_bind ih fun _ => trivial
  exact within_bind (within_askS3 RankedMove.refl _) fun objects => htiles _

theorem keepsRanked_syncOverlays :
    KeepsRanked cfg (WrfSync.syncOverlays cfg productId initTag fxxx) := by
  have hgeojson : ∀ layer, KeepsRanked cfg
      (WrfSync.syncGeojsonToRedis cfg productId initTag fxxx layer) := by
    intro layer
    refine within_catchError ?_ trivial
    exact within_bind (within_getObject RankedMove.refl _) fun _ => keepsRanked_storeEx (by simp) _
  apply within_bind (within_onWorld (within_readExists RankedMove.refl _))
  intro done
  split
  · trivial
  · refine within_catchError ?_ trivial
    apply within_bind (within_askS3 RankedMove.refl _)
    intro s3Layers
    split
    · exact keepsRanked_storeEx (by simp) _
    · apply within_bind (keepsRanked_readMembers _)
      intro redisLayers
      unfold WrfSync.copyMissingLayers
      split
      · exact keepsRanked_storeEx (by simp) _
      · apply within_bind (within_onWorld (within_command RankedMove.refl fun _ =>
          ranked_addWrfLayers s3Layers))
        exact fun _ => within_each fun layer _ => hgeojson layer

theorem keepsRanked_syncInit : KeepsRanked cfg (WrfSync.syncInit cfg productId initTag) := by
  have htiles : ∀ existing fxxx, KeepsRanked cfg
      (WrfSync.syncStepTiles cfg productId initTag existing fxxx) := by
    intro existing fxxx
    unfold WrfSync.syncStepTiles
    split
    · trivial
    · apply within_bind keepsRanked_syncStepToRedis
      intro downloaded
      split
      · split
        · rename_i hscore _
          exact within_onWorld (within_command RankedMove.refl fun _ => ranked_addWrfIndex hscore)
        · trivial
      · trivial
  apply within_bind (within_askS3 RankedMove.refl _)
  intro steps
  apply within_bind (keepsRanked_readMembers _)
  exact fun existing => within_each fun fxxx _ =>
    within_bind (htiles existing fxxx) fun _ => keepsRanked_syncOverlays

theorem keepsRanked_syncWrf : KeepsRanked cfg (WrfSync.syncWrf cfg) := by
  have hproduct : ∀ productId, KeepsRanked cfg (WrfSync.syncProduct cfg productId) := by
    intro productId
    apply within_bind (within_askS3 RankedMove.refl _)
    intro initTags
    apply within_bind (within_each fun initTag _ => keepsRanked_syncInit)
    intro _
    split
    · trivial
    · apply within_onWorld
      exact within_pruneIndex RankedMove.refl (fun _ _ => id) (fun _ _ => ranked_keep) _
  refine within_catchError ?_ trivial
  apply within_bind (within_askS3 RankedMove.refl _)
  exact fun products => within_bind (within_each fun productId _ => hproduct productId) fun _ => trivial

end Ranked

section Cycle

variable {cfg : WrfSettings} {tree : WrfTree} {w w' : World} {productId run : String}

theorem wrfStep_cycle (h : wrfStep cfg w (.cycle tree) = some w') :
    ∃ s, wrfCycleOver cfg w tree = some (.ok 0, s) ∧ s.world = w' := by
  simp only [wrfStep] at h
  split at h
  · rename_i s hs
    exact ⟨s, hs, Option.some.inj h⟩
  · cases h

theorem wrfMirror_cycle (h : wrfStep cfg w (.cycle tree) = some w') :
    wrfMirror w' = cycled cfg tree tree.products (wrfMirror w) := by
  obtain ⟨s, hs, rfl⟩ := wrfStep_cycle h
  obtain ⟨n, t, ht, hcases⟩ := wrfCycleOver_cases cfg w tree
  obtain ⟨hn, rfl⟩ : 0 = n ∧ s = t := by simpa using hs.symm.trans ht
  rcases hcases with ⟨-, hmirror, -⟩ | ⟨hone, -⟩
  · exact hmirror
  · omega

/-- Every step that the cycle copies was converted to scores. -/
theorem scored_cycle (h : wrfStep cfg w (.cycle tree) = some w') :
    ∀ x ∈ copies cfg tree tree.products (wrfMirror w), Scored cfg x := by
  obtain ⟨s, hs, rfl⟩ := wrfStep_cycle h
  obtain ⟨n, t, ht, hcases⟩ := wrfCycleOver_cases cfg w tree
  obtain ⟨hn, rfl⟩ : 0 = n ∧ s = t := by simpa using hs.symm.trans ht
  rcases hcases with ⟨-, -, hscored⟩ | ⟨hone, -⟩
  · exact hscored
  · omega

theorem wrfStep_cycle_of_scored
    (h : ∀ x ∈ copies cfg tree tree.products (wrfMirror w), Scored cfg x) :
    ∃ w', wrfStep cfg w (.cycle tree) = some w' := by
  obtain ⟨n, s, hs, hcases⟩ := wrfCycleOver_cases cfg w tree
  rcases hcases with ⟨rfl, -, -⟩ | ⟨-, x, hx, hnot⟩
  · exact ⟨s.world, by simp [wrfStep, hs]⟩
  · exact absurd (h x hx) hnot

theorem copies_iff :
    (∃ s ∈ copies cfg tree tree.products (wrfMirror w), s.productId = productId ∧ s.initTag = run) ↔
      productId ∈ tree.products ∧ run ∈ activeRuns cfg tree productId ∧
        CopiesStep cfg tree w productId run := by
  constructor
  · rintro ⟨⟨p, i, f⟩, ⟨hp, hi, hlisted, hnot, hspots⟩, rfl, rfl⟩
    exact ⟨hp, hi, f, hlisted, hnot, hspots⟩
  · rintro ⟨hp, hi, f, hlisted, hnot, hspots⟩
    exact ⟨⟨productId, run, f⟩, ⟨hp, hi, hlisted, hnot, hspots⟩, rfl, rfl⟩

theorem mem_inits_cycle (h : wrfStep cfg w (.cycle tree) = some w') :
    run ∈ w'.memberNames (.wrfInitRuns productId) ↔
      (run ∈ w.memberNames (.wrfInitRuns productId) ∨ (productId ∈ tree.products ∧
        run ∈ activeRuns cfg tree productId ∧ CopiesStep cfg tree w productId run)) ∧
      (productId ∈ tree.products → activeRuns cfg tree productId ≠ [] →
        run ∈ activeRuns cfg tree productId) := by
  have hmirror : (productId, run) ∈ (wrfMirror w').inits ↔
      (productId, run) ∈ (cycled cfg tree tree.products (wrfMirror w)).inits := by
    rw [wrfMirror_cycle h]
  simp only [cycled, WrfMirror.add, Set.mem_union, Set.mem_ofPred_eq, copies_iff] at hmirror
  exact hmirror

theorem mem_steps_cycle {fxxx : String} (h : wrfStep cfg w (.cycle tree) = some w') :
    fxxx ∈ w'.memberNames (.wrfSteps productId run) ↔
      fxxx ∈ w.memberNames (.wrfSteps productId run) ∨
        (⟨productId, run, fxxx⟩ : WrfStep) ∈ copies cfg tree tree.products (wrfMirror w) := by
  have hmirror : (⟨productId, run, fxxx⟩ : WrfStep) ∈ (wrfMirror w').steps ↔
      (⟨productId, run, fxxx⟩ : WrfStep) ∈ (cycled cfg tree tree.products (wrfMirror w)).steps := by
    rw [wrfMirror_cycle h]
  exact hmirror

theorem tile_cycle {s : WrfStep} {spot : Spot} (h : wrfStep cfg w (.cycle tree) = some w') :
    (s, spot) ∈ (wrfMirror w').tiles ↔ (s, spot) ∈ (wrfMirror w).tiles ∨
      (s ∈ copies cfg tree tree.products (wrfMirror w) ∧ spot ∈ storedSpots cfg tree s) := by
  rw [wrfMirror_cycle h]
  rfl

theorem steps_cycle (h : wrfStep cfg w (.cycle tree) = some w') (hp : productId ∈ tree.products)
    (hrun : run ∈ activeRuns cfg tree productId) :
    w'.memberNames (.wrfSteps productId run) ≠ [] ↔
      w.memberNames (.wrfSteps productId run) ≠ [] ∨ CopiesStep cfg tree w productId run := by
  constructor
  · intro hne
    obtain ⟨f, hf⟩ := List.exists_mem_of_ne_nil _ hne
    rcases (mem_steps_cycle h).mp hf with hf | hf
    · exact .inl (List.ne_nil_of_mem hf)
    · exact .inr (copies_iff.mp ⟨_, hf, rfl, rfl⟩).2.2
  · rintro (hne | ⟨f, hlisted, hnot, hspots⟩)
    · obtain ⟨f, hf⟩ := List.exists_mem_of_ne_nil _ hne
      exact List.ne_nil_of_mem ((mem_steps_cycle h).mpr (.inl hf))
    · exact List.ne_nil_of_mem
        ((mem_steps_cycle h).mpr (.inr ⟨hp, hrun, hlisted, hnot, hspots⟩))

theorem mem_products_cycle (h : wrfStep cfg w (.cycle tree) = some w')
    (hp : productId ∈ tree.products) :
    productId ∈ w'.memberNames .wrfProducts ↔ productId ∈ w.memberNames .wrfProducts ∨
      ∃ run ∈ activeRuns cfg tree productId, CopiesStep cfg tree w productId run := by
  have hmirror : productId ∈ (wrfMirror w').products ↔
      productId ∈ (cycled cfg tree tree.products (wrfMirror w)).products := by
    rw [wrfMirror_cycle h]
  refine hmirror.trans (or_congr Iff.rfl ?_)
  constructor
  · rintro ⟨s, hs, rfl⟩
    exact ⟨s.initTag, (copies_iff.mp ⟨s, hs, rfl, rfl⟩).2⟩
  · rintro ⟨run, hrun⟩
    obtain ⟨s, hs, hsp, -⟩ := copies_iff.mpr ⟨hp, hrun⟩
    exact ⟨s, hs, hsp⟩

theorem ranked_wrfStep {a : WrfAction} (hw : Ranked cfg w) (h : wrfStep cfg w a = some w') :
    Ranked cfg w' := by
  cases a with
  | cycle tree =>
    obtain ⟨s, hs, rfl⟩ := wrfStep_cycle h
    have hmove : ∀ s t : Site WrfTree, RankedMove cfg s.world t.world → Ranked cfg s.world →
        Ranked cfg t.world := fun _ _ hm => hm
    exact Within.answered (P := fun s : Site WrfTree => Ranked cfg s.world) keepsRanked_syncWrf hmove
      hw hs
  | tick seconds =>
    cases h
    exact ranked_iff.mpr fun productId => keyRanked_later seconds (ranked_iff.mp hw productId)
  | evict key =>
    cases h
    exact ranked_iff.mpr fun productId => keyRanked_evict key (ranked_iff.mp hw productId)

theorem ranked_initial (now : Nat) : Ranked cfg (World.initial now) :=
  ranked_iff.mpr fun _ => keyRanked_initial now

theorem pairwise_activeRuns (cfg : WrfSettings) (tree : WrfTree) (productId : String) :
    (activeRuns cfg tree productId).Pairwise (· > ·) :=
  (sorted_sortDescending (tree.initRuns_nodup productId)).sublist (List.take_sublist _ _)

theorem mem_activeRuns (h : run ∈ activeRuns cfg tree productId) : run ∈ tree.initRuns productId :=
  mem_sortDescending.mp (List.mem_of_mem_take h)

/-- With tags of one width only the entries themselves matter. -/
theorem axesRecorded_of_tags (htags : ∀ run ∈ tree.initRuns productId, IsInitTag run)
    (hruns : ∀ run ∈ activeRuns cfg tree productId, ¬ CopiesStep cfg tree w productId run →
      (run ∈ w.memberNames (.wrfInitRuns productId) ↔
        w.memberNames (.wrfSteps productId run) ≠ []))
    (hproduct : (∀ run ∈ activeRuns cfg tree productId, ¬ CopiesStep cfg tree w productId run) →
      heldRuns cfg tree w productId ≠ [] → productId ∈ w.memberNames .wrfProducts) :
    AxesRecorded cfg tree w productId where
  runs := hruns
  product := hproduct
  scores run hrun run' hrun' _ _ hlt _ _ :=
    initTag_scores (htags run (mem_activeRuns hrun)) (htags run' (mem_activeRuns hrun')) hlt

theorem mem_heldRuns : run ∈ heldRuns cfg tree w productId ↔
    run ∈ activeRuns cfg tree productId ∧ w.memberNames (.wrfSteps productId run) ≠ [] := by
  simp [heldRuns]

end Cycle

/-- In every run of error-free cycles and losses: right after a cycle that listed a run of the
product, its three indexes agree exactly if, before the cycle, they had all that the
cycle does not write. With tags for names the scores need no mention. -/
theorem wrf_axes_consistent_iff (cfg : WrfSettings) (hkeep : 0 < cfg.wrfInitsToKeep) {now : Nat}
    {as : List WrfAction} {w w' : World} {tree : WrfTree} {productId : String}
    (hrun : run (wrfStep cfg) (World.initial now) as = some w)
    (hcycle : wrfStep cfg w (.cycle tree) = some w') (hp : productId ∈ tree.products)
    (hlisted : tree.initRuns productId ≠ []) :
    (AxesConsistent cfg tree w' productId ↔ AxesRecorded cfg tree w productId) ∧
      ((∀ run ∈ tree.initRuns productId, IsInitTag run) →
        (∀ run ∈ activeRuns cfg tree productId, ¬ CopiesStep cfg tree w productId run →
          (run ∈ w.memberNames (.wrfInitRuns productId) ↔
            w.memberNames (.wrfSteps productId run) ≠ [])) →
        ((∀ run ∈ activeRuns cfg tree productId, ¬ CopiesStep cfg tree w productId run) →
          heldRuns cfg tree w productId ≠ [] → productId ∈ w.memberNames .wrfProducts) →
        AxesConsistent cfg tree w' productId) := by
  suffices hiff : AxesConsistent cfg tree w' productId ↔ AxesRecorded cfg tree w productId from
    ⟨hiff, fun htags hruns hproduct =>
      hiff.mpr (axesRecorded_of_tags htags hruns hproduct)⟩
  have hranked : Ranked cfg w :=
    run_invariant (fun _ _ _ hs hstep => ranked_wrfStep hs hstep) (ranked_initial now) hrun
  have hranked' := ranked_wrfStep hranked hcycle
  have hactive : activeRuns cfg tree productId ≠ [] := newest_ne_nil hkeep hlisted
  have hinits : ∀ run, run ∈ w'.memberNames (.wrfInitRuns productId) ↔
      run ∈ activeRuns cfg tree productId ∧
        (run ∈ w.memberNames (.wrfInitRuns productId) ∨ CopiesStep cfg tree w productId run) := by
    intro run
    rw [mem_inits_cycle hcycle]
    constructor
    · rintro ⟨hin, hkept⟩
      exact ⟨hkept hp hactive, hin.imp_right fun hin => hin.2.2⟩
    · rintro ⟨hi, hin⟩
      exact ⟨hin.imp_right fun hin => ⟨hp, hi, hin⟩, fun _ _ => hi⟩
  have hsteps := fun run => @steps_cycle cfg tree w w' productId run hcycle hp
  have hheld : ∀ run, run ∈ heldRuns cfg tree w' productId ↔
      run ∈ activeRuns cfg tree productId ∧
        (w.memberNames (.wrfSteps productId run) ≠ [] ∨ CopiesStep cfg tree w productId run) := by
    intro run
    rw [mem_heldRuns]
    exact and_congr_right fun hrun => hsteps run hrun
  let score : String → Int := fun run => (extractWrfInitScore cfg.reader run).getD 0
  have hscore : ∀ p ∈ members w'.redis w'.now (.wrfInitRuns productId), p.2 = score p.1 := by
    intro p hmem
    simp [score, (hranked' productId).2 p hmem]
  have hsorted : (heldRuns cfg tree w' productId).Pairwise (· > ·) :=
    (pairwise_activeRuns cfg tree productId).sublist List.filter_sublist
  have hlisting : getWrfInitRuns w' productId = heldRuns cfg tree w' productId ↔ _ :=
    RankedSet.descending_eq_iff hscore (hranked' productId).1 hsorted
  constructor
  · rintro ⟨hruns, hproduct⟩
    obtain ⟨hmem, horder⟩ := hlisting.mp hruns
    refine ⟨fun run hrun hnot => ?_, fun hnone hne => ?_, ?_⟩
    · have hboth := (hheld run).symm.trans ((hmem run).trans (hinits run))
      simpa [hrun, hnot] using hboth.symm
    · have hne' : heldRuns cfg tree w' productId ≠ [] := by
        obtain ⟨run, hrun⟩ := List.exists_mem_of_ne_nil _ hne
        obtain ⟨hi, hs⟩ := mem_heldRuns.mp hrun
        exact List.ne_nil_of_mem ((hheld run).mpr ⟨hi, .inl hs⟩)
      rcases (mem_products_cycle hcycle hp).mp (hproduct hne') with h | ⟨run, hrun, hcopies⟩
      · exact h
      · exact absurd hcopies (hnone run hrun)
    · intro run hrun run' hrun' hs hs' hlt value value' hvalue hvalue'
      have hle := horder run ((hheld run).mpr ⟨hrun, hs⟩) run' ((hheld run').mpr ⟨hrun', hs'⟩) hlt
      simpa [score, hvalue, hvalue'] using hle
  · rintro ⟨hruns, hproduct, hscores⟩
    have hmem : ∀ run, run ∈ heldRuns cfg tree w' productId ↔
        run ∈ w'.memberNames (.wrfInitRuns productId) := by
      intro run
      rw [hheld, hinits]
      refine and_congr_right fun hrun => ?_
      by_cases hcopies : CopiesStep cfg tree w productId run
      · exact iff_of_true (.inr hcopies) (.inr hcopies)
      · have := hruns run hrun hcopies
        simp [hcopies, this]
    refine ⟨hlisting.mpr ⟨hmem, ?_⟩, fun hne => ?_⟩
    · intro run hrun run' hrun' hlt
      have hvalue : ∀ r ∈ heldRuns cfg tree w' productId,
          ∃ value, extractWrfInitScore cfg.reader r = some value := by
        intro r hr
        obtain ⟨p, hpm, rfl⟩ := List.mem_map.mp ((hmem r).mp hr)
        exact ⟨p.2, (hranked' productId).2 p hpm⟩
      obtain ⟨value, hv⟩ := hvalue run hrun
      obtain ⟨value', hv'⟩ := hvalue run' hrun'
      have hle := hscores run ((hheld run).mp hrun).1 run' ((hheld run').mp hrun').1
        ((hheld run).mp hrun).2 ((hheld run').mp hrun').2 hlt value value' hv hv'
      simpa [score, hv, hv'] using hle
    · by_cases hnone : ∀ run ∈ activeRuns cfg tree productId, ¬ CopiesStep cfg tree w productId run
      · obtain ⟨run, hrun⟩ := List.exists_mem_of_ne_nil _ hne
        obtain ⟨hi, hs⟩ := (hheld run).mp hrun
        have hw : heldRuns cfg tree w productId ≠ [] :=
          List.ne_nil_of_mem (mem_heldRuns.mpr ⟨hi, hs.resolve_right (hnone run hi)⟩)
        exact (mem_products_cycle hcycle hp).mpr (.inl (hproduct hnone hw))
      · push Not at hnone
        exact (mem_products_cycle hcycle hp).mpr (.inr hnone)

def keepOneRun : WrfSettings := ⟨60, 60, 60, 1, .asciiOnly⟩

/-- One product, each of its runs with one step of one tile. -/
def oneTileRuns (runs : List String) (h : runs.Nodup) : WrfTree where
  products := ["t2m"]
  initRuns _ := runs
  steps _ _ := ["F000"]
  objects _ _ _ := ["F000/3/1/2.webp"]
  layers _ _ _ := []
  readable _ := true
  products_nodup := by decide
  initRuns_nodup _ := h
  steps_nodup _ _ := by decide

def midnightRun : WrfTree := oneTileRuns ["20260101_000000"] (by decide)

def midnightAndNoonRuns : WrfTree := oneTileRuns ["20260101_000000", "20260101_120000"] (by decide)

/-- The first cycle writes all three indexes. -/
theorem wrf_axes_consistent_first : ∃ w',
    wrfStep keepOneRun (World.initial 0) (.cycle midnightRun) = some w' ∧
      AxesConsistent keepOneRun midnightRun w' "t2m" := by
  have hends : (wrfStep keepOneRun (World.initial 0) (.cycle midnightRun)).isSome := by
    decide +kernel
  obtain ⟨w', hw'⟩ := Option.isSome_iff_exists.mp hends
  have hactive : ∀ run ∈ activeRuns keepOneRun midnightRun "t2m", run = "20260101_000000" := by
    decide +kernel
  have hcopies : ∀ run ∈ activeRuns keepOneRun midnightRun "t2m",
      CopiesStep keepOneRun midnightRun (World.initial 0) "t2m" run := by
    intro run hrun
    obtain rfl := hactive run hrun
    exact ⟨"F000", by decide, by decide, by decide +kernel⟩
  have hstart : run (wrfStep keepOneRun) (World.initial 0) [] = some (World.initial 0) := rfl
  refine ⟨w', hw', (wrf_axes_consistent_iff keepOneRun (by decide) hstart hw' (by decide)
    (by decide)).1.mpr ⟨?_, ?_, ?_⟩⟩
  · exact fun run hrun hnot => absurd (hcopies run hrun) hnot
  · intro hnone
    exact absurd (hcopies "20260101_000000" (by decide +kernel)) (hnone _ (by decide +kernel))
  · intro run hrun run' hrun' _ _ hlt
    rw [hactive run hrun, hactive run' hrun'] at hlt
    exact absurd hlt (lt_irrefl _)

/-- A run that was displaced and is the newest again has its steps still, so the cycle does
not write it into the index of runs. -/
theorem returned_run_not_indexed : ∃ w,
    run (wrfStep keepOneRun) (World.initial 0)
      [.cycle midnightRun, .cycle midnightAndNoonRuns, .cycle midnightRun] = some w ∧
    getWrfInitRuns w "t2m" = [] ∧ heldRuns keepOneRun midnightRun w "t2m" = ["20260101_000000"] ∧
    ¬ AxesConsistent keepOneRun midnightRun w "t2m" := by
  have hlists : (run (wrfStep keepOneRun) (World.initial 0)
      [.cycle midnightRun, .cycle midnightAndNoonRuns, .cycle midnightRun]).map
        (fun w => (getWrfInitRuns w "t2m", heldRuns keepOneRun midnightRun w "t2m")) =
      some ([], ["20260101_000000"]) := by decide +kernel
  obtain ⟨w, hw, hpair⟩ := Option.map_eq_some_iff.mp hlists
  obtain ⟨hruns, hheld⟩ := Prod.mk.inj hpair
  refine ⟨w, hw, hruns, hheld, fun hconsistent => ?_⟩
  have hsame := hconsistent.runs
  rw [hruns, hheld] at hsame
  cases hsame

end DataService.Sync
