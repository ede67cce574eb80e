import DataService.Sync.WrfAxes

/-! Directories with arbitrary names among the WRF runs and steps, and what a cycle leaves
for the runs and steps that have tags. Two cycles from one Redis are compared. -/

namespace DataService.Sync

open Coroutine Coro ExpiringStore NumberText StepSystem

/-- The same tiles, and stray directories among the runs and among the steps of the runs. -/
structure WithStrays (tree tree' : WrfTree) : Prop where
  products : tree'.products = tree.products
  initRuns : ∀ productId, tree.initRuns productId ⊆ tree'.initRuns productId
  strayRuns : ∀ productId, ∀ run ∈ tree'.initRuns productId, run ∉ tree.initRuns productId →
    ¬ IsInitTag run
  steps : ∀ productId, ∀ run ∈ tree.initRuns productId,
    tree.steps productId run ⊆ tree'.steps productId run
  straySteps : ∀ productId, ∀ run ∈ tree.initRuns productId, ∀ fxxx ∈ tree'.steps productId run,
    fxxx ∉ tree.steps productId run → ¬ IsStepTag fxxx
  objects : ∀ productId, ∀ run ∈ tree.initRuns productId, ∀ fxxx ∈ tree.steps productId run,
    tree'.objects productId run fxxx = tree.objects productId run fxxx
  readable : tree'.readable = tree.readable

def WrfStep.Tagged (s : WrfStep) : Prop := IsInitTag s.initTag ∧ IsStepTag s.fxxx

/-- Redis says the same of what has tags. -/
structure SameForTags (w w' : World) : Prop where
  runs : ∀ productId run, IsInitTag run →
    (run ∈ w.memberNames (.wrfInitRuns productId) ↔ run ∈ w'.memberNames (.wrfInitRuns productId))
  steps : ∀ s : WrfStep, s.Tagged → (s ∈ (wrfMirror w).steps ↔ s ∈ (wrfMirror w').steps)
  tiles : ∀ (s : WrfStep) (spot : Spot), s.Tagged →
    ((s, spot) ∈ (wrfMirror w).tiles ↔ (s, spot) ∈ (wrfMirror w').tiles)

/-- Both cycles get through: one `try` block holds all products with their prunes, so that a
cycle with no error has reached the prune of each. What has tags comes out the same. -/
def TagsUndisturbed (cfg : WrfSettings) (w : World) (tree tree' : WrfTree) : Prop :=
  ∃ w₁ w₂, wrfStep cfg w (.cycle tree) = some w₁ ∧ wrfStep cfg w (.cycle tree') = some w₂ ∧
    SameForTags w₁ w₂

/-- Before the cycles: what the stray directories leave alone. -/
structure StraysHarmless (cfg : WrfSettings) (w : World) (tree tree' : WrfTree) : Prop where
  /-- the names of every step to copy are converted -/
  scored : ∀ s : WrfStep, s ∈ copies cfg tree tree.products (wrfMirror w) ∨
    s ∈ copies cfg tree' tree'.products (wrfMirror w) → Scored cfg s
  /-- a run that only the strays push out is not indexed and has nothing to copy -/
  pushedOut : ∀ productId ∈ tree.products, ∀ run, IsInitTag run →
    activeRuns cfg tree' productId ≠ [] → run ∉ activeRuns cfg tree' productId →
    (activeRuns cfg tree productId ≠ [] → run ∈ activeRuns cfg tree productId) →
    run ∉ w.memberNames (.wrfInitRuns productId) ∧
      (run ∈ activeRuns cfg tree productId → ¬ CopiesStep cfg tree w productId run)
  /-- no run is indexed for its stray steps only -/
  carried : ∀ productId ∈ tree.products, ∀ run ∈ activeRuns cfg tree' productId, IsInitTag run →
    CopiesStep cfg tree' w productId run →
    run ∈ w.memberNames (.wrfInitRuns productId) ∨ CopiesStep cfg tree w productId run

section Newest

variable {xs ys : List String} {x : String}

theorem mem_take_of_sublist (h : xs.Sublist ys) (hnodup : ys.Nodup) {n : Nat} (hx : x ∈ xs)
    (htake : x ∈ ys.take n) : x ∈ xs.take n := by
  induction h generalizing n with
  | slnil => cases hx
  | @cons xs ys y h ih =>
    cases n with
    | zero => cases htake
    | succ n =>
      have hne : x ≠ y := by
        rintro rfl
        exact (List.nodup_cons.mp hnodup).1 (h.subset hx)
      have htail : x ∈ ys.take n := (List.mem_cons.mp htake).resolve_left hne
      have hlonger : ys.take n ⊆ ys.take (n + 1) := (List.take_sublist_take_left (by omega)).subset
      exact ih (List.nodup_cons.mp hnodup).2 hx (hlonger htail)
  | @cons_cons xs ys y h ih =>
    cases n with
    | zero => cases htake
    | succ n =>
      by_cases heq : x = y
      · rw [heq]
        exact List.mem_cons_self
      have hmem : x ∈ xs := (List.mem_cons.mp hx).resolve_left heq
      have htail : x ∈ ys.take n := (List.mem_cons.mp htake).resolve_left heq
      exact List.mem_cons_of_mem _ (ih (List.nodup_cons.mp hnodup).2 hmem htail)

/-- More names keep the order of those there are. -/
theorem sortDescending_sublist (hxs : xs.Nodup) (h : xs ⊆ ys) :
    (sortDescending xs).Sublist (sortDescending ys) := by
  have hsub : sortDescending xs ⊆ sortDescending ys := by
    intro x hx
    exact mem_sortDescending.mpr (h (mem_sortDescending.mp hx))
  have hperm : (sortDescending xs).Subperm (sortDescending ys) :=
    List.subperm_of_subset (nodup_sortDescending hxs) hsub
  exact List.sublist_of_subperm_of_pairwise hperm
    (List.pairwise_insertionSort (· ≥ ·) xs) (List.pairwise_insertionSort (· ≥ ·) ys)

end Newest

section Strays

variable {cfg : WrfSettings} {tree tree' : WrfTree} {w : World} {productId run : String}

/-- Strays push runs out and bring none in. -/
theorem active_of_strays (h : WithStrays tree tree') (htag : IsInitTag run)
    (hrun : run ∈ activeRuns cfg tree' productId) : run ∈ activeRuns cfg tree productId := by
  have hlisted : run ∈ tree.initRuns productId := by
    by_contra hnot
    exact h.strayRuns productId run (mem_activeRuns hrun) hnot htag
  have hsub := sortDescending_sublist (tree.initRuns_nodup productId) (h.initRuns productId)
  exact mem_take_of_sublist hsub (nodup_sortDescending (tree'.initRuns_nodup productId))
    (mem_sortDescending.mpr hlisted) hrun

theorem active_ne_nil_of_strays (h : WithStrays tree tree')
    (hne : activeRuns cfg tree productId ≠ []) : activeRuns cfg tree' productId ≠ [] := by
  obtain ⟨run, hrun⟩ := List.exists_mem_of_ne_nil _ hne
  have hkeep : 0 < cfg.wrfInitsToKeep := by
    apply Nat.pos_of_ne_zero
    intro hzero
    simp [activeRuns, WrfSync.activeInits, hzero] at hrun
  have hlisted := h.initRuns productId (mem_activeRuns hrun)
  exact newest_ne_nil hkeep (List.ne_nil_of_mem hlisted)

theorem storedSpots_of_strays (h : WithStrays tree tree') {s : WrfStep}
    (hrun : s.initTag ∈ tree.initRuns s.productId)
    (hstep : s.fxxx ∈ tree.steps s.productId s.initTag) :
    storedSpots cfg tree' s = storedSpots cfg tree s := by
  have hspot : storedSpot cfg tree' = storedSpot cfg tree := by
    funext key
    simp only [storedSpot, h.readable]
  rw [storedSpots, storedSpots, hspot, h.objects _ _ hrun _ hstep]

theorem copiesStep_of_strays (h : WithStrays tree tree') (hrun : run ∈ tree.initRuns productId)
    (hcopies : CopiesStep cfg tree w productId run) : CopiesStep cfg tree' w productId run := by
  obtain ⟨fxxx, hlisted, hnot, hspots⟩ := hcopies
  refine ⟨fxxx, h.steps _ _ hrun hlisted, hnot, ?_⟩
  rwa [storedSpots_of_strays h hrun hlisted]

/-- With the strays, the tagged steps that are copied are those of the runs still active. -/
theorem copies_of_strays (h : WithStrays tree tree') {s : WrfStep} (htag : s.Tagged)
    {m : WrfMirror} : s ∈ copies cfg tree' tree'.products m ↔
      s ∈ copies cfg tree tree.products m ∧ s.initTag ∈ activeRuns cfg tree' s.productId := by
  constructor
  · rintro ⟨hp, hrun, hlisted, hnot, hspots⟩
    have hactive := active_of_strays h htag.1 hrun
    have hstep : s.fxxx ∈ tree.steps s.productId s.initTag := by
      by_contra hstray
      exact h.straySteps _ _ (mem_activeRuns hactive) _ hlisted hstray htag.2
    rw [storedSpots_of_strays h (mem_activeRuns hactive) hstep] at hspots
    exact ⟨⟨h.products ▸ hp, hactive, hstep, hnot, hspots⟩, hrun⟩
  · rintro ⟨⟨hp, hactive, hlisted, hnot, hspots⟩, hrun⟩
    rw [← storedSpots_of_strays h (mem_activeRuns hactive) hlisted] at hspots
    exact ⟨h.products ▸ hp, hrun, h.steps _ _ (mem_activeRuns hactive) hlisted, hnot, hspots⟩

theorem StraysHarmless.stays (hharmless : StraysHarmless cfg w tree tree')
    (h : WithStrays tree tree') (hp : productId ∈ tree.products) (htag : IsInitTag run)
    (hrun : run ∈ activeRuns cfg tree productId) (hcopies : CopiesStep cfg tree w productId run) :
    run ∈ activeRuns cfg tree' productId := by
  by_contra hout
  have hne := active_ne_nil_of_strays h (List.ne_nil_of_mem hrun)
  exact (hharmless.pushedOut _ hp run htag hne hout fun _ => hrun).2 hrun hcopies

/-- The cycles with and without the stray directories do the same for what has tags, and
both get through, exactly if the strays are harmless. -/
theorem strays_undisturbed_iff (cfg : WrfSettings) (w : World) (h : WithStrays tree tree') :
    TagsUndisturbed cfg w tree tree' ↔ StraysHarmless cfg w tree tree' := by
  constructor
  · rintro ⟨w₁, w₂, h₁, h₂, hsame⟩
    refine ⟨?_, ?_, ?_⟩
    · rintro s (hs | hs)
      · exact scored_cycle h₁ s hs
      · exact scored_cycle h₂ s hs
    · intro productId hp run htag hne hout hkept
      have hgone : run ∉ w₂.memberNames (.wrfInitRuns productId) := by
        intro hin
        exact hout (((mem_inits_cycle h₂).mp hin).2 (h.products ▸ hp) hne)
      have hgone₁ : run ∉ w₁.memberNames (.wrfInitRuns productId) := by
        rwa [hsame.runs productId run htag]
      rw [mem_inits_cycle h₁] at hgone₁
      have hnone := fun hin => hgone₁ ⟨hin, fun _ => hkept⟩
      exact ⟨fun hin => hnone (.inl hin), fun hrun hcopies => hnone (.inr ⟨hp, hrun, hcopies⟩)⟩
    · intro productId hp run hrun htag hcopies
      have hin : run ∈ w₂.memberNames (.wrfInitRuns productId) :=
        (mem_inits_cycle h₂).mpr ⟨.inr ⟨h.products ▸ hp, hrun, hcopies⟩, fun _ _ => hrun⟩
      rw [← hsame.runs productId run htag, mem_inits_cycle h₁] at hin
      exact hin.1.imp_right fun hcopied => hcopied.2.2
  · intro hharmless
    obtain ⟨w₁, h₁⟩ := wrfStep_cycle_of_scored (w := w) fun s hs => hharmless.scored s (.inl hs)
    obtain ⟨w₂, h₂⟩ := wrfStep_cycle_of_scored (w := w) fun s hs => hharmless.scored s (.inr hs)
    have hagree : ∀ s : WrfStep, s.Tagged → (s ∈ copies cfg tree tree.products (wrfMirror w) ↔
        s ∈ copies cfg tree' tree'.products (wrfMirror w)) := by
      intro s htag
      rw [copies_of_strays h htag]
      refine ⟨fun hs => ⟨hs, ?_⟩, And.left⟩
      exact hharmless.stays h hs.1 htag.1 hs.2.1 (copies_iff.mp ⟨s, hs, rfl, rfl⟩).2.2
    refine ⟨w₁, w₂, h₁, h₂, ?_, ?_, ?_⟩
    · intro productId run htag
      rw [mem_inits_cycle h₁, mem_inits_cycle h₂, h.products]
      by_cases hp : productId ∈ tree.products
      · simp only [hp, true_and, true_implies]
        constructor
        · rintro ⟨hin, hkept⟩
          have hkept' : activeRuns cfg tree' productId ≠ [] →
              run ∈ activeRuns cfg tree' productId := by
            intro hne
            by_contra hout
            have hnone := hharmless.pushedOut _ hp run htag hne hout hkept
            rcases hin with hin | ⟨hrun, hcopies⟩
            · exact hnone.1 hin
            · exact hnone.2 hrun hcopies
          refine ⟨hin.imp_right ?_, hkept'⟩
          rintro ⟨hrun, hcopies⟩
          exact ⟨hharmless.stays h hp htag hrun hcopies,
            copiesStep_of_strays h (mem_activeRuns hrun) hcopies⟩
        · rintro ⟨hin, hkept⟩
          refine ⟨?_, fun hne => active_of_strays h htag (hkept (active_ne_nil_of_strays h hne))⟩
          rcases hin with hin | ⟨hrun, hcopies⟩
          · exact .inl hin
          · have hactive := active_of_strays h htag hrun
            exact (hharmless.carried _ hp run hrun htag hcopies).imp_right fun hc => ⟨hactive, hc⟩
      · simp only [hp, false_and, or_false, false_implies, and_true]
    · intro s htag
      have hsteps := hagree s htag
      exact (mem_steps_cycle h₁).trans ((or_congr Iff.rfl hsteps).trans (mem_steps_cycle h₂).symm)
    · intro s spot htag
      rw [tile_cycle h₁, tile_cycle h₂, ← hagree s htag]
      refine or_congr Iff.rfl (and_congr_right fun hs => ?_)
      rw [storedSpots_of_strays h (mem_activeRuns hs.2.1) hs.2.2.1]

end Strays

/-- A stray run that sorts below the newest. -/
def midnightRunWithStray : WrfTree := oneTileRuns ["0tmp", "20260101_000000"] (by decide)

def noonRun : WrfTree := oneTileRuns ["20260101_120000"] (by decide)

/-- A stray step with a tile. -/
def noonRunWithStray : WrfTree :=
  { noonRun with
    steps := fun _ _ => ["F000", "Ftmp"]
    objects := fun _ _ fxxx => [fxxx ++ "/3/1/2.webp"]
    steps_nodup := fun _ _ => by decide }

theorem old_stray_run_harmless :
    TagsUndisturbed keepOneRun (World.initial 0) midnightRun midnightRunWithStray := by
  have hstrays : WithStrays midnightRun midnightRunWithStray := by
    refine ⟨rfl, fun _ => ?_, fun _ run hrun hstray => ?_, fun _ _ _ => List.Subset.refl _,
      fun _ _ _ _ hstep hnot => absurd hstep hnot, fun _ _ _ _ _ => rfl, rfl⟩
    · change ["20260101_000000"] ⊆ ["0tmp", "20260101_000000"]
      simp
    · change run ∈ ["0tmp", "20260101_000000"] at hrun
      change run ∉ ["20260101_000000"] at hstray
      obtain rfl : run = "0tmp" := by simp_all
      decide
  have hactive : ∀ productId, activeRuns keepOneRun midnightRun productId = ["20260101_000000"] := by
    intro productId
    change (sortDescending ["20260101_000000"]).take 1 = _
    decide +kernel
  have hactive' : ∀ productId,
      activeRuns keepOneRun midnightRunWithStray productId = ["20260101_000000"] := by
    intro productId
    change (sortDescending ["0tmp", "20260101_000000"]).take 1 = _
    decide +kernel
  have hscored : ∀ s : WrfStep, s.initTag ∈ ["20260101_000000"] → s.fxxx ∈ ["F000"] →
      Scored keepOneRun s := by
    intro s hrun hstep
    rw [Scored, List.mem_singleton.mp hrun, List.mem_singleton.mp hstep]
    decide +kernel
  refine (strays_undisturbed_iff keepOneRun (World.initial 0) hstrays).mpr ⟨?_, ?_, ?_⟩
  · rintro s (⟨-, hrun, hstep, -⟩ | ⟨-, hrun, hstep, -⟩)
    · exact hscored s (hactive _ ▸ hrun) hstep
    · exact hscored s (hactive' _ ▸ hrun) hstep
  · intro productId hp run htag hne hout hkept
    rw [hactive'] at hout
    rw [hactive] at hkept
    exact absurd (hkept (by simp)) hout
  · intro productId hp run hrun htag hcopies
    rw [hactive'] at hrun
    obtain rfl := List.mem_singleton.mp hp
    obtain rfl := List.mem_singleton.mp hrun
    exact .inr ⟨"F000", by decide, by decide, by decide +kernel⟩

/-- The number of the stray step is not one, and the run that is not active stays in the index. -/
theorem stray_step_stops_cycle : ∃ w w₁ s,
    wrfStep keepOneRun (World.initial 0) (.cycle midnightRun) = some w ∧
    WithStrays noonRun noonRunWithStray ∧
    wrfStep keepOneRun w (.cycle noonRun) = some w₁ ∧
    getWrfInitRuns w₁ "t2m" = ["20260101_120000"] ∧
    wrfCycleOver keepOneRun w noonRunWithStray = some (.ok 1, s) ∧
    getWrfInitRuns s.world "t2m" = ["20260101_120000", "20260101_000000"] ∧
    ¬ TagsUndisturbed keepOneRun w noonRun noonRunWithStray := by
  have hfirst : ((wrfStep keepOneRun (World.initial 0) (.cycle midnightRun)).bind fun w =>
      (wrfStep keepOneRun w (.cycle noonRun)).map fun w₁ => getWrfInitRuns w₁ "t2m") =
      some ["20260101_120000"] := by decide +kernel
  have hsecond : ((wrfStep keepOneRun (World.initial 0) (.cycle midnightRun)).bind fun w =>
      (wrfCycleOver keepOneRun w noonRunWithStray).map fun p =>
        (p.1.toOption, getWrfInitRuns p.2.world "t2m")) =
      some (some 1, ["20260101_120000", "20260101_000000"]) := by decide +kernel
  obtain ⟨w, hw, hcycle⟩ := Option.bind_eq_some_iff.mp hfirst
  obtain ⟨w₁, hw₁, hruns₁⟩ := Option.map_eq_some_iff.mp hcycle
  rw [hw, Option.bind_some] at hsecond
  obtain ⟨s, hend', hruns⟩ := answered_of_view (c := WrfSync.syncWrf keepOneRun)
    (f := fun t : Site WrfTree => getWrfInitRuns t.world "t2m") hsecond
  have hend : wrfCycleOver keepOneRun w noonRunWithStray = some (.ok 1, s) := hend'
  have hstrays : WithStrays noonRun noonRunWithStray := by
    refine ⟨rfl, fun _ => List.Subset.refl _, fun _ run hrun hnot => absurd hrun hnot,
      fun _ _ _ => ?_, fun _ _ _ fxxx hstep hstray => ?_, fun _ _ _ fxxx hstep => ?_, rfl⟩
    · change ["F000"] ⊆ ["F000", "Ftmp"]
      simp
    · change fxxx ∈ ["F000", "Ftmp"] at hstep
      change fxxx ∉ ["F000"] at hstray
      obtain rfl : fxxx = "Ftmp" := by simp_all
      decide
    · change fxxx ∈ ["F000"] at hstep
      obtain rfl := List.mem_singleton.mp hstep
      change ["F000" ++ "/3/1/2.webp"] = ["F000/3/1/2.webp"]
      decide
  refine ⟨w, w₁, s, hw, hstrays, hw₁, hruns₁, hend, hruns, ?_⟩
  rintro ⟨_, w₂, _, hcycle₂, _⟩
  simp [wrfStep, hend] at hcycle₂

end DataService.Sync
