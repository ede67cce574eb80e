import DataService.Basemap.Runs

/-! When a stamp is sound. `storage_errors` lives in memory, so a cycle that resumes
knows nothing of the storage failures before its cursor; only the failed rows of the
zoom at which it resumes are tried again. -/

namespace DataService

/-- No tile has a storage failure as its last outcome since the sweep was started. -/
def StampSound (cfg : ScrapeConfig) (log : List Event) : Prop :=
  ∀ t ∈ sweepTiles cfg, storageFailed (sweepEvents log) t = false

/-- If the cycle of this log resumed, every tile before its cursor whose last outcome
was a storage failure had a failed row, at the very zoom of the cursor. -/
def ResumeCovers (cfg : ScrapeConfig) (log : List Event) : Prop :=
  ∀ c q before, log = cycleEvents log ++ .cycleStart (some c) q :: before →
    ∀ t ∈ sweepTiles cfg, t ∈ passedTiles cfg.provider.minZoom cfg.bbox c →
      storageFailed (sweepEvents before) t = true → t ∈ q ∧ t.zoom = c.zoom

instance (cfg : ScrapeConfig) (log : List Event) : Decidable (StampSound cfg log) :=
  inferInstanceAs (Decidable (∀ t ∈ sweepTiles cfg, storageFailed (sweepEvents log) t = false))

theorem sweepEvents_of_resumed {c : Cursor} {q : List Tile} {log before : List Event}
    (h : log = cycleEvents log ++ .cycleStart (some c) q :: before) :
    sweepEvents log = cycleEvents log ++ .cycleStart (some c) q :: sweepEvents before := by
  conv_lhs => rw [h]
  rw [sweepEvents_append fun e he =>
    isSweepStart_of_not_isCycleStart (not_isCycleStart_of_mem he), sweepEvents_resumed]

theorem sweepEvents_of_fresh {q : List Tile} {log before : List Event}
    (h : log = cycleEvents log ++ .cycleStart none q :: before) :
    sweepEvents log = cycleEvents log := by
  conv_lhs => rw [h]
  rw [sweepEvents_append fun e he =>
    isSweepStart_of_not_isCycleStart (not_isCycleStart_of_mem he), sweepEvents_fresh,
    List.append_nil]

theorem lastOutcome_start_cons (c : Option Cursor) (q : List Tile) (log : List Event) (t : Tile) :
    lastOutcome (.cycleStart c q :: log) t = lastOutcome log t := rfl

/-- A passed tile is tried again only through a failed row of the cursor's own zoom. -/
theorem Origin.passed_scheduled_iff {cfg : ScrapeConfig} {o : Origin} {c : Cursor} {t : Tile}
    (hc : o.cursor = some c) (ht : t ∈ sweepTiles cfg)
    (hp : t ∈ passedTiles cfg.provider.minZoom cfg.bbox c) :
    t ∈ scheduledTiles cfg o ↔ t ∈ o.queue ∧ t.zoom = c.zoom := by
  have hs : o.start cfg = c := by simp [Origin.start, hc]
  have hle : t.zoom ≤ c.zoom := by
    rcases mem_passedTiles.mp hp with hb | hm
    · omega
    · exact Nat.le_of_eq (zoom_of_mem_iterTiles (List.mem_of_mem_take hm))
  have hmax := (mem_sweepTiles.mp ht).2.1
  rw [mem_scheduledTiles, hs, or_iff_right (not_ahead_of_passed hp)]
  constructor
  · rintro ⟨hq, hlo, _⟩
    exact ⟨hq, by omega⟩
  · rintro ⟨hq, he⟩
    exact ⟨hq, by omega, hmax⟩

namespace CompletedCycle

variable {cfg : ScrapeConfig} {o : Origin} {log : List Event}

theorem outcome_scheduled (h : CompletedCycle cfg o log) {t : Tile} {oc : TileOutcome}
    (ho : .outcome t oc ∈ cycleEvents log) : t ∈ scheduledTiles cfg o :=
  h.events.attempt_mem t (h.events.outcome_attempt t oc ho)

theorem cycle_not_storageFailed (h : CompletedCycle cfg o log) (t : Tile) :
    storageFailed (cycleEvents log) t = false := by
  unfold storageFailed
  cases hl : lastOutcome (cycleEvents log) t with
  | none => rfl
  | some oc => exact h.stored t oc (mem_of_lastOutcome hl)

theorem lastOutcome_isSome (h : CompletedCycle cfg o log) {t : Tile}
    (ht : t ∈ scheduledTiles cfg o) : (lastOutcome (cycleEvents log) t).isSome := by
  obtain ⟨oc, ho⟩ := h.answered t ht
  exact lastOutcome_isSome_of_mem ho

theorem lastOutcome_eq_none (h : CompletedCycle cfg o log) {t : Tile}
    (ht : t ∉ scheduledTiles cfg o) : lastOutcome (cycleEvents log) t = none := by
  cases hl : lastOutcome (cycleEvents log) t with
  | none => rfl
  | some oc => exact absurd (h.outcome_scheduled (mem_of_lastOutcome hl)) ht

theorem origin_eq (h : CompletedCycle cfg o log) {c : Option Cursor} {q : List Tile}
    {before : List Event} (hl : log = cycleEvents log ++ .cycleStart c q :: before) :
    o = ⟨c, q, before⟩ := by
  have hh := List.append_cancel_left (h.began.symm.trans hl)
  simp only [Origin.event, List.cons.injEq, Event.cycleStart.injEq] at hh
  obtain ⟨⟨rfl, rfl⟩, rfl⟩ := hh
  rfl

/-- The last outcome of a tile after a completed cycle that resumed. -/
theorem storageFailed_resumed (h : CompletedCycle cfg o log) {c : Cursor} (hc : o.cursor = some c)
    (t : Tile) : storageFailed (sweepEvents log) t = true ↔
      t ∉ scheduledTiles cfg o ∧ storageFailed (sweepEvents o.before) t = true := by
  have hb : log = cycleEvents log ++ .cycleStart (some c) o.queue :: o.before := by
    rw [← hc]
    exact h.began
  simp only [storageFailed, sweepEvents_of_resumed hb, lastOutcome_append, lastOutcome_start_cons]
  by_cases ht : t ∈ scheduledTiles cfg o
  · obtain ⟨oc, ho⟩ := Option.isSome_iff_exists.mp (h.lastOutcome_isSome ht)
    simp [ht, ho, h.stored t oc (mem_of_lastOutcome ho)]
  · simp [ht, h.lastOutcome_eq_none ht]

theorem stampSound_iff (h : CompletedCycle cfg o log) :
    StampSound cfg log ↔ ResumeCovers cfg log := by
  constructor
  · intro hs c q before hl t ht hp hf
    obtain rfl := h.origin_eq hl
    by_contra hn
    have hns := mt (Origin.passed_scheduled_iff (o := ⟨some c, q, before⟩) rfl ht hp).mp hn
    have hfail := (h.storageFailed_resumed rfl t).mpr ⟨hns, hf⟩
    simp [hs t ht] at hfail
  · intro hr t ht
    cases hc : o.cursor with
    | none =>
      have hb : log = cycleEvents log ++ .cycleStart none o.queue :: o.before := by
        rw [← hc]
        exact h.began
      rw [sweepEvents_of_fresh hb]
      exact h.cycle_not_storageFailed t
    | some c =>
      by_contra hn
      obtain ⟨hns, hf⟩ := (h.storageFailed_resumed hc t).mp (by simpa using hn)
      have hs : o.start cfg = c := by simp [Origin.start, hc]
      obtain ⟨hmin, hmax, hi⟩ := mem_sweepTiles.mp ht
      rcases passed_or_ahead c hmin hmax hi with hp | ha
      · refine hns ((Origin.passed_scheduled_iff hc ht hp).mpr ?_)
        exact hr c o.queue o.before (by rw [← hc]; exact h.began) t ht hp hf
      · exact hns (mem_scheduledTiles.mpr (.inl (hs ▸ ha)))

end CompletedCycle

/-- At every call of `set_last_completed`, in every run: the stamp is sound iff the
failed rows covered the storage failures before the cursor when the cycle began. -/
theorem stamp_sound_iff_resume_covers {cfg : ScrapeConfig} {s : ScraperState} {l₁ l₂ : List Event}
    (h : ScraperReachable cfg s) (hl : s.world.log = l₁ ++ .stamped :: l₂) :
    StampSound cfg l₂ ↔ ResumeCovers cfg l₂ := by
  obtain ⟨o, hc⟩ := (good_of_reachable h).verdicts l₁ .stamped l₂ hl rfl
  exact hc.stampSound_iff

/-- One tile at every zoom from 3 to 4, with the default settings. -/
def singleTileConfig : ScrapeConfig where
  settings :=
    { cacheMaxZoom := 11, scrapeInterval := 604800, checkpointEvery := 200,
      checkpointMillis := 5000, fanoutWindow := 500, errorRateThreshold := ⟨5, 100, by decide⟩,
      errorRateMinSamples := 50, errorRateWindow := 200,
      cooldownSchedule := [300, 900, 3600, 10800, 21600], minSamples_pos := by decide,
      minSamples_le_window := by decide }
  provider := ⟨0, 0, 3, 4⟩
  bbox := ⟨fun _ => 0, fun _ => 0, fun _ => 0, fun _ => 0⟩

def firstBoot : Shared := .boot 0 1000 false

/-- The only tile in flight is uploaded, or its upload fails. -/
def storeTile (uploaded : Bool) : List Action :=
  [Action.tile 0 .start, .tile 0 (.http .bytes), .tile 0 (.s3 uploaded)] ++
    if uploaded then [Action.tile 0 (.redis .ok)] else []

/-- Both tiles are stored by one cycle. -/
def cleanRun : List Action :=
  [Action.begin, .resume .ok, .resume .ok, .resume .ok, .resume (.rows [])] ++ storeTile true ++
  [Action.resume .ok, .resume .ok, .resume (.rows []), .resume .ok, .resume (.rows [])] ++
  storeTile true ++
  [Action.resume .ok, .resume .ok, .resume (.rows []), .resume .ok, .resume .ok, .resume .ok]

/-- The upload of the zoom 3 tile fails, the cursor moves to zoom 4 and the process is
restarted; the next cycle resumes there, stores the zoom 4 tile and completes. -/
def forgottenFailureRun : List Action :=
  [Action.begin, .resume .ok, .resume .ok, .resume .ok, .resume (.rows [])] ++ storeTile false ++
  [Action.resume .ok, .resume .ok, .resume .ok, .resume (.rows [⟨3, 0, 0⟩]), .kill,
    .begin, .resume .ok, .resume .ok, .resume (.rows [])] ++ storeTile true ++
  [Action.resume .ok, .resume .ok, .resume (.rows []), .resume .ok, .resume .ok, .resume .ok]

theorem reachable_of_run_any (cfg : ScrapeConfig) (sh : Shared) (as : List Action)
    (P : World → Prop) [DecidablePred P]
    (h : (StepSystem.run (scraperStep cfg) (.initial sh) as).any (fun s => P s.world) = true) :
    ∃ s, ScraperReachable cfg s ∧ P s.world := by
  obtain ⟨s, hs, hp⟩ := (Option.any_eq_true _ _).mp h
  exact ⟨s, ⟨sh, as, hs⟩, of_decide_eq_true hp⟩

theorem stamp_sound_iff_resume_covers_clean : ∃ s l, ScraperReachable singleTileConfig s ∧
    s.world.log = .stamped :: l ∧ StampSound singleTileConfig l ∧
      ResumeCovers singleTileConfig l := by
  obtain ⟨s, hs, hl, hsound⟩ := reachable_of_run_any singleTileConfig firstBoot cleanRun
    (fun w => w.log = .stamped :: w.log.tail ∧ StampSound singleTileConfig w.log.tail) (by decide)
  have hl' : s.world.log = [] ++ .stamped :: s.world.log.tail := hl
  exact ⟨s, _, hs, hl, hsound, (stamp_sound_iff_resume_covers hs hl').mp hsound⟩

/-- A resumed sweep stamps over a tile that was never stored. -/
theorem stamp_over_storage_failure : ¬ ∀ cfg s l₁ l₂, ScraperReachable cfg s →
    s.world.log = l₁ ++ .stamped :: l₂ → StampSound cfg l₂ := by
  intro h
  obtain ⟨s, hs, hl, hunsound⟩ := reachable_of_run_any singleTileConfig firstBoot
    forgottenFailureRun (fun w => w.log = .stamped :: w.log.tail ∧
      ¬ StampSound singleTileConfig w.log.tail) (by decide)
  exact hunsound (h singleTileConfig s [] _ hs hl)

end DataService
