import DataService.Basemap.StampSoundness

/-! What lies before a persisted cursor. The watermark moves over skipped tiles too,
and these are not queued: the cursor invariant holds as long as no tile is skipped
that has neither a failed row nor an answer. -/

namespace DataService

/-- Every tile before the cursor row was stored, was answered as missing, or is queued. -/
def CursorCovered (cfg : ScrapeConfig) (w : World) : Prop :=
  ∀ c, w.rows.cursor = some c → ∀ t ∈ passedTiles cfg.provider.minZoom cfg.bbox c,
    .outcome t .ok ∈ sweepEvents w.log ∨ .outcome t .missing ∈ sweepEvents w.log ∨
      t ∈ w.rows.failed

/-- In every run in which each skipped tile that was folded had a failed row or an OK or
MISSING answer by then, every persisted cursor has only such tiles before it. -/
theorem cursor_covered_of_skipsKnown {cfg : ScrapeConfig} {s : ScraperState}
    (h : ScraperReachable cfg s) (hk : SkipsKnown s.world.log) : CursorCovered cfg s.world := by
  intro c hc t ht
  have ha := ((good_of_reachable h).cursor c hc).2 hk t ht
  rcases accountedFor_iff.mp ha with hf | ho | hm
  · exact .inr (.inr hf)
  · exact .inl ho
  · exact .inr (.inl hm)

/-- The upload of the zoom 3 tile fails; the tile is queued and the cursor moves on. -/
theorem cursor_covered_of_skipsKnown_queued : ∃ s, ScraperReachable singleTileConfig s ∧
    s.world.rows.cursor = some ⟨4, 0⟩ ∧ CursorCovered singleTileConfig s.world := by
  obtain ⟨s, hs, hc, hk⟩ := reachable_of_run_any singleTileConfig firstBoot
    (forgottenFailureRun.take 11) (fun w => w.rows.cursor = some ⟨4, 0⟩ ∧
      ∀ e ∈ w.log, e.isUnknownSkip = false) (by decide)
  exact ⟨s, hs, hc, cursor_covered_of_skipsKnown hs hk⟩

/-- The S3 circuit after ten failed uploads of another provider. -/
def openedCircuit : StorageCircuit :=
  (fun c : StorageCircuit => (c.recordFailure 0).1)^[10] (.new .default)

/-- Another provider opens the S3 circuit while the task of the zoom 3 tile is about to
start: the tile is skipped, counted as done and left out of the failed table. -/
def skippedRun : List Action :=
  [.begin, .resume .ok, .resume .ok, .resume .ok, .resume (.rows []),
    .env { firstBoot with s3Circuit := openedCircuit }, .tile 0 .start, .resume .ok, .resume .ok]

/-- The cursor passes a tile that was never attempted and has no failed row. -/
theorem cursor_passes_skipped_tile :
    ¬ ∀ cfg s, ScraperReachable cfg s → CursorCovered cfg s.world := by
  intro h
  obtain ⟨s, hs, hc, ho, hm, hf⟩ := reachable_of_run_any singleTileConfig firstBoot
    skippedRun (fun w => w.rows.cursor = some ⟨4, 0⟩ ∧
      .outcome ⟨3, 0, 0⟩ .ok ∉ sweepEvents w.log ∧ .outcome ⟨3, 0, 0⟩ .missing ∉ sweepEvents w.log ∧
      ⟨3, 0, 0⟩ ∉ w.rows.failed) (by decide)
  have hp : (⟨3, 0, 0⟩ : Tile) ∈ passedTiles singleTileConfig.provider.minZoom
      singleTileConfig.bbox ⟨4, 0⟩ := by decide
  rcases h singleTileConfig s hs ⟨4, 0⟩ hc ⟨3, 0, 0⟩ hp with hh | hh | hh
  · exact ho hh
  · exact hm hh
  · exact hf hh

end DataService
