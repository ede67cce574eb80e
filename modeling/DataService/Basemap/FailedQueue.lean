import DataService.Basemap.CursorInvariant

/-! Failed rows are retried zoom by zoom, and only at the zooms a cycle still visits;
the completed sweep drops all of them. A row below the zoom of the cursor is gone
without a retry, unless an earlier cycle of the sweep made one. -/

namespace DataService

/-- Every row that a resumed cycle of this sweep found was attempted after it was queued. -/
def QueueRetried (log : List Event) : Prop :=
  ∀ m c q before, log = m ++ .cycleStart (some c) q :: before →
    (∀ q', .cycleStart none q' ∉ m) →
    ∀ t ∈ q, .attempt t ∈ m ∨ retriedSince before t = true

/-- If the cycle of this log resumed, the rows it found below the zoom of its cursor had
been attempted after they were queued. -/
def LowRowsRetried (log : List Event) : Prop :=
  ∀ c q before, log = cycleEvents log ++ .cycleStart (some c) q :: before →
    ∀ t ∈ q, t.zoom < c.zoom → retriedSince before t = true

/-- A row at or above the zoom of the cursor is work of the cycle, one below is not. -/
theorem Origin.queued_scheduled_iff {cfg : ScrapeConfig} {o : Origin} {c : Cursor} {t : Tile}
    (ho : OriginOk cfg o) (hc : o.cursor = some c) (ht : t ∈ o.queue) :
    t ∈ scheduledTiles cfg o ↔ c.zoom ≤ t.zoom := by
  have hs : o.start cfg = c := by simp [Origin.start, hc]
  have hmax := (mem_sweepTiles.mp (ho.queue_mem t ht)).2.1
  rw [mem_scheduledTiles, hs]
  constructor
  · rintro (ha | ⟨_, hlo, _⟩)
    · rcases (mem_aheadTiles.mp ha).2 with ⟨hlt, _⟩ | hd
      · exact Nat.le_of_lt hlt
      · exact Nat.le_of_eq (zoom_of_mem_iterTiles (List.mem_of_mem_drop hd)).symm
    · exact hlo
  · exact fun hlo => .inr ⟨ht, hlo, hmax⟩

theorem CompletedCycle.attempted_iff {cfg : ScrapeConfig} {o : Origin} {log : List Event} {t : Tile}
    (h : CompletedCycle cfg o log) : .attempt t ∈ cycleEvents log ↔ t ∈ scheduledTiles cfg o := by
  refine ⟨h.events.attempt_mem t, fun ht => ?_⟩
  obtain ⟨oc, ho⟩ := h.answered t ht
  exact h.events.outcome_attempt t oc ho

/-- What was found before the current cycle was attempted, or is among its own rows. -/
theorem CompletedCycle.queueRetried_iff {cfg : ScrapeConfig} {o : Origin} {log : List Event}
    (h : CompletedCycle cfg o log) : QueueRetried log ↔ LowRowsRetried log := by
  have hcycle : ∀ e ∈ cycleEvents log, e.isCycleStart = false :=
    fun e he => not_isCycleStart_of_mem he
  constructor
  · intro hq c q before hl t ht hlt
    obtain rfl := h.origin_eq hl
    have hfresh : ∀ q', .cycleStart none q' ∉ cycleEvents log :=
      fun q' hm => by simpa [Event.isCycleStart] using hcycle _ hm
    rcases hq _ c q before hl hfresh t ht with ha | hr
    · have hs := (Origin.queued_scheduled_iff h.origin rfl ht).mp (h.attempted_iff.mp ha)
      omega
    · exact hr
  · intro hlow m c q before hl hfresh t ht
    rcases cycleStart_split h.began hcycle hl rfl with ⟨rfl, he, rfl⟩ | ⟨m', rfl, hb⟩
    · -- the rows of the current cycle itself
      have ho := h.origin_eq hl
      have hc : o.cursor = some c := by rw [ho]
      have hq : t ∈ o.queue := by rw [ho]; exact ht
      by_cases hz : c.zoom ≤ t.zoom
      · exact .inl (h.attempted_iff.mpr ((Origin.queued_scheduled_iff h.origin hc hq).mpr hz))
      · exact .inr (hlow c q o.before hl t ht (by omega))
    · -- an earlier cycle of the sweep: attempted since, or still a row of this one
      cases hc : o.cursor with
      | none => exact absurd (by simp [Origin.event, hc]) (hfresh o.queue)
      | some d =>
        have hfresh' : ∀ q', .cycleStart none q' ∉ m' :=
          fun q' hq' => hfresh q' (List.mem_append_right _ (List.mem_cons_of_mem _ hq'))
        have hbegan : log = cycleEvents log ++ .cycleStart (some d) o.queue :: o.before := by
          rw [← hc]
          exact h.began
        rcases h.origin.lineage (by simp [hc]) m' c q before hb hfresh' t ht with hk | ha | hr
        · by_cases hz : d.zoom ≤ t.zoom
          · have ha := h.attempted_iff.mpr
              ((Origin.queued_scheduled_iff h.origin hc hk).mpr hz)
            exact .inl (List.mem_append_left _ ha)
          · have hr := hlow d o.queue o.before hbegan t hk (by omega)
            rw [hb] at hr
            rcases attempt_or_retriedSince hr with ha | hr
            · exact .inl (List.mem_append_right _ (List.mem_cons_of_mem _ ha))
            · exact .inr hr
        · exact .inl (List.mem_append_right _ (List.mem_cons_of_mem _ ha))
        · exact .inr hr

/-- At every completed sweep, in every run: the rows found by its resumed cycles were
retried iff those below the cursor of the last cycle had been when it began. -/
theorem queue_retried_iff_low_rows {cfg : ScrapeConfig} {s : ScraperState} {l₁ l₂ : List Event}
    (h : ScraperReachable cfg s) (hl : s.world.log = l₁ ++ .stamped :: l₂) :
    QueueRetried l₂ ↔ LowRowsRetried l₂ := by
  obtain ⟨o, hc⟩ := (good_of_reachable h).verdicts l₁ .stamped l₂ hl rfl
  exact hc.queueRetried_iff

/-- The only tile in flight is answered by an unavailable provider. -/
def failTile : List Action := [.tile 0 .start, .tile 0 (.http .unavailable)]

/-- Two tiles at zoom 3 and no other zoom. -/
def twoTileConfig : ScrapeConfig :=
  { singleTileConfig with
    provider := ⟨0, 0, 3, 3⟩
    bbox := { singleTileConfig.bbox with latMinY := fun _ => 1 } }

/-- The first of two tiles fails and the cycle is cancelled; the next one resumes at the
second tile, tries the row of the first again and completes. -/
def retriedRowRun : List Action :=
  [Action.begin, .resume .ok, .resume .ok, .resume .ok, .resume (.rows [])] ++ failTile ++
  [Action.resume .ok, .resume .ok, .resume (.raised .cancelled false), .resume .ok, .resume .ok,
    .begin, .resume .ok, .resume .ok, .resume (.rows [⟨3, 0, 0⟩])] ++ storeTile true ++
  [Action.resume .ok, .resume .ok] ++ storeTile true ++
  [Action.resume .ok, .resume .ok, .resume (.rows []), .resume .ok, .resume .ok, .resume .ok]

theorem lowRowsRetried_of_start {log before : List Event} {c : Cursor} {q : List Tile}
    (hl : log = cycleEvents log ++ .cycleStart (some c) q :: before)
    (h : ∀ t ∈ q, t.zoom < c.zoom → retriedSince before t = true) : LowRowsRetried log := by
  intro c' q' before' hl' t ht hlt
  have he := List.append_cancel_left (hl.symm.trans hl')
  simp only [List.cons.injEq, Event.cycleStart.injEq, Option.some.injEq] at he
  obtain ⟨⟨rfl, rfl⟩, rfl⟩ := he
  exact h t ht hlt

theorem queue_retried_iff_low_rows_retried : ∃ s l, ScraperReachable twoTileConfig s ∧
    s.world.log = .stamped :: l ∧ QueueRetried l := by
  obtain ⟨s, hs, hl, hb⟩ := reachable_of_run_any twoTileConfig firstBoot
    retriedRowRun (fun w => w.log = .stamped :: w.log.tail ∧
      w.log.tail = cycleEvents w.log.tail ++ .cycleStart (some ⟨3, 1⟩) [⟨3, 0, 0⟩] ::
        (w.log.tail.dropWhile (!·.isCycleStart)).tail) (by decide)
  have hl' : s.world.log = [] ++ .stamped :: s.world.log.tail := hl
  refine ⟨s, _, hs, hl, (queue_retried_iff_low_rows hs hl').mpr ?_⟩
  refine lowRowsRetried_of_start hb fun t ht hlt => ?_
  rw [List.mem_singleton.mp ht] at hlt
  exact absurd hlt (by decide)

/-- The zoom 3 tile fails and is queued, the cursor moves to zoom 4 and the process is
restarted; the next cycle visits zoom 4 only and completes. -/
def droppedRowRun : List Action :=
  [Action.begin, .resume .ok, .resume .ok, .resume .ok, .resume (.rows [])] ++ failTile ++
  [Action.resume .ok, .resume .ok, .resume .ok, .resume (.rows [⟨3, 0, 0⟩]), .kill,
    .begin, .resume .ok, .resume .ok, .resume (.rows [])] ++ storeTile true ++
  [Action.resume .ok, .resume .ok, .resume (.rows []), .resume .ok, .resume .ok, .resume .ok]

/-- A queued tile is dropped by the completed sweep without ever being tried again. -/
theorem failed_row_dropped : ¬ ∀ cfg s l₁ l₂, ScraperReachable cfg s →
    s.world.log = l₁ ++ .stamped :: l₂ → QueueRetried l₂ := by
  intro h
  obtain ⟨s, hs, hl, hb, ha, hr⟩ := reachable_of_run_any singleTileConfig
    firstBoot droppedRowRun (fun w => w.log = .stamped :: w.log.tail ∧
      w.log.tail = cycleEvents w.log.tail ++ .cycleStart (some ⟨4, 0⟩) [⟨3, 0, 0⟩] ::
        (w.log.tail.dropWhile (!·.isCycleStart)).tail ∧
      .attempt ⟨3, 0, 0⟩ ∉ cycleEvents w.log.tail ∧
      ¬ retriedSince (w.log.tail.dropWhile (!·.isCycleStart)).tail ⟨3, 0, 0⟩ = true) (by decide)
  have hfresh : ∀ q', .cycleStart none q' ∉ cycleEvents s.world.log.tail :=
    fun q' hm => by simpa [Event.isCycleStart] using not_isCycleStart_of_mem hm
  rcases h singleTileConfig s [] _ hs hl _ _ _ _ hb hfresh ⟨3, 0, 0⟩ (by simp) with hh | hh
  · exact ha hh
  · exact hr hh

end DataService
