import DataService.Basemap.FailedQueue

/-! Whether a completed cycle asked the provider for anything. A sweep that stops on
the last tiles of its last zoom leaves a cursor with nothing ahead of it; the next
cycle then has no work, completes at once and closes the circuit. -/

namespace DataService

/-- A sweep tripped or was abandoned and no later cycle has closed the circuit. -/
def Interrupted (log : List Event) : Prop :=
  ∃ e ∈ log.takeWhile (fun e => decide (e ≠ .closed)), e = .tripped ∨ e = .abandoned

/-- The cycle of this log asked the provider for a tile. -/
def Contacted (log : List Event) : Prop := ∃ t, .fetch t ∈ cycleEvents log

/-- When the cycle of this log began, a tile lay ahead of its cursor or a failed row at
one of the zooms it would visit. -/
def HasWork (cfg : ScrapeConfig) (log : List Event) : Prop :=
  ∀ c q before, log = cycleEvents log ++ .cycleStart c q :: before →
    scheduledTiles cfg ⟨c, q, before⟩ ≠ []

/-- A completed cycle has asked for every tile of its work, and for no other. -/
theorem CompletedCycle.fetched_iff {cfg : ScrapeConfig} {o : Origin} {log : List Event} {t : Tile}
    (h : CompletedCycle cfg o log) : .fetch t ∈ cycleEvents log ↔ t ∈ scheduledTiles cfg o := by
  constructor
  · exact fun hf => h.attempted_iff.mp (h.events.fetch_attempt t hf)
  · intro ht
    obtain ⟨oc, ho⟩ := h.answered t ht
    rcases h.events.outcome_fetch t oc ho with rfl | hf
    · exact absurd (h.stored t _ ho) (by decide)
    · exact hf

theorem CompletedCycle.contacted_iff {cfg : ScrapeConfig} {o : Origin} {log : List Event}
    (h : CompletedCycle cfg o log) : Contacted log ↔ HasWork cfg log := by
  constructor
  · rintro ⟨t, ht⟩ c q before hl
    rw [h.origin_eq hl] at h
    exact List.ne_nil_of_mem (h.fetched_iff.mp ht)
  · intro hw
    obtain ⟨t, ht⟩ := List.exists_mem_of_ne_nil _ (hw o.cursor o.queue o.before h.began)
    exact ⟨t, h.fetched_iff.mpr ht⟩

/-- At every completed cycle that follows an interruption, in every run: the provider was
asked for a tile in that cycle iff the cycle began with work to do. -/
theorem contact_iff_work {cfg : ScrapeConfig} {s : ScraperState} {l₁ l₂ : List Event}
    (h : ScraperReachable cfg s) (hl : s.world.log = l₁ ++ .closed :: l₂) :
    (Interrupted l₂ → Contacted l₂) ↔ (Interrupted l₂ → HasWork cfg l₂) := by
  obtain ⟨o, hc⟩ := (good_of_reachable h).verdicts l₁ .closed l₂ hl rfl
  rw [hc.contacted_iff]

/-- One tile at zoom 3 and no other zoom, and a breaker that judges single fetches. -/
def strictConfig : ScrapeConfig :=
  { singleTileConfig with
    settings :=
      { singleTileConfig.settings with
        errorRateMinSamples := 1
        minSamples_pos := by decide
        minSamples_le_window := by decide }
    provider := ⟨0, 0, 3, 3⟩ }

/-- Two tiles at zoom 3, under the same breaker. -/
def strictTwoTileConfig : ScrapeConfig := { strictConfig with bbox := twoTileConfig.bbox }

/-- From the trip on: its rows are written and the cooldown passes. -/
def afterTrip : List Action :=
  [.resume .ok, .resume .ok, .env { firstBoot with wall := 2000 }, .begin, .resume .ok, .resume .ok]

/-- The first of two tiles trips the breaker; after the cooldown the rest is swept. -/
def recoveredRun : List Action :=
  [Action.begin, .resume .ok, .resume .ok, .resume .ok, .resume (.rows [])] ++ failTile ++
  [Action.resume .ok, .resume .ok, .resume .ok, .resume .ok, .resume (.rows [⟨3, 0, 0⟩])] ++
  afterTrip ++ [Action.resume (.rows [⟨3, 0, 0⟩])] ++ storeTile true ++
  [Action.resume .ok, .resume .ok] ++ storeTile true ++
  [Action.resume .ok, .resume .ok, .resume (.rows []), .resume .ok, .resume .ok, .resume .ok,
    .resume .ok, .resume .ok]

/-- The only tile trips the breaker; the cursor already points past the last zoom. -/
def emptyRecoveryRun : List Action :=
  [Action.begin, .resume .ok, .resume .ok, .resume .ok, .resume (.rows [])] ++ failTile ++
  [Action.resume .ok, .resume .ok, .resume .ok, .resume (.rows [⟨3, 0, 0⟩])] ++ afterTrip ++
  [Action.resume .ok, .resume .ok, .resume .ok, .resume .ok]

instance (log : List Event) : Decidable (Interrupted log) :=
  inferInstanceAs (Decidable (∃ e ∈ log.takeWhile (fun e => decide (e ≠ .closed)),
    e = .tripped ∨ e = .abandoned))

def Event.isFetch : Event → Bool
  | .fetch _ => true
  | _ => false

theorem contact_iff_work_recovered : ∃ s l, ScraperReachable strictTwoTileConfig s ∧
    s.world.log = .closed :: l ∧ Interrupted l ∧ HasWork strictTwoTileConfig l := by
  obtain ⟨s, hs, hl, hi, hf⟩ := reachable_of_run_any strictTwoTileConfig
    firstBoot recoveredRun (fun w => w.log = .closed :: w.log.tail ∧
      Interrupted w.log.tail ∧ .fetch ⟨3, 0, 1⟩ ∈ cycleEvents w.log.tail) (by decide)
  have hl' : s.world.log = [] ++ .closed :: s.world.log.tail := hl
  exact ⟨s, _, hs, hl, hi, (contact_iff_work hs hl').mp (fun _ => ⟨_, hf⟩) hi⟩

/-- A tripped provider is declared recovered by a cycle that asked it for nothing. -/
theorem recovery_without_contact : ¬ ∀ cfg s l₁ l₂, ScraperReachable cfg s →
    s.world.log = l₁ ++ .closed :: l₂ → Interrupted l₂ → Contacted l₂ := by
  intro h
  obtain ⟨s, hs, hl, hi, hn⟩ := reachable_of_run_any strictConfig firstBoot
    emptyRecoveryRun (fun w => w.log = .closed :: w.log.tail ∧
      Interrupted w.log.tail ∧ (cycleEvents w.log.tail).all (!·.isFetch) = true) (by decide)
  obtain ⟨t, ht⟩ := h strictConfig s [] _ hs hl hi
  simpa [Event.isFetch] using List.all_eq_true.mp hn _ ht

end DataService
