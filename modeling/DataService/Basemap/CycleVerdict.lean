import DataService.Basemap.CycleTally

/-! The end of a cycle: which of its exits writes the health row, with what, and which
statistics are stored, as a function of the outcomes it collected. -/

namespace DataService

open Coroutine Coro CycleJournal

/-- The trip counter after a trip: a cycle that collected a stored tile starts over. -/
def tripsAfter (before : Option ProviderHealth) (outcomes : List TileOutcome) : Nat :=
  if .ok ∈ outcomes then 1 else (before.map (·.consecutiveTrips)).getD 0 + 1

/-- No outcome was a failure to store. -/
def CleanSweep (outcomes : List TileOutcome) : Prop :=
  ∀ o ∈ outcomes, o.isStorageFailure = false

instance (outcomes : List TileOutcome) : Decidable (CleanSweep outcomes) :=
  inferInstanceAs (Decidable (∀ o ∈ outcomes, o.isStorageFailure = false))

/-- The row that a trip declared at time `t` leaves. -/
structure OpenedRow (cfg : ScrapeConfig) (before : Option ProviderHealth)
    (outcomes : List TileOutcome) (t : Nat) (row : ProviderHealth) : Prop where
  trips : row.consecutiveTrips = tripsAfter before outcomes
  cooldown : row.cooldownUntil =
    t + computeCooldown cfg.settings.cooldownSchedule (tripsAfter before outcomes)

/-- What the health row may be at any time of a cycle. -/
inductive HealthSoFar (cfg : ScrapeConfig) (before : Option ProviderHealth) (j : CycleJournal) :
    Option ProviderHealth → Prop
  | kept : HealthSoFar cfg before j before
  | opened {t : Nat} {row : ProviderHealth} : j.trippedAt = some t →
      OpenedRow cfg before j.outcomes t row → HealthSoFar cfg before j (some row)
  | closed : j.trippedAt = none → j.stamped = true → CleanSweep j.outcomes →
      HealthSoFar cfg before j none

/-- What the rows are when a cycle has returned. -/
structure Concluded (cfg : ScrapeConfig) (before : Option ProviderHealth)
    (stats : Option ScrapeStats) (w : World) (j : CycleJournal) : Prop where
  skipped : j.swept = false → j = .new ∧ w.rows.health = before ∧ w.rows.stats = stats
  tripped : ∀ t, j.trippedAt = some t →
    ∃ row, w.rows.health = some row ∧ OpenedRow cfg before j.outcomes t row
  abandoned : j.abandoned = true → j.trippedAt = none ∧ ¬ CleanSweep j.outcomes
  spared : j.trippedAt = none → ¬ CleanSweep j.outcomes → w.rows.health = before
  cleared : j.swept = true → j.trippedAt = none → CleanSweep j.outcomes →
    w.rows.health = none ∧ j.stamped = true
  counted : j.swept = true → ∃ row, w.rows.stats = some row ∧
    row.ok = j.outcomes.count .ok ∧ row.failed = j.outcomes.countP (· ≠ .ok) ∧
    row.attempted = row.ok + row.failed

theorem not_cleanSweep_iff {l : List TileOutcome} :
    ¬ CleanSweep l ↔ 0 < l.countP TileOutcome.isStorageFailure := by
  simp [CleanSweep, List.countP_pos_iff]

variable {cfg : ScrapeConfig} {before health : Option ProviderHealth} {stats : Option ScrapeStats}
  {d f : Nat} {l : List TileOutcome} {w : World} {j : CycleJournal}

/-- The rows and the sweep state are left alone by everything else. -/
theorem stable_health (health : Option ProviderHealth) : Stable fun w => w.rows.health = health :=
  stable_frame fun r _ _ => r.health = health

theorem Concluded.soFar (h : Concluded cfg before stats w j) :
    HealthSoFar cfg before j w.rows.health := by
  cases htrip : j.trippedAt with
  | some t =>
    obtain ⟨row, hrow, hopened⟩ := h.tripped t htrip
    rw [hrow]
    exact .opened htrip hopened
  | none =>
    by_cases hclean : CleanSweep j.outcomes
    · cases hswept : j.swept with
      | true =>
        obtain ⟨hnone, hstamped⟩ := h.cleared hswept htrip hclean
        rw [hnone]
        exact .closed htrip hstamped hclean
      | false =>
        rw [(h.skipped hswept).2.1]
        exact .kept
    · rw [h.spared htrip hclean]
      exact .kept

abbrev Concludes (cfg : ScrapeConfig) (before : Option ProviderHealth)
    (stats : Option ScrapeStats) (c : Code Unit) (w : World) (j : CycleJournal) : Prop :=
  Records note (fun u j => HealthSoFar cfg before j u.rows.health)
    (fun u j => HealthSoFar cfg before j u.rows.health)
    (fun _ u j => Concluded cfg before stats u j) c w j

theorem concludes_write {F : World → World} {k : Unit → Code Unit} (hw : w.rows.health = health)
    (hj : HealthSoFar cfg before j health) (hmem : ∀ u, (F u).mem = u.mem)
    (hF : ∀ u, (F u).rows.health = u.rows.health)
    (hk : ∀ u, u.rows.health = health → Concludes cfg before stats (k ()) u j) :
    Concludes cfg before stats (commit F >>= k) w j := by
  have hsofar : ∀ u : World, u.rows.health = health → HealthSoFar cfg before j u.rows.health := by
    rintro u rfl
    exact hj
  have hkept : ∀ u, u.rows.health = health → (F u).rows.health = health := fun u hu => (hF u).trans hu
  refine records_bind (Q := fun _ v i => i = j ∧ v.rows.health = health) (records_write hmem
    (stable_health health) hw hsofar (fun u hu => ⟨hsofar u hu, hsofar _ (hkept u hu)⟩)
    fun u hu => ⟨rfl, hkept u hu⟩) ?_
  rintro _ v i ⟨rfl, hv⟩
  exact hk v hv

/-- The last step of every exit: the two counts are stored. -/
theorem concludes_recordSweepStats {completed : Bool} (hw : w.rows.health = health)
    (hj : HealthSoFar cfg before j health) (hcounts : Tally d f j.outcomes)
    (hswept : j.swept = true)
    (htripped : ∀ t, j.trippedAt = some t →
      ∃ row, health = some row ∧ OpenedRow cfg before j.outcomes t row)
    (habandoned : j.abandoned = true → j.trippedAt = none ∧ ¬ CleanSweep j.outcomes)
    (hspared : j.trippedAt = none → ¬ CleanSweep j.outcomes → health = before)
    (hcleared : j.trippedAt = none → CleanSweep j.outcomes → health = none ∧ j.stamped = true) :
    Concludes cfg before stats (recordSweepStats d f completed) w j := by
  have hsofar : ∀ u : World, u.rows.health = health → HealthSoFar cfg before j u.rows.health := by
    rintro u rfl
    exact hj
  refine records_write (fun _ => rfl) (stable_health health) hw hsofar
    (fun u hu => ⟨hsofar u hu, hsofar u hu⟩) ?_
  rintro u rfl
  refine ⟨fun hn => by simp [hswept] at hn, htripped, habandoned, hspared,
    fun _ => hcleared, fun _ => ?_⟩
  exact ⟨_, rfl, hcounts.1, hcounts.2, by simp⟩

theorem Tally.trips (h : Tally d f l) (before : Option ProviderHealth) :
    (if 0 < d then 1 else (before.map (·.consecutiveTrips)).getD 0 + 1) = tripsAfter before l := by
  simp only [tripsAfter, h.1, List.count_pos_iff]

theorem concludes_finishTripped (h : Counted before stats d f l w) :
    Concludes cfg before stats (finishTripped cfg before d f) w (sweeping l) := by
  have hnote : note w none (w.record .tripped) (sweeping l) =
      { sweeping l with trippedAt := some w.shared.wall } := note_event (e := .tripped) rfl
  refine records_modify hnote (records_look (note_atom rfl) (records_look (note_atom rfl) ?_))
  rw [Tally.trips h.counts]
  have hopened : ∀ u : World, OpenedRow cfg before l w.shared.wall
      ⟨tripsAfter before l, w.shared.wall +
        computeCooldown cfg.settings.cooldownSchedule (tripsAfter before l),
        u.shared.wall, w.mem.sweep.lastReason⟩ := fun u => ⟨rfl, rfl⟩
  have hkept : ∀ (u : World) (i : CycleJournal), u.rows.health = before →
      HealthSoFar cfg before i u.rows.health := by
    rintro u i rfl
    exact .kept
  refine records_bind (Q := fun _ v i => i = { sweeping l with trippedAt := some w.shared.wall } ∧
    ∃ row, v.rows.health = some row ∧ OpenedRow cfg before l w.shared.wall row)
    (records_write (fun _ => rfl) (stable_health before) h.health (fun u hu => hkept u _ hu)
      (fun u hu => ⟨hkept u _ hu, .opened rfl (hopened u)⟩)
      fun u _ => ⟨rfl, _, rfl, hopened u⟩) ?_
  rintro _ v i ⟨rfl, row, hv, hrow⟩
  refine concludes_recordSweepStats hv (.opened rfl hrow) h.counts rfl ?_ ?_ ?_ ?_
  · rintro t ht
    cases ht
    exact ⟨row, rfl, hrow⟩
  · exact fun hn => by cases hn
  · exact fun hn => by cases hn
  · exact fun hn => by cases hn

theorem concludes_finishAbandonedSweep (h : Counted before stats d f l w)
    (hl : ¬ CleanSweep l) :
    Concludes cfg before stats (finishAbandonedSweep d f) w (sweeping l) := by
  have hnote : note w none ((w.record .abandoned).setShared
      { w.shared with storageRetryDue := true, storageDownThisCycle := true }) (sweeping l) =
        { sweeping l with abandoned := true } := note_event (e := .abandoned) rfl
  refine records_modify hnote ?_
  exact concludes_recordSweepStats h.health .kept h.counts rfl (fun _ ht => by cases ht)
    (fun _ => ⟨rfl, hl⟩) (fun _ _ => rfl) fun _ hclean => absurd hclean hl

theorem concludes_finishIncomplete (h : Counted before stats d f l w) (hl : ¬ CleanSweep l) :
    Concludes cfg before stats (finishIncomplete d f) w (sweeping l) := by
  refine concludes_write h.health .kept (fun _ => rfl) (fun _ => rfl) fun u hu => ?_
  refine records_modify (note_atom rfl) ?_
  exact concludes_recordSweepStats (j := sweeping l) hu .kept h.counts rfl (fun _ ht => by cases ht)
    (fun hn => by cases hn) (fun _ _ => rfl) fun _ hclean => absurd hclean hl

theorem concludes_finishCompleted (h : Counted before stats d f l w) (hl : CleanSweep l) :
    Concludes cfg before stats (finishCompleted d f) w (sweeping l) := by
  refine concludes_write h.health .kept (fun _ => rfl) (fun _ => rfl) fun u hu => ?_
  refine concludes_write hu .kept (fun _ => rfl) (fun _ => rfl) fun u hu => ?_
  have hnote : note u none (u.record .stamped) (sweeping l) = ⟨l, true, none, false, true⟩ :=
    note_event (e := .stamped) rfl
  refine records_modify hnote (records_look (note_atom rfl) ?_)
  refine concludes_write (j := ⟨l, true, none, false, true⟩) hu .kept (fun _ => rfl) (fun _ => rfl)
    fun u hu => ?_
  have hclosed : HealthSoFar cfg before ⟨l, true, none, false, true⟩ none := .closed rfl rfl hl
  have hkept : ∀ u : World, u.rows.health = before →
      HealthSoFar cfg before ⟨l, true, none, false, true⟩ u.rows.health := by
    rintro u rfl
    exact .kept
  refine records_bind (Q := fun _ v i => i = ⟨l, true, none, false, true⟩ ∧ v.rows.health = none)
    (records_write (fun _ => rfl) (stable_health before) hu hkept
      (fun u hu => ⟨hkept u hu, hclosed⟩) fun u _ => ⟨rfl, rfl⟩) ?_
  rintro _ v i ⟨rfl, hv⟩
  exact concludes_recordSweepStats hv hclosed h.counts rfl (fun _ ht => by cases ht)
    (fun hn => by cases hn) (fun _ hn => absurd hl hn) fun _ _ => ⟨rfl, rfl⟩

theorem concludes_finishSweep (h : Counted before stats d f l w) :
    Concludes cfg before stats (finishSweep cfg before d f) w (sweeping l) := by
  refine records_look (note_atom rfl) ?_
  have hdirty : 0 < w.mem.sweep.storageErrors → ¬ CleanSweep l := fun herr =>
    not_cleanSweep_iff.mpr (h.errors ▸ herr)
  split
  · exact concludes_finishTripped h
  · split
    · rename_i hab
      exact concludes_finishAbandonedSweep h (hdirty (h.abandoned hab))
    · split
      · rename_i herr
        exact concludes_finishIncomplete h (hdirty herr)
      · rename_i herr
        refine concludes_finishCompleted h ?_
        by_contra hn
        exact herr (h.errors ▸ not_cleanSweep_iff.mp hn)

abbrev ConcludesCycle (cfg : ScrapeConfig) (before : Option ProviderHealth)
    (stats : Option ScrapeStats) (c : Code (Nat × Nat)) (w : World) (j : CycleJournal) : Prop :=
  Records note (fun u j => HealthSoFar cfg before j u.rows.health)
    (fun u j => HealthSoFar cfg before j u.rows.health)
    (fun _ u j => Concluded cfg before stats u j) c w j

/-- The rows that a cycle finds, as long as it has not got past its gates. -/
def AtGates (before : Option ProviderHealth) (stats : Option ScrapeStats) (w : World) : Prop :=
  w.rows.health = before ∧ w.rows.stats = stats

theorem stable_atGates : Stable (AtGates before stats) :=
  stable_frame fun r _ _ => r.health = before ∧ r.stats = stats

theorem AtGates.soFar (h : AtGates before stats w) (j : CycleJournal) :
    HealthSoFar cfg before j w.rows.health := by
  obtain ⟨rfl, -⟩ := h
  exact .kept

theorem AtGates.skipped (h : AtGates before stats w) : Concluded cfg before stats w .new :=
  ⟨fun _ => ⟨rfl, h⟩, (fun _ ht => by cases ht), (fun ht => by cases ht), fun _ _ => h.1,
    (fun ht => by cases ht), (fun ht => by cases ht)⟩

/-- Reading a row at the gates changes nothing. -/
theorem atGates_query {α : Type} (F : ProviderRows → α) (h : AtGates before stats w) :
    Records note (fun u j => HealthSoFar cfg before j u.rows.health)
      (fun u j => HealthSoFar cfg before j u.rows.health)
      (fun a u j => j = .new ∧ AtGates before stats u ∧ a = F u.rows) (query F) w .new := by
  refine records_query stable_atGates h (fun u hu => hu.soFar _) ?_ ?_
  · intro u e landed hu
    rw [note_answer rfl]
    exact hu.soFar _
  · exact fun u hu => ⟨note_answer rfl, hu, rfl⟩

theorem atGates_notDue (h : AtGates before stats w) (cursor : Option Cursor) (now : Nat) :
    Records note (fun u j => HealthSoFar cfg before j u.rows.health)
      (fun u j => HealthSoFar cfg before j u.rows.health)
      (fun _ u j => j = .new ∧ AtGates before stats u) (notDue cfg cursor now) w .new := by
  cases cursor with
  | some c => exact records_pure ⟨rfl, h⟩
  | none =>
    refine records_bind (atGates_query _ h) ?_
    rintro a u j ⟨rfl, hu, -⟩
    exact records_pure ⟨rfl, hu⟩

theorem concludes_sweepProvider (h : AtGates before stats w) (cursor : Option Cursor) :
    ConcludesCycle cfg before stats (sweepProvider cfg before cursor) w .new := by
  have hnote : note w none ((w.record (.cycleStart cursor w.rows.failed.rows)).setSweep .new) .new =
      sweeping [] := note_event (e := .cycleStart cursor w.rows.failed.rows) rfl
  refine records_modify hnote ?_
  have hstart : Counted before stats 0 0 []
      ((w.record (.cycleStart cursor w.rows.failed.rows)).setSweep .new) :=
    ⟨h.1, h.2, rfl, (fun hn => by cases hn), rfl, rfl⟩
  have hunder : ∀ u j, Underway before stats u j → HealthSoFar cfg before j u.rows.health := by
    rintro u j ⟨l, m, rfl, hu⟩
    rw [hu.health]
    exact .kept
  refine records_bind (records_mono hunder hunder (fun _ _ _ hq => hq)
    (sweeps_scrapeZooms _ _ hstart)) ?_
  rintro n u j ⟨l, rfl, hu⟩
  exact records_bind (concludes_finishSweep hu) fun _ v i hv => records_pure hv

variable (cfg) in
/-- What is true of every cycle, wherever it stands. -/
theorem scrapeProvider_records (h : AtGates before stats w) :
    ConcludesCycle cfg before stats (scrapeProvider cfg) w .new := by
  refine records_look (note_atom rfl) ?_
  split
  · exact records_pure h.skipped
  · refine records_look (note_atom rfl) (records_bind (atGates_query _ h) ?_)
    rintro row u j ⟨rfl, hu, rfl⟩
    rw [hu.1]
    split
    · exact records_pure hu.skipped
    · refine records_bind (atGates_query _ hu) ?_
      rintro cursor v j ⟨rfl, hv, -⟩
      refine records_bind (atGates_notDue hv cursor _) ?_
      rintro gated x j ⟨rfl, hx⟩
      cases gated with
      | true => exact records_pure hx.skipped
      | false => exact concludes_sweepProvider hx cursor

/-- Where a call of `_scrape_provider` begins: no tile task is in flight. -/
def World.atCall (sh : Shared) (rows : ProviderRows) : World := ⟨sh, .new, rows, []⟩

/-- A call of `_scrape_provider`, from its beginning to wherever these turns lead. -/
abbrev cycleRun (cfg : ScrapeConfig) (sh : Shared) (rows : ProviderRows)
    (turns : List (Turn Reply Bystander)) :
    Option (Process (World × CycleJournal) Reply ScrapeExn (Nat × Nat)) :=
  recorded note (scrapeProvider cfg) (.atCall sh rows) .new turns

section Runs

variable {sh : Shared} {rows : ProviderRows} {turns : List (Turn Reply Bystander)}
  {p : Process (World × CycleJournal) Reply ScrapeExn (Nat × Nat)}

theorem cycle_health_so_far (h : cycleRun cfg sh rows turns = some p) :
    HealthSoFar cfg rows.health p.memory.2 p.memory.1.rows.health :=
  ((scrapeProvider_records cfg ⟨rfl, rfl⟩).meets h).everywhere (fun _ hs => hs)
    (fun _ _ hs => hs.soFar) fun _ _ hs => hs

theorem cycle_concluded (h : cycleRun cfg sh rows turns = some p) {n : Nat × Nat}
    (hn : p.returned = some n) :
    Concluded cfg rows.health rows.stats p.memory.1 p.memory.2 :=
  ((scrapeProvider_records cfg ⟨rfl, rfl⟩).meets h).of_returned hn

end Runs

end DataService
