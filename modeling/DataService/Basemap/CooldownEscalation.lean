import DataService.Basemap.SweepStatistics
import DataService.Basemap.SettingsValidation
import Mathlib.Data.List.Chain

/-! Cooldowns over the cycles of a provider. The trip counter is read at the gates of a cycle
and written by one of its exits; between two clean completions it only grows as long as no
tripped cycle collects a stored tile, and the cooldown grows with it. -/

namespace DataService

open Coroutine Coro CycleJournal

/-- What `_validate` asks of the cooldown schedule. -/
structure ValidSchedule (schedule : List Nat) : Prop where
  nonempty : schedule ≠ []
  pos : ∀ c ∈ schedule, 0 < c
  sorted : schedule.Pairwise (· ≤ ·)

theorem isChain_of_zip_tail {l : List Int} (h : ∀ p ∈ l.zip l.tail, p.1 ≤ p.2) :
    l.IsChain (· ≤ ·) := by
  induction l with
  | nil => exact .nil
  | cons a l ih =>
    cases l with
    | nil => exact .singleton a
    | cons b l =>
      refine .cons_cons (h (a, b) (by simp)) (ih fun p hp => h p ?_)
      exact List.mem_cons_of_mem _ hp

theorem AcceptedSettings.validSchedule (a : AcceptedSettings) :
    ValidSchedule a.scraperSettings.cooldownSchedule := by
  obtain ⟨-, -, -, hne, hpos, hmono⟩ := a.accepted
  have hsorted := List.isChain_iff_pairwise.mp (isChain_of_zip_tail hmono)
  refine ⟨by simpa [scraperSettings] using hne, ?_, ?_⟩
  · intro c hc
    obtain ⟨i, hi, rfl⟩ := List.mem_map.mp hc
    have := hpos i hi
    omega
  · exact List.pairwise_map.mpr (hsorted.imp fun hij => Int.toNat_le_toNat hij)

section Schedule

variable {schedule : List Nat} {m n : Nat}

/-- The lookup stays within the schedule. -/
theorem computeCooldown_eq (h : schedule ≠ []) :
    schedule[min n schedule.length - 1]? = some (computeCooldown schedule n) := by
  have hpos := List.length_pos_iff.mpr h
  have hidx : min (n - 1) (schedule.length - 1) = min n schedule.length - 1 := by omega
  have hlt : min n schedule.length - 1 < schedule.length := by omega
  rw [computeCooldown, hidx, List.getD_eq_getElem?_getD, List.getElem?_eq_getElem hlt]
  rfl

theorem computeCooldown_mono (h : ValidSchedule schedule) (hmn : m ≤ n) :
    computeCooldown schedule m ≤ computeCooldown schedule n := by
  have hm := computeCooldown_eq (n := m) h.nonempty
  have hn := computeCooldown_eq (n := n) h.nonempty
  obtain ⟨hltm, hm⟩ := List.getElem?_eq_some_iff.mp hm
  obtain ⟨hltn, hn⟩ := List.getElem?_eq_some_iff.mp hn
  rw [← hm, ← hn]
  rcases Nat.eq_or_lt_of_le (show min m schedule.length - 1 ≤ min n schedule.length - 1 by omega)
    with heq | hlt
  · simp only [heq, le_refl]
  · exact List.pairwise_iff_getElem.mp h.sorted _ _ hltm hltn hlt

end Schedule

/-- One cycle of a provider, cut off or run to its end. -/
structure Cycle (cfg : ScrapeConfig) where
  shared : Shared
  rows : ProviderRows
  turns : List (Turn Reply Bystander)
  final : Process (World × CycleJournal) Reply ScrapeExn (Nat × Nat)
  ran : cycleRun cfg shared rows turns = some final

namespace Cycle

variable {cfg : ScrapeConfig}

def journal (c : Cycle cfg) : CycleJournal := c.final.memory.2

/-- The rows that the cycle leaves to the next one. -/
def after (c : Cycle cfg) : ProviderRows := c.final.memory.1.rows

def log (c : Cycle cfg) : List Event := c.final.memory.1.log

/-- The next cycle finds the rows as this one left them. -/
def Follows (b c : Cycle cfg) : Prop := c.rows = b.after

/-- The row of a trip that the cycle declared at this time is in the table. -/
def Tripped (c : Cycle cfg) (t : Nat) (row : ProviderHealth) : Prop :=
  c.journal.trippedAt = some t ∧ c.after.health = some row ∧
    OpenedRow cfg c.rows.health c.journal.outcomes t row

/-- The counter does not start over: no stored tile was collected by a sweep that tripped,
and the sweep was not declared complete. -/
def Ratchets (c : Cycle cfg) : Prop :=
  (c.journal.trippedAt ≠ none → .ok ∉ c.journal.outcomes) ∧ c.journal.stamped = false

end Cycle

/-- The trip counter, 0 without a health row. -/
def tripLevel (health : Option ProviderHealth) : Nat := (health.map (·.consecutiveTrips)).getD 0

/-- What a cycle does with the health row. -/
structure KeepsEscalation {cfg : ScrapeConfig} (c : Cycle cfg) : Prop where
  /-- a tripped cycle writes the counter and the cooldown -/
  tripped : c.final.returned.isSome = true → ∀ t, c.journal.trippedAt = some t →
    ∃ row cooldown, c.after.health = some row ∧
      row.consecutiveTrips =
        (if .ok ∈ c.journal.outcomes then 1 else tripLevel c.rows.health + 1) ∧
      cfg.settings.cooldownSchedule[
        min row.consecutiveTrips cfg.settings.cooldownSchedule.length - 1]? = some cooldown ∧
      row.cooldownUntil = t + cooldown
  /-- the exits that leave the row alone -/
  spared : c.final.returned.isSome = true →
    c.journal.swept = false ∨ c.journal.abandoned = true ∨
      (c.journal.trippedAt = none ∧ ¬ CleanSweep c.journal.outcomes) →
    c.after.health = c.rows.health
  /-- a clean completion deletes it -/
  completed : c.final.returned.isSome = true → c.journal.swept = true →
    c.journal.trippedAt = none → CleanSweep c.journal.outcomes → c.after.health = none
  /-- and wherever the cycle is cut off, the row is one of these -/
  anywhere : HealthSoFar cfg c.rows.health c.journal c.after.health
  /-- nothing is fetched by a cycle that comes before the end of the cooldown -/
  gate : ∀ row, c.rows.health = some row → c.shared.wall < row.cooldownUntil →
    ∀ t, .fetch t ∉ c.log

section Gate

variable {cfg : ScrapeConfig} {row : ProviderHealth} {w : World}

/-- At the gates with an open circuit, and nothing has happened. -/
def Barred (row : ProviderHealth) (w : World) : Prop :=
  (Idle w ∧ w.log = []) ∧ w.rows.health = some row

theorem stable_barred : Stable (Barred row) :=
  (stable_log_of_idle (· = [])).and (stable_health (some row))

theorem barred_records (h : Barred row w) (hnow : w.shared.wall < row.cooldownUntil)
    (j : CycleJournal) :
    Records note (fun u _ => Barred row u) (fun u _ => Barred row u) (fun _ u _ => Barred row u)
      (scrapeProvider cfg) w j := by
  refine records_look (note_atom rfl) ?_
  split
  · exact h
  · refine records_look (note_atom rfl) (records_bind (Q := fun a u _ => Barred row u ∧
      a = some row) (records_query stable_barred h (fun _ hu => hu) (fun _ _ _ hu => hu)
        fun u hu => ⟨hu, hu.2⟩) ?_)
    rintro _ u j ⟨hu, rfl⟩
    simp only [Option.any_some, hnow, decide_true, if_true]
    exact hu

end Gate

section Cycles

variable {cfg : ScrapeConfig} {a b c : Cycle cfg}

theorem Cycle.concluded (h : c.final.returned.isSome = true) :
    Concluded cfg c.rows.health c.rows.stats c.final.memory.1 c.journal := by
  obtain ⟨n, hn⟩ := Option.isSome_iff_exists.mp h
  exact cycle_concluded c.ran hn

theorem Cycle.keepsEscalation (hs : ValidSchedule cfg.settings.cooldownSchedule) (c : Cycle cfg) :
    KeepsEscalation c := by
  refine ⟨fun hr t ht => ?_, fun hr hcase => ?_, fun hr hswept htrip hclean => ?_,
    cycle_health_so_far c.ran, fun row hrow hnow t ht => ?_⟩
  · obtain ⟨row, hrow, hopened⟩ := (Cycle.concluded hr).tripped t ht
    refine ⟨row, _, hrow, hopened.trips, computeCooldown_eq hs.nonempty, ?_⟩
    rw [hopened.cooldown, hopened.trips]
  · rcases hcase with hskip | habandoned | ⟨htrip, hdirty⟩
    · exact ((Cycle.concluded hr).skipped hskip).2.1
    · obtain ⟨htrip, hdirty⟩ := (Cycle.concluded hr).abandoned habandoned
      exact (Cycle.concluded hr).spared htrip hdirty
    · exact (Cycle.concluded hr).spared htrip hdirty
  · exact ((Cycle.concluded hr).cleared hswept htrip hclean).1
  · have hbarred : Barred row (.atCall c.shared c.rows) := ⟨⟨⟨rfl, rfl⟩, rfl⟩, hrow⟩
    have hlog : Barred row c.final.memory.1 :=
      ((barred_records hbarred hnow .new).meets c.ran).everywhere (fun _ hu => hu)
        (fun _ _ hu => hu) fun _ _ hu => hu
    rw [Cycle.log, hlog.1.2] at ht
    exact List.not_mem_nil ht

/-- One cycle that does not start the counter over does not lower it. -/
theorem Cycle.tripLevel_le (h : c.Ratchets) : tripLevel c.rows.health ≤ tripLevel c.after.health := by
  have hfar := cycle_health_so_far c.ran
  change HealthSoFar cfg c.rows.health c.journal c.after.health at hfar
  generalize c.after.health = after at hfar
  cases hfar with
  | kept => exact le_rfl
  | opened htrip hopened =>
    have hok : .ok ∉ c.journal.outcomes := h.1 (by simp [htrip])
    change _ ≤ ProviderHealth.consecutiveTrips _
    rw [hopened.trips, tripsAfter, if_neg hok]
    exact Nat.le_succ _
  | closed _ hstamped _ =>
    rw [h.2] at hstamped
    cases hstamped

theorem tripLevel_le_of_chain {cycles : List (Cycle cfg)} (hc : ∀ c ∈ cycles, c.Ratchets)
    (hchain : (a :: (cycles ++ [b])).IsChain Cycle.Follows) :
    tripLevel a.after.health ≤ tripLevel b.rows.health := by
  induction cycles generalizing a with
  | nil =>
    have hab : b.rows = a.after := (List.isChain_cons_cons.mp hchain).1
    rw [hab]
  | cons c cycles ih =>
    obtain ⟨hac, hrest⟩ := List.isChain_cons_cons.mp hchain
    have hnext := ih (fun x hx => hc x (List.mem_cons_of_mem c hx)) hrest
    have hstep := Cycle.tripLevel_le (hc c List.mem_cons_self)
    rw [show c.rows = a.after from hac] at hstep
    exact hstep.trans hnext

/-- The cooldown of a trip without progress is no shorter than that of an earlier trip, when no
cycle between them starts the counter over. -/
theorem cooldown_le_of_chain (hs : ValidSchedule cfg.settings.cooldownSchedule)
    {between : List (Cycle cfg)} {ta tb : Nat} {ra rb : ProviderHealth} (ha : a.Tripped ta ra)
    (hb : b.Tripped tb rb) (hidle : .ok ∉ b.journal.outcomes)
    (hbetween : ∀ c ∈ between, c.Ratchets)
    (hchain : (a :: (between ++ [b])).IsChain Cycle.Follows) :
    ra.cooldownUntil - ta ≤ rb.cooldownUntil - tb := by
  obtain ⟨-, hrowa, hopena⟩ := ha
  obtain ⟨-, -, hopenb⟩ := hb
  have hlevel := tripLevel_le_of_chain hbetween hchain
  rw [hrowa] at hlevel
  have hnext : tripsAfter b.rows.health b.journal.outcomes = tripLevel b.rows.health + 1 :=
    if_neg hidle
  have htrips : ra.consecutiveTrips ≤ tripLevel b.rows.health := hlevel
  rw [hopena.trips] at htrips
  have hcooldown := computeCooldown_mono hs (htrips.trans (Nat.le_add_right _ 1))
  rw [hopena.cooldown, hopenb.cooldown, hnext]
  omega

/-- In every run of cycles of a provider with a valid schedule: each cycle treats the health
row as it should, and the cooldowns of trips that collected no stored tile never shrink while
no cycle between them starts the counter over. -/
theorem cooldowns_escalate (hs : ValidSchedule cfg.settings.cooldownSchedule)
    {cycles : List (Cycle cfg)} (hchain : cycles.IsChain Cycle.Follows) :
    (∀ c ∈ cycles, KeepsEscalation c) ∧
      ∀ earlier a between b later ta tb ra rb,
        cycles = earlier ++ (a :: (between ++ [b])) ++ later →
        a.Tripped ta ra → b.Tripped tb rb →
        .ok ∉ a.journal.outcomes → .ok ∉ b.journal.outcomes → (∀ c ∈ between, c.Ratchets) →
        ra.cooldownUntil - ta ≤ rb.cooldownUntil - tb := by
  refine ⟨fun c _ => Cycle.keepsEscalation hs c, ?_⟩
  rintro earlier a between b later ta tb ra rb rfl ha hb - hidle hbetween
  exact cooldown_le_of_chain hs ha hb hidle hbetween hchain.left_of_append.right_of_append

end Cycles

/-- Two tiles at zoom 1; one failure out of one trips the breaker. -/
def pairConfig : ScrapeConfig where
  settings :=
    { singleTileConfig.settings with
      errorRateMinSamples := 1, errorRateWindow := 1, minSamples_pos := Nat.one_pos,
      minSamples_le_window := Nat.one_pos }
  provider := ⟨0, 0, 1, 1⟩
  bbox := ⟨fun _ => 0, fun _ => 1, fun _ => 0, fun _ => 0⟩

/-- The host is unavailable for the first tile, and the other task is cancelled. -/
def firstTrip : List (Turn Reply Bystander) :=
  [.answer .ok, .answer .ok, .answer .ok, .answer (.rows []), .other (.tile 0 .start),
    .other (.tile 0 (.http .unavailable)), .answer .ok, .answer .ok, .answer .ok, .answer .ok,
    .answer (.rows [⟨1, 0, 0⟩]), .answer .ok, .answer .ok]

/-- After the cooldown the queued tile is tried first, and the host is still unavailable. -/
def secondTrip : List (Turn Reply Bystander) :=
  [.answer .ok, .answer .ok, .answer (.rows [⟨1, 0, 0⟩]), .other (.tile 0 .start),
    .other (.tile 0 (.http .unavailable)), .answer .ok, .answer .ok, .answer .ok]

/-- A cycle whose run is known to get through. -/
def Cycle.ofRun (cfg : ScrapeConfig) (sh : Shared) (rows : ProviderRows)
    (turns : List (Turn Reply Bystander)) (h : (cycleRun cfg sh rows turns).isSome = true) :
    Cycle cfg :=
  ⟨sh, rows, turns, (cycleRun cfg sh rows turns).get h, (Option.some_get h).symm⟩

def trippedOnce : Cycle pairConfig := .ofRun pairConfig firstBoot .empty firstTrip (by decide)

def trippedTwice : Cycle pairConfig :=
  .ofRun pairConfig { firstBoot with wall := 2000 } trippedOnce.after secondTrip (by decide)

theorem pairConfig_validSchedule : ValidSchedule pairConfig.settings.cooldownSchedule :=
  ⟨by decide, by decide, by decide⟩

/-- Five minutes, then fifteen. -/
theorem cooldowns_escalate_twice :
    (∀ c ∈ [trippedOnce, trippedTwice], KeepsEscalation c) ∧
      trippedOnce.after.health.map (·.cooldownUntil) = some 1300 ∧
      trippedTwice.after.health.map (·.cooldownUntil) = some 2900 ∧ 1300 - 1000 ≤ 2900 - 2000 := by
  have hchain : [trippedOnce, trippedTwice].IsChain Cycle.Follows :=
    .cons_cons rfl (.singleton _)
  obtain ⟨hkeeps, hgrows⟩ := cooldowns_escalate pairConfig_validSchedule hchain
  refine ⟨hkeeps, by decide, by decide, ?_⟩
  exact hgrows [] trippedOnce [] trippedTwice [] 1000 2000 ⟨1, 1300, 1000, some ⟨1, 1, [⟨1, 0, 0⟩]⟩⟩
    ⟨2, 2900, 2000, some ⟨1, 1, [⟨1, 0, 0⟩]⟩⟩ rfl ⟨by decide, by decide, by decide, by decide⟩
    ⟨by decide, by decide, by decide, by decide⟩ (by decide) (by decide) (by simp)

/-- The first tile is unavailable, which trips the breaker; the second one has been stored by
then, but its task is not collected any more. -/
def strandedTile : List (Turn Reply Bystander) :=
  [.answer .ok, .answer .ok, .answer .ok, .answer (.rows []), .other (.tile 0 .start),
    .other (.tile 0 (.http .unavailable)), .other (.tile 0 .start),
    .other (.tile 0 (.http .bytes)), .other (.tile 0 (.s3 true)), .other (.tile 0 (.redis .ok)),
    .answer .ok, .answer .ok, .answer .ok, .answer (.rows [⟨1, 0, 0⟩]), .answer .ok, .answer .ok]

def trippedBefore : ProviderRows :=
  { ProviderRows.empty with health := some ⟨2, 900, 0, none⟩ }

/-- A cycle that stored a tile and tripped, and the counter went on from 2 to 3. -/
theorem stored_tile_does_not_reset : ¬ ∀ (cfg : ScrapeConfig) (c : Cycle cfg) (t : Nat)
    (row : ProviderHealth), ValidSchedule cfg.settings.cooldownSchedule →
    c.final.returned.isSome = true → c.Tripped t row → (∃ tile, .stored tile ∈ c.log) →
      row.consecutiveTrips = 1 := by
  intro h
  let c : Cycle pairConfig := .ofRun pairConfig firstBoot trippedBefore strandedTile (by decide)
  have hthree : 3 = 1 := h pairConfig c 1000 ⟨3, 4600, 1000, some ⟨1, 1, [⟨1, 0, 0⟩]⟩⟩
    pairConfig_validSchedule (by decide) ⟨by decide, by decide, by decide, by decide⟩
    ⟨⟨1, 1, 0⟩, by decide⟩
  omega

end DataService
