import DataService.Lib.Undisturbed
import DataService.Basemap.BusyLoop

/-! `_compute_next_sleep` beside the gates of `_scrape_provider`: both read the health row,
the cursor and the last completion of a provider, and agree on who may scrape now. -/

namespace DataService

open Coroutine Coro

/-- `_scrape_provider` up to its second gate: the rows with which it goes on, if it does. -/
def scrapeGates (cfg : ScrapeConfig) : Code (Option (Option ProviderHealth × Option Cursor)) := do
  let now ← look (·.shared.wall)
  let health ← query (·.health)
  if health.any fun h => decide (now < h.cooldownUntil) then pure none
  else
    let cursor ← query (·.cursor)
    if ← notDue cfg cursor now then pure none else pure (some (health, cursor))

/-- What `_scrape_provider` does behind its gates. -/
def behindGates (cfg : ScrapeConfig) : Option (Option ProviderHealth × Option Cursor) →
    Code (Nat × Nat)
  | none => pure (0, 0)
  | some (health, cursor) => sweepProvider cfg health cursor

theorem scrapeProvider_gates (cfg : ScrapeConfig) : scrapeProvider cfg =
    look (·.shared.storageDownThisCycle) >>= fun down =>
      if down then pure (0, 0) else scrapeGates cfg >>= behindGates cfg := by
  unfold scrapeProvider scrapeGates
  congr 1
  funext down
  cases down with
  | true => rfl
  | false =>
    simp only [Bool.false_eq_true, if_false, coro_bind_assoc]
    congr 1
    funext now
    congr 1
    funext health
    split_ifs with hhealth
    · rfl
    · simp only [coro_bind_assoc]
      congr 1
      funext cursor
      congr 1
      funext late
      cases late <;> rfl

variable {cfg : LoopConfig} {v : LoopView}

/-- A `_scrape_provider` that starts at this time gets past the cooldown gate and the gate
on `last_completed`. -/
def PassesGates (cfg : LoopConfig) (v : LoopView) (p : BasemapProvider) (now : Nat) : Prop :=
  ∃ health cursor w, (scrapeGates (cfg.fleet.scrapeConfig p)).answered .ok
    ⟨{ v.shared with wall := now }, .new, (v.files p.providerId).rows, (v.files p.providerId).log⟩ =
      some (.ok (some (health, cursor)), w)

theorem answered_query {α : Type} (f : ProviderRows → α) (w : World) :
    (query f).answered .ok w = some (.ok (f w.rows), w) :=
  answered_call _

theorem answered_ask {α : Type} (p : BasemapProvider) (f : ProviderRows → α) :
    (ask p f).answered .ok v = some (.ok (f (v.files p.providerId).rows), v) :=
  answered_call _

theorem answered_notDue (scfg : ScrapeConfig) (cursor : Option Cursor) (now : Nat) (w : World) :
    (notDue scfg cursor now).answered .ok w = some (.ok (cursor.isNone &&
      w.rows.lastCompleted.any fun last => decide (now < last + scfg.settings.scrapeInterval)), w) := by
  cases cursor with
  | some c => rfl
  | none => rw [notDue, answered_bind_ok _ (answered_query _ w)]; rfl

/-- The gates in terms of what `_compute_next_sleep` computes from the same rows. -/
theorem passesGates_iff (p : BasemapProvider) (now : Nat) : PassesGates cfg v p now ↔
    ready cfg.fleet.settings.scrapeInterval now (v.files p.providerId).rows := by
  let rows := (v.files p.providerId).rows
  let w : World := ⟨{ v.shared with wall := now }, .new, rows, (v.files p.providerId).log⟩
  have hgates : (scrapeGates (cfg.fleet.scrapeConfig p)).answered .ok w =
      if rows.health.any fun h => decide (now < h.cooldownUntil) then some (.ok none, w)
      else if rows.cursor.isNone && rows.lastCompleted.any fun last =>
          decide (now < last + cfg.fleet.settings.scrapeInterval) then some (.ok none, w)
      else some (.ok (some (rows.health, rows.cursor)), w) := by
    have hnow : (look (·.shared.wall) : Code Nat).answered .ok w = some (.ok now, w) := rfl
    have hnotDue : (notDue (cfg.fleet.scrapeConfig p) rows.cursor now).answered .ok w =
        some (.ok (rows.cursor.isNone && rows.lastCompleted.any fun last =>
          decide (now < last + cfg.fleet.settings.scrapeInterval)), w) := answered_notDue _ _ _ w
    rw [scrapeGates, answered_bind_ok _ hnow, answered_bind_ok _ (answered_query _ w)]
    split_ifs with hhealth hdue
    · rfl
    · rw [answered_bind_ok _ (answered_query _ w), answered_bind_ok _ hnotDue, if_pos hdue]
      rfl
    · rw [answered_bind_ok _ (answered_query _ w), answered_bind_ok _ hnotDue, if_neg hdue]
      rfl
  have hcooldown : (rows.health.any fun h => decide (now < h.cooldownUntil)) = true ↔
      cooldownRemaining rows.health now ≠ 0 := by
    cases hh : rows.health with
    | none => simp [cooldownRemaining]
    | some h => simp [cooldownRemaining, Nat.sub_ne_zero_iff_lt]
  have hlate : (rows.cursor.isNone && rows.lastCompleted.any fun last =>
      decide (now < last + cfg.fleet.settings.scrapeInterval)) = true ↔
      rows.cursor.isSome = false ∧
        remainingUntilDue cfg.fleet.settings.scrapeInterval rows.lastCompleted now ≠ 0 := by
    cases hc : rows.cursor <;> cases hl : rows.lastCompleted <;>
      simp [remainingUntilDue, Nat.sub_ne_zero_iff_lt]
  constructor
  · rintro ⟨health, cursor, u, hpass⟩
    have hpass' := hgates.symm.trans hpass
    split_ifs at hpass' with hhealth hdue
    · simp at hpass'
    · simp at hpass'
    · refine ⟨?_, ?_⟩
      · have hzero := fun h => hhealth (hcooldown.mpr h)
        simpa using hzero
      · have hnot := fun h => hdue (hlate.mpr h)
        by_cases hc : rows.cursor.isSome = true
        · exact .inl hc
        · exact .inr (by simpa [hc] using hnot)
  · rintro ⟨hzero, hready⟩
    refine ⟨rows.health, rows.cursor, w, hgates.trans ?_⟩
    have hhealth : ¬ (rows.health.any fun h => decide (now < h.cooldownUntil)) = true :=
      fun h => hcooldown.mp h hzero
    have hdue : ¬ (rows.cursor.isNone && rows.lastCompleted.any fun last =>
        decide (now < last + cfg.fleet.settings.scrapeInterval)) = true := by
      intro h
      obtain ⟨hnone, hne⟩ := hlate.mp h
      rcases hready with hc | hr
      · have hc' : rows.cursor.isSome = true := hc
        simp [hc'] at hnone
      · exact hne hr
    rw [if_neg hhealth, if_neg hdue]

/-- A provider that becomes ready after some seconds bounds what `_compute_next_sleep` takes
for the time until then. -/
theorem ready_later {interval now d : Nat} {rows : ProviderRows}
    (h : ready interval (now + d) rows) :
    cooldownRemaining rows.health now ≤ d ∧
      (rows.cursor.isSome = true ∨ remainingUntilDue interval rows.lastCompleted now ≤ d) := by
  obtain ⟨hhealth, hrest⟩ := h
  constructor
  · cases hh : rows.health with
    | none => simp [cooldownRemaining]
    | some row =>
      simp only [hh, cooldownRemaining, Option.map_some, Option.getD_some] at hhealth ⊢
      omega
  · refine hrest.imp id fun hdue => ?_
    cases hl : rows.lastCompleted with
    | none => simp [remainingUntilDue]
    | some last =>
      simp only [hl, remainingUntilDue, Option.map_some, Option.getD_some] at hdue ⊢
      omega

/-- What comes out of the loop over the providers. -/
structure SleepFits (interval now : Nat) (v : LoopView) (ps : List BasemapProvider)
    (soonest : Nat) (anyReady : Bool) (sleep : Nat) : Prop where
  zero_iff : sleep = 0 ↔ anyReady = true ∨ ∃ p ∈ ps, ready interval now (v.files p.providerId).rows
  floor : sleep ≠ 0 → 60000 ≤ sleep
  atMost : sleep ≤ max 60000 soonest
  inTime : ∀ p ∈ ps, ∀ d, ready interval (now + d) (v.files p.providerId).rows →
    sleep ≤ max 60000 (1000 * d)

theorem answered_nextSleepOver (interval now : Nat) (ps : List BasemapProvider) (soonest : Nat)
    (anyReady : Bool) : ∃ sleep,
      (nextSleepOver interval now ps soonest anyReady).answered .ok v = some (.ok sleep, v) ∧
        SleepFits interval now v ps soonest anyReady sleep := by
  induction ps generalizing soonest anyReady with
  | nil =>
    refine ⟨_, rfl, ?_, ?_, ?_, ?_⟩ <;> cases anyReady <;> simp
  | cons p ps ih =>
    let rows := (v.files p.providerId).rows
    -- the provider is ready, or bounds the sleep by the time until it is
    have hready (hr : ready interval now rows) : ∃ sleep,
        (nextSleepOver interval now ps soonest true).answered .ok v = some (.ok sleep, v) ∧
          SleepFits interval now v (p :: ps) soonest anyReady sleep := by
      obtain ⟨sleep, heval, hfits⟩ := ih soonest true
      have hzero : sleep = 0 := hfits.zero_iff.mpr (.inl rfl)
      refine ⟨sleep, heval, ⟨?_, ?_, ?_, ?_⟩⟩
      · exact iff_of_true hzero (.inr ⟨p, List.mem_cons_self, hr⟩)
      · exact fun hne => absurd hzero hne
      · omega
      · intros
        omega
    have hwait (n : Nat) (hr : ¬ ready interval now rows)
        (hn : ∀ d, ready interval (now + d) rows → n ≤ d) : ∃ sleep,
        (nextSleepOver interval now ps (min soonest (1000 * n)) anyReady).answered .ok v =
          some (.ok sleep, v) ∧ SleepFits interval now v (p :: ps) soonest anyReady sleep := by
      obtain ⟨sleep, heval, hfits⟩ := ih (min soonest (1000 * n)) anyReady
      have hmost := hfits.atMost
      refine ⟨sleep, heval, ⟨?_, hfits.floor, by omega, ?_⟩⟩
      · rw [hfits.zero_iff, List.exists_mem_cons_iff]
        exact or_congr_right (or_iff_right hr).symm
      · intro q hq d hd
        rcases List.mem_cons.mp hq with rfl | hq
        · have hle := hn d hd
          omega
        · exact hfits.inTime q hq d hd
    rw [nextSleepOver, answered_bind_ok _ (answered_ask p (·.health))]
    by_cases hcooldown : 0 < cooldownRemaining rows.health now
    · rw [if_pos hcooldown]
      exact hwait _ (fun hr => absurd hr.1 hcooldown.ne') fun d hd => (ready_later hd).1
    · have hzero : cooldownRemaining rows.health now = 0 := by omega
      rw [if_neg hcooldown, answered_bind_ok _ (answered_ask p (·.cursor))]
      by_cases hcursor : rows.cursor.isSome = true
      · rw [if_pos hcursor]
        exact hready ⟨hzero, .inl hcursor⟩
      · rw [if_neg hcursor, answered_bind_ok _ (answered_ask p (·.lastCompleted))]
        by_cases hdue : remainingUntilDue interval rows.lastCompleted now = 0
        · rw [if_pos hdue]
          exact hready ⟨hzero, .inr hdue⟩
        · rw [if_neg hdue]
          exact hwait _ (fun hr => hr.2.elim hcursor hdue)
            fun d hd => (ready_later hd).2.resolve_left hcursor

/-- The sleep between two cycles agrees with the gates of the next one, read at the same
time. Sleeps are milliseconds, the wall clock of the gates counts seconds. -/
theorem nextSleep_agrees_with_gates (cfg : LoopConfig) (v : LoopView) (default : Nat) :
    (∀ p, scrapeProvider (cfg.fleet.scrapeConfig p) =
      look (·.shared.storageDownThisCycle) >>= fun down =>
        if down then pure (0, 0)
        else scrapeGates (cfg.fleet.scrapeConfig p) >>= behindGates (cfg.fleet.scrapeConfig p)) ∧
    ∃ sleep, (computeNextSleep cfg default).answered .ok v = some (.ok sleep, v) ∧
      (v.shared.storageRetryDue = true → sleep = storageRetryFloor) ∧
      (v.shared.storageRetryDue = false →
        (sleep = 0 ↔ ∃ p ∈ cfg.fleet.providers, PassesGates cfg v p v.shared.wall) ∧
        (sleep ≠ 0 → 60000 ≤ sleep ∧ ∀ p ∈ cfg.fleet.providers, ∀ d,
          PassesGates cfg v p (v.shared.wall + d) → sleep ≤ max 60000 (1000 * d))) := by
  refine ⟨fun p => scrapeProvider_gates _, ?_⟩
  have hdue : (act fun v : LoopView => (v.shared.storageRetryDue, v) : LoopCode Bool).answered .ok v =
      some (.ok v.shared.storageRetryDue, v) := rfl
  have hnow : (act fun v : LoopView => (v.shared.wall, v) : LoopCode Nat).answered .ok v =
      some (.ok v.shared.wall, v) := rfl
  rw [computeNextSleep, answered_bind_ok _ hdue]
  by_cases hretry : v.shared.storageRetryDue = true
  · rw [if_pos hretry]
    exact ⟨_, answered_pure _, fun _ => rfl, fun h => by simp [hretry] at h⟩
  · rw [if_neg hretry, answered_bind_ok _ hnow]
    obtain ⟨sleep, heval, hfits⟩ := answered_nextSleepOver (v := v) cfg.fleet.settings.scrapeInterval
      v.shared.wall cfg.fleet.providers default false
    refine ⟨sleep, heval, fun h => absurd h hretry, fun _ => ⟨?_, fun hne => ⟨hfits.floor hne, ?_⟩⟩⟩
    · simp only [hfits.zero_iff, passesGates_iff, Bool.false_eq_true, false_or]
    · intro p hp d hd
      exact hfits.inTime p hp d (passesGates_iff p _ |>.mp hd)

end DataService
