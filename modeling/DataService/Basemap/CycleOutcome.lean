import DataService.Basemap.Interference
import DataService.Lib.RelyGuarantee

/-! What a cycle of one provider leaves behind, when it ends by itself: it was stopped at a
gate, or asked for a storage retry, or its rows are not those it began with. -/

namespace DataService

open Coroutine Coro

/-- The rows that say where the scraping stands; how the failed table is ordered does not
matter, and the statistics are for the dashboard. -/
structure ProviderRows.Same (a b : ProviderRows) : Prop where
  cursor : a.cursor = b.cursor
  failed : a.failed.rows.Perm b.failed.rows
  lastCompleted : a.lastCompleted = b.lastCompleted
  health : a.health = b.health

instance (a b : ProviderRows) : Decidable (a.Same b) :=
  decidable_of_iff (a.cursor = b.cursor ∧ a.failed.rows.Perm b.failed.rows ∧
    a.lastCompleted = b.lastCompleted ∧ a.health = b.health)
    ⟨fun h => ⟨h.1, h.2.1, h.2.2.1, h.2.2.2⟩, fun h => ⟨h.cursor, h.failed, h.lastCompleted, h.health⟩⟩

/-- The cycles that got past their gates. -/
def cyclesStarted (log : List Event) : Nat := log.countP (·.isCycleStart)

/-- The rows and the log at the start, and the cycle did not get past its gates, or the
storage retry is due, or the rows have changed. -/
def Spent (rows : ProviderRows) (log : List Event) (w : World) : Prop :=
  cyclesStarted w.log = cyclesStarted log ∨ w.shared.storageRetryDue = true ∨ ¬ rows.Same w.rows

/-- What the sweep of a provider may expect while it waits. -/
structure Calm (w w' : World) : Prop where
  rows : w'.rows = w.rows
  started : cyclesStarted w'.log = cyclesStarted w.log
  wall : w.shared.wall ≤ w'.shared.wall
  retry : w.shared.storageRetryDue = true → w'.shared.storageRetryDue = true

/-- What it does itself to the memory that all sweeps share. -/
structure Decent (w w' : World) : Prop where
  wall : w'.shared.wall = w.shared.wall
  retry : w.shared.storageRetryDue = true → w'.shared.storageRetryDue = true

section Relations

variable {w w' w'' : World}

theorem calm_refl (w : World) : Calm w w := ⟨rfl, rfl, le_rfl, id⟩

theorem Calm.trans (h : Calm w w') (h' : Calm w' w'') : Calm w w'' :=
  ⟨h'.rows.trans h.rows, h'.started.trans h.started, h.wall.trans h'.wall,
    fun hr => h'.retry (h.retry hr)⟩

theorem decent_refl (w : World) : Decent w w := ⟨rfl, id⟩

theorem Decent.trans (h : Decent w w') (h' : Decent w' w'') : Decent w w'' :=
  ⟨h'.wall.trans h.wall, fun hr => h'.retry (h.retry hr)⟩

theorem Spent.calm {rows : ProviderRows} {log : List Event} (h : Spent rows log w)
    (hw : Calm w w') : Spent rows log w' := by
  rcases h with hstarted | hretry | hrows
  · exact .inl (hw.started.trans hstarted)
  · exact .inr (.inl (hw.retry hretry))
  · refine .inr (.inr ?_)
    rw [hw.rows]
    exact hrows

end Relations

section Walk

variable {cfg : ScrapeConfig} {α : Type}

/-- A step that leaves the shared memory alone. -/
def SharedKept (w w' : World) : Prop := w'.shared = w.shared

theorem within_look (f : World → α) : (look f).Within SharedKept := ⟨fun _ => rfl, fun _ => trivial⟩

theorem within_modify {f : World → World} (h : ∀ w, (f w).shared = w.shared) :
    (modify f).Within SharedKept := ⟨h, fun _ => trivial⟩

theorem within_pause : pause.Within SharedKept := by
  refine within_call fun w r x t ht => ?_
  cases r <;> cases ht <;> rfl

theorem within_commit {f : World → World} (h : ∀ w, (f w).shared = w.shared) :
    (commit f).Within SharedKept := by
  refine within_call fun w r x t ht => ?_
  cases r with
  | ok =>
    cases ht
    exact h w
  | raised e landed =>
    cases ht
    cases landed with
    | true => exact h w
    | false => rfl
  | rows l => cases ht

theorem within_listFailed (zoom : Nat) : (listFailed zoom).Within SharedKept := by
  refine within_call fun w r x t ht => ?_
  cases r with
  | rows l =>
    by_cases hl : l.isPerm (w.rows.failed.atZoom zoom) = true
    · simp only [hl, if_true, Option.some.injEq, Prod.mk.injEq] at ht
      rw [← ht.2]
      rfl
    · simp [hl] at ht
  | raised e landed =>
    cases ht
    rfl
  | ok => cases ht

theorem within_nextCompleted : nextCompleted.Within SharedKept := by
  refine within_call fun w r x t ht => ?_
  obtain ⟨sh, ⟨sweep, progress, tasks, done⟩, rows, log⟩ := w
  cases done with
  | nil =>
    cases r <;> cases ht
    rfl
  | cons d done =>
    obtain ⟨idx, tile, result⟩ := d
    cases result <;> cases r <;> cases ht <;> rfl

theorem within_cancelPending : cancelPending.Within SharedKept := by
  refine within_bind (within_look _) fun pending => ?_
  refine within_bind (within_modify fun _ => rfl) fun _ => ?_
  cases pending with
  | true => exact within_pause
  | false => trivial

theorem within_awaitDownload (t : Tile) : (awaitDownload t).Within SharedKept := by
  refine within_tryFinally ?_ within_cancelPending
  refine within_bind (within_modify fun _ => rfl) fun _ => ?_
  exact within_bind within_nextCompleted fun _ => trivial

theorem within_updateSweepState (outcome : TileOutcome) (t : Tile) :
    (updateSweepState cfg outcome t).Within SharedKept := within_modify fun _ => rfl

theorem within_retryEach (ts : List Tile) (ok failed : Nat) :
    (retryEach cfg ts ok failed).Within SharedKept := by
  induction ts generalizing ok failed with
  | nil => trivial
  | cons t ts ih =>
    refine within_bind (within_awaitDownload t) fun outcome => ?_
    refine within_bind (within_updateSweepState outcome t) fun _ => ?_
    have hdequeue : (dequeueIfOk outcome t).Within SharedKept := by
      unfold dequeueIfOk
      by_cases hok : outcome = .ok
      · rw [if_pos hok]
        exact within_commit fun _ => rfl
      · rw [if_neg hok]
        trivial
    refine within_bind hdequeue fun _ => ?_
    refine within_bind (within_look _) fun halted => ?_
    cases halted with
    | true => trivial
    | false => exact ih _ _

theorem within_advanceWatermark (zoom idx : Nat) :
    (advanceWatermark cfg zoom idx).Within SharedKept := by
  refine within_bind (within_look _) fun p => ?_
  refine within_bind (within_look _) fun now => ?_
  by_cases hflush : (cfg.settings.checkpointEvery ≤ (p.frontier.advance idx).mark - p.lastFlushed ∨
      cfg.settings.checkpointMillis ≤ now - p.lastFlushTime) ∧
      0 < (p.frontier.advance idx).mark - p.lastFlushed
  · simp only [hflush]
    exact within_bind (within_commit fun _ => rfl) fun _ => within_modify fun _ => rfl
  · simp only [hflush, if_false]
    exact within_modify fun _ => rfl

theorem within_queueUnlessSkipped (outcome : TileOutcome) (t : Tile) :
    (queueUnlessSkipped outcome t).Within SharedKept := by
  have hadd (w : World) : (World.addFailed t w).shared = w.shared := by
    unfold World.addFailed
    split <;> rfl
  unfold queueUnlessSkipped
  by_cases hok : outcome = .ok
  · rw [if_pos hok]
    trivial
  · rw [if_neg hok]
    by_cases hskipped : outcome = .storageSkipped
    · rw [if_pos hskipped]
      exact within_modify fun _ => rfl
    · rw [if_neg hskipped]
      exact within_commit hadd

theorem within_drainChunk (zoom n : Nat) : (drainChunk cfg zoom n).Within SharedKept := by
  induction n with
  | zero => trivial
  | succ n ih =>
    refine within_bind within_nextCompleted fun d => ?_
    have hhandle : (handleCompletion cfg zoom d.1 d.2.1 d.2.2).Within SharedKept := by
      refine within_bind (within_updateSweepState _ _) fun _ => ?_
      refine within_bind (within_modify fun _ => rfl) fun _ => ?_
      exact within_bind (within_queueUnlessSkipped _ _) fun _ => within_advanceWatermark zoom _
    refine within_bind hhandle fun _ => ?_
    refine within_bind (within_look _) fun halted => ?_
    cases halted with
    | true => trivial
    | false => exact ih

theorem within_awaitStorageCooldown : awaitStorageCooldown.Within SharedKept := by
  refine within_bind (within_look _) fun remaining => ?_
  by_cases hzero : remaining = 0
  · rw [if_pos hzero]
    trivial
  · rw [if_neg hzero]
    refine within_call fun w r x t ht => ?_
    cases r with
    | ok =>
      by_cases hopen : w.shared.s3Circuit.cooldownRemaining w.shared.mono = 0
      · simp only [hopen, if_true, Option.some.injEq, Prod.mk.injEq] at ht
        rw [← ht.2]
        rfl
      · simp [hopen] at ht
    | raised e landed =>
      cases ht
      rfl
    | rows l => cases ht

theorem within_sweepChunks (zoom : Nat) (coords : List Tile) (starts : List Nat) :
    (sweepChunks cfg zoom coords starts).Within SharedKept := by
  induction starts with
  | nil => trivial
  | cons chunkStart starts ih =>
    refine within_bind within_awaitStorageCooldown fun _ => ?_
    refine within_bind (within_look _) fun abandoned => ?_
    cases abandoned with
    | true => trivial
    | false =>
      have hchunk (tiles : List (Nat × Tile)) : (sweepChunk cfg zoom tiles).Within SharedKept :=
        within_bind (within_modify fun _ => rfl) fun _ =>
          within_tryFinally (within_drainChunk zoom _) within_cancelPending
      refine within_bind (hchunk _) fun _ => ?_
      refine within_bind (within_look _) fun halted => ?_
      cases halted with
      | true => trivial
      | false => exact ih

theorem within_runIndexedSweep (zoom : Nat) (coords : List Tile) (resumeIndex : Nat) :
    (runIndexedSweep cfg zoom coords resumeIndex).Within SharedKept := by
  have hcheckpoint : (checkpoint zoom coords.length).Within SharedKept := by
    refine within_bind (within_look _) fun watermark => ?_
    by_cases htotal : coords.length ≤ watermark
    · rw [if_pos htotal]
      exact within_commit fun _ => rfl
    · rw [if_neg htotal]
      exact within_commit fun _ => rfl
  unfold runIndexedSweep
  by_cases hresume : coords.length ≤ resumeIndex
  · rw [if_pos hresume]
    exact within_bind (within_commit fun _ => rfl) fun _ => trivial
  · rw [if_neg hresume]
    refine within_bind (within_modify fun _ => rfl) fun _ => ?_
    refine within_bind (within_tryFinally ?_ hcheckpoint) fun _ =>
      within_bind (within_look _) fun _ => trivial
    by_cases hwindow : cfg.settings.fanoutWindow = 0
    · rw [if_pos hwindow]
      trivial
    · rw [if_neg hwindow]
      exact within_sweepChunks zoom coords _

theorem within_scrapeZoom (zoom resumeIndex : Nat) :
    (scrapeZoom cfg zoom resumeIndex).Within SharedKept := by
  have hretry : (retryFailedTiles cfg zoom).Within SharedKept :=
    within_bind (within_listFailed zoom) fun failedTiles => within_retryEach failedTiles 0 0
  refine within_bind hretry fun retried => ?_
  refine within_bind (within_look _) fun halted => ?_
  cases halted with
  | true => trivial
  | false =>
    refine within_bind (within_runIndexedSweep zoom _ resumeIndex) fun swept => ?_
    refine within_bind (within_listFailed zoom) fun remaining => ?_
    have hclear : (clearIfDrained zoom remaining).Within SharedKept := by
      unfold clearIfDrained
      by_cases hnil : remaining = []
      · rw [if_pos hnil]
        exact within_commit fun _ => rfl
      · rw [if_neg hnil]
        trivial
    exact within_bind hclear fun _ => trivial

theorem within_scrapeZooms (start : Cursor) (zooms : List Nat) (downloaded failed : Nat) :
    (scrapeZooms cfg start zooms downloaded failed).Within SharedKept := by
  induction zooms generalizing downloaded failed with
  | nil => trivial
  | cons zoom zooms ih =>
    refine within_bind (within_scrapeZoom zoom _) fun scraped => ?_
    refine within_bind (within_look _) fun halted => ?_
    cases halted with
    | true => trivial
    | false => exact ih _ _

end Walk

section Verdicts

variable {cfg : ScrapeConfig} {w : World} {α β : Type}

/-- Beside others that keep calm the code does nothing but what is decent, and it ends
in `Q`. -/
def Leaves (Q : α → World → Prop) (c : Code α) (w : World) : Prop :=
  c.Honours Calm Decent Q (fun _ _ => True) w

theorem leaves_pure {Q : α → World → Prop} {a : α} (h : Q a w) : Leaves Q (pure a : Code α) w := h

theorem leaves_bind {Q : α → World → Prop} {Q' : β → World → Prop} {c : Code α} {k : α → Code β}
    (h : Leaves Q c w) (hk : ∀ a t, Q a t → Leaves Q' (k a) t) : Leaves Q' (c >>= k) w :=
  honours_bind (honours_mono hk (fun _ _ he => he) h)

theorem leaves_of_within {c : Code α} {now : Nat} (h : c.Within SharedKept)
    (hnow : now ≤ w.shared.wall) : Leaves (fun _ t => now ≤ t.shared.wall) c w := by
  have hkept : ∀ t u : World, SharedKept t u → now ≤ t.shared.wall → now ≤ u.shared.wall := by
    intro t u (htu : u.shared = t.shared) ht
    rw [htu]
    exact ht
  have hdecent : ∀ t u : World, SharedKept t u → Decent t u := by
    intro t u (htu : u.shared = t.shared)
    refine ⟨congrArg Shared.wall htu, fun hr => ?_⟩
    rw [htu]
    exact hr
  have hframe := honours_frame (R := Calm) (P := fun t : World => now ≤ t.shared.wall)
    (fun t u htu ht => ht.trans htu.wall) hkept (h.honours w) hnow
  exact honours_weaken hdecent (honours_mono (fun _ _ ht => ht.2) (fun _ _ _ => trivial) hframe)

theorem leaves_look (f : World → α) : Leaves (fun a t => a = f w ∧ t = w) (look f) w :=
  ⟨decent_refl w, rfl, rfl⟩

theorem leaves_modify {f : World → World} (h : Decent w (f w)) :
    Leaves (fun _ t => t = f w) (modify f) w := ⟨h, rfl⟩

theorem leaves_query (f : ProviderRows → α) :
    Leaves (fun a t => Calm w t ∧ a = f w.rows) (query f) w := by
  refine honours_call (fun t ht r a u hu => ?_) fun t _ r e u hu => ?_
  · cases r <;> cases hu
    refine ⟨decent_refl t, ht, ?_⟩
    rw [ht.rows]
  · cases r <;> cases hu
    exact ⟨decent_refl t, trivial⟩

theorem leaves_commit {f : World → World} (h : ∀ t, Decent t (f t)) :
    Leaves (fun _ t => ∃ u, Calm w u ∧ t = f u) (commit f) w := by
  refine honours_call (fun t ht r a u hu => ?_) fun t _ r e u hu => ⟨?_, trivial⟩
  · cases r <;> cases hu
    exact ⟨h t, t, ht, rfl⟩
  · cases r with
    | raised e landed =>
      cases hu
      cases landed with
      | true => exact h t
      | false => exact decent_refl t
    | ok | rows => cases hu

/-- The statistics are not among the rows that count. -/
theorem leaves_recordSweepStats {rows : ProviderRows} {log : List Event} (downloaded failed : Nat)
    (completed : Bool) (h : w.shared.storageRetryDue = true ∨ ¬ rows.Same w.rows) :
    Leaves (fun _ t => Spent rows log t) (recordSweepStats downloaded failed completed) w := by
  refine honours_mono (fun _ t ht => ?_) (fun _ _ he => he) (leaves_commit fun _ => ⟨rfl, id⟩)
  obtain ⟨u, hu, rfl⟩ := ht
  rcases h with hretry | hrows
  · exact .inr (.inl (hu.retry hretry))
  · refine .inr (.inr fun hsame => hrows ?_)
    rw [← hu.rows]
    exact ⟨hsame.cursor, hsame.failed, hsame.lastCompleted, hsame.health⟩

theorem computeCooldown_pos {schedule : List Nat} (h : ∀ c ∈ schedule, 0 < c) (trips : Nat) :
    0 < computeCooldown schedule trips := by
  unfold computeCooldown
  rw [List.getD_eq_getElem?_getD]
  cases hget : schedule[min (trips - 1) (schedule.length - 1)]? with
  | none => decide
  | some c => exact h c (List.mem_of_getElem? hget)

/-- A trip opens the circuit until later than any time at which the gate was passed. -/
theorem leaves_finishTripped {rows : ProviderRows} {log : List Event} {now : Nat}
    (hschedule : ∀ c ∈ cfg.settings.cooldownSchedule, 0 < c) (hnow : now ≤ w.shared.wall)
    (hhealth : ∀ h, rows.health = some h → h.cooldownUntil ≤ now)
    (health : Option ProviderHealth) (downloaded failed : Nat) :
    Leaves (fun _ t => Spent rows log t) (finishTripped cfg health downloaded failed) w := by
  refine leaves_bind (leaves_modify ⟨rfl, id⟩) ?_
  rintro _ _ rfl
  refine leaves_bind (leaves_look _) ?_
  rintro wall _ ⟨rfl, rfl⟩
  refine leaves_bind (leaves_look _) ?_
  rintro reason _ ⟨rfl, rfl⟩
  refine leaves_bind (leaves_commit fun _ => ⟨rfl, id⟩) ?_
  rintro _ _ ⟨u, hu, rfl⟩
  refine leaves_recordSweepStats _ _ _ (.inr fun hsame => ?_)
  have hcooldown := hhealth _ (hsame.health.trans rfl)
  have hpos := computeCooldown_pos hschedule
    (if 0 < downloaded then 1 else (health.map (·.consecutiveTrips)).getD 0 + 1)
  change w.shared.wall + _ ≤ now at hcooldown
  omega

theorem leaves_finishAbandonedSweep {rows : ProviderRows} {log : List Event}
    (downloaded failed : Nat) :
    Leaves (fun _ t => Spent rows log t) (finishAbandonedSweep downloaded failed) w := by
  refine leaves_bind (leaves_modify ⟨rfl, fun _ => rfl⟩) ?_
  rintro _ _ rfl
  exact leaves_recordSweepStats _ _ _ (.inl rfl)

theorem leaves_finishIncomplete {rows : ProviderRows} {log : List Event} (downloaded failed : Nat) :
    Leaves (fun _ t => Spent rows log t) (finishIncomplete downloaded failed) w := by
  refine leaves_bind (leaves_commit fun _ => ⟨rfl, id⟩) fun _ t _ => ?_
  refine leaves_bind (leaves_modify ⟨rfl, fun _ => rfl⟩) ?_
  rintro _ _ rfl
  exact leaves_recordSweepStats _ _ _ (.inl rfl)

/-- A completion takes the cursor away or, where there was none, stamps a later time than
the one that let the gate pass. -/
theorem leaves_finishCompleted {rows : ProviderRows} {log : List Event} {interval now : Nat}
    (hinterval : 0 < interval) (hnow : now ≤ w.shared.wall)
    (hdue : rows.cursor = none → ∀ last, rows.lastCompleted = some last → last + interval ≤ now)
    (downloaded failed : Nat) :
    Leaves (fun _ t => Spent rows log t) (finishCompleted downloaded failed) w := by
  refine leaves_bind (leaves_commit fun _ => ⟨rfl, id⟩) ?_
  rintro _ _ ⟨u₁, hu₁, rfl⟩
  refine leaves_bind (leaves_commit fun _ => ⟨rfl, id⟩) ?_
  rintro _ _ ⟨u₂, hu₂, rfl⟩
  refine leaves_bind (leaves_modify ⟨rfl, id⟩) ?_
  rintro _ _ rfl
  refine leaves_bind (leaves_look _) ?_
  rintro stamp _ ⟨rfl, rfl⟩
  refine leaves_bind (leaves_commit fun _ => ⟨rfl, id⟩) ?_
  rintro _ _ ⟨u₃, hu₃, rfl⟩
  refine leaves_bind (leaves_commit fun _ => ⟨rfl, id⟩) ?_
  rintro _ _ ⟨u₄, hu₄, rfl⟩
  have hwall : now ≤ u₂.shared.wall := hnow.trans (hu₁.wall.trans hu₂.wall)
  have hcursor₂ : u₂.rows.cursor = none := by
    rw [hu₂.rows]
    rfl
  have hcursor₃ : u₃.rows.cursor = none := by
    rw [hu₃.rows]
    exact hcursor₂
  have hcursor₄ : u₄.rows.cursor = none := by
    rw [hu₄.rows]
    exact hcursor₃
  have hstamped : u₄.rows.lastCompleted = some u₂.shared.wall := by
    rw [hu₄.rows]
    rfl
  refine leaves_recordSweepStats _ _ _ (.inr fun hsame => ?_)
  have hlast := hdue (hsame.cursor.trans hcursor₄) _ (hsame.lastCompleted.trans hstamped)
  omega

theorem leaves_finishSweep {rows : ProviderRows} {log : List Event} {now : Nat}
    (hinterval : 0 < cfg.settings.scrapeInterval)
    (hschedule : ∀ c ∈ cfg.settings.cooldownSchedule, 0 < c) (hnow : now ≤ w.shared.wall)
    (hhealth : ∀ h, rows.health = some h → h.cooldownUntil ≤ now)
    (hdue : rows.cursor = none → ∀ last, rows.lastCompleted = some last →
      last + cfg.settings.scrapeInterval ≤ now)
    (health : Option ProviderHealth) (downloaded failed : Nat) :
    Leaves (fun _ t => Spent rows log t) (finishSweep cfg health downloaded failed) w := by
  refine leaves_bind (leaves_look _) ?_
  rintro _ t ⟨rfl, rfl⟩
  by_cases htripped : t.mem.sweep.tripped = true
  · rw [if_pos htripped]
    exact leaves_finishTripped hschedule hnow hhealth health downloaded failed
  · rw [if_neg htripped]
    by_cases habandoned : t.mem.sweep.storageAbandoned = true
    · rw [if_pos habandoned]
      exact leaves_finishAbandonedSweep downloaded failed
    · rw [if_neg habandoned]
      by_cases herrors : 0 < t.mem.sweep.storageErrors
      · rw [if_pos herrors]
        exact leaves_finishIncomplete downloaded failed
      · rw [if_neg herrors]
        exact leaves_finishCompleted hinterval hnow hdue downloaded failed

theorem leaves_sweepProvider {rows : ProviderRows} {log : List Event} {now : Nat}
    (hinterval : 0 < cfg.settings.scrapeInterval)
    (hschedule : ∀ c ∈ cfg.settings.cooldownSchedule, 0 < c) (hnow : now ≤ w.shared.wall)
    (hhealth : ∀ h, rows.health = some h → h.cooldownUntil ≤ now)
    (hdue : rows.cursor = none → ∀ last, rows.lastCompleted = some last →
      last + cfg.settings.scrapeInterval ≤ now)
    (health : Option ProviderHealth) (cursor : Option Cursor) :
    Leaves (fun _ t => Spent rows log t) (sweepProvider cfg health cursor) w := by
  refine leaves_bind (leaves_modify ⟨rfl, id⟩) ?_
  rintro _ t rfl
  refine leaves_bind (leaves_of_within (within_scrapeZooms _ _ 0 0) hnow) fun scraped u hu => ?_
  have hfinish : Leaves (fun _ t => Spent rows log t)
      (finishSweep cfg health scraped.1 scraped.2) u :=
    leaves_finishSweep hinterval hschedule hu hhealth hdue health _ _
  exact leaves_bind hfinish fun _ v hv => leaves_pure hv

theorem leaves_notDue (cursor : Option Cursor) (now : Nat) :
    Leaves (fun b t => Calm w t ∧ (b = false → cursor = none → ∀ last,
      w.rows.lastCompleted = some last → last + cfg.settings.scrapeInterval ≤ now))
      (notDue cfg cursor now) w := by
  cases cursor with
  | some c => exact leaves_pure ⟨calm_refl w, fun _ h => by cases h⟩
  | none =>
    refine leaves_bind (leaves_query _) ?_
    rintro _ t ⟨ht, rfl⟩
    refine leaves_pure ⟨ht, fun hfalse _ last hlast => ?_⟩
    rw [hlast] at hfalse
    simpa using hfalse

theorem leaves_scrapeProvider (hinterval : 0 < cfg.settings.scrapeInterval)
    (hschedule : ∀ c ∈ cfg.settings.cooldownSchedule, 0 < c) :
    Leaves (fun _ t => Spent w.rows w.log t) (scrapeProvider cfg) w := by
  have hstopped {t : World} (ht : Calm w t) : Spent w.rows w.log t := .inl ht.started
  refine leaves_bind (leaves_look _) ?_
  rintro _ w ⟨rfl, rfl⟩
  by_cases hdown : w.shared.storageDownThisCycle = true
  · rw [if_pos hdown]
    exact leaves_pure (hstopped (calm_refl w))
  · rw [if_neg hdown]
    refine leaves_bind (leaves_look _) ?_
    rintro _ w ⟨rfl, rfl⟩
    refine leaves_bind (leaves_query _) ?_
    rintro _ t ⟨ht, rfl⟩
    by_cases hcooling : (w.rows.health.any fun h => decide (w.shared.wall < h.cooldownUntil)) = true
    · rw [if_pos hcooling]
      exact leaves_pure (hstopped ht)
    · rw [if_neg hcooling]
      have hhealth : ∀ h, w.rows.health = some h → h.cooldownUntil ≤ w.shared.wall := by
        intro h hsome
        rw [hsome] at hcooling
        simpa using hcooling
      refine leaves_bind (leaves_query _) ?_
      rintro _ u ⟨hu, rfl⟩
      refine leaves_bind (leaves_notDue _ w.shared.wall) ?_
      rintro skip v ⟨hv, hdue⟩
      have hwv := (ht.trans hu).trans hv
      cases skip with
      | true => exact leaves_pure (hstopped hwv)
      | false =>
        refine leaves_sweepProvider hinterval hschedule hwv.wall hhealth
          (fun hcursor last hlast => ?_) _ _
        refine hdue rfl ?_ last ?_
        · rw [ht.rows]
          exact hcursor
        · rw [hu.rows, ht.rows]
          exact hlast

end Verdicts

end DataService
