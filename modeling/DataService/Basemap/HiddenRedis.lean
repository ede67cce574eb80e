import DataService.Basemap.Scraper

/-! A sweep with everything that concerns Redis hidden. No line of the sweep itself looks
there; only the last await of a tile task does. -/

namespace DataService

open Coroutine Coro

/-- Writes are off and the circuit is as new. -/
def Shared.withoutRedis (sh : Shared) : Shared :=
  { sh with redisCircuit := .new .default, redisWritesEnabled := false }

def TileStage.withoutRedis : TileStage → TileStage
  | .warming _ => .warming false
  | stage => stage

def TileTask.withoutRedis (task : TileTask) : TileTask :=
  { task with stage := task.stage.withoutRedis }

def TileProgress.withoutRedis : TileProgress → TileProgress
  | .waits stage => .waits stage.withoutRedis
  | p => p

def Memory.withoutRedis (m : Memory) : Memory :=
  { m with tasks := m.tasks.map TileTask.withoutRedis }

def World.withoutRedis (w : World) : World :=
  { w with shared := w.shared.withoutRedis, mem := w.mem.withoutRedis }

section Awaits

variable {α : Type}

theorem blind_look {f : World → α} (h : ∀ w, f w.withoutRedis = f w) :
    (look f).Blind World.withoutRedis := by
  refine ⟨fun w => ?_, fun _ => trivial⟩
  show (f w.withoutRedis, w.withoutRedis) = _
  rw [h]

theorem blind_modify {f : World → World} (h : ∀ w, f w.withoutRedis = (f w).withoutRedis) :
    (modify f).Blind World.withoutRedis := by
  refine ⟨fun w => ?_, fun _ => trivial⟩
  show ((), f w.withoutRedis) = _
  rw [h]

theorem blind_pause : pause.Blind World.withoutRedis := by
  apply blind_call
  intro w r
  cases r <;> rfl

theorem blind_query (f : ProviderRows → α) : (query f).Blind World.withoutRedis := by
  apply blind_call
  intro w r
  cases r <;> rfl

theorem blind_commit {f : World → World} (h : ∀ w, f w.withoutRedis = (f w).withoutRedis) :
    (commit f).Blind World.withoutRedis := by
  apply blind_call
  intro w r
  cases r with
  | ok => simp [h]
  | rows l => rfl
  | raised e landed => cases landed <;> simp [h]

theorem blind_listFailed (zoom : Nat) : (listFailed zoom).Blind World.withoutRedis := by
  apply blind_call
  intro w r
  cases r with
  | ok => rfl
  | rows l =>
    show (if l.isPerm (w.rows.failed.atZoom zoom) then _ else _) = _
    by_cases hl : l.isPerm (w.rows.failed.atZoom zoom) <;> simp [hl]
  | raised e landed => rfl

theorem blind_nextCompleted : nextCompleted.Blind World.withoutRedis := by
  apply blind_call
  intro w r
  obtain ⟨sh, ⟨sweep, progress, tasks, done⟩, rows, log⟩ := w
  cases done with
  | nil => cases r <;> rfl
  | cons d done =>
    obtain ⟨idx, tile, result⟩ := d
    cases result <;> cases r <;> rfl

theorem blind_createTasks (tiles : List (Nat × Tile)) :
    (createTasks tiles).Blind World.withoutRedis := by
  apply blind_modify
  intro w
  have htasks : (tiles.map fun p => (⟨p.1, p.2, .created⟩ : TileTask)).map TileTask.withoutRedis =
      tiles.map fun p => ⟨p.1, p.2, .created⟩ := by
    rw [List.map_map]
    rfl
  simp [World.setTasks, World.withoutRedis, Memory.withoutRedis, htasks]

theorem blind_cancelPending : cancelPending.Blind World.withoutRedis := by
  apply blind_bind
  · apply blind_look
    intro w
    simp [World.withoutRedis, Memory.withoutRedis]
  · intro pending
    apply blind_bind
    · exact blind_modify fun w => rfl
    · intro _
      cases pending
      · trivial
      · exact blind_pause

theorem blind_awaitStorageCooldown : awaitStorageCooldown.Blind World.withoutRedis := by
  apply blind_bind (blind_look fun w => rfl)
  intro remaining
  split
  · trivial
  · apply blind_call
    intro w r
    cases r with
    | ok =>
      show (if w.shared.s3Circuit.cooldownRemaining w.shared.mono = 0 then _ else _) = _
      split <;> simp_all
    | rows l => rfl
    | raised e landed => rfl

end Awaits

variable {cfg : ScrapeConfig}

theorem blind_stopped : stopped.Blind World.withoutRedis := blind_look fun _ => rfl

theorem blind_updateSweepState (outcome : TileOutcome) (t : Tile) :
    (updateSweepState cfg outcome t).Blind World.withoutRedis :=
  blind_modify fun _ => rfl

theorem blind_addFailed (t : Tile) : (commit (World.addFailed t)).Blind World.withoutRedis := by
  apply blind_commit
  intro w
  unfold World.addFailed
  show (if t ∈ w.rows.failed then _ else _) = _
  split <;> rfl

theorem blind_retryEach (ts : List Tile) (ok failed : Nat) :
    (retryEach cfg ts ok failed).Blind World.withoutRedis := by
  induction ts generalizing ok failed with
  | nil => trivial
  | cons t ts ih =>
    have hdownload : (awaitDownload t).Blind World.withoutRedis := by
      apply blind_tryFinally _ blind_cancelPending
      apply blind_bind (blind_createTasks _)
      intro _
      exact blind_bind blind_nextCompleted fun _ => trivial
    apply blind_bind hdownload
    intro outcome
    apply blind_bind (blind_updateSweepState outcome t)
    intro _
    apply blind_bind
    · unfold dequeueIfOk
      split
      · exact blind_commit fun _ => rfl
      · trivial
    · intro _
      apply blind_bind blind_stopped
      intro halted
      cases halted
      · exact ih _ _
      · trivial

theorem blind_advanceWatermark (zoom idx : Nat) :
    (advanceWatermark cfg zoom idx).Blind World.withoutRedis := by
  apply blind_bind (blind_look fun _ => rfl)
  intro p
  apply blind_bind (blind_look fun _ => rfl)
  intro now
  by_cases hflush : (cfg.settings.checkpointEvery ≤ (p.frontier.advance idx).mark - p.lastFlushed ∨
      cfg.settings.checkpointMillis ≤ now - p.lastFlushTime) ∧
      0 < (p.frontier.advance idx).mark - p.lastFlushed
  · simp only [hflush]
    apply blind_bind
    · exact blind_commit fun _ => rfl
    · exact fun _ => blind_modify fun _ => rfl
  · simp only [hflush, if_false]
    exact blind_modify fun _ => rfl

theorem blind_handleCompletion (zoom idx : Nat) (t : Tile) (outcome : TileOutcome) :
    (handleCompletion cfg zoom idx t outcome).Blind World.withoutRedis := by
  apply blind_bind (blind_updateSweepState outcome t)
  intro _
  apply blind_bind
  · exact blind_modify fun _ => rfl
  intro _
  apply blind_bind
  · unfold queueUnlessSkipped
    split
    · trivial
    · split
      · exact blind_modify fun _ => rfl
      · exact blind_addFailed t
  · exact fun _ => blind_advanceWatermark zoom idx

theorem blind_drainChunk (zoom n : Nat) : (drainChunk cfg zoom n).Blind World.withoutRedis := by
  induction n with
  | zero => trivial
  | succ n ih =>
    apply blind_bind blind_nextCompleted
    rintro ⟨idx, t, outcome⟩
    apply blind_bind (blind_handleCompletion zoom idx t outcome)
    intro _
    apply blind_bind blind_stopped
    intro halted
    cases halted
    · exact ih
    · trivial

theorem blind_sweepChunks (zoom : Nat) (coords : List Tile) (starts : List Nat) :
    (sweepChunks cfg zoom coords starts).Blind World.withoutRedis := by
  induction starts with
  | nil => trivial
  | cons chunkStart starts ih =>
    apply blind_bind blind_awaitStorageCooldown
    intro _
    apply blind_bind (blind_look fun _ => rfl)
    intro abandoned
    cases abandoned
    · apply blind_bind
      · apply blind_bind (blind_createTasks _)
        exact fun _ => blind_tryFinally (blind_drainChunk zoom _) blind_cancelPending
      · intro _
        apply blind_bind blind_stopped
        intro halted
        cases halted
        · exact ih
        · trivial
    · trivial

theorem blind_checkpoint (zoom total : Nat) : (checkpoint zoom total).Blind World.withoutRedis := by
  apply blind_bind (blind_look fun _ => rfl)
  intro watermark
  split <;> exact blind_commit fun _ => rfl

theorem blind_runIndexedSweep (zoom : Nat) (coords : List Tile) (resumeIndex : Nat) :
    (runIndexedSweep cfg zoom coords resumeIndex).Blind World.withoutRedis := by
  unfold runIndexedSweep
  split
  · exact blind_bind (blind_commit fun _ => rfl) fun _ => trivial
  · apply blind_bind
    · exact blind_modify fun _ => rfl
    intro _
    apply blind_bind
    · apply blind_tryFinally _ (blind_checkpoint zoom _)
      split
      · trivial
      · exact blind_sweepChunks zoom coords _
    · exact fun _ => blind_bind (blind_look fun _ => rfl) fun _ => trivial

theorem blind_scrapeZoom (zoom resumeIndex : Nat) :
    (scrapeZoom cfg zoom resumeIndex).Blind World.withoutRedis := by
  apply blind_bind
  · exact blind_bind (blind_listFailed zoom) fun failedTiles => blind_retryEach failedTiles 0 0
  · rintro ⟨retryOk, retryFailed⟩
    apply blind_bind blind_stopped
    intro halted
    cases halted
    · apply blind_bind (blind_runIndexedSweep zoom _ resumeIndex)
      rintro ⟨sweepOk, sweepFailed⟩
      apply blind_bind (blind_listFailed zoom)
      intro remaining
      apply blind_bind
      · unfold clearIfDrained
        split
        · exact blind_commit fun _ => rfl
        · trivial
      · exact fun _ => trivial
    · trivial

theorem blind_scrapeZooms (start : Cursor) (zooms : List Nat) (downloaded failed : Nat) :
    (scrapeZooms cfg start zooms downloaded failed).Blind World.withoutRedis := by
  induction zooms generalizing downloaded failed with
  | nil => trivial
  | cons zoom zooms ih =>
    apply blind_bind (blind_scrapeZoom zoom _)
    rintro ⟨zoomOk, zoomFailed⟩
    apply blind_bind blind_stopped
    intro halted
    cases halted
    · exact ih _ _
    · trivial

theorem blind_finishSweep (health : Option ProviderHealth) (downloaded failed : Nat) :
    (finishSweep cfg health downloaded failed).Blind World.withoutRedis := by
  have hstats : ∀ completed,
      (recordSweepStats downloaded failed completed).Blind World.withoutRedis :=
    fun _ => blind_commit fun _ => rfl
  apply blind_bind (blind_look fun _ => rfl)
  intro sweep
  split
  · apply blind_bind
    · exact blind_modify fun _ => rfl
    intro _
    apply blind_bind (blind_look fun _ => rfl)
    intro now
    apply blind_bind (blind_look fun _ => rfl)
    intro reason
    exact blind_bind (blind_commit fun _ => rfl) fun _ => hstats false
  · split
    · exact blind_bind (blind_modify fun _ => rfl) fun _ => hstats false
    · split
      · apply blind_bind
        · exact blind_commit fun _ => rfl
        exact fun _ => blind_bind (blind_modify fun _ => rfl) fun _ => hstats false
      · apply blind_bind
        · exact blind_commit fun _ => rfl
        intro _
        apply blind_bind
        · exact blind_commit fun _ => rfl
        intro _
        apply blind_bind
        · exact blind_modify fun _ => rfl
        intro _
        apply blind_bind (blind_look fun _ => rfl)
        intro now
        apply blind_bind
        · exact blind_commit fun _ => rfl
        exact fun _ => blind_bind (blind_commit fun _ => rfl) fun _ => hstats true

theorem blind_sweepProvider (health : Option ProviderHealth) (cursor : Option Cursor) :
    (sweepProvider cfg health cursor).Blind World.withoutRedis := by
  apply blind_bind
  · exact blind_modify fun _ => rfl
  intro _
  apply blind_bind (blind_scrapeZooms _ _ 0 0)
  rintro ⟨downloaded, failed⟩
  exact blind_bind (blind_finishSweep health downloaded failed) fun _ => trivial

theorem blind_scrapeProvider (cfg : ScrapeConfig) :
    (scrapeProvider cfg).Blind World.withoutRedis := by
  apply blind_bind (blind_look fun _ => rfl)
  intro down
  cases down
  · apply blind_bind (blind_look fun _ => rfl)
    intro now
    apply blind_bind (blind_query _)
    intro health
    split
    · trivial
    · apply blind_bind (blind_query _)
      intro cursor
      apply blind_bind
      · cases cursor with
        | none => exact blind_bind (blind_query _) fun _ => trivial
        | some c => trivial
      · intro skip
        cases skip
        · exact blind_sweepProvider health cursor
        · trivial
  · trivial

end DataService
