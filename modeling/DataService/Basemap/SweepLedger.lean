import DataService.Basemap.Interference

/-! The books a cycle keeps while it sweeps. They tie the log of the cycle to the
rows and to the tasks in flight, and every primitive of the sweep keeps them; what
a completed cycle has done is read off them. -/

namespace DataService

/-- How a cycle began: the cursor and the failed rows it found, and the log before it. -/
structure Origin where
  cursor : Option Cursor
  queue : List Tile
  before : List Event

def Origin.event (o : Origin) : Event := .cycleStart o.cursor o.queue

def Origin.start (o : Origin) (cfg : ScrapeConfig) : Cursor :=
  o.cursor.getD ⟨cfg.provider.minZoom, 0⟩

/-- All tiles of the provider: its zooms and the bounding box. -/
def sweepTiles (cfg : ScrapeConfig) : List Tile :=
  (List.range' cfg.provider.minZoom (cfg.maxZoom + 1 - cfg.provider.minZoom)).flatMap
    (iterTiles · cfg.bbox)

/-- The work of a cycle: the tiles ahead of its cursor and the failed rows of the
zooms it still visits. -/
def scheduledTiles (cfg : ScrapeConfig) (o : Origin) : List Tile :=
  aheadTiles cfg.maxZoom cfg.bbox (o.start cfg) ++
    o.queue.filter fun t => decide ((o.start cfg).zoom ≤ t.zoom ∧ t.zoom ≤ cfg.maxZoom)

/-- Every tile that a cycle of the current sweep found in the failed table is still
there or was attempted after it had been queued. -/
def LineageKept (rows : List Tile) (log : List Event) : Prop :=
  ∀ m c q before, log = m ++ .cycleStart (some c) q :: before →
    (∀ q', .cycleStart none q' ∉ m) →
    ∀ t ∈ q, t ∈ rows ∨ .attempt t ∈ m ∨ retriedSince before t = true

structure OriginOk (cfg : ScrapeConfig) (o : Origin) : Prop where
  queue_mem : ∀ t ∈ o.queue, t ∈ sweepTiles cfg
  zoom_le : cfg.provider.minZoom ≤ (o.start cfg).zoom
  lineage : o.cursor.isSome → LineageKept o.queue o.before

/-- What the log of a cycle says about its tiles. -/
structure CycleEventsOk (S : List Tile) (log : List Event) : Prop where
  attempt_mem : ∀ t, .attempt t ∈ cycleEvents log → t ∈ S
  fetch_attempt : ∀ t, .fetch t ∈ cycleEvents log → .attempt t ∈ cycleEvents log
  outcome_attempt : ∀ t oc, .outcome t oc ∈ cycleEvents log → .attempt t ∈ cycleEvents log
  outcome_fetch : ∀ t oc, .outcome t oc ∈ cycleEvents log →
    oc = .storageSkipped ∨ .fetch t ∈ cycleEvents log

/-- A cycle that did all its work without a storage failure. -/
structure CompletedCycle (cfg : ScrapeConfig) (o : Origin) (log : List Event) : Prop where
  origin : OriginOk cfg o
  began : log = cycleEvents log ++ o.event :: o.before
  events : CycleEventsOk (scheduledTiles cfg o) log
  answered : ∀ t ∈ scheduledTiles cfg o, Answered log t
  stored : ∀ t oc, .outcome t oc ∈ cycleEvents log → oc.isStorageFailure = false

/-- A sweep is declared complete only by a cycle that completed. -/
def VerdictsOk (cfg : ScrapeConfig) (log : List Event) : Prop :=
  ∀ l₁ e l₂, log = l₁ ++ e :: l₂ → e.isVerdict = true → ∃ o, CompletedCycle cfg o l₂

/-- Every tile before the cursor is accounted for, unless an unknown skip was passed. -/
def Reached (cfg : ScrapeConfig) (w : World) (c : Cursor) : Prop :=
  cfg.provider.minZoom ≤ c.zoom ∧
    (SkipsKnown w.log → ∀ t ∈ passedTiles cfg.provider.minZoom cfg.bbox c,
      accountedFor w t = true)

/-- What holds of rows and log wherever the process may die. -/
structure Good (cfg : ScrapeConfig) (w : World) : Prop where
  verdicts : VerdictsOk cfg w.log
  rows : ∀ t ∈ w.rows.failed, t ∈ sweepTiles cfg
  lineage : w.rows.cursor.isSome → LineageKept w.rows.failed.rows w.log
  cursor : ∀ c, w.rows.cursor = some c → Reached cfg w c

/-- What the tasks in flight owe to the log. -/
structure TasksOk (S : List Tile) (w : World) : Prop where
  tile_mem : ∀ k ∈ w.mem.tasks, k.tile ∈ S
  started : ∀ k ∈ w.mem.tasks, k.stage ≠ .created →
    .attempt k.tile ∈ cycleEvents w.log ∧ .fetch k.tile ∈ cycleEvents w.log
  finished : ∀ d ∈ w.mem.done, ∀ oc, d.result = .ok oc →
    .outcome d.tile oc ∈ cycleEvents w.log

/-- The books of a cycle that has not reached its verdict. -/
structure Steady (cfg : ScrapeConfig) (o : Origin) (w : World) : Prop where
  origin : OriginOk cfg o
  began : w.log = cycleEvents w.log ++ o.event :: o.before
  events : CycleEventsOk (scheduledTiles cfg o) w.log
  tasks : TasksOk (scheduledTiles cfg o) w
  queue : ∀ t ∈ o.queue, t ∈ w.rows.failed ∨ Answered w.log t
  rows : ∀ t ∈ w.rows.failed, t ∈ o.queue ∨ t ∈ scheduledTiles cfg o
  verdicts : VerdictsOk cfg w.log
  cursor : ∀ c, w.rows.cursor = some c → Reached cfg w c

/-- Every storage failure of the cycle is counted, held by the coroutine or waits to
be collected; nothing is promised once the sweep stops. -/
def Paid (held : Prop) (w : World) : Prop :=
  ∀ t oc, .outcome t oc ∈ cycleEvents w.log → oc.isStorageFailure = true →
    w.mem.sweep.stopped = true ∨ 0 < w.mem.sweep.storageErrors ∨ held ∨
      ∃ d ∈ w.mem.done, ∃ oc', d.result = .ok oc' ∧ oc'.isStorageFailure = true

theorem mem_sweepTiles {cfg : ScrapeConfig} {t : Tile} : t ∈ sweepTiles cfg ↔
    cfg.provider.minZoom ≤ t.zoom ∧ t.zoom ≤ cfg.maxZoom ∧ t ∈ iterTiles t.zoom cfg.bbox := by
  simp only [sweepTiles, List.mem_flatMap, List.mem_range'_1]
  constructor
  · rintro ⟨z, hz, ht⟩
    obtain rfl := zoom_of_mem_iterTiles ht
    exact ⟨hz.1, by omega, ht⟩
  · rintro ⟨hmin, hmax, ht⟩
    exact ⟨t.zoom, ⟨hmin, by omega⟩, ht⟩

theorem mem_scheduledTiles {cfg : ScrapeConfig} {o : Origin} {t : Tile} :
    t ∈ scheduledTiles cfg o ↔ t ∈ aheadTiles cfg.maxZoom cfg.bbox (o.start cfg) ∨
      (t ∈ o.queue ∧ (o.start cfg).zoom ≤ t.zoom ∧ t.zoom ≤ cfg.maxZoom) := by
  simp [scheduledTiles]

theorem OriginOk.scheduled_mem {cfg : ScrapeConfig} {o : Origin} {t : Tile} (h : OriginOk cfg o)
    (ht : t ∈ scheduledTiles cfg o) : t ∈ sweepTiles cfg := by
  rcases mem_scheduledTiles.mp ht with ha | ⟨hq, _⟩
  · have hz := h.zoom_le
    rw [mem_aheadTiles] at ha
    rcases ha.2 with ⟨hlt, hi⟩ | hd
    · exact mem_sweepTiles.mpr ⟨by omega, ha.1, hi⟩
    · have hi := List.mem_of_mem_drop hd
      have he := zoom_of_mem_iterTiles hi
      exact mem_sweepTiles.mpr ⟨by omega, ha.1, he ▸ hi⟩
  · exact h.queue_mem t hq

theorem accountedFor_iff {w : World} {t : Tile} : accountedFor w t = true ↔
    t ∈ w.rows.failed ∨ .outcome t .ok ∈ sweepEvents w.log ∨
      .outcome t .missing ∈ sweepEvents w.log := by
  simp only [accountedFor, Bool.or_eq_true, decide_eq_true_eq, List.any_eq_true]
  constructor
  · rintro (h | ⟨e, he, rfl | rfl⟩)
    · exact .inl h
    · exact .inr (.inl he)
    · exact .inr (.inr he)
  · rintro (h | h | h)
    · exact .inl h
    · exact .inr ⟨_, h, .inl rfl⟩
    · exact .inr ⟨_, h, .inr rfl⟩

theorem verdictsOk_cons {cfg : ScrapeConfig} {e : Event} {log : List Event} :
    VerdictsOk cfg (e :: log) ↔
      VerdictsOk cfg log ∧ (e.isVerdict = true → ∃ o, CompletedCycle cfg o log) := by
  constructor
  · intro h
    exact ⟨fun l₁ d l₂ hl => h (e :: l₁) d l₂ (by simp [hl]), h [] e log rfl⟩
  · rintro ⟨h, he⟩ l₁ d l₂ hl hd
    cases l₁ with
    | nil =>
      simp only [List.nil_append, List.cons.injEq] at hl
      obtain ⟨rfl, rfl⟩ := hl
      exact he hd
    | cons x l₁ =>
      simp only [List.cons_append, List.cons.injEq] at hl
      exact h l₁ d l₂ hl.2 hd

theorem verdictsOk_append {cfg : ScrapeConfig} {es log : List Event} (h : VerdictsOk cfg log)
    (he : ∀ e ∈ es, e.isVerdict = false) : VerdictsOk cfg (es ++ log) := by
  induction es with
  | nil => exact h
  | cons e es ih =>
    have hh := List.forall_mem_cons.mp he
    exact verdictsOk_cons.mpr ⟨ih hh.2, fun hv => by simp [hh.1] at hv⟩

theorem Event.routine_iff {e : Event} :
    e.routine = true ↔ e.isCycleStart = false ∧ e.isVerdict = false := by
  simp [Event.routine]

/-- Rows and log only gain, and a failed row goes away by an OK answer only. -/
structure Grows (w w' : World) : Prop where
  log : ∃ es, w'.log = es ++ w.log ∧ ∀ e ∈ es, e.routine = true
  failed : ∀ t ∈ w.rows.failed, t ∈ w'.rows.failed ∨ .outcome t .ok ∈ cycleEvents w'.log

namespace Grows

variable {cfg : ScrapeConfig} {w w' : World}

theorem cycle_eq (h : Grows w w') : ∃ es, w'.log = es ++ w.log ∧
    cycleEvents w'.log = es ++ cycleEvents w.log ∧ (∀ e ∈ es, e.routine = true) := by
  obtain ⟨es, hl, he⟩ := h.log
  refine ⟨es, hl, ?_, he⟩
  rw [hl]
  exact cycleEvents_append fun e hm => (Event.routine_iff.mp (he e hm)).1

theorem cycle_subset (h : Grows w w') {e : Event} (he : e ∈ cycleEvents w.log) :
    e ∈ cycleEvents w'.log := by
  obtain ⟨es, _, hc, _⟩ := h.cycle_eq
  rw [hc]
  exact List.mem_append_right _ he

theorem answered (h : Grows w w') {t : Tile} (ht : Answered w.log t) : Answered w'.log t := by
  obtain ⟨oc, ho⟩ := ht
  exact ⟨oc, h.cycle_subset ho⟩

theorem began (h : Grows w w') {o : Origin}
    (hb : w.log = cycleEvents w.log ++ o.event :: o.before) :
    w'.log = cycleEvents w'.log ++ o.event :: o.before := by
  obtain ⟨es, hl, hc, _⟩ := h.cycle_eq
  rw [hc, List.append_assoc, ← hb, hl]

theorem verdicts (h : Grows w w') (hv : VerdictsOk cfg w.log) : VerdictsOk cfg w'.log := by
  obtain ⟨es, hl, he⟩ := h.log
  rw [hl]
  exact verdictsOk_append hv fun e hm => (Event.routine_iff.mp (he e hm)).2

theorem skipsKnown (h : Grows w w') (hk : SkipsKnown w'.log) : SkipsKnown w.log := by
  obtain ⟨es, hl, _⟩ := h.log
  intro e he
  exact hk e (hl ▸ List.mem_append_right es he)

theorem accounted (h : Grows w w') {t : Tile} (ht : accountedFor w t = true) :
    accountedFor w' t = true := by
  obtain ⟨es, hl, he⟩ := h.log
  have hs : sweepEvents w'.log = es ++ sweepEvents w.log := by
    rw [hl]
    exact sweepEvents_append fun e hm =>
      isSweepStart_of_not_isCycleStart (Event.routine_iff.mp (he e hm)).1
  rw [accountedFor_iff] at ht ⊢
  rcases ht with hf | ho | ho
  · exact (h.failed t hf).imp_right fun hc => .inl (cycleEvents_subset_sweepEvents hc)
  · exact .inr (.inl (hs ▸ List.mem_append_right es ho))
  · exact .inr (.inr (hs ▸ List.mem_append_right es ho))

theorem reached (h : Grows w w') {c : Cursor} (hr : Reached cfg w c) : Reached cfg w' c :=
  ⟨hr.1, fun hk t ht => h.accounted (hr.2 (h.skipsKnown hk) t ht)⟩

end Grows

theorem Nudge.grows {w w' : World} (h : Nudge w w') : Grows w w' :=
  ⟨h.log, fun t ht => .inl (by rwa [h.frame.1])⟩

theorem stable_reached (cfg : ScrapeConfig) (c : Cursor) : Stable fun w => Reached cfg w c :=
  fun _ _ hn h => hn.grows.reached h

theorem cycleStart_split {es : List Event} {s e : Event} {before l m r : List Event}
    (hl : l = es ++ s :: before) (hes : ∀ e ∈ es, e.isCycleStart = false)
    (hm : l = m ++ e :: r) (he : e.isCycleStart = true) :
    (m = es ∧ e = s ∧ r = before) ∨ ∃ m', m = es ++ s :: m' ∧ before = m' ++ e :: r := by
  rw [hl] at hm
  rcases List.append_eq_append_iff.mp hm with ⟨a, ha, hb⟩ | ⟨a, ha, hb⟩
  · cases a with
    | nil =>
      simp only [List.nil_append, List.cons.injEq] at hb
      exact .inl ⟨by simpa using ha, hb.1.symm, hb.2.symm⟩
    | cons x a =>
      simp only [List.cons_append, List.cons.injEq] at hb
      exact .inr ⟨a, by rw [ha, hb.1], hb.2⟩
  · cases a with
    | nil =>
      simp only [List.nil_append, List.cons.injEq] at hb
      exact .inl ⟨by simpa using ha.symm, hb.1, hb.2⟩
    | cons x a =>
      simp only [List.cons_append, List.cons.injEq] at hb
      have hx := hes e (by simp [ha, hb.1])
      simp [hx] at he

namespace Steady

variable {cfg : ScrapeConfig} {o : Origin} {w w' : World}

theorem rows_mem (h : Steady cfg o w) {t : Tile} (ht : t ∈ w.rows.failed) : t ∈ sweepTiles cfg :=
  (h.rows t ht).elim (h.origin.queue_mem t) h.origin.scheduled_mem

theorem attempted (h : Steady cfg o w) {t : Tile} (ht : Answered w.log t) :
    .attempt t ∈ cycleEvents w.log := by
  obtain ⟨oc, ho⟩ := ht
  exact h.events.outcome_attempt t oc ho

/-- The rows of the queue are still there or were attempted, over the whole sweep. -/
theorem lineage (h : Steady cfg o w) : LineageKept w.rows.failed.rows w.log := by
  intro m c q before hl hfresh t ht
  have hcycle : ∀ e ∈ cycleEvents w.log, e.isCycleStart = false :=
    fun e he => not_isCycleStart_of_mem he
  have hq : ∀ t ∈ o.queue, t ∈ w.rows.failed ∨ .attempt t ∈ cycleEvents w.log :=
    fun t ht => (h.queue t ht).imp_right h.attempted
  rcases cycleStart_split h.began hcycle hl rfl with ⟨rfl, he, rfl⟩ | ⟨m', rfl, hb⟩
  · simp only [Origin.event, Event.cycleStart.injEq] at he
    rcases hq t (he.2 ▸ ht) with hf | ha
    · exact .inl hf
    · exact .inr (.inl ha)
  · have hsome : o.cursor.isSome := by
      by_contra hn
      have hnone : o.cursor = none := by simpa using hn
      exact hfresh o.queue (by simp [Origin.event, hnone])
    have hfresh' : ∀ q', .cycleStart none q' ∉ m' :=
      fun q' hq' => hfresh q' (List.mem_append_right _ (List.mem_cons_of_mem _ hq'))
    rcases h.origin.lineage hsome m' c q before hb hfresh' t ht with hk | ha | hr
    · rcases hq t hk with hf | ha
      · exact .inl hf
      · exact .inr (.inl (List.mem_append_left _ ha))
    · exact .inr (.inl (List.mem_append_right _ (List.mem_cons_of_mem _ ha)))
    · exact .inr (.inr hr)

theorem good (h : Steady cfg o w) : Good cfg w :=
  ⟨h.verdicts, fun _ ht => h.rows_mem ht, fun _ => h.lineage, h.cursor⟩

end Steady

theorem tileEvents_fetch {s t : Tile} {stage : TileStage} {p : TileProgress}
    (hm : TileMove stage p) (h : .fetch s ∈ tileEvents t stage p) :
    s = t ∧ .attempt t ∈ tileEvents t stage p := by
  cases hm <;> simp [tileEvents] at h ⊢
  exact h

theorem tileEvents_outcome {s t : Tile} {oc : TileOutcome} {stage : TileStage} {p : TileProgress}
    (hm : TileMove stage p) (h : .outcome s oc ∈ tileEvents t stage p) : s = t ∧ p = .returns oc ∧
      ((oc = .storageSkipped ∧ .attempt t ∈ tileEvents t stage p) ∨ stage ≠ .created) := by
  cases hm <;> simp [tileEvents] at h ⊢ <;> simp [h]

theorem tileEvents_waits {t : Tile} {stage stage' : TileStage}
    (hm : TileMove stage (.waits stage')) : stage ≠ .created ∨
      (.attempt t ∈ tileEvents t stage (.waits stage') ∧
        .fetch t ∈ tileEvents t stage (.waits stage')) := by
  cases hm <;> simp [tileEvents]

section Tile

variable {S : List Tile} {w : World} {i : Nat} {task : TileTask} {sh : Shared} {p : TileProgress}

/-- The world after a step of one of its tasks. -/
def World.afterTile (w : World) (i : Nat) (task : TileTask) (sh : Shared) (p : TileProgress) :
    World :=
  { w with
    shared := sh
    mem := w.mem.move i task p
    log := tileEvents task.tile task.stage p ++ w.log }

theorem cycleEvents_afterTile : cycleEvents (w.afterTile i task sh p).log =
    tileEvents task.tile task.stage p ++ cycleEvents w.log :=
  cycleEvents_append fun _ he => (Event.routine_iff.mp (tileEvents_routine he)).1

theorem cycleEventsOk_tile (he : CycleEventsOk S w.log) (ht : TasksOk S w) (hk : task ∈ w.mem.tasks)
    (hm : TileMove task.stage p) : CycleEventsOk S (w.afterTile i task sh p).log := by
  constructor <;> rw [cycleEvents_afterTile] <;> simp only [List.mem_append]
  · rintro t (h | h)
    · rcases tileEvents_about hm h with ⟨h, _⟩ | ⟨h, _⟩ | h | h | ⟨oc, h, _⟩ <;>
        simp only [reduceCtorEq, Event.attempt.injEq] at h
      exact h ▸ ht.tile_mem task hk
    · exact he.attempt_mem t h
  · rintro t (h | h)
    · obtain ⟨rfl, ha⟩ := tileEvents_fetch hm h
      exact .inl ha
    · exact .inr (he.fetch_attempt t h)
  · rintro t oc (h | h)
    · obtain ⟨rfl, _, ⟨_, ha⟩ | hs⟩ := tileEvents_outcome hm h
      · exact .inl ha
      · exact .inr (ht.started task hk hs).1
    · exact .inr (he.outcome_attempt t oc h)
  · rintro t oc (h | h)
    · obtain ⟨rfl, _, ⟨ho, _⟩ | hs⟩ := tileEvents_outcome hm h
      · exact .inl ho
      · exact .inr (.inr (ht.started task hk hs).2)
    · exact (he.outcome_fetch t oc h).imp_right .inr

theorem tasksOk_tile (ht : TasksOk S w) (hk : task ∈ w.mem.tasks) (hm : TileMove task.stage p) :
    TasksOk S (w.afterTile i task sh p) := by
  constructor
  · intro k h
    rcases mem_tasks_move h with h | ⟨stage, _, rfl⟩
    · exact ht.tile_mem k h
    · exact ht.tile_mem task hk
  · intro k h hs
    rw [cycleEvents_afterTile]
    simp only [List.mem_append]
    rcases mem_tasks_move h with h | ⟨stage, rfl, rfl⟩
    · have hh := ht.started k h hs
      exact ⟨.inr hh.1, .inr hh.2⟩
    · rcases tileEvents_waits (t := task.tile) hm with hc | hc
      · have hh := ht.started task hk hc
        exact ⟨.inr hh.1, .inr hh.2⟩
      · exact ⟨.inl hc.1, .inl hc.2⟩
  · intro d h oc hd
    rw [cycleEvents_afterTile]
    rcases mem_done_move h hd with h | ⟨rfl, he⟩
    · exact List.mem_append_right _ (ht.finished d h oc hd)
    · refine List.mem_append_left _ ?_
      rw [he]
      cases task.stage <;> simp [tileEvents]

theorem paid_tile {held : Prop} (hp : Paid held w) (hm : TileMove task.stage p) :
    Paid held (w.afterTile i task sh p) := by
  intro t oc ho hf
  rw [cycleEvents_afterTile, List.mem_append] at ho
  simp only [World.afterTile, move_sweep]
  rcases ho with ho | ho
  · obtain ⟨_, rfl, _⟩ := tileEvents_outcome hm ho
    exact .inr (.inr (.inr ⟨_, List.mem_append_right _ List.mem_cons_self, oc, rfl, hf⟩))
  · rcases hp t oc ho hf with hh | hh | hh | ⟨d, hd, hr⟩
    · exact .inl hh
    · exact .inr (.inl hh)
    · exact .inr (.inr (.inl hh))
    · exact .inr (.inr (.inr ⟨d, done_subset_move _ _ _ _ hd, hr⟩))

end Tile

theorem stable_paid (held : Prop) : Stable (Paid held) := by
  intro w w' hn h
  cases hn with
  | env sh => exact h
  | tile ht =>
    obtain ⟨task, sh, p, _, hm, _, rfl⟩ := tileStep_cases ht
    exact paid_tile h hm

theorem stable_steady (cfg : ScrapeConfig) (o : Origin) : Stable (Steady cfg o) := by
  intro w w' hn h
  have hg := hn.grows
  have hr := hn.frame.1
  have hev : CycleEventsOk (scheduledTiles cfg o) w'.log ∧ TasksOk (scheduledTiles cfg o) w' := by
    cases hn with
    | env sh => exact ⟨h.events, h.tasks.1, h.tasks.2, h.tasks.3⟩
    | tile ht =>
      obtain ⟨task, sh, p, hk, hm, _, rfl⟩ := tileStep_cases ht
      have hk := List.mem_of_getElem? hk
      exact ⟨cycleEventsOk_tile h.events h.tasks hk hm, tasksOk_tile h.tasks hk hm⟩
  refine ⟨h.origin, hg.began h.began, hev.1, hev.2, ?_, ?_, hg.verdicts h.verdicts, ?_⟩
  · rw [hr]
    exact fun t ht => (h.queue t ht).imp_right hg.answered
  · rw [hr]
    exact h.rows
  · rw [hr]
    exact fun c hc => hg.reached (h.cursor c hc)

/-- Events by which the coroutine itself notes what it does. -/
def Event.bookkeeping : Event → Bool
  | .queued _ | .passedOver _ _ | .tripped | .abandoned => true
  | _ => false

theorem Event.bookkeeping_routine {e : Event} (h : e.bookkeeping = true) : e.routine = true := by
  cases e <;> first | rfl | cases h

/-- The coroutine runs on: it collects tasks, writes rows and notes events, but makes
no tile events of its own. -/
structure Books (w w' : World) : Prop where
  log : ∃ es, w'.log = es ++ w.log ∧ ∀ e ∈ es, e.bookkeeping = true
  failed : ∀ t ∈ w.rows.failed, t ∈ w'.rows.failed ∨ .outcome t .ok ∈ cycleEvents w.log

namespace Books

variable {cfg : ScrapeConfig} {o : Origin} {w w' : World}

theorem cycle_eq (h : Books w w') : ∃ es, w'.log = es ++ w.log ∧
    cycleEvents w'.log = es ++ cycleEvents w.log ∧ ∀ e ∈ es, e.bookkeeping = true := by
  obtain ⟨es, hl, he⟩ := h.log
  refine ⟨es, hl, ?_, he⟩
  rw [hl]
  exact cycleEvents_append fun e hm =>
    (Event.routine_iff.mp (Event.bookkeeping_routine (he e hm))).1

theorem mem_cycle_iff (h : Books w w') {e : Event} (hb : e.bookkeeping = false) :
    e ∈ cycleEvents w'.log ↔ e ∈ cycleEvents w.log := by
  obtain ⟨es, _, hc, he⟩ := h.cycle_eq
  rw [hc, List.mem_append, or_iff_right]
  intro hm
  simp [he e hm] at hb

theorem grows (h : Books w w') : Grows w w' := by
  obtain ⟨es, hl, hc, he⟩ := h.cycle_eq
  refine ⟨⟨es, hl, fun e hm => Event.bookkeeping_routine (he e hm)⟩, fun t ht => ?_⟩
  exact (h.failed t ht).imp_right fun ho => by rw [hc]; exact List.mem_append_right es ho

theorem events (h : Books w w') {S : List Tile} (he : CycleEventsOk S w.log) :
    CycleEventsOk S w'.log := by
  constructor
  · intro t ht
    exact he.attempt_mem t ((h.mem_cycle_iff rfl).mp ht)
  · intro t ht
    exact (h.mem_cycle_iff rfl).mpr (he.fetch_attempt t ((h.mem_cycle_iff rfl).mp ht))
  · intro t oc ht
    exact (h.mem_cycle_iff rfl).mpr (he.outcome_attempt t oc ((h.mem_cycle_iff rfl).mp ht))
  · intro t oc ht
    exact (he.outcome_fetch t oc ((h.mem_cycle_iff rfl).mp ht)).imp_right (h.mem_cycle_iff rfl).mpr

theorem tasks (h : Books w w') {S : List Tile} (ht : TasksOk S w)
    (hsub : w'.mem.tasks ⊆ w.mem.tasks) (hdone : w'.mem.done ⊆ w.mem.done) : TasksOk S w' := by
  constructor
  · exact fun k hk => ht.tile_mem k (hsub hk)
  · intro k hk hs
    have hh := ht.started k (hsub hk) hs
    exact ⟨h.grows.cycle_subset hh.1, h.grows.cycle_subset hh.2⟩
  · exact fun d hd oc hr => h.grows.cycle_subset (ht.finished d (hdone hd) oc hr)

end Books

/-- One step of the coroutine keeps the books if the rows and the cursor it writes fit. -/
theorem Steady.step {cfg : ScrapeConfig} {o : Origin} {w w' : World} (h : Steady cfg o w)
    (hb : Books w w') (htasks : TasksOk (scheduledTiles cfg o) w')
    (hrows : ∀ t ∈ w'.rows.failed, t ∈ w.rows.failed ∨ t ∈ scheduledTiles cfg o)
    (hcursor : ∀ c, w'.rows.cursor = some c → w.rows.cursor = some c ∨ Reached cfg w c) :
    Steady cfg o w' := by
  have hg := hb.grows
  refine ⟨h.origin, hg.began h.began, hb.events h.events, htasks, ?_, ?_, hg.verdicts h.verdicts, ?_⟩
  · intro t ht
    rcases h.queue t ht with hf | ha
    · exact (hb.failed t hf).imp_right fun ho => ⟨_, hg.cycle_subset ho⟩
    · exact .inr (hg.answered ha)
  · intro t ht
    exact (hrows t ht).elim (h.rows t) .inr
  · intro c hc
    exact (hcursor c hc).elim (fun hc => hg.reached (h.cursor c hc)) hg.reached

end DataService
