import DataService.Basemap.ZoomWalk
import DataService.Basemap.Cycles

/-! A whole cycle, from its gates to its verdict, and from it every run. -/

namespace DataService

open Coroutine Coro

/-- Where the sweep of a zoom starts in a cycle. -/
def resumeIndex (cfg : ScrapeConfig) (o : Origin) (zoom : Nat) : Nat :=
  if zoom = (o.start cfg).zoom then (o.start cfg).tileIndex else 0

/-- A zoom has been retried and swept. -/
def ZoomAnswered (cfg : ScrapeConfig) (o : Origin) (zoom : Nat) (w : World) : Prop :=
  (∀ t ∈ (iterTiles zoom cfg.bbox).drop (resumeIndex cfg o zoom), Answered w.log t) ∧
    ∀ t ∈ o.queue, t.zoom = zoom → Answered w.log t

section

variable {cfg : ScrapeConfig} {o : Origin} {zoom : Nat} {X : World → Prop} {w : World}

theorem monotone_zoomAnswered (zoom : Nat) : Monotone (ZoomAnswered cfg o zoom) :=
  fun _ _ hg h => ⟨fun t ht => hg.answered (h.1 t ht), fun t ht hz => hg.answered (h.2 t ht hz)⟩

theorem drop_scheduled (hlo : (o.start cfg).zoom ≤ zoom) (hhi : zoom ≤ cfg.maxZoom) :
    ∀ t ∈ (iterTiles zoom cfg.bbox).drop (resumeIndex cfg o zoom), t ∈ scheduledTiles cfg o := by
  intro t ht
  have hz := zoom_of_mem_iterTiles (List.mem_of_mem_drop ht)
  refine mem_scheduledTiles.mpr (.inl (mem_aheadTiles.mpr ⟨by omega, ?_⟩))
  by_cases he : zoom = (o.start cfg).zoom
  · rw [resumeIndex, if_pos he, he] at ht
    exact .inr ht
  · exact .inl ⟨by omega, hz ▸ List.mem_of_mem_drop ht⟩

theorem scheduled_answered
    (h : ∀ z, (o.start cfg).zoom ≤ z → z ≤ cfg.maxZoom → ZoomAnswered cfg o z w) :
    ∀ t ∈ scheduledTiles cfg o, Answered w.log t := by
  intro t ht
  rcases mem_scheduledTiles.mp ht with ha | ⟨hq, hlo, hhi⟩
  · obtain ⟨hmax, ⟨hlt, hi⟩ | hd⟩ := mem_aheadTiles.mp ha
    · refine (h t.zoom (by omega) hmax).1 t ?_
      rwa [resumeIndex, if_neg (by omega), List.drop_zero]
    · have hz := zoom_of_mem_iterTiles (List.mem_of_mem_drop hd)
      refine (h _ (Nat.le_refl _) (by omega)).1 t ?_
      rwa [resumeIndex, if_pos rfl]
  · exact (h t.zoom hlo hhi).2 t hq rfl

theorem retryFailedTiles_meets (hX : Monotone X) (h : AtRest cfg o False X w)
    (hlo : (o.start cfg).zoom ≤ zoom) (hhi : zoom ≤ cfg.maxZoom) :
    Meets (Good cfg) (Broken cfg o X)
      (fun _ w => AtRest cfg o False X w ∧ (w.mem.sweep.stopped = false →
        ∀ t ∈ o.queue, t.zoom = zoom → Answered w.log t)) (retryFailedTiles cfg zoom) w := by
  refine safe_bind (meets_listFailed (stable_atRest hX.stable) h (fun u hu => hu.steady.good)
    (fun u hu => hu.broken) ?_)
  intro u l hu hl
  have hmem : ∀ t, t ∈ l ↔ t ∈ u.rows.failed ∧ t.zoom = zoom :=
    fun t => hl.mem_iff.trans FailedTiles.mem_atZoom
  have hsched : ∀ t ∈ l, t ∈ scheduledTiles cfg o := by
    intro t ht
    obtain ⟨hf, hz⟩ := (hmem t).mp ht
    rcases hu.steady.rows t hf with hq | hs
    · exact mem_scheduledTiles.mpr (.inr ⟨hq, by omega, by omega⟩)
    · exact hs
  -- a row of the queue is retried now, or it was answered before and left
  have hY : Monotone fun v => X v ∧ ∀ t ∈ o.queue, t.zoom = zoom → t ∈ l ∨ Answered v.log t :=
    hX.and fun _ _ hg hv t ht hz => (hv t ht hz).imp_right hg.answered
  refine safe_mono ?_ (fun _ v hv => hv.mono fun hx => hx.1) (retryEach_meets hY
    ⟨hu.steady, hu.idle, hu.paid, hu.extra, fun t ht hz => ?_⟩ hsched 0 0)
  · rintro _ v ⟨hv, ha⟩
    exact ⟨hv.mono fun hx => hx.1, fun hn t ht hz => (hv.extra.2 t ht hz).elim (ha hn t) id⟩
  · exact (hu.steady.queue t ht).imp_left fun hf => (hmem t).mpr ⟨hf, hz⟩

theorem clearIfDrained_meets {l : List Tile} {P : SweepState → Prop} (hX : Monotone X)
    (h : AtRest cfg o False X w) (hl : l.Perm (w.rows.failed.atZoom zoom))
    (hp : P w.mem.sweep) :
    Meets (Good cfg) (Broken cfg o X) (fun _ w => AtRest cfg o False X w ∧ P w.mem.sweep)
      (clearIfDrained zoom l) w := by
  unfold clearIfDrained
  split_ifs with hnil
  · have hclear : ∀ u, AtRest cfg o False X u ∧ u.rows.failed.atZoom zoom = [] ∧ P u.mem.sweep →
        AtRest cfg o False X (u.clearFailed zoom) := by
      rintro u ⟨hu, hz, _⟩
      have hb := Books.clearFailed hz
      exact ⟨hu.steady.clearFailed hz, hu.idle, hu.paid.books hb rfl rfl, hX _ _ hb.grows hu.extra⟩
    have hz : w.rows.failed.atZoom zoom = [] := (hnil ▸ hl).nil_eq.symm
    exact meets_commit ((stable_atRest hX.stable).and
      (stable_frame fun r s _ => r.failed.atZoom zoom = [] ∧ P s)) ⟨h, hz, hp⟩
      (fun u hu => hu.1.steady.good) (fun u hu => ⟨hu.1.broken, (hclear u hu).broken⟩)
      fun u hu => ⟨hclear u hu, hu.2.2⟩
  · exact ⟨h, hp⟩

/-- A zoom is retried and swept to its end, or the sweep stops. -/
theorem scrapeZoom_meets (hX : Monotone X) (h : AtRest cfg o False X w)
    (hr : Reached cfg w ⟨zoom, resumeIndex cfg o zoom⟩) (hlo : (o.start cfg).zoom ≤ zoom)
    (hhi : zoom ≤ cfg.maxZoom) :
    Meets (Good cfg) (Broken cfg o X)
      (fun _ w => AtRest cfg o False X w ∧ (w.mem.sweep.stopped = false →
        Reached cfg w ⟨zoom + 1, 0⟩ ∧ ZoomAnswered cfg o zoom w))
      (scrapeZoom cfg zoom (resumeIndex cfg o zoom)) w := by
  have hXr : Monotone fun u => X u ∧ Reached cfg u ⟨zoom, resumeIndex cfg o zoom⟩ :=
    hX.and (monotone_reached cfg _)
  refine safe_bind (safe_mono ?_ (fun _ u hu => hu.mono fun hx => hx.1)
    (retryFailedTiles_meets hXr ⟨h.steady, h.idle, h.paid, h.extra, hr⟩ hlo hhi))
  rintro ⟨rok, rfailed⟩ u ⟨hu, hqueue⟩
  refine safe_bind ?_
  change Meets _ _ _ (if u.mem.sweep.stopped then _ else _) u
  by_cases hstop : u.mem.sweep.stopped = true
  · rw [if_pos hstop]
    exact ⟨hu.mono fun hx => hx.1, fun hn => by simp [hstop] at hn⟩
  · have hgo : u.mem.sweep.stopped = false := by simpa using hstop
    rw [if_neg hstop]
    have hY : Monotone fun v => X v ∧ ∀ t ∈ o.queue, t.zoom = zoom → Answered v.log t :=
      hX.and fun _ _ hg hv t ht hz => hg.answered (hv t ht hz)
    refine safe_bind (safe_mono ?_ (fun _ v hv => hv.mono fun hx => hx.1)
      (runIndexedSweep_meets hY (hu.mono fun hx => ⟨hx.1, hqueue hgo⟩) hgo hu.extra.2
        (drop_scheduled hlo hhi)))
    rintro ⟨sok, sfailed⟩ v ⟨hv, hdone⟩
    have hrest : Stable (AtRest cfg o False _) := stable_atRest hY.stable
    have hst := hrest.and (Stable.imp (stable_frame fun _ s _ => ¬ s.stopped = false)
        ((stable_reached cfg ⟨zoom + 1, 0⟩).and
          (monotone_allAnswered ((iterTiles zoom cfg.bbox).drop (resumeIndex cfg o zoom))).stable))
    refine safe_bind (meets_listFailed hst ⟨hv, hdone⟩ (fun x hx => hx.1.steady.good)
      (fun x hx => (hx.1.mono fun hh => hh.1).broken) ?_)
    rintro x l ⟨hx, hdone⟩ hl
    refine safe_bind ?_
    by_cases hn : x.mem.sweep.stopped = false
    · have hz : ZoomAnswered cfg o zoom x := ⟨(hdone hn).2, hx.extra.2⟩
      refine safe_mono ?_ (fun _ y hy => hy.mono fun hh => hh.1) (clearIfDrained_meets
        (P := fun _ => True) (hX.and ((monotone_reached cfg ⟨zoom + 1, 0⟩).and
          (monotone_zoomAnswered zoom)))
        (hx.mono fun hh => ⟨hh.1, (hdone hn).1, hz⟩) hl trivial)
      rintro _ y ⟨hy, _⟩
      exact ⟨hy.mono fun hh => hh.1, fun _ => hy.extra.2⟩
    · refine safe_mono ?_ (fun _ y hy => hy) (clearIfDrained_meets
        (P := fun s => ¬ s.stopped = false) hX (hx.mono fun hh => hh.1) hl hn)
      rintro _ y ⟨hy, hny⟩
      exact ⟨hy, fun hf => absurd hf hny⟩

theorem scrapeZooms_meets (hX : Monotone X) {n z : Nat} (h : AtRest cfg o False X w)
    (hr : Reached cfg w ⟨z, resumeIndex cfg o z⟩) (hlo : (o.start cfg).zoom ≤ z)
    (hhi : ∀ y < z + n, z ≤ y → y ≤ cfg.maxZoom) (downloaded failed : Nat) :
    Meets (Good cfg) (Broken cfg o X)
      (fun _ w => AtRest cfg o False X w ∧ (w.mem.sweep.stopped = false →
        ∀ y, z ≤ y → y < z + n → ZoomAnswered cfg o y w))
      (scrapeZooms cfg (o.start cfg) (List.range' z n) downloaded failed) w := by
  induction n generalizing z w X downloaded failed with
  | zero => exact ⟨h, fun _ y hy hlt => by omega⟩
  | succ n ih =>
    refine safe_bind (safe_mono ?_ (fun _ u hu => hu) (scrapeZoom_meets hX h hr hlo
      (hhi z (by omega) (Nat.le_refl z))))
    rintro ⟨zok, zfailed⟩ u ⟨hu, hzoom⟩
    refine safe_bind ?_
    change Meets _ _ _ (if u.mem.sweep.stopped then _ else _) u
    by_cases hstop : u.mem.sweep.stopped = true
    · rw [if_pos hstop]
      exact ⟨hu, fun hn => by simp [hstop] at hn⟩
    · rw [if_neg hstop]
      obtain ⟨hnext, hz⟩ := hzoom (by simpa using hstop)
      have hr' : Reached cfg u ⟨z + 1, resumeIndex cfg o (z + 1)⟩ := by
        rwa [resumeIndex, if_neg (by omega)]
      refine safe_mono ?_ (fun _ v hv => hv.mono fun hx => hx.1)
        (ih (hX.and (monotone_zoomAnswered z)) ⟨hu.steady, hu.idle, hu.paid, hu.extra, hz⟩ hr'
          (by omega) (fun y hlt hy => hhi y (by omega) (by omega)) _ _)
      rintro _ v ⟨hv, hrest⟩
      refine ⟨hv.mono fun hx => hx.1, fun hn y hy hlt => ?_⟩
      rcases Nat.eq_or_lt_of_le hy with rfl | hgt
      · exact hv.extra.2
      · exact hrest hn y hgt (by omega)

/-- Between two cycles, and in one that is finishing. -/
structure Resting (cfg : ScrapeConfig) (w : World) : Prop where
  good : Good cfg w
  idle : Idle w

theorem Reached.of_eq {w' : World} {c : Cursor} (h : Reached cfg w c) (hl : w'.log = w.log)
    (hf : w'.rows.failed = w.rows.failed) : Reached cfg w' c := by
  have ha : ∀ t, accountedFor w' t = accountedFor w t := fun t => by
    simp only [accountedFor, hl, hf]
  refine ⟨h.1, fun hk t ht => ?_⟩
  rw [ha]
  exact h.2 (hl ▸ hk) t ht

/-- Rows that say nothing about the sweep may change, and the cursor may go. -/
theorem Good.of_eq {w' : World} (h : Good cfg w) (hl : w'.log = w.log)
    (hf : w'.rows.failed = w.rows.failed)
    (hc : w'.rows.cursor = w.rows.cursor ∨ w'.rows.cursor = none) : Good cfg w' := by
  refine ⟨hl ▸ h.verdicts, hf ▸ h.rows, ?_, ?_⟩ <;> rcases hc with hc | hc
  · rw [hc, hf, hl]
    exact h.lineage
  · simp [hc]
  · rw [hc]
    exact fun c hh => (h.cursor c hh).of_eq hl hf
  · simp [hc]

theorem Resting.setShared (h : Resting cfg w) (sh : Shared) : Resting cfg (w.setShared sh) :=
  ⟨h.good.of_eq rfl rfl (.inl rfl), h.idle⟩

theorem stable_resting : Stable (Resting cfg) := by
  intro w w' hn h
  have hi := stable_idle w w' hn h.idle
  cases hn with
  | env sh => exact h.setShared sh
  | tile ht =>
    obtain ⟨task, _, _, hk, _⟩ := tileStep_cases ht
    simp [h.idle.1] at hk

/-- A write that leaves the log, the failed rows and the cursor alone. -/
theorem meets_quietCommit {f : World → World} {Q : Unit → World → Prop} {P : World → Prop}
    (hs : Stable P) (hp : P w) (hP : ∀ w, P w → Resting cfg w) (hf : ∀ w, P w → P (f w))
    (hq : ∀ w, P w → Q () w) : Meets (Good cfg) (Resting cfg) Q (commit f) w :=
  meets_commit hs hp (fun u hu => (hP u hu).good) (fun u hu => ⟨hP u hu, hP _ (hf u hu)⟩)
    fun u hu => hq _ (hf u hu)

theorem recordSweepStats_meets (h : Resting cfg w) (downloaded failed : Nat) (completed : Bool) :
    Meets (Good cfg) (Resting cfg) (fun _ => Resting cfg)
      (recordSweepStats downloaded failed completed) w :=
  meets_quietCommit stable_resting h (fun _ hu => hu)
    (fun _ hu => ⟨hu.good.of_eq rfl rfl (.inl rfl), hu.idle⟩) fun _ hu => hu

theorem finishTripped_meets (h : Steady cfg o w) (hi : Idle w) (health : Option ProviderHealth)
    (downloaded failed : Nat) :
    Meets (Good cfg) (Resting cfg) (fun _ => Resting cfg)
      (finishTripped cfg health downloaded failed) w := by
  have hr : Resting cfg (w.record .tripped) := ⟨(h.record rfl).good, hi⟩
  refine safe_bind (safe_bind (safe_bind (safe_bind ?_)))
  refine meets_quietCommit stable_resting hr (fun _ hu => hu)
    (fun _ hu => ⟨hu.good.of_eq rfl rfl (.inl rfl), hu.idle⟩) fun u hu => ?_
  exact recordSweepStats_meets hu downloaded failed false

theorem finishAbandonedSweep_meets (h : Steady cfg o w) (hi : Idle w) (downloaded failed : Nat) :
    Meets (Good cfg) (Resting cfg) (fun _ => Resting cfg)
      (finishAbandonedSweep downloaded failed) w := by
  have hr : Resting cfg (w.record .abandoned) := ⟨(h.record rfl).good, hi⟩
  exact safe_bind (recordSweepStats_meets (hr.setShared _) downloaded failed false)

theorem finishIncomplete_meets (h : Resting cfg w) (downloaded failed : Nat) :
    Meets (Good cfg) (Resting cfg) (fun _ => Resting cfg)
      (finishIncomplete downloaded failed) w := by
  refine safe_bind (meets_quietCommit stable_resting h (fun _ hu => hu)
    (fun _ hu => ⟨hu.good.of_eq rfl rfl (.inr rfl), hu.idle⟩) fun u hu => ?_)
  exact safe_bind (recordSweepStats_meets (hu.setShared _) downloaded failed false)

theorem CompletedCycle.verdict {log : List Event} {e : Event} (h : CompletedCycle cfg o log)
    (he : e.isVerdict = true) : CompletedCycle cfg o (e :: log) := by
  have hs : e.isCycleStart = false := by cases e <;> first | rfl | cases he
  have hc : cycleEvents (e :: log) = e :: cycleEvents log := by simp [cycleEvents, hs]
  have hm : ∀ {d : Event}, d.isVerdict = false → (d ∈ cycleEvents (e :: log) ↔ d ∈ cycleEvents log) := by
    intro d hd
    rw [hc, List.mem_cons, or_iff_right]
    rintro rfl
    simp [hd] at he
  refine ⟨h.origin, by rw [hc, List.cons_append, ← h.began], ⟨?_, ?_, ?_, ?_⟩, ?_, ?_⟩
  · exact fun t ht => h.events.attempt_mem t ((hm rfl).mp ht)
  · exact fun t ht => (hm rfl).mpr (h.events.fetch_attempt t ((hm rfl).mp ht))
  · exact fun t oc ht => (hm rfl).mpr (h.events.outcome_attempt t oc ((hm rfl).mp ht))
  · exact fun t oc ht => (h.events.outcome_fetch t oc ((hm rfl).mp ht)).imp_right (hm rfl).mpr
  · intro t ht
    obtain ⟨oc, ho⟩ := h.answered t ht
    exact ⟨oc, (hm rfl).mpr ho⟩
  · exact fun t oc ht => h.stored t oc ((hm rfl).mp ht)

/-- On the way to the verdict: the cursor row is gone and the log is complete. -/
structure Completing (cfg : ScrapeConfig) (o : Origin) (w : World) : Prop where
  resting : Resting cfg w
  complete : CompletedCycle cfg o w.log
  cursor : w.rows.cursor = none

theorem stable_completing : Stable (Completing cfg o) := by
  intro w w' hn h
  have hl := stable_log_of_idle (CompletedCycle cfg o) w w' hn ⟨h.resting.idle, h.complete⟩
  exact ⟨stable_resting w w' hn h.resting, hl.2, by rw [hn.frame.1]; exact h.cursor⟩

/-- With no cursor, any failed rows that are left are the provider's own. -/
theorem Completing.of_eq {w' : World} (h : Completing cfg o w) (hl : w'.log = w.log)
    (hf : ∀ t ∈ w'.rows.failed, t ∈ w.rows.failed) (hc : w'.rows.cursor = none)
    (hm : w'.mem = w.mem) : Completing cfg o w' := by
  refine ⟨⟨⟨hl ▸ h.resting.good.verdicts, fun t ht => h.resting.good.rows t (hf t ht), ?_, ?_⟩, ?_⟩,
    hl ▸ h.complete, hc⟩
  · simp [hc]
  · simp [hc]
  · exact ⟨hm ▸ h.resting.idle.1, hm ▸ h.resting.idle.2⟩

theorem Completing.verdict {e : Event} (h : Completing cfg o w) (he : e.isVerdict = true) :
    Completing cfg o (w.record e) := by
  refine ⟨⟨⟨verdictsOk_cons.mpr ⟨h.resting.good.verdicts, fun _ => ⟨o, h.complete⟩⟩,
    h.resting.good.rows, ?_, ?_⟩, h.resting.idle⟩, h.complete.verdict he, h.cursor⟩
  · simp [World.record, h.cursor]
  · simp [World.record, h.cursor]

theorem finishCompleted_meets (h : Resting cfg w) (hc : CompletedCycle cfg o w.log)
    (downloaded failed : Nat) :
    Meets (Good cfg) (Resting cfg) (fun _ => Resting cfg)
      (finishCompleted downloaded failed) w := by
  have hP : Stable fun u => Resting cfg u ∧ Idle u ∧ CompletedCycle cfg o u.log :=
    stable_resting.and (stable_log_of_idle _)
  have hclear : ∀ u, Resting cfg u → Resting cfg u.clearCursor :=
    fun u hu => ⟨hu.good.of_eq rfl rfl (.inr rfl), hu.idle⟩
  refine safe_bind (meets_commit hP ⟨h, h.idle, hc⟩ (fun u hu => hu.1.good)
    (fun u hu => ⟨hu.1, hclear u hu.1⟩) fun u hu => ?_)
  have h₁ : Completing cfg o u.clearCursor := ⟨hclear u hu.1, hu.2.2, rfl⟩
  refine safe_bind (meets_quietCommit stable_completing h₁ (fun _ hv => hv.resting)
    (fun v hv => hv.of_eq rfl (fun t ht => absurd ht (FailedTiles.not_mem_empty t)) hv.cursor rfl)
    fun v hv => ?_)
  have h₂ := hv.verdict (e := .stamped) rfl
  refine safe_bind (safe_bind (safe_bind (meets_quietCommit stable_completing h₂
    (fun _ hx => hx.resting) (fun x hx => hx.of_eq rfl (fun t ht => ht) hx.cursor rfl)
    fun x hx => ?_)))
  have hclose : ∀ y, Completing cfg o y → Completing cfg o y.closeCircuit := by
    intro y hy
    have hrow : Completing cfg o (y.setRows ({ · with health := none })) :=
      hy.of_eq rfl (fun t ht => ht) hy.cursor rfl
    exact hrow.verdict rfl
  refine safe_bind (meets_quietCommit stable_completing hx (fun _ hy => hy.resting) hclose
    fun y hy => ?_)
  exact recordSweepStats_meets hy.resting downloaded failed true

theorem completedCycle_of_atRest (h : AtRest cfg o False X w) (hgo : w.mem.sweep.stopped = false)
    (hz : ∀ z, (o.start cfg).zoom ≤ z → z ≤ cfg.maxZoom → ZoomAnswered cfg o z w)
    (hs : w.mem.sweep.storageErrors = 0) : CompletedCycle cfg o w.log := by
  refine ⟨h.steady.origin, h.steady.began, h.steady.events, scheduled_answered hz, ?_⟩
  intro t oc ho
  by_contra hf
  rcases h.paid t oc ho (by simpa using hf) with hh | hh | hh | ⟨d, hd, _⟩
  · simp [hgo] at hh
  · omega
  · exact hh
  · simp [h.idle.2] at hd

theorem finishSweep_meets (h : AtRest cfg o False X w)
    (hz : w.mem.sweep.stopped = false →
      ∀ z, (o.start cfg).zoom ≤ z → z ≤ cfg.maxZoom → ZoomAnswered cfg o z w)
    (health : Option ProviderHealth) (downloaded failed : Nat) :
    Meets (Good cfg) (Resting cfg) (fun _ => Resting cfg)
      (finishSweep cfg health downloaded failed) w := by
  have hr : Resting cfg w := ⟨h.steady.good, h.idle⟩
  refine safe_bind ?_
  change Meets _ _ _ (if w.mem.sweep.tripped then _ else if w.mem.sweep.storageAbandoned then _
    else if 0 < w.mem.sweep.storageErrors then _ else _) w
  split_ifs with htrip hab herr
  · exact finishTripped_meets h.steady h.idle health downloaded failed
  · exact finishAbandonedSweep_meets h.steady h.idle downloaded failed
  · exact finishIncomplete_meets hr downloaded failed
  · have hgo : w.mem.sweep.stopped = false := by simp [SweepState.stopped, htrip, hab]
    exact finishCompleted_meets hr (completedCycle_of_atRest h hgo (hz hgo) (by omega)) downloaded
      failed

theorem atRest_begin {cursor : Option Cursor} (h : Resting cfg w) (hc : w.rows.cursor = cursor) :
    AtRest cfg ⟨cursor, w.rows.failed.rows, w.log⟩ False
      (fun u => Reached cfg u ((Origin.mk cursor w.rows.failed.rows w.log).start cfg))
      ((w.record (.cycleStart cursor w.rows.failed.rows)).setSweep .new) := by
  subst hc
  have hnil : cycleEvents (.cycleStart w.rows.cursor w.rows.failed.rows :: w.log) = [] := by simp
  have hreach : ∀ c, w.rows.cursor = some c → Reached cfg
      ((w.record (.cycleStart w.rows.cursor w.rows.failed.rows)).setSweep .new) c := by
    intro c hc
    obtain ⟨hmin, hr⟩ := h.good.cursor c hc
    refine ⟨hmin, fun hk t ht => ?_⟩
    have hk' : SkipsKnown w.log := fun s hs => hk s (List.mem_cons_of_mem _ hs)
    have ha := accountedFor_iff.mp (hr hk' t ht)
    refine accountedFor_iff.mpr (ha.imp_right ?_)
    simp [World.setSweep, World.record, hc]
  refine ⟨⟨⟨h.good.rows, ?_, fun hs => h.good.lineage hs⟩, ?_, ⟨?_, ?_, ?_, ?_⟩, ⟨?_, ?_, ?_⟩,
    fun t ht => .inl ht, fun t ht => .inl ht,
    verdictsOk_cons.mpr ⟨h.good.verdicts, fun hv => by cases hv⟩, hreach⟩, h.idle, ?_, ?_⟩
  · cases hc : w.rows.cursor with
    | none => exact Nat.le_refl _
    | some c => exact (h.good.cursor c hc).1
  · exact (congrArg (· ++ _) hnil).symm
  · exact fun t ht => absurd (hnil ▸ ht) List.not_mem_nil
  · exact fun t ht => absurd (hnil ▸ ht) List.not_mem_nil
  · exact fun t oc ht => absurd (hnil ▸ ht) List.not_mem_nil
  · exact fun t oc ht => absurd (hnil ▸ ht) List.not_mem_nil
  · exact fun k hk => absurd (h.idle.1 ▸ hk) List.not_mem_nil
  · exact fun k hk => absurd (h.idle.1 ▸ hk) List.not_mem_nil
  · exact fun d hd => absurd (h.idle.2 ▸ hd) List.not_mem_nil
  · exact fun t oc ht => absurd (hnil ▸ ht) List.not_mem_nil
  · cases hc : w.rows.cursor with
    | none =>
      refine ⟨Nat.le_refl _, fun _ t ht => ?_⟩
      simp [Origin.start, passedTiles] at ht
    | some c =>
      have hr := hreach c hc
      rw [hc] at hr
      exact hr

theorem sweepProvider_meets {cursor : Option Cursor} (h : Resting cfg w)
    (hc : w.rows.cursor = cursor) (health : Option ProviderHealth) :
    Meets (Good cfg) (Resting cfg) (fun _ => Resting cfg) (sweepProvider cfg health cursor) w := by
  have hb := atRest_begin h hc
  refine safe_bind ?_
  have hr := hb.extra
  have hz := scrapeZooms_meets (n := cfg.maxZoom + 1 -
      ((Origin.mk cursor w.rows.failed.rows w.log).start cfg).zoom) (monotone_reached cfg _) hb
    (by rwa [resumeIndex, if_pos rfl]) (Nat.le_refl _) (fun y hy hlo => by omega) 0 0
  refine safe_bind (safe_mono ?_ (fun _ u hu => ⟨hu.steady.good, hu.idle⟩) hz)
  rintro ⟨downloaded, failed⟩ u ⟨hu, hall⟩
  refine safe_bind (safe_mono (fun _ v hv => hv) (fun _ v hv => hv) (finishSweep_meets hu
    (fun hn z hlo hhi => hall hn z hlo (by omega)) health downloaded failed))

theorem notDue_meets {cursor : Option Cursor} {now : Nat}
    (h : Resting cfg w ∧ w.rows.cursor = cursor) :
    Meets (Good cfg) (Resting cfg) (fun _ u => Resting cfg u ∧ u.rows.cursor = cursor)
      (notDue cfg cursor now) w := by
  have hs : Stable fun u => Resting cfg u ∧ u.rows.cursor = cursor :=
    stable_resting.and (stable_frame fun r _ _ => r.cursor = cursor)
  cases cursor with
  | some c => exact h
  | none => exact safe_bind (meets_query hs h (fun u hu => hu.1.good) (fun u hu => hu.1) fun u hu => hu)

theorem scrapeProvider_meets (h : Resting cfg w) :
    Meets (Good cfg) (Resting cfg) (fun _ => Resting cfg) (scrapeProvider cfg) w := by
  refine safe_bind ?_
  change Meets _ _ _ (if w.shared.storageDownThisCycle then _ else _) w
  split_ifs
  · exact h
  · refine safe_bind (safe_bind (meets_query stable_resting h (fun u hu => hu.good)
      (fun u hu => hu) fun u hu => ?_))
    split_ifs
    · exact hu
    · have hP : Stable fun v => Resting cfg v ∧ True := stable_resting.and (stable_const True)
      refine safe_bind (meets_query hP ⟨hu, trivial⟩ (fun v hv => hv.1.good) (fun v hv => hv.1)
        fun v hv => ?_)
      refine safe_bind (safe_mono ?_ (fun _ x hx => hx) (notDue_meets ⟨hv.1, rfl⟩))
      rintro due x ⟨hx, hcx⟩
      split_ifs
      · exact hx
      · exact sweepProvider_meets hx hcx u.rows.health

end

end DataService
