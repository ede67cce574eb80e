import DataService.Basemap.SweepLedger

/-! The single steps of a sweep and the books: tasks are created, collected and
cancelled, rows are written, the frontier moves. -/

namespace DataService

open Coroutine Coro

/-- Facts that stay true as rows and log gain. -/
def Monotone (X : World → Prop) : Prop := ∀ w w', Grows w w' → X w → X w'

theorem Monotone.stable {X : World → Prop} (h : Monotone X) : Stable X :=
  fun w w' hn => h w w' hn.grows

theorem Monotone.and {X Y : World → Prop} (hx : Monotone X) (hy : Monotone Y) :
    Monotone fun w => X w ∧ Y w :=
  fun w w' hg h => ⟨hx w w' hg h.1, hy w w' hg h.2⟩

theorem monotone_reached (cfg : ScrapeConfig) (c : Cursor) : Monotone fun w => Reached cfg w c :=
  fun _ _ hg h => hg.reached h

theorem monotone_allAnswered (ts : List Tile) : Monotone fun w => ∀ t ∈ ts, Answered w.log t :=
  fun _ _ hg h t ht => hg.answered (h t ht)

theorem monotone_cycleEvent (e : Event) : Monotone fun w => e ∈ cycleEvents w.log :=
  fun _ _ hg h => hg.cycle_subset h

theorem monotone_accounted (t : Tile) :
    Monotone fun w => SkipsKnown w.log → accountedFor w t = true :=
  fun _ _ hg h hk => hg.accounted (h (hg.skipsKnown hk))

section

variable {cfg : ScrapeConfig} {o : Origin} {X : World → Prop} {w w' : World}

theorem Books.of_eq (hl : w'.log = w.log) (hr : w'.rows = w.rows) : Books w w' :=
  ⟨⟨[], by simp [hl], by simp⟩, fun t ht => .inl (by rwa [hr])⟩

theorem Books.setTasks (tasks : List TileTask) (done : List DoneTile) :
    Books w (w.setTasks tasks done) := .of_eq rfl rfl

theorem Books.setSweep (s : SweepState) : Books w (w.setSweep s) := .of_eq rfl rfl

theorem Books.setProgress (p : SweepProgress) : Books w (w.setProgress p) := .of_eq rfl rfl

theorem Books.record {e : Event} (he : e.bookkeeping = true) : Books w (w.record e) :=
  ⟨⟨[e], rfl, by simpa using he⟩, fun _ ht => .inl ht⟩

theorem Books.setCursor (c : Cursor) : Books w (w.setCursor c) :=
  ⟨⟨[], rfl, by simp⟩, fun _ ht => .inl ht⟩

theorem Books.addFailed (t : Tile) : Books w (w.addFailed t) := by
  unfold World.addFailed
  split_ifs with h
  · exact .of_eq rfl rfl
  · exact ⟨⟨[.queued t], rfl, by simp [Event.bookkeeping]⟩,
      fun s hs => .inl (FailedTiles.mem_add.mpr (.inr hs))⟩

theorem Books.removeFailed {t : Tile} (h : .outcome t .ok ∈ cycleEvents w.log) :
    Books w (w.removeFailed t) := by
  refine ⟨⟨[], rfl, by simp⟩, fun s hs => ?_⟩
  by_cases he : s = t
  · exact .inr (he ▸ h)
  · exact .inl (FailedTiles.mem_remove.mpr ⟨hs, he⟩)

theorem Books.clearFailed {zoom : Nat} (h : w.rows.failed.atZoom zoom = []) :
    Books w (w.clearFailed zoom) := by
  refine ⟨⟨[], rfl, by simp⟩, fun s hs => .inl (FailedTiles.mem_clearZoom.mpr ⟨hs, fun he => ?_⟩)⟩
  have hm := FailedTiles.mem_atZoom.mpr ⟨hs, he⟩
  simp [h] at hm

theorem Steady.of_eq (h : Steady cfg o w) (hl : w'.log = w.log) (hr : w'.rows = w.rows)
    (ht : w'.mem.tasks ⊆ w.mem.tasks) (hd : w'.mem.done ⊆ w.mem.done) : Steady cfg o w' := by
  have hb := Books.of_eq hl hr
  refine h.step hb (hb.tasks h.tasks ht hd) ?_ ?_ <;> rw [hr]
  · exact fun t ht => .inl ht
  · exact fun c hc => .inl hc

theorem Steady.record (h : Steady cfg o w) {e : Event} (he : e.bookkeeping = true) :
    Steady cfg o (w.record e) :=
  h.step (.record he) ((Books.record he).tasks h.tasks (List.Subset.refl _) (List.Subset.refl _))
    (fun _ ht => .inl ht) (fun _ hc => .inl hc)

theorem Steady.setCursor (h : Steady cfg o w) {c : Cursor} (hc : Reached cfg w c) :
    Steady cfg o (w.setCursor c) := by
  have hb := Books.setCursor (w := w) c
  refine h.step hb (hb.tasks h.tasks (List.Subset.refl _) (List.Subset.refl _))
    (fun t ht => .inl ht) fun c' hc' => .inr ?_
  cases hc'
  exact hc

theorem addFailed_mem_iff {t s : Tile} :
    s ∈ (w.addFailed t).rows.failed ↔ s = t ∨ s ∈ w.rows.failed := by
  unfold World.addFailed
  split_ifs with h
  · exact ⟨.inr, fun hs => hs.elim (fun he => he ▸ h) id⟩
  · exact FailedTiles.mem_add

theorem addFailed_cursor (t : Tile) : (w.addFailed t).rows.cursor = w.rows.cursor := by
  unfold World.addFailed
  split_ifs <;> rfl

theorem addFailed_mem (t : Tile) : (w.addFailed t).mem = w.mem := by
  unfold World.addFailed
  split_ifs <;> rfl

theorem Steady.addFailed (h : Steady cfg o w) {t : Tile} (ht : t ∈ scheduledTiles cfg o) :
    Steady cfg o (w.addFailed t) := by
  have hb := Books.addFailed (w := w) t
  have hm := addFailed_mem (w := w) t
  refine h.step hb (hb.tasks h.tasks (by simp [hm]) (by simp [hm])) ?_ ?_
  · intro s hs
    rcases addFailed_mem_iff.mp hs with rfl | hs
    · exact .inr ht
    · exact .inl hs
  · exact fun c hc => .inl (addFailed_cursor t ▸ hc)

theorem Steady.removeFailed (h : Steady cfg o w) {t : Tile}
    (ht : .outcome t .ok ∈ cycleEvents w.log) : Steady cfg o (w.removeFailed t) := by
  have hb := Books.removeFailed ht
  exact h.step hb (hb.tasks h.tasks (List.Subset.refl _) (List.Subset.refl _))
    (fun s hs => .inl (FailedTiles.mem_remove.mp hs).1) (fun _ hc => .inl hc)

theorem Steady.clearFailed (h : Steady cfg o w) {zoom : Nat}
    (hz : w.rows.failed.atZoom zoom = []) : Steady cfg o (w.clearFailed zoom) := by
  have hb := Books.clearFailed hz
  exact h.step hb (hb.tasks h.tasks (List.Subset.refl _) (List.Subset.refl _))
    (fun s hs => .inl (FailedTiles.mem_clearZoom.mp hs).1) (fun _ hc => .inl hc)

theorem Paid.books {held : Prop} (h : Paid held w) (hb : Books w w')
    (hm : w'.mem.sweep = w.mem.sweep) (hd : w'.mem.done = w.mem.done) : Paid held w' := by
  intro t oc ho hf
  rw [hm, hd]
  exact h t oc ((hb.mem_cycle_iff rfl).mp ho) hf

theorem SweepState.stopped_update {ss : ScraperSettings} {ex : Bool} {s : SweepState}
    {oc : TileOutcome} {t : Tile} (h : s.stopped = true) : (s.update ss ex oc t).stopped = true := by
  simp only [SweepState.stopped, Bool.or_eq_true] at h ⊢
  cases oc
  case missing => exact h
  all_goals simp only [SweepState.update, SweepState.judge, SweepState.observe]
  all_goals try split_ifs
  all_goals rcases h with h | h <;> simp [h]

/-- Counting the outcome pays for what the coroutine held. -/
theorem paid_update {ex : Bool} {oc : TileOutcome} {t : Tile}
    (h : Paid (oc.isStorageFailure = true) w) :
    Paid False (w.setSweep (w.mem.sweep.update cfg.settings ex oc t)) := by
  intro s od ho hf
  have he := SweepState.update_storageErrors cfg.settings ex w.mem.sweep oc t
  rcases h s od ho hf with hh | hh | hh | hh
  · exact .inl (SweepState.stopped_update hh)
  · exact .inr (.inl (by simp only [World.setSweep, he]; omega))
  · exact .inr (.inl (by simp [World.setSweep, he, hh]))
  · exact .inr (.inr (.inr hh))

/-- Every index the frontier counts as done is a tile accounted for. -/
def FrontedAt (cfg : ScrapeConfig) (zoom : Nat) (f : Frontier) (w : World) : Prop :=
  Reached cfg w ⟨zoom, 0⟩ ∧ (SkipsKnown w.log → ∀ i t, f.Done i →
    (iterTiles zoom cfg.bbox)[i]? = some t → accountedFor w t = true)

def Fronted (cfg : ScrapeConfig) (zoom : Nat) (w : World) : Prop :=
  FrontedAt cfg zoom w.mem.progress.frontier w

theorem monotone_frontedAt (zoom : Nat) (f : Frontier) : Monotone (FrontedAt cfg zoom f) :=
  fun _ _ hg h => ⟨hg.reached h.1, fun hk i t hi ht =>
    hg.accounted (h.2 (hg.skipsKnown hk) i t hi ht)⟩

theorem stable_fronted (zoom : Nat) : Stable (Fronted cfg zoom) := by
  intro w w' hn h
  unfold Fronted
  rw [hn.frame.2.2]
  exact monotone_frontedAt zoom _ w w' hn.grows h

theorem Fronted.books {zoom : Nat} (h : Fronted cfg zoom w) (hb : Books w w')
    (hm : w'.mem.progress.frontier = w.mem.progress.frontier) : Fronted cfg zoom w' := by
  unfold Fronted
  rw [hm]
  exact monotone_frontedAt zoom _ w w' hb.grows h

theorem frontedAt_start {zoom resume : Nat} (h : Reached cfg w ⟨zoom, resume⟩) :
    FrontedAt cfg zoom (.start resume) w := by
  refine ⟨⟨h.1, fun hk t ht => h.2 hk t ?_⟩, fun hk i t hi ht => h.2 hk t ?_⟩
  · rw [mem_passedTiles] at ht ⊢
    exact ht.imp_right fun hh => by simp at hh
  · refine mem_passedTiles.mpr (.inr ?_)
    rw [Frontier.start_done] at hi
    exact List.mem_of_getElem? (by rw [List.getElem?_take_of_lt hi]; exact ht)

theorem frontedAt_advance {zoom idx : Nat} {f : Frontier} {t : Tile} (h : FrontedAt cfg zoom f w)
    (ht : (iterTiles zoom cfg.bbox)[idx]? = some t)
    (ha : SkipsKnown w.log → accountedFor w t = true) : FrontedAt cfg zoom (f.advance idx) w := by
  refine ⟨h.1, fun hk i s hi hs => ?_⟩
  rcases (Frontier.advance_done f idx i).mp hi with hi | rfl
  · exact h.2 hk i s hi hs
  · rw [ht] at hs
    cases hs
    exact ha hk

theorem FrontedAt.reached_mark {zoom : Nat} {f : Frontier} (h : FrontedAt cfg zoom f w) :
    Reached cfg w ⟨zoom, f.mark⟩ := by
  refine ⟨h.1.1, fun hk t ht => ?_⟩
  rcases mem_passedTiles.mp ht with hb | hm
  · exact h.1.2 hk t (mem_passedTiles.mpr (.inl hb))
  · obtain ⟨i, hi⟩ := List.mem_iff_getElem?.mp hm
    have hlt : i < f.mark := by
      by_contra hge
      simp [List.getElem?_take_eq_none (Nat.le_of_not_lt hge)] at hi
    rw [List.getElem?_take_of_lt hlt] at hi
    exact h.2 hk i t (Frontier.done_of_lt_mark hlt) hi

/-- A whole zoom is behind the cursor once its last index is. -/
theorem reached_next_zoom {zoom idx : Nat} (h : Reached cfg w ⟨zoom, idx⟩)
    (hl : (iterTiles zoom cfg.bbox).length ≤ idx) : Reached cfg w ⟨zoom + 1, 0⟩ := by
  refine ⟨Nat.le_succ_of_le h.1, fun hk t ht => h.2 hk t ?_⟩
  rw [mem_passedTiles] at ht ⊢
  rw [List.take_of_length_le hl]
  rcases ht with ⟨hmin, hlt, hi⟩ | ht
  · dsimp only at hlt
    by_cases he : t.zoom = zoom
    · exact .inr (he ▸ hi)
    · exact .inl ⟨hmin, by dsimp only; omega, hi⟩
  · simp at ht

end

end DataService
