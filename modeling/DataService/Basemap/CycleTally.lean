import DataService.Basemap.CycleJournal

/-! The sweep function by function: the two counts that each of them returns or keeps in the
progress of the zoom are the stored and the other ones of the outcomes it collected. -/

namespace DataService

open Coroutine Coro CycleJournal

variable {cfg : ScrapeConfig} {health : Option ProviderHealth} {stats : Option ScrapeStats}
  {d f : Nat} {X : Nat → Nat → Prop} {l m : List TileOutcome} {w : World}

/-- Between zooms, what has been counted is `d` and `f`. -/
abbrev Counted (health : Option ProviderHealth) (stats : Option ScrapeStats) (d f : Nat)
    (l : List TileOutcome) (w : World) : Prop :=
  Kept health stats (fun _ _ => Tally d f l) l w

/-- Within the main sweep of a zoom its progress comes on top. -/
abbrev CountedInZoom (health : Option ProviderHealth) (stats : Option ScrapeStats) (d f : Nat)
    (l : List TileOutcome) (w : World) : Prop :=
  Kept health stats (fun ok failed => Tally (d + ok) (f + failed) l) l w

theorem judge_storageAbandoned (cfg : ScraperSettings) (s : SweepState) :
    (s.judge cfg).storageAbandoned = s.storageAbandoned := by
  unfold SweepState.judge
  split <;> rfl

theorem update_storageAbandoned {cfg : ScraperSettings} {exhausted : Bool} {s : SweepState}
    {o : TileOutcome} {t : Tile}
    (h : s.storageAbandoned = true → 0 < s.storageErrors) :
    (s.update cfg exhausted o t).storageAbandoned = true →
      0 < (s.update cfg exhausted o t).storageErrors := by
  have herrors := SweepState.update_storageErrors cfg exhausted s o t
  rw [herrors]
  intro hab
  cases o with
  | storageError => simp [TileOutcome.isStorageFailure]
  | storageSkipped => simp [TileOutcome.isStorageFailure]
  | missing => exact Nat.add_pos_left (h hab) _
  | ok =>
    rw [SweepState.update, judge_storageAbandoned] at hab
    exact Nat.add_pos_left (h hab) _
  | unavailable =>
    rw [SweepState.update, judge_storageAbandoned] at hab
    exact Nat.add_pos_left (h hab) _

variable (cfg) in
/-- Counting one more outcome; the counts of the zoom stand still. -/
theorem Kept.update (h : Kept health stats X l w) (exhausted : Bool) (o : TileOutcome) (t : Tile) :
    Kept health stats X (l ++ [o])
      (w.setSweep (w.mem.sweep.update cfg.settings exhausted o t)) := by
  refine ⟨h.health, h.stats, ?_, update_storageAbandoned h.abandoned, h.counts⟩
  have herrors := SweepState.update_storageErrors cfg.settings exhausted w.mem.sweep o t
  simp only [World.setSweep, herrors, h.errors, List.countP_append, List.countP_singleton]

theorem sweeps_awaitDownload (h : Kept health stats X l w) (t : Tile) :
    Sweeps health stats (fun o u k => k = l ++ [o] ∧ Kept health stats X l u)
      (awaitDownload t) w l := by
  refine sweeps_tryCancel (P := fun o k u => k = l ++ [o] ∧ Kept health stats X l u) ?_ ?_ ?_ ?_
  · exact fun o k => (stable_const _).and stable_kept
  · exact fun o k u hu => ⟨hu.1, hu.2.of_eq rfl rfl rfl rfl⟩
  · exact fun o k u hu => hu.2.underway k
  · refine sweeps_modify rfl (sweeps_bind (sweeps_nextCompleted (h.of_eq rfl rfl rfl rfl)) ?_)
    exact fun p u k hu => sweeps_pure hu

theorem sweeps_dequeueIfOk (h : Kept health stats X l w) (o : TileOutcome) (t : Tile) :
    Sweeps health stats (Unmoved health stats X l l) (dequeueIfOk o t) w l := by
  unfold dequeueIfOk
  by_cases ho : o = .ok
  · rw [if_pos ho]
    exact sweeps_commit h (fun _ => rfl) (fun _ => rfl) fun _ => rfl
  · rw [if_neg ho]
    exact sweeps_pure ⟨rfl, h⟩

theorem sweeps_retryEach (ts : List Tile) {ok failed : Nat}
    (h : Counted health stats (d + ok) (f + failed) l w) :
    Sweeps health stats (fun n u k => Counted health stats (d + n.1) (f + n.2) k u)
      (retryEach cfg ts ok failed) w l := by
  induction ts generalizing w l ok failed with
  | nil => exact sweeps_pure h
  | cons t ts ih =>
    refine sweeps_bind (sweeps_awaitDownload h t) ?_
    rintro o u k ⟨rfl, hu⟩
    refine sweeps_modify rfl ?_
    have hcount : Tally (d + if o = .ok then ok + 1 else ok)
        (f + if o = .ok then failed else failed + 1) (l ++ [o]) := by
      have hh := h.counts.collect o
      by_cases ho : o = .ok <;> simpa [ho, Nat.add_assoc] using hh
    have hnext := (hu.update cfg u.shared.s3Circuit.exhausted o t).mono
      (Y := fun _ _ => _) hcount
    refine sweeps_bind (sweeps_dequeueIfOk hnext o t) ?_
    rintro _ v k ⟨rfl, hv⟩
    refine sweeps_look ?_
    cases v.mem.sweep.stopped with
    | true => exact sweeps_pure hv
    | false => exact ih hv

theorem sweeps_retryFailedTiles (h : Counted health stats d f l w) (zoom : Nat) :
    Sweeps health stats (fun n u k => Counted health stats (d + n.1) (f + n.2) k u)
      (retryFailedTiles cfg zoom) w l := by
  refine sweeps_bind (sweeps_listFailed h zoom) ?_
  rintro ts u k ⟨rfl, hu⟩
  exact sweeps_retryEach ts hu

theorem sweeps_queueUnlessSkipped (h : Kept health stats X l w) (o : TileOutcome) (t : Tile) :
    Sweeps health stats (Unmoved health stats X l l) (queueUnlessSkipped o t) w l := by
  unfold queueUnlessSkipped
  by_cases ho : o = .ok
  · rw [if_pos ho]
    exact sweeps_pure ⟨rfl, h⟩
  · rw [if_neg ho]
    by_cases hskipped : o = .storageSkipped
    · rw [if_pos hskipped]
      have hnote : note w none (w.record (.passedOver t (accountedFor w t))) (sweeping l) =
          sweeping l := note_event (e := .passedOver t (accountedFor w t)) rfl
      exact ⟨l, hnote, rfl, h.of_eq rfl rfl rfl rfl⟩
    · rw [if_neg hskipped]
      refine sweeps_commit h ?_ ?_ ?_ <;> intro u <;> unfold World.addFailed <;> split <;> rfl

theorem sweeps_advanceWatermark (h : CountedInZoom health stats d f l w) (zoom idx : Nat) :
    Sweeps health stats (fun _ u k => CountedInZoom health stats d f k u)
      (advanceWatermark cfg zoom idx) w l := by
  refine sweeps_look (sweeps_look ?_)
  have hmove : ∀ (p : SweepProgress) (u : World), CountedInZoom health stats d f l u →
      p.ok = u.mem.progress.ok → p.failed = u.mem.progress.failed →
      CountedInZoom health stats d f l (u.setProgress p) := by
    intro p u hu hok hfailed
    refine ⟨hu.health, hu.stats, hu.errors, hu.abandoned, ?_⟩
    simp only [World.setProgress, hok, hfailed]
    exact hu.counts
  dsimp only
  split
  · refine sweeps_bind (sweeps_commit h (fun _ => rfl) (fun _ => rfl) fun _ => rfl) ?_
    rintro _ u k ⟨rfl, hu⟩
    exact ⟨k, note_atom rfl, hmove _ u hu rfl rfl⟩
  · exact ⟨l, note_atom rfl, hmove _ w h rfl rfl⟩

/-- A completion that was collected but not counted is folded. -/
theorem sweeps_handleCompletion (h : CountedInZoom health stats d f l w) (zoom idx : Nat)
    (t : Tile) (o : TileOutcome) :
    Sweeps health stats (fun _ u k => CountedInZoom health stats d f k u)
      (handleCompletion cfg zoom idx t o) w (l ++ [o]) := by
  have hupdate := h.update cfg w.shared.s3Circuit.exhausted o t
  refine sweeps_modify rfl (sweeps_modify rfl ?_)
  have hcounted : CountedInZoom health stats d f (l ++ [o])
      ((w.setSweep (w.mem.sweep.update cfg.settings w.shared.s3Circuit.exhausted o t)).setProgress
        { w.mem.progress with
          ok := w.mem.progress.ok + if o = .ok then 1 else 0
          failed := w.mem.progress.failed + if o = .ok then 0 else 1 }) :=
    ⟨hupdate.health, hupdate.stats, hupdate.errors, hupdate.abandoned, by
      simpa [World.setProgress, Nat.add_assoc] using h.counts.collect o⟩
  refine sweeps_bind (sweeps_queueUnlessSkipped hcounted o t) ?_
  rintro _ u k ⟨rfl, hu⟩
  exact sweeps_advanceWatermark hu zoom idx

theorem sweeps_drainChunk (zoom n : Nat) (h : CountedInZoom health stats d f l w) :
    Sweeps health stats (fun _ u k => CountedInZoom health stats d f k u)
      (drainChunk cfg zoom n) w l := by
  induction n generalizing w l with
  | zero => exact sweeps_pure h
  | succ n ih =>
    refine sweeps_bind (sweeps_nextCompleted h) ?_
    rintro ⟨idx, t, o⟩ u k ⟨rfl, hu⟩
    refine sweeps_bind (sweeps_handleCompletion hu zoom idx t o) ?_
    intro _ v k hv
    refine sweeps_look ?_
    cases v.mem.sweep.stopped with
    | true => exact sweeps_pure hv
    | false => exact ih hv

theorem sweeps_sweepChunk (h : CountedInZoom health stats d f l w) (zoom : Nat)
    (tiles : List (Nat × Tile)) :
    Sweeps health stats (fun _ u k => CountedInZoom health stats d f k u)
      (sweepChunk cfg zoom tiles) w l := by
  refine sweeps_modify rfl ?_
  exact sweeps_tryCancel (fun _ _ => stable_kept) (fun _ _ _ hu => hu.of_eq rfl rfl rfl rfl)
    (fun _ k _ hu => hu.underway k)
    (sweeps_drainChunk zoom tiles.length (h.of_eq rfl rfl rfl rfl))

theorem sweeps_sweepChunks (zoom : Nat) (coords : List Tile) (starts : List Nat)
    (h : CountedInZoom health stats d f l w) :
    Sweeps health stats (fun _ u k => CountedInZoom health stats d f k u)
      (sweepChunks cfg zoom coords starts) w l := by
  induction starts generalizing w l with
  | nil => exact sweeps_pure h
  | cons chunkStart starts ih =>
    refine sweeps_bind (sweeps_cooldown h) ?_
    rintro _ u k ⟨rfl, hu⟩
    refine sweeps_look ?_
    cases u.mem.sweep.storageAbandoned with
    | true => exact sweeps_pure hu
    | false =>
      refine sweeps_bind (sweeps_sweepChunk hu zoom _) ?_
      intro _ v k hv
      refine sweeps_look ?_
      cases v.mem.sweep.stopped with
      | true => exact sweeps_pure hv
      | false => exact ih hv

theorem sweeps_checkpoint (h : Kept health stats X l w) (zoom total : Nat) :
    Sweeps health stats (Unmoved health stats X l m) (checkpoint zoom total) w m := by
  refine sweeps_look ?_
  split
  · exact sweeps_commit h (fun _ => rfl) (fun _ => rfl) fun _ => rfl
  · exact sweeps_commit h (fun _ => rfl) (fun _ => rfl) fun _ => rfl

theorem sweeps_runIndexedSweep (h : Counted health stats d f l w) (zoom : Nat)
    (coords : List Tile) (resumeIndex : Nat) :
    Sweeps health stats (fun n u k => Counted health stats (d + n.1) (f + n.2) k u)
      (runIndexedSweep cfg zoom coords resumeIndex) w l := by
  unfold runIndexedSweep
  split
  · refine sweeps_bind (sweeps_commit h (fun _ => rfl) (fun _ => rfl) fun _ => rfl) ?_
    rintro _ u k ⟨rfl, hu⟩
    exact sweeps_pure hu
  · refine sweeps_modify rfl ?_
    have hstart : CountedInZoom health stats d f l
        (w.setProgress (.start resumeIndex w.shared.mono)) :=
      ⟨h.health, h.stats, h.errors, h.abandoned, h.counts⟩
    have hbody : Sweeps health stats (fun _ u k => CountedInZoom health stats d f k u)
        (if cfg.settings.fanoutWindow = 0 then raise .valueError
          else sweepChunks cfg zoom coords
            (chunkStarts resumeIndex coords.length cfg.settings.fanoutWindow))
        (w.setProgress (.start resumeIndex w.shared.mono)) l := by
      split
      · exact hstart.underway l
      · exact sweeps_sweepChunks zoom coords _ hstart
    have hchecked : Sweeps health stats (fun _ u k => CountedInZoom health stats d f k u)
        ((if cfg.settings.fanoutWindow = 0 then raise .valueError
          else sweepChunks cfg zoom coords
            (chunkStarts resumeIndex coords.length cfg.settings.fanoutWindow)).tryFinally
          (checkpoint zoom coords.length))
        (w.setProgress (.start resumeIndex w.shared.mono)) l := by
      refine records_tryFinally hbody ?_ ?_
      · rintro _ u j ⟨k, rfl, hu⟩
        refine records_mono (fun _ _ hv => hv) (fun _ _ hv => hv) ?_
          (sweeps_checkpoint (m := k) hu zoom coords.length)
        rintro _ v j ⟨k, rfl, rfl, hv⟩
        exact ⟨k, rfl, hv⟩
      · rintro u j ⟨k, n, rfl, hu⟩
        refine records_mono (fun _ _ hv => hv) (fun _ _ hv => hv) ?_
          (sweeps_checkpoint (m := n) hu zoom coords.length)
        rintro _ v j ⟨n, rfl, rfl, hv⟩
        exact hv.underway n
    exact sweeps_bind hchecked fun _ u k hu => sweeps_look (sweeps_pure (hu.mono hu.counts))

theorem sweeps_clearIfDrained (h : Kept health stats X l w) (zoom : Nat) (remaining : List Tile) :
    Sweeps health stats (Unmoved health stats X l l) (clearIfDrained zoom remaining) w l := by
  unfold clearIfDrained
  split
  · exact sweeps_commit h (fun _ => rfl) (fun _ => rfl) fun _ => rfl
  · exact sweeps_pure ⟨rfl, h⟩

theorem sweeps_scrapeZoom (h : Counted health stats d f l w) (zoom resumeIndex : Nat) :
    Sweeps health stats (fun n u k => Counted health stats (d + n.1) (f + n.2) k u)
      (scrapeZoom cfg zoom resumeIndex) w l := by
  refine sweeps_bind (sweeps_retryFailedTiles h zoom) ?_
  rintro ⟨rok, rfailed⟩ u k hu
  refine sweeps_look ?_
  cases u.mem.sweep.stopped with
  | true => exact sweeps_pure hu
  | false =>
    refine sweeps_bind (sweeps_runIndexedSweep hu zoom _ resumeIndex) ?_
    rintro ⟨sok, sfailed⟩ v n hv
    refine sweeps_bind (sweeps_listFailed hv zoom) ?_
    rintro remaining x n ⟨rfl, hx⟩
    refine sweeps_bind (sweeps_clearIfDrained hx zoom remaining) ?_
    rintro _ y n ⟨rfl, hy⟩
    exact sweeps_pure (hy.mono (by simpa only [Nat.add_assoc] using hy.counts))

theorem sweeps_scrapeZooms (start : Cursor) (zooms : List Nat)
    (h : Counted health stats d f l w) :
    Sweeps health stats (fun n u k => Counted health stats n.1 n.2 k u)
      (scrapeZooms cfg start zooms d f) w l := by
  induction zooms generalizing w l d f with
  | nil => exact sweeps_pure h
  | cons zoom zooms ih =>
    refine sweeps_bind (sweeps_scrapeZoom h zoom _) ?_
    rintro ⟨zok, zfailed⟩ u k hu
    refine sweeps_look ?_
    cases u.mem.sweep.stopped with
    | true => exact sweeps_pure hu
    | false => exact ih hu

end DataService
