import DataService.Basemap.ChunkWalk

/-! One zoom level: the retry of its failed rows, then the main sweep in chunks with
the cursor written on every way out. -/

namespace DataService

open Coroutine Coro

section

variable {cfg : ScrapeConfig} {o : Origin} {zoom resume : Nat} {tiles prev : List (Nat × Tile)}
  {X : World → Prop} {w : World}

theorem stable_drained (tiles : List (Nat × Tile)) : Stable (Drained tiles) := by
  intro w w' hn h p hp
  rw [hn.frame.2.2]
  exact (h p hp).imp_left hn.grows.answered

theorem drained_books {w' : World} (h : Drained tiles w) (hb : Books w w')
    (hf : w'.mem.progress.frontier = w.mem.progress.frontier) : Drained tiles w' := by
  intro p hp
  rw [hf]
  exact (h p hp).imp_left hb.grows.answered

abbrev BetweenChunks (cfg : ScrapeConfig) (o : Origin) (zoom : Nat) (tiles : List (Nat × Tile))
    (X : World → Prop) : World → Prop :=
  AtRest cfg o False fun w => (X w ∧ Fronted cfg zoom w) ∧
    (w.mem.sweep.stopped = false → Drained tiles w)

theorem stable_betweenChunks (hX : Stable X) : Stable (BetweenChunks cfg o zoom tiles X) :=
  stable_atRest ((hX.and (stable_fronted zoom)).and
    (.imp (stable_frame fun _ s _ => ¬ s.stopped = false) (stable_drained tiles)))

abbrev CutAtRest (cfg : ScrapeConfig) (o : Origin) (zoom : Nat) (X : World → Prop) :
    World → Prop :=
  Broken cfg o fun w => X w ∧ Fronted cfg zoom w

theorem sweepChunk_meets (hX : Monotone X) (h : BetweenChunks cfg o zoom prev X w)
    (hgo : w.mem.sweep.stopped = false)
    (hplaced : ∀ p ∈ tiles, (iterTiles zoom cfg.bbox)[p.1]? = some p.2)
    (hsched : ∀ p ∈ tiles, p.2 ∈ scheduledTiles cfg o) :
    Meets (Good cfg) (CutAtRest cfg o zoom X)
      (fun _ w => BetweenChunks cfg o zoom (prev ++ tiles) X w) (sweepChunk cfg zoom tiles) w := by
  have hb : Books w _ := Books.setTasks (created tiles) []
  have hkeys := pendingKeys_createTasks (w := w) tiles
  have hstart : Draining cfg o zoom (prev ++ tiles) tiles.length [] False X
      (w.setTasks (created tiles) []) := by
    refine ⟨steady_createTasks h.steady hsched, h.paid.books hb rfl h.idle.2.symm,
      h.extra.1.2.books hb rfl, hX _ _ hb.grows h.extra.1.1, ?_, ?_, ?_⟩ <;> rw [hkeys]
    · exact hplaced
    · intro p hp
      rcases List.mem_append.mp hp with hp | hp
      · exact .inr (drained_books (h.extra.2 hgo) hb rfl p hp)
      · exact .inl hp
  have hcut : ∀ u, Cut cfg o zoom X u → CutAtRest cfg o zoom X (u.setTasks [] []) := by
    intro u hu
    have hb := Books.setTasks (w := u) [] []
    exact ⟨steady_cancelled hu.steady, ⟨rfl, rfl⟩, hX _ _ hb.grows hu.extra, hu.fronted.books hb rfl⟩
  have hXs : Stable fun w => X w ∧ Fronted cfg zoom w := hX.stable.and (stable_fronted zoom)
  refine safe_bind (safe_tryFinally (safe_mono ?_ ?_ (drainChunk_meets hX hstart)))
  · rintro _ u ⟨hu, hdrain⟩
    have hc := hcut u hu
    refine meets_cancelPending (stable_betweenChunks hX.stable) ?_ (fun v hv => hv.steady.good)
      (fun v hv => (hv.mono fun hx => hx.1).broken) (fun v hv => hv)
    refine ⟨hc.steady, hc.idle, ?_, hc.extra, fun hn => ?_⟩
    · rcases hdrain with hstop | ⟨hp, hi, _⟩
      · exact fun t oc _ _ => .inl hstop
      · exact paid_of_idle hp hi
    · rcases hdrain with hstop | ⟨_, _, hd⟩
      · exact absurd hn (by simp [World.setTasks, hstop])
      · exact drained_books hd (.setTasks _ _) rfl
  · intro _ u hu
    exact meets_cancelPending (stable_broken hXs) (hcut u hu) (fun v hv => hv.steady.good)
      (fun v hv => hv) (fun v hv => hv)

theorem mem_chunkTiles {coords : List Tile} {lo hi : Nat} {p : Nat × Tile} :
    p ∈ chunkTiles coords lo hi ↔ lo ≤ p.1 ∧ p.1 < hi ∧ coords[p.1]? = some p.2 := by
  obtain ⟨i, t⟩ := p
  simp only [chunkTiles, List.mem_filterMap, List.mem_range'_1, Option.map_eq_some_iff,
    Prod.mk.injEq]
  constructor
  · rintro ⟨j, hj, s, hs, rfl, rfl⟩
    exact ⟨by omega, by omega, hs⟩
  · rintro ⟨hlo, hhi, ht⟩
    exact ⟨i, by omega, t, ht, rfl, rfl⟩

theorem chunkStarts_cover {total window i : Nat} (hw : 0 < window) (hlo : resume ≤ i)
    (hhi : i < total) : ∃ s ∈ chunkStarts resume total window,
      s ≤ i ∧ i < min (s + window) total := by
  have hdiv := Nat.div_add_mod (i - resume) window
  have hmod := Nat.mod_lt (i - resume) hw
  have hcount : (i - resume) / window < (total - resume + window - 1) / window := by
    rw [Nat.div_lt_iff_lt_mul hw, Nat.div_mul_self_eq_mod_sub_self]
    have hle := Nat.mod_lt (total - resume + window - 1) hw
    omega
  refine ⟨resume + window * ((i - resume) / window), ?_, by omega, ?_⟩
  · exact List.mem_range'.mpr ⟨_, hcount, rfl⟩
  · exact lt_min (by omega) hhi

theorem le_of_mem_chunkStarts {total window s : Nat} (h : s ∈ chunkStarts resume total window) :
    resume ≤ s := by
  obtain ⟨i, _, rfl⟩ := List.mem_range'.mp h
  omega

def tilesOf (cfg : ScrapeConfig) (zoom : Nat) (starts : List Nat) : List (Nat × Tile) :=
  starts.flatMap fun s => chunkTiles (iterTiles zoom cfg.bbox) s
    (min (s + cfg.settings.fanoutWindow) (iterTiles zoom cfg.bbox).length)

theorem sweepChunks_meets (hX : Monotone X) {starts : List Nat}
    (h : BetweenChunks cfg o zoom prev X w) (hgo : w.mem.sweep.stopped = false)
    (hsched : ∀ p ∈ tilesOf cfg zoom starts, p.2 ∈ scheduledTiles cfg o) :
    Meets (Good cfg) (CutAtRest cfg o zoom X)
      (fun _ w => BetweenChunks cfg o zoom (prev ++ tilesOf cfg zoom starts) X w)
      (sweepChunks cfg zoom (iterTiles zoom cfg.bbox) starts) w := by
  induction starts generalizing w prev with
  | nil => exact h.mono fun hx => ⟨hx.1, by simpa [tilesOf] using hx.2⟩
  | cons s starts ih =>
    have hs : tilesOf cfg zoom (s :: starts) = chunkTiles (iterTiles zoom cfg.bbox) s
        (min (s + cfg.settings.fanoutWindow) (iterTiles zoom cfg.bbox).length) ++
          tilesOf cfg zoom starts := rfl
    rw [hs] at hsched ⊢
    have hgo' := stable_frame fun _ s _ => s.stopped = false
    refine safe_bind (meets_cooldown ((stable_betweenChunks hX.stable).and hgo') ⟨h, hgo⟩
      (fun u hu => hu.1.steady.good) (fun u hu => (hu.1.mono fun hx => hx.1).broken) ?_)
    rintro u ⟨hu, hgou⟩
    have hab : u.mem.sweep.storageAbandoned = false := by
      simp only [SweepState.stopped, Bool.or_eq_false_iff] at hgou
      exact hgou.2
    refine safe_bind ?_
    change Meets _ _ _ (if u.mem.sweep.storageAbandoned then _ else _) u
    rw [hab, if_neg Bool.false_ne_true]
    refine safe_bind (safe_mono ?_ (fun _ v hv => hv) (sweepChunk_meets hX hu hgou
      (fun p hp => (mem_chunkTiles.mp hp).2.2)
      fun p hp => hsched p (List.mem_append_left _ hp)))
    intro _ v hv
    refine safe_bind ?_
    change Meets _ _ _ (if v.mem.sweep.stopped then _ else _) v
    split_ifs with hstop
    · exact hv.mono fun hx => ⟨hx.1, fun hf => by simp [hstop] at hf⟩
    · have hh := ih hv (by simpa using hstop) fun p hp => hsched p (List.mem_append_right _ hp)
      rwa [List.append_assoc] at hh

/-- The cursor is written from the frontier, whichever way the chunks ended. -/
theorem checkpoint_meets {P Exn : World → Prop} {Q : Unit → World → Prop} (hP : Stable P)
    (hp : P w) (hsteady : ∀ w, P w → Steady cfg o w ∧ Fronted cfg zoom w)
    (hset : ∀ w c, P w → Reached cfg w c → P (w.setCursor c)) (hexn : ∀ w, P w → Exn w)
    (hq : ∀ w, P w → Q () w) :
    Meets (Good cfg) Exn Q (checkpoint zoom (iterTiles zoom cfg.bbox).length) w := by
  have hcommit : ∀ c, Reached cfg w c → Meets (Good cfg) Exn Q (commit (World.setCursor c)) w := by
    intro c hc
    refine meets_commit (hP.and (stable_reached cfg c)) ⟨hp, hc⟩ (fun u hu => (hsteady u hu.1).1.good)
      ?_ fun u hu => hq _ (hset u c hu.1 hu.2)
    exact fun u hu => ⟨hexn u hu.1, hexn _ (hset u c hu.1 hu.2)⟩
  have hmark := (hsteady w hp).2.reached_mark
  refine safe_bind ?_
  change Meets _ _ _ (if _ ≤ w.mem.progress.frontier.mark then _ else _) w
  split_ifs with hl
  · exact hcommit _ (reached_next_zoom hmark hl)
  · exact hcommit _ hmark

theorem mem_drop_of_getElem? {l : List Tile} {i : Nat} {t : Tile} (hi : resume ≤ i)
    (h : l[i]? = some t) : t ∈ l.drop resume := by
  refine List.mem_of_getElem? (i := i - resume) ?_
  rw [List.getElem?_drop, Nat.add_sub_cancel' hi]
  exact h

theorem drained_zoom (hwin : 0 < cfg.settings.fanoutWindow) (hr : Reached cfg w ⟨zoom, resume⟩)
    (hf : Fronted cfg zoom w)
    (hd : Drained (tilesOf cfg zoom (chunkStarts resume (iterTiles zoom cfg.bbox).length
      cfg.settings.fanoutWindow)) w) : Reached cfg w ⟨zoom + 1, 0⟩ ∧
      ∀ t ∈ (iterTiles zoom cfg.bbox).drop resume, Answered w.log t := by
  have hcover : ∀ i t, resume ≤ i → (iterTiles zoom cfg.bbox)[i]? = some t →
      Answered w.log t ∧ w.mem.progress.frontier.Done i := by
    intro i t hi ht
    obtain ⟨s, hs, hlo, hhi⟩ := chunkStarts_cover hwin hi (List.getElem?_eq_some_iff.mp ht).1
    exact hd (i, t) (List.mem_flatMap.mpr ⟨s, hs, mem_chunkTiles.mpr ⟨hlo, hhi, ht⟩⟩)
  refine ⟨⟨Nat.le_succ_of_le hr.1, fun hk t ht => ?_⟩, fun t ht => ?_⟩
  · rcases mem_passedTiles.mp ht with ⟨hmin, hlt, hi⟩ | ht
    · by_cases he : t.zoom = zoom
      · obtain ⟨i, hi⟩ := List.mem_iff_getElem?.mp (he ▸ hi)
        by_cases hle : resume ≤ i
        · exact hf.2 hk i t (hcover i t hle hi).2 hi
        · refine hr.2 hk t (mem_passedTiles.mpr (.inr ?_))
          have hlt : i < resume := by omega
          exact List.mem_of_getElem? (by rw [List.getElem?_take_of_lt hlt]; exact hi)
      · dsimp only at hlt
        exact hr.2 hk t (mem_passedTiles.mpr (.inl ⟨hmin, by dsimp only; omega, hi⟩))
    · simp at ht
  · obtain ⟨i, hi⟩ := List.mem_iff_getElem?.mp ht
    rw [List.getElem?_drop] at hi
    exact (hcover _ t (Nat.le_add_right _ _) hi).1

theorem runIndexedSweep_meets (hX : Monotone X) (h : AtRest cfg o False X w)
    (hgo : w.mem.sweep.stopped = false) (hr : Reached cfg w ⟨zoom, resume⟩)
    (hsched : ∀ t ∈ (iterTiles zoom cfg.bbox).drop resume, t ∈ scheduledTiles cfg o) :
    Meets (Good cfg) (Broken cfg o X)
      (fun _ w => AtRest cfg o False X w ∧ (w.mem.sweep.stopped = false →
        Reached cfg w ⟨zoom + 1, 0⟩ ∧
          ∀ t ∈ (iterTiles zoom cfg.bbox).drop resume, Answered w.log t))
      (runIndexedSweep cfg zoom (iterTiles zoom cfg.bbox) resume) w := by
  have hXs := hX.stable
  unfold runIndexedSweep
  split_ifs with hl hwin
  · have hset : ∀ u, AtRest cfg o False X u ∧ Reached cfg u ⟨zoom + 1, 0⟩ →
        AtRest cfg o False X (u.setCursor ⟨zoom + 1, 0⟩) := by
      rintro u ⟨hu, hru⟩
      have hb := Books.setCursor (w := u) ⟨zoom + 1, 0⟩
      exact ⟨hu.steady.setCursor hru, hu.idle, hu.paid.books hb rfl rfl, hX _ _ hb.grows hu.extra⟩
    refine safe_bind (meets_commit ((stable_atRest hXs).and (stable_reached cfg ⟨zoom + 1, 0⟩))
      ⟨h, reached_next_zoom hr hl⟩ (fun u hu => hu.1.steady.good)
      (fun u hu => ⟨hu.1.broken, (hset u hu).broken⟩) fun u hu => ⟨hset u hu, fun _ => ⟨?_, ?_⟩⟩)
    · exact monotone_reached cfg _ _ _ (Books.setCursor _).grows hu.2
    · rw [List.drop_eq_nil_of_le hl]
      simp
  all_goals
    have hb := Books.setProgress (w := w) (.start resume w.shared.mono)
    have hstart : BetweenChunks cfg o zoom [] X
        (w.setProgress (.start resume w.shared.mono)) := by
      refine ⟨h.steady.of_eq rfl rfl (List.Subset.refl _) (List.Subset.refl _), h.idle,
        h.paid.books hb rfl rfl, ⟨hX _ _ hb.grows h.extra, ?_⟩, fun _ p hp => by simp at hp⟩
      exact monotone_frontedAt zoom _ _ _ hb.grows (frontedAt_start hr)
    have hcut : ∀ u, CutAtRest cfg o zoom X u → Meets (Good cfg) (Broken cfg o X)
        (fun _ v => Broken cfg o X v) (checkpoint zoom (iterTiles zoom cfg.bbox).length) u := by
      intro u hu
      refine checkpoint_meets (stable_broken (hXs.and (stable_fronted zoom))) hu
        (fun v hv => ⟨hv.steady, hv.extra.2⟩) ?_ (fun v hv => hv.mono fun hx => hx.1)
        (fun v hv => hv.mono fun hx => hx.1)
      intro v c hv hc
      have hb := Books.setCursor (w := v) c
      exact ⟨hv.steady.setCursor hc, hv.idle, hX _ _ hb.grows hv.extra.1, hv.extra.2.books hb rfl⟩
    refine safe_bind (safe_bind (safe_tryFinally ?_))
  · exact hcut _ (hstart.mono fun hx => hx.1).broken
  · have hY : Monotone fun u => X u ∧ Reached cfg u ⟨zoom, resume⟩ :=
      hX.and (monotone_reached cfg _)
    have hstart' : BetweenChunks cfg o zoom [] (fun u => X u ∧ Reached cfg u ⟨zoom, resume⟩)
        (w.setProgress (.start resume w.shared.mono)) :=
      hstart.mono fun hx => ⟨⟨⟨hx.1.1, hb.grows.reached hr⟩, hx.1.2⟩, hx.2⟩
    have hsched' : ∀ p ∈ tilesOf cfg zoom (chunkStarts resume (iterTiles zoom cfg.bbox).length
        cfg.settings.fanoutWindow), p.2 ∈ scheduledTiles cfg o := by
      intro p hp
      obtain ⟨s, hs, hp⟩ := List.mem_flatMap.mp hp
      obtain ⟨hlo, _, ht⟩ := mem_chunkTiles.mp hp
      exact hsched p.2 (mem_drop_of_getElem? (Nat.le_trans (le_of_mem_chunkStarts hs) hlo) ht)
    refine safe_mono ?_ (fun _ u hu => hcut u (hu.mono fun hx => ⟨hx.1.1, hx.2⟩))
      (sweepChunks_meets hY hstart' hgo hsched')
    intro _ u hu
    refine checkpoint_meets (stable_betweenChunks hY.stable) hu
      (fun v hv => ⟨hv.steady, hv.extra.1.2⟩) ?_ (fun v hv => (hv.mono fun hx => hx.1.1.1).broken) ?_
    · intro v c hv hc
      have hb := Books.setCursor (w := v) c
      exact ⟨hv.steady.setCursor hc, hv.idle, hv.paid.books hb rfl rfl,
        ⟨hY _ _ hb.grows hv.extra.1.1, hv.extra.1.2.books hb rfl⟩,
        fun hn => drained_books (hv.extra.2 hn) hb rfl⟩
    · intro v hv
      exact ⟨hv.mono fun hx => hx.1.1.1, fun hn => drained_zoom (Nat.pos_of_ne_zero hwin)
        hv.extra.1.1.2 hv.extra.1.2 (by simpa using hv.extra.2 hn)⟩

end

end DataService
