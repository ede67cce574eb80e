import DataService.Basemap.SweepWalk

/-! One chunk of the main sweep. Tasks finish in any order; each completion is
folded into the sweep state, the failed rows and the frontier, and a chunk that
drains has folded all of its tiles. -/

namespace DataService

open Coroutine Coro

/-- A chunk with `n` tasks not yet collected. The completion in `hand` is being folded. -/
structure Draining (cfg : ScrapeConfig) (o : Origin) (zoom : Nat) (tiles : List (Nat × Tile))
    (n : Nat) (hand : List (Nat × Tile)) (held : Prop) (X : World → Prop) (w : World) : Prop where
  steady : Steady cfg o w
  paid : Paid held w
  fronted : Fronted cfg zoom w
  extra : X w
  count : (pendingKeys w).length = n
  placed : ∀ p ∈ hand ++ pendingKeys w, (iterTiles zoom cfg.bbox)[p.1]? = some p.2
  folded : ∀ p ∈ tiles, p ∈ hand ++ pendingKeys w ∨
    (Answered w.log p.2 ∧ w.mem.progress.frontier.Done p.1)

/-- What an exception out of a chunk leaves before its tasks are cancelled. -/
structure Cut (cfg : ScrapeConfig) (o : Origin) (zoom : Nat) (X : World → Prop) (w : World) :
    Prop where
  steady : Steady cfg o w
  fronted : Fronted cfg zoom w
  extra : X w

/-- Everything a chunk was given is answered and below or on the frontier. -/
def Drained (tiles : List (Nat × Tile)) (w : World) : Prop :=
  ∀ p ∈ tiles, Answered w.log p.2 ∧ w.mem.progress.frontier.Done p.1

section

variable {cfg : ScrapeConfig} {o : Origin} {zoom n : Nat} {tiles hand : List (Nat × Tile)}
  {held : Prop} {X : World → Prop} {w w' : World}

theorem stable_draining (hX : Stable X) :
    Stable (Draining cfg o zoom tiles n hand held X) := by
  intro w w' hn h
  have hp := hn.pending
  refine ⟨stable_steady cfg o w w' hn h.steady, stable_paid held w w' hn h.paid,
    stable_fronted zoom w w' hn h.fronted, hX w w' hn h.extra, ?_, ?_, ?_⟩
  · rw [hp.length_eq]
    exact h.count
  · exact fun p hm => h.placed p ((hp.append_left hand).mem_iff.mp hm)
  · intro p hm
    rw [(hp.append_left hand).mem_iff, hn.frame.2.2]
    exact (h.folded p hm).imp_right (And.imp_left hn.grows.answered)

theorem Draining.cut (h : Draining cfg o zoom tiles n hand held X w) : Cut cfg o zoom X w :=
  ⟨h.steady, h.fronted, h.extra⟩

theorem Draining.books {held' : Prop} (h : Draining cfg o zoom tiles n hand held X w)
    (hX : Monotone X) (hb : Books w w') (hs : Steady cfg o w') (hp : Paid held' w')
    (htasks : w'.mem.tasks = w.mem.tasks) (hdone : w'.mem.done = w.mem.done)
    (hf : w'.mem.progress.frontier = w.mem.progress.frontier) :
    Draining cfg o zoom tiles n hand held' X w' := by
  have hk : pendingKeys w' = pendingKeys w := by simp only [pendingKeys, htasks, hdone]
  refine ⟨hs, hp, h.fronted.books hb hf, hX _ _ hb.grows h.extra, ?_, ?_, ?_⟩ <;> rw [hk]
  · exact h.count
  · exact h.placed
  · rw [hf]
    exact fun p hm => (h.folded p hm).imp_right (And.imp_left hb.grows.answered)

theorem Draining.mono {Y : World → Prop} (h : Draining cfg o zoom tiles n hand held X w)
    (hY : Y w) : Draining cfg o zoom tiles n hand held Y w :=
  ⟨h.steady, h.paid, h.fronted, hY, h.count, h.placed, h.folded⟩

theorem Cut.mono {Y : World → Prop} (h : Cut cfg o zoom X w) (hXY : X w → Y w) :
    Cut cfg o zoom Y w :=
  ⟨h.steady, h.fronted, hXY h.extra⟩

theorem draining_collect {d : DoneTile} {done : List DoneTile} {oc : TileOutcome}
    (hX : Monotone X) (h : Draining cfg o zoom tiles (n + 1) [] False X w)
    (hd : w.mem.done = d :: done) (hr : d.result = .ok oc) :
    Draining cfg o zoom tiles n [(d.idx, d.tile)] (oc.isStorageFailure = true) X
      (w.setTasks w.mem.tasks done) := by
  have hp := pendingKeys_collect hd
  have hb := Books.setTasks (w := w) w.mem.tasks done
  refine ⟨steady_collect h.steady hd, paid_collect h.paid hd hr, h.fronted.books hb rfl,
    hX _ _ hb.grows h.extra, ?_, ?_, ?_⟩
  · have hl := hp.length_eq
    rw [h.count, List.length_cons] at hl
    omega
  · exact fun p hm => h.placed p (hp.mem_iff.mpr hm)
  · exact fun p hm => (h.folded p hm).imp_left hp.mem_iff.mp

theorem cut_collect {d : DoneTile} {done : List DoneTile} (hX : Monotone X)
    (h : Draining cfg o zoom tiles n hand held X w) (hd : w.mem.done = d :: done) :
    Cut cfg o zoom X (w.setTasks w.mem.tasks done) := by
  have hb := Books.setTasks (w := w) w.mem.tasks done
  exact ⟨steady_collect h.steady hd, h.fronted.books hb rfl, hX _ _ hb.grows h.extra⟩

theorem passedOver_accounted (t : Tile) :
    SkipsKnown (w.record (.passedOver t (accountedFor w t))).log →
      accountedFor (w.record (.passedOver t (accountedFor w t))) t = true := by
  intro hk
  cases ha : accountedFor w t with
  | true => exact (Books.record (by rfl)).grows.accounted ha
  | false =>
    have hh := hk (.passedOver t false) (by simp [World.record, ha])
    simp [Event.isUnknownSkip] at hh

/-- After this the tile is accounted for, or an unknown skip was noted. -/
theorem queueUnlessSkipped_meets {t : Tile} {oc : TileOutcome} (hX : Monotone X)
    (h : Draining cfg o zoom tiles n hand False X w)
    (ho : ∀ w, X w → .outcome t oc ∈ cycleEvents w.log) (ht : t ∈ scheduledTiles cfg o) :
    Meets (Good cfg) (Cut cfg o zoom X)
      (fun _ w => Draining cfg o zoom tiles n hand False
        (fun w => X w ∧ (SkipsKnown w.log → accountedFor w t = true)) w)
      (queueUnlessSkipped oc t) w := by
  unfold queueUnlessSkipped
  split_ifs with hok hskip
  · refine h.mono ⟨h.extra, fun _ => ?_⟩
    have hh := cycleEvents_subset_sweepEvents (ho w h.extra)
    exact accountedFor_iff.mpr (.inr (.inl (hok ▸ hh)))
  · have hb : Books w (w.record (.passedOver t (accountedFor w t))) := .record rfl
    have hd := h.books hX hb (h.steady.record rfl) (h.paid.books hb rfl rfl) rfl rfl rfl
    exact hd.mono ⟨hd.extra, passedOver_accounted t⟩
  · have hadd : ∀ w, Draining cfg o zoom tiles n hand False X w →
        Draining cfg o zoom tiles n hand False X (w.addFailed t) := by
      intro w hw
      have hb := Books.addFailed (w := w) t
      have hm := addFailed_mem (w := w) t
      exact hw.books hX hb (hw.steady.addFailed ht) (hw.paid.books hb (by rw [hm]) (by rw [hm]))
        (by rw [hm]) (by rw [hm]) (by rw [hm])
    refine meets_commit (stable_draining hX.stable) h (fun w h => h.steady.good)
      (fun w hw => ⟨hw.cut, (hadd w hw).cut⟩) fun w hw => (hadd w hw).mono ⟨(hadd w hw).extra, ?_⟩
    exact fun _ => accountedFor_iff.mpr (.inl (addFailed_mem_iff.mpr (.inl rfl)))

theorem draining_advance {idx : Nat} {t : Tile} {p : SweepProgress} (hX : Monotone X)
    (h : Draining cfg o zoom tiles n [(idx, t)] False X w) (ha : Answered w.log t)
    (hf : FrontedAt cfg zoom (w.mem.progress.frontier.advance idx) w)
    (hp : p.frontier = w.mem.progress.frontier.advance idx) :
    Draining cfg o zoom tiles n [] False X (w.setProgress p) := by
  have hb := Books.setProgress (w := w) p
  refine ⟨h.steady.of_eq rfl rfl (List.Subset.refl _) (List.Subset.refl _),
    h.paid.books hb rfl rfl, ?_, hX _ _ hb.grows h.extra, h.count, ?_, ?_⟩
  · change FrontedAt cfg zoom p.frontier _
    rw [hp]
    exact monotone_frontedAt zoom _ _ _ hb.grows hf
  · exact fun q hq => h.placed q (List.mem_append_right _ hq)
  · intro q hq
    simp only [World.setProgress, hp, Frontier.advance_done]
    rcases h.folded q hq with hm | hm
    · rcases List.mem_append.mp hm with hm | hm
      · obtain rfl := List.mem_singleton.mp hm
        exact .inr ⟨ha, .inr rfl⟩
      · exact .inl hm
    · exact .inr ⟨hm.1, .inl hm.2⟩

theorem advanceWatermark_meets {idx : Nat} {t : Tile} (hX : Monotone X)
    (h : Draining cfg o zoom tiles n [(idx, t)] False X w)
    (ha : ∀ w, X w → Answered w.log t ∧ (SkipsKnown w.log → accountedFor w t = true)) :
    Meets (Good cfg) (Cut cfg o zoom X)
      (fun _ w => Draining cfg o zoom tiles n [] False X w) (advanceWatermark cfg zoom idx) w := by
  have hfront : ∀ w, Draining cfg o zoom tiles n [(idx, t)] False X w →
      FrontedAt cfg zoom (w.mem.progress.frontier.advance idx) w :=
    fun w hw => frontedAt_advance hw.fronted (hw.placed _ (List.mem_append_left _ List.mem_cons_self))
      (ha w hw.extra).2
  refine safe_bind (safe_bind ?_)
  change Meets _ _ _ (if _ then _ else _) w
  split_ifs
  · refine safe_bind ?_
    let P : World → Prop := fun u => Draining cfg o zoom tiles n [(idx, t)] False X u ∧
      u.mem.progress.frontier = w.mem.progress.frontier
    have hP : Stable P := (stable_draining hX.stable).and
      (stable_frame fun _ _ p => p.frontier = w.mem.progress.frontier)
    have hset : ∀ u, P u → Draining cfg o zoom tiles n [(idx, t)] False X
        (u.setCursor ⟨zoom, (w.mem.progress.frontier.advance idx).mark⟩) := by
      rintro u ⟨hu, hfu⟩
      have hb := Books.setCursor (w := u) ⟨zoom, (w.mem.progress.frontier.advance idx).mark⟩
      have hr := (hfront u hu).reached_mark
      rw [hfu] at hr
      exact hu.books hX hb (hu.steady.setCursor hr) (hu.paid.books hb rfl rfl) rfl rfl rfl
    refine meets_commit hP ⟨h, rfl⟩ (fun u hu => hu.1.steady.good)
      (fun u hu => ⟨hu.1.cut, (hset u hu).cut⟩) fun u hu => ?_
    have hd := hset u hu
    refine draining_advance hX hd (ha _ hd.extra).1 (hfront _ hd) ?_
    exact congrArg (·.advance idx) hu.2.symm
  · exact draining_advance hX h (ha w h.extra).1 (hfront w h) rfl

theorem handleCompletion_meets {idx : Nat} {t : Tile} {oc : TileOutcome} (hX : Monotone X)
    (h : Draining cfg o zoom tiles n [(idx, t)] (oc.isStorageFailure = true) X w)
    (ho : .outcome t oc ∈ cycleEvents w.log) :
    Meets (Good cfg) (Cut cfg o zoom X)
      (fun _ w => Draining cfg o zoom tiles n [] False X w)
      (handleCompletion cfg zoom idx t oc) w := by
  have hY : Monotone fun w => X w ∧ .outcome t oc ∈ cycleEvents w.log :=
    hX.and (monotone_cycleEvent _)
  have ht : t ∈ scheduledTiles cfg o :=
    h.steady.events.attempt_mem t (h.steady.events.outcome_attempt t oc ho)
  have h₀ := h.mono (Y := fun w => X w ∧ .outcome t oc ∈ cycleEvents w.log) ⟨h.extra, ho⟩
  refine safe_bind (safe_bind ?_)
  have h₁ := h₀.books hY (Books.setSweep (w.mem.sweep.update cfg.settings
    w.shared.s3Circuit.exhausted oc t))
    (h₀.steady.of_eq rfl rfl (List.Subset.refl _) (List.Subset.refl _)) (paid_update h₀.paid)
    rfl rfl rfl
  refine safe_bind (safe_mono ?_ (fun _ u hu => hu.mono fun hx => hx.1)
    (queueUnlessSkipped_meets hY (h₁.books hY (.setProgress _)
      (h₁.steady.of_eq rfl rfl (List.Subset.refl _) (List.Subset.refl _))
      (h₁.paid.books (.setProgress _) rfl rfl) rfl rfl rfl) (fun u hu => hu.2) ht))
  intro _ u hu
  refine safe_mono ?_ (fun _ v hv => hv.mono fun hx => hx.1.1)
    (advanceWatermark_meets (hY.and (monotone_accounted t)) hu
      fun v hv => ⟨⟨oc, hv.1.2⟩, hv.2⟩)
  exact fun _ v hv => hv.mono hv.extra.1.1

/-- A chunk drains, or the sweep stops. -/
theorem drainChunk_meets (hX : Monotone X) (h : Draining cfg o zoom tiles n [] False X w) :
    Meets (Good cfg) (Cut cfg o zoom X)
      (fun _ w => Cut cfg o zoom X w ∧ (w.mem.sweep.stopped = true ∨
        (Paid False w ∧ Idle w ∧ Drained tiles w))) (drainChunk cfg zoom n) w := by
  induction n generalizing w with
  | zero =>
    have hnil := List.length_eq_zero_iff.mp h.count
    refine ⟨h.cut, .inr ⟨h.paid, pendingKeys_nil_iff.mp hnil, fun p hp => ?_⟩⟩
    simpa [hnil] using h.folded p hp
  | succ n ih =>
    refine safe_bind (meets_nextCompleted (stable_draining hX.stable) h
      (fun u hu => hu.steady.good) (fun u hu => hu.cut) (fun u d done hu hd => cut_collect hX hu hd)
      ?_)
    intro u d done oc hu hd hr
    have ho := hu.steady.tasks.finished d (by simp [hd]) oc hr
    refine safe_bind (safe_mono ?_ (fun _ v hv => hv)
      (handleCompletion_meets hX (draining_collect hX hu hd hr) ho))
    intro _ v hv
    refine safe_bind ?_
    change Meets _ _ _ (if v.mem.sweep.stopped then _ else _) v
    split_ifs with hstop
    · exact ⟨hv.cut, .inl hstop⟩
    · exact ih hv

end

end DataService
