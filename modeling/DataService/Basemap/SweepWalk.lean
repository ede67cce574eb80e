import DataService.Basemap.SweepSteps

/-! The sweep, function by function: what each part of it leaves in the books when
it returns, when an exception leaves it, and wherever the process may die. -/

namespace DataService

open Coroutine Coro

/-- The books between two tiles: no task is in flight. -/
structure AtRest (cfg : ScrapeConfig) (o : Origin) (held : Prop) (X : World → Prop) (w : World) :
    Prop where
  steady : Steady cfg o w
  idle : Idle w
  paid : Paid held w
  extra : X w

/-- What is left of the books when an exception comes through. -/
structure Broken (cfg : ScrapeConfig) (o : Origin) (X : World → Prop) (w : World) : Prop where
  steady : Steady cfg o w
  idle : Idle w
  extra : X w

section

variable {cfg : ScrapeConfig} {o : Origin} {X : World → Prop} {w : World}

theorem stable_atRest {held : Prop} (hX : Stable X) : Stable (AtRest cfg o held X) :=
  fun w w' hn h => ⟨stable_steady cfg o w w' hn h.steady, stable_idle w w' hn h.idle,
    stable_paid held w w' hn h.paid, hX w w' hn h.extra⟩

theorem stable_broken (hX : Stable X) : Stable (Broken cfg o X) :=
  fun w w' hn h => ⟨stable_steady cfg o w w' hn h.steady, stable_idle w w' hn h.idle,
    hX w w' hn h.extra⟩

theorem AtRest.broken {held : Prop} (h : AtRest cfg o held X w) : Broken cfg o X w :=
  ⟨h.steady, h.idle, h.extra⟩

theorem AtRest.mono {held : Prop} {Y : World → Prop} (h : AtRest cfg o held X w)
    (hXY : X w → Y w) : AtRest cfg o held Y w :=
  ⟨h.steady, h.idle, h.paid, hXY h.extra⟩

theorem Broken.mono {Y : World → Prop} (h : Broken cfg o X w) (hXY : X w → Y w) :
    Broken cfg o Y w :=
  ⟨h.steady, h.idle, hXY h.extra⟩

theorem meets_cancelPending {Exn P : World → Prop} {Q : Unit → World → Prop} (hs : Stable P)
    (hp : P (w.setTasks [] [])) (hgood : ∀ w, P w → Good cfg w) (hexn : ∀ w, P w → Exn w)
    (hq : ∀ w, P w → Q () w) : Meets (Good cfg) Exn Q cancelPending w := by
  refine safe_bind (safe_bind ?_)
  change Meets (Good cfg) Exn Q (if _ then pause else pure ()) (w.setTasks [] [])
  split_ifs
  · exact meets_pause hs hp hgood hexn hq
  · exact hq _ hp

theorem steady_cancelled (h : Steady cfg o w) : Steady cfg o (w.setTasks [] []) :=
  h.of_eq rfl rfl (List.nil_subset _) (List.nil_subset _)

theorem pendingKeys_nil_iff : pendingKeys w = [] ↔ Idle w := by
  simp [pendingKeys, Idle]

/-- Tasks for these tiles, none of them begun. -/
abbrev created (tiles : List (Nat × Tile)) : List TileTask :=
  tiles.map fun p => ⟨p.1, p.2, .created⟩

theorem steady_createTasks (h : Steady cfg o w) {tiles : List (Nat × Tile)}
    (ht : ∀ p ∈ tiles, p.2 ∈ scheduledTiles cfg o) :
    Steady cfg o (w.setTasks (created tiles) []) := by
  refine h.step (Books.setTasks _ _) ⟨?_, ?_, ?_⟩ (fun t ht => .inl ht) (fun c hc => .inl hc)
  · intro k hk
    obtain ⟨p, hp, rfl⟩ := List.mem_map.mp hk
    exact ht p hp
  · intro k hk hs
    obtain ⟨p, hp, rfl⟩ := List.mem_map.mp hk
    exact absurd rfl hs
  · intro d hd
    simp [World.setTasks] at hd

theorem pendingKeys_createTasks (tiles : List (Nat × Tile)) :
    pendingKeys (w.setTasks (created tiles) []) = tiles := by
  simp [pendingKeys, World.setTasks, Function.comp_def]

/-- Collecting one completion: the coroutine holds it now. -/
theorem paid_collect {d : DoneTile} {done : List DoneTile} {oc : TileOutcome} (h : Paid False w)
    (hd : w.mem.done = d :: done) (hr : d.result = .ok oc) :
    Paid (oc.isStorageFailure = true) (w.setTasks w.mem.tasks done) := by
  intro t od ho hf
  rcases h t od ho hf with hh | hh | hh | ⟨d', hm, od', hr', hf'⟩
  · exact .inl hh
  · exact .inr (.inl hh)
  · exact hh.elim
  · rw [hd] at hm
    rcases List.mem_cons.mp hm with rfl | hm
    · rw [hr] at hr'
      cases hr'
      exact .inr (.inr (.inl hf'))
    · exact .inr (.inr (.inr ⟨d', hm, od', hr', hf'⟩))

theorem steady_collect {d : DoneTile} {done : List DoneTile} (h : Steady cfg o w)
    (hd : w.mem.done = d :: done) : Steady cfg o (w.setTasks w.mem.tasks done) :=
  h.of_eq rfl rfl (List.Subset.refl _) (by simp [World.setTasks, hd])

theorem pendingKeys_collect {d : DoneTile} {done : List DoneTile} (hd : w.mem.done = d :: done) :
    (pendingKeys w).Perm ((d.idx, d.tile) :: pendingKeys (w.setTasks w.mem.tasks done)) := by
  simp only [pendingKeys, World.setTasks, hd, List.map_cons]
  exact List.perm_middle

theorem paid_of_idle {held : Prop} (h : Paid held w) (hi : Idle w) :
    Paid held (w.setTasks [] []) := by
  intro t oc ho hf
  have hh := h t oc ho hf
  rwa [hi.2] at hh

/-- One tile of the retry: whatever the answer is, the log has it. -/
theorem awaitDownload_meets {t : Tile} (hX : Monotone X) (h : AtRest cfg o False X w)
    (ht : t ∈ scheduledTiles cfg o) :
    Meets (Good cfg) (Broken cfg o X)
      (fun oc w => AtRest cfg o (oc.isStorageFailure = true) X w ∧
        .outcome t oc ∈ cycleEvents w.log) (awaitDownload t) w := by
  have hXs := hX.stable
  have hcancel : ∀ (w : World) (Q : Unit → World → Prop), Steady cfg o w → X w →
      (∀ w, Broken cfg o X w → Q () w) →
      Meets (Good cfg) (Broken cfg o X) Q cancelPending w := by
    intro w Q hs hx hq
    have hb : Broken cfg o X (w.setTasks [] []) :=
      ⟨steady_cancelled hs, ⟨rfl, rfl⟩, hX _ _ (Books.setTasks _ _).grows hx⟩
    exact meets_cancelPending (stable_broken hXs) hb (fun w h => h.steady.good) (fun w h => h) hq
  let P : World → Prop := fun w => Steady cfg o w ∧ Paid False w ∧ X w ∧
    (pendingKeys w).Perm [(0, t)]
  have hP : Stable P := by
    intro w w' hn hp
    exact ⟨stable_steady cfg o w w' hn hp.1, stable_paid _ w w' hn hp.2.1, hXs w w' hn hp.2.2.1,
      hn.pending.trans hp.2.2.2⟩
  have hcreate : P (w.setTasks (created [(0, t)]) []) := by
    refine ⟨steady_createTasks h.steady (by simpa using ht), ?_, ?_, by
      rw [pendingKeys_createTasks]⟩
    · exact h.paid.books (Books.setTasks _ _) rfl h.idle.2.symm
    · exact hX _ _ (Books.setTasks _ _).grows h.extra
  have hexn : ∀ w, Steady cfg o w → X w →
      Meets (Good cfg) (Broken cfg o X) (fun _ u => Broken cfg o X u) cancelPending w :=
    fun w hs hx => hcancel w _ hs hx fun _ h => h
  refine safe_tryFinally (safe_bind ?_)
  refine safe_bind (safe_mono (fun _ _ h => h) (fun _ w hb => hexn w hb.1 hb.2)
    (meets_nextCompleted (E := fun w => Steady cfg o w ∧ X w) hP hcreate
      (fun w h => h.1.good) (fun w h => ⟨h.1, h.2.2.1⟩) ?_ ?_))
  · intro w d done hp hd
    exact ⟨steady_collect hp.1 hd, hX _ _ (Books.setTasks _ _).grows hp.2.2.1⟩
  · rintro w d done oc ⟨hs, hpaid, hx, hkeys⟩ hd hr
    have hperm := (pendingKeys_collect hd).symm.trans hkeys
    have hnil : pendingKeys (w.setTasks w.mem.tasks done) = [] := by
      have := hperm.length_eq
      simpa using this
    have htile : d.tile = t := by
      rw [hnil] at hperm
      exact (by simpa using List.perm_singleton.mp hperm : d.idx = 0 ∧ d.tile = t).2
    have hidle := pendingKeys_nil_iff.mp hnil
    have ho : .outcome t oc ∈ cycleEvents w.log := htile ▸ hs.tasks.finished d (by simp [hd]) oc hr
    have hrest : AtRest cfg o (oc.isStorageFailure = true)
        (fun w => X w ∧ .outcome t oc ∈ cycleEvents w.log) (w.setTasks w.mem.tasks done) :=
      ⟨steady_collect hs hd, hidle, paid_collect hpaid hd hr,
        hX _ _ (Books.setTasks _ _).grows hx, ho⟩
    have hst : Stable (AtRest cfg o (oc.isStorageFailure = true) _) :=
      stable_atRest (hX.and (monotone_cycleEvent (.outcome t oc))).stable
    refine meets_cancelPending hst ?_ (fun w h => h.steady.good)
      (fun w h => (h.mono fun hx => hx.1).broken) fun w h => ⟨h.mono fun hx => hx.1, h.extra.2⟩
    exact ⟨steady_cancelled hrest.steady, ⟨rfl, rfl⟩, paid_of_idle hrest.paid hidle,
      hX _ _ (Books.setTasks _ _).grows hrest.extra.1, hrest.extra.2⟩

theorem atRest_update {oc : TileOutcome} {t : Tile} (hX : Monotone X)
    (h : AtRest cfg o (oc.isStorageFailure = true) X w) (ex : Bool) :
    AtRest cfg o False X (w.setSweep (w.mem.sweep.update cfg.settings ex oc t)) :=
  ⟨h.steady.of_eq rfl rfl (List.Subset.refl _) (List.Subset.refl _), h.idle, paid_update h.paid,
    hX _ _ (Books.setSweep _).grows h.extra⟩

theorem dequeueIfOk_meets {oc : TileOutcome} {t : Tile} (hX : Monotone X)
    (h : AtRest cfg o False X w) (ho : ∀ w, X w → .outcome t oc ∈ cycleEvents w.log) :
    Meets (Good cfg) (Broken cfg o X) (fun _ w => AtRest cfg o False X w) (dequeueIfOk oc t) w := by
  unfold dequeueIfOk
  split_ifs with hok
  · have hremove : ∀ w, AtRest cfg o False X w → AtRest cfg o False X (w.removeFailed t) := by
      intro w hw
      have hw' := hok ▸ ho w hw.extra
      have hb := Books.removeFailed hw'
      exact ⟨hw.steady.removeFailed hw', hw.idle, hw.paid.books hb rfl rfl, hX _ _ hb.grows hw.extra⟩
    exact meets_commit (stable_atRest hX.stable) h (fun w h => h.steady.good)
      (fun w hw => ⟨hw.broken, (hremove w hw).broken⟩) hremove
  · exact h

theorem retryEach_meets {ts : List Tile} (hX : Monotone X) (h : AtRest cfg o False X w)
    (ht : ∀ t ∈ ts, t ∈ scheduledTiles cfg o) (ok failed : Nat) :
    Meets (Good cfg) (Broken cfg o X)
      (fun _ w => AtRest cfg o False X w ∧
        (w.mem.sweep.stopped = false → ∀ t ∈ ts, Answered w.log t))
      (retryEach cfg ts ok failed) w := by
  induction ts generalizing w X ok failed with
  | nil => exact ⟨h, by simp⟩
  | cons t ts ih =>
    have hts := List.forall_mem_cons.mp ht
    refine safe_bind (safe_mono ?_ (fun _ _ h => h) (awaitDownload_meets hX h hts.1))
    rintro oc w₁ ⟨h₁, ho⟩
    have hY : Monotone fun w => X w ∧ .outcome t oc ∈ cycleEvents w.log :=
      hX.and (monotone_cycleEvent _)
    have h₂ := atRest_update (t := t) hY ⟨h₁.steady, h₁.idle, h₁.paid, h₁.extra, ho⟩
      w₁.shared.s3Circuit.exhausted
    refine safe_bind (safe_bind (safe_mono ?_ (fun _ w hb => hb.mono fun hx => hx.1)
      (dequeueIfOk_meets hY h₂ fun w hx => hx.2)))
    rintro _ w₃ h₃
    refine safe_bind ?_
    change Meets _ _ _ (if w₃.mem.sweep.stopped then _ else _) w₃
    by_cases hstop : w₃.mem.sweep.stopped = true
    · rw [if_pos hstop]
      exact ⟨h₃.mono fun hx => hx.1, fun hn => by simp [hstop] at hn⟩
    · rw [if_neg hstop]
      refine safe_mono ?_ (fun _ w hb => hb.mono fun hx => hx.1) (ih hY h₃ hts.2 _ _)
      rintro _ w' ⟨hw', ha⟩
      refine ⟨hw'.mono fun hx => hx.1, fun hn s hs => ?_⟩
      rcases List.mem_cons.mp hs with rfl | hs
      · exact ⟨oc, hw'.extra.2⟩
      · exact ha hn s hs

end

end DataService
