import DataService.WeatherStations.OutageWalk

/-! Runs in which LISTs fail, up to the first one that matters. -/

namespace DataService.WeatherCache

open Coroutine Coro HourBuckets Series UtcDateTime

variable {ρ π : Type}

section Runs

variable {cfg : CacheConfig ρ π} {w : World ρ π} {s t : CacheState ρ π}

theorem keeps_settle {α : Type} {Q : α → World ρ π → Prop} {c : Code ρ π α} (h : Keeps Q c w) :
    World.Onward w (c.settle w).2 ∧ Keeps Q (c.settle w).1 (c.settle w).2 :=
  honours_settle World.onward_refl (fun _ _ _ => World.Onward.trans) h

theorem keeps_answer {α : Type} {Q : α → World ρ π → Prop} {c : Code ρ π α} {r : Reply ρ}
    {p : Code ρ π α × World ρ π} (h : Keeps Q c w) (hp : c.answer w r = some p) :
    World.Onward w p.2 ∧ Keeps Q p.1 p.2 :=
  honours_answer World.onward_refl (fun _ _ _ => World.Onward.trans) h (World.onward_refl w) hp

/-- Every task and the cycle keep to their specification from here on. -/
structure CacheState.Watched (s : CacheState ρ π) : Prop where
  world : s.world.Guarded
  tasks : ∀ task ∈ s.tasks, task.code.Settled ∧ Keeps Answer.Trusted task.code s.world
  cycle : ∀ c ∈ s.cycle, c.Settled ∧ Keeps (fun _ _ => True) c s.world

theorem CacheState.Watched.onward (h : s.Watched) (hw : World.Onward s.world t.world)
    (htasks : ∀ task ∈ t.tasks, task ∉ s.tasks →
      task.code.Settled ∧ Keeps Answer.Trusted task.code t.world)
    (hcycle : ∀ c ∈ t.cycle, c ∉ s.cycle → c.Settled ∧ Keeps (fun _ _ => True) c t.world) :
    t.Watched := by
  have hrely {α : Type} {Q : α → World ρ π → Prop} {c : Code ρ π α} (hc : c.Settled)
      (hk : Keeps Q c s.world) (hQ : ∀ a, Q a s.world → Q a t.world) : Keeps Q c t.world :=
    honours_rely (R := World.Onward) (fun _ _ _ h h' => h.trans h') hc hk hw
      (fun a ha => ⟨hw.guarded ha.1, hQ a ha.2⟩) fun _ he => hw.guarded he
  refine ⟨hw.guarded h.world, fun task htask => ?_, fun c hc => ?_⟩
  · by_cases hold : task ∈ s.tasks
    · obtain ⟨hsettled, hk⟩ := h.tasks task hold
      exact ⟨hsettled, hrely hsettled hk fun a ha hn =>
        ha (World.noneFailed_of_suffix hw.failed hn)⟩
    · exact htasks task htask hold
  · by_cases hold : c ∈ s.cycle
    · obtain ⟨hsettled, hk⟩ := h.cycle c hold
      exact ⟨hsettled, hrely hsettled hk fun _ _ => trivial⟩
    · exact hcycle c hc hold

theorem CacheState.Watched.frame (h : s.Watched) (hw : World.Onward s.world t.world)
    (htasks : t.tasks ⊆ s.tasks) (hcycle : ∀ c ∈ t.cycle, c ∈ s.cycle) : t.Watched :=
  h.onward hw (fun _ htask hnew => absurd (htasks htask) hnew)
    fun c hc hnew => absurd (hcycle c hc) hnew

theorem CacheState.Watched.setCycle (h : s.Watched) {p : Code ρ π Unit × World ρ π}
    (hw : World.Onward s.world p.2) (hsettled : p.1.Settled) (hk : Keeps (fun _ _ => True) p.1 p.2) :
    (s.setCycle p).Watched := by
  obtain ⟨c, w⟩ := p
  cases c with
  | ret _ | raise _ => exact h.frame hw (fun _ ht => ht) fun _ hc => by cases hc
  | atom _ _ => exact hsettled.elim
  | await _ _ =>
    refine h.onward hw (fun _ htask hnew => absurd htask hnew) fun c hc _ => ?_
    cases hc
    exact ⟨trivial, hk⟩

theorem onward_writeBack (w : World ρ π) (i : Nat) {p : CacheKey × Sourced (CacheValue ρ π)}
    (hp : w.writeBacks[i]? = some p) (landed : Bool) :
    World.Onward w { (if landed then w.setRedis p.1 p.2 else w) with
      writeBacks := w.writeBacks.eraseIdx i } := by
  have hmem : p ∈ w.writeBacks := List.mem_of_getElem? hp
  have hset : World.Onward w (if landed then w.setRedis p.1 p.2 else w) := by
    cases landed with
    | true =>
      exact ⟨List.suffix_refl _, fun h => h.setRedis fun hlisted hn =>
        (h hn).writeBacks p hmem hlisted⟩
    | false => exact World.onward_refl w
  refine hset.trans ⟨List.suffix_refl _, fun h hn => ?_⟩
  have hc := h hn
  refine ⟨hc.redis, hc.listCache, fun q hq => hc.writeBacks q ?_⟩
  have hq' : q ∈ w.writeBacks := List.mem_of_mem_eraseIdx hq
  cases landed <;> exact hq'

theorem onward_expire (w : World ρ π) (key : CacheKey) :
    World.Onward w { w with redis := w.redis.erase key } := by
  refine ⟨List.suffix_refl _, fun h hn => ⟨fun key' slot hlisted hslot => ?_, (h hn).listCache,
    (h hn).writeBacks⟩⟩
  have hne : key' ≠ key := by
    rintro rfl
    have hgone : (w.redis.erase key').lookup key' = none := AList.lookup_erase key' w.redis
    rw [hgone] at hslot
    cases hslot
  exact (h hn).redis key' slot hlisted ((AList.lookup_erase_ne hne).symm.trans hslot)

theorem onward_restart (w : World ρ π) :
    World.Onward w { w with listCache := ∅, listLocks := [], writeBacks := [] } := by
  refine ⟨List.suffix_refl _, fun h hn => ⟨(h hn).redis, fun _ _ he => ?_, fun _ hp => ?_⟩⟩
  · cases he
  · exact absurd hp List.not_mem_nil

theorem watched_step (h : s.Watched) {a : CacheAction ρ} (hstep : cacheStep cfg s a = some t) :
    t.Watched := by
  cases a with
  | arrive worker request =>
    cases hstep
    obtain ⟨hw, hk⟩ := keeps_settle (keeps_serve cfg h.world worker request)
    refine h.onward hw (fun task htask hnew => ?_) fun _ hc hnew => absurd hc hnew
    rcases List.mem_append.mp htask with hold | hlast
    · exact absurd hold hnew
    · obtain rfl := List.mem_singleton.mp hlast
      exact ⟨settled_settle _ _, hk⟩
  | resume i r =>
    obtain ⟨task, htask, hstep⟩ := Option.bind_eq_some_iff.mp hstep
    obtain ⟨p, hp, rfl⟩ := Option.map_eq_some_iff.mp hstep
    obtain ⟨hw, hk⟩ := keeps_answer (h.tasks task (List.mem_of_getElem? htask)).2 hp
    refine h.onward hw (fun other hother hnew => ?_) fun _ hc hnew => absurd hc hnew
    rcases List.mem_or_eq_of_mem_set hother with hold | rfl
    · exact absurd hold hnew
    · exact ⟨settled_answer hp, hk⟩
  | respond i =>
    obtain ⟨task, htask, hstep⟩ := Option.bind_eq_some_iff.mp hstep
    have hsub : s.tasks.eraseIdx i ⊆ s.tasks := (List.eraseIdx_sublist ..).subset
    unfold CacheState.respond at hstep
    split at hstep
    · cases hstep
      split
      · exact h.frame (World.onward_frame rfl rfl rfl (List.suffix_refl _)) hsub fun _ hc => hc
      · exact h.frame (World.onward_refl _) hsub fun _ hc => hc
    · cases hstep
      exact h.frame (World.onward_refl _) hsub fun _ hc => hc
    · cases hstep
      exact h.frame (World.onward_refl _) hsub fun _ hc => hc
    · cases hstep
  | beginCycle =>
    cases hcycle : s.cycle with
    | none =>
      simp only [cacheStep, hcycle, Option.some.injEq] at hstep
      subst hstep
      obtain ⟨hw, hk⟩ := keeps_settle (keeps_runSync cfg h.world)
      exact h.setCycle hw (settled_settle _ _) hk
    | some c => simp [cacheStep, hcycle] at hstep
  | resumeCycle r =>
    obtain ⟨c, hc, hstep⟩ := Option.bind_eq_some_iff.mp hstep
    obtain ⟨p, hp, rfl⟩ := Option.map_eq_some_iff.mp hstep
    obtain ⟨hw, hk⟩ := keeps_answer (h.cycle c hc).2 hp
    exact h.setCycle hw (settled_answer hp) hk
  | writeBack i landed =>
    obtain ⟨p, hp, rfl⟩ := Option.map_eq_some_iff.mp hstep
    exact h.frame (onward_writeBack s.world i hp landed) (fun _ ht => ht) fun _ hc => hc
  | expire key =>
    cases hstep
    exact h.frame (onward_expire s.world key) (fun _ ht => ht) fun _ hc => hc
  | expireObject key =>
    by_cases hkey : snapshotsPrefix <+: key
    · simp only [cacheStep, if_pos hkey, Option.some.injEq] at hstep
      subst hstep
      exact h.frame (World.onward_frame rfl rfl rfl (List.suffix_refl _)) (fun _ ht => ht)
        fun _ hc => hc
    · simp [cacheStep, hkey] at hstep
  | tick now elapsed =>
    cases hstep
    exact h.frame (World.onward_frame rfl rfl rfl (List.suffix_refl _)) (fun _ ht => ht) fun _ hc => hc
  | restart =>
    cases hstep
    exact h.frame (onward_restart s.world) (fun _ ht => absurd ht List.not_mem_nil) fun _ hc => hc
  | kill =>
    cases hstep
    exact h.frame (World.onward_refl _) (fun _ ht => ht) fun _ hc => by cases hc

theorem watched_boot (now : DateTime) : (CacheState.boot now : CacheState ρ π).Watched := by
  refine ⟨fun _ => ⟨fun _ _ _ h => ?_, fun _ _ h => ?_, fun _ h => ?_⟩, fun _ h => ?_, fun _ h => ?_⟩
  · cases h
  · cases h
  · exact absurd h List.not_mem_nil
  · exact absurd h List.not_mem_nil
  · cases h

theorem CacheState.Watched.unpoisoned (h : s.Watched) (hn : NoneFailed s.world.history) :
    s.Unpoisoned := by
  refine ⟨h.world hn, fun task htask answer hanswer => ?_⟩
  have hk := (h.tasks task htask).2
  rw [hanswer] at hk
  exact hk.2 hn

/-- Until a request or the warm-up of the tilesets meets a LIST that fails, nothing is
cached, and nothing answered, that was made from one. -/
theorem unpoisoned_until_failed (cfg : CacheConfig ρ π) (now : DateTime)
    (as : List (CacheAction ρ)) (s : CacheState ρ π)
    (h : StepSystem.run (cacheStep cfg) (.boot now) as = some s)
    (hn : NoneFailed s.world.history) : s.Unpoisoned :=
  (StepSystem.run_invariant (fun _ _ _ hw hstep => watched_step hw hstep) (watched_boot now) h).unpoisoned hn

end Runs

section Example

/-- A cycle, and a request that is answered from Redis. -/
def healthyRun : List (CacheAction Unit) :=
  scrape ++ replies 6 ++ [CacheAction.arrive 0 .tilesets, .resume 0 .ok, .resume 0 .ok]

/-- The LIST of the second cycle fails; Redis has the tilesets of the first one until then. -/
def outageRun : List (CacheAction Unit) :=
  scrape ++ replies 6 ++ scrape ++ [CacheAction.resumeCycle (.failed false)] ++ replies 3 ++
    [CacheAction.arrive 0 .tilesets, .resume 0 .ok, .resume 0 .ok]

theorem unpoisoned_after_healthy_run : ∃ s : CacheState Unit Unit,
    StepSystem.run (cacheStep bareConfig) (.boot firstScrape) healthyRun = some s ∧ s.Unpoisoned :=
  ⟨_, rfl, unpoisoned_until_failed bareConfig firstScrape healthyRun _ rfl (by decide)⟩

theorem failed_listing_replaces_tilesets : ¬ ∀ as (s : CacheState Unit Unit),
    StepSystem.run (cacheStep bareConfig) (.boot firstScrape) as = some s → s.Unpoisoned := by
  intro h
  have hanswers := (h outageRun _ rfl).answers
  have hanswer := hanswers _ List.mem_cons_self _ rfl
  cases hanswer

end Example

end DataService.WeatherCache
