import DataService.Basemap.Fleet
import DataService.Basemap.HiddenRedis
import DataService.Basemap.StampSoundness

/-! A process that writes to Redis beside one that does not, over the same state file and
under the same schedule. They do the same until a Redis command raises an error of
redis-py, which the tile task does not catch. -/

namespace DataService

open Coroutine Coro

section Tile

variable {stage : TileStage} {r : TileReply} {w : World} {i : Nat}

/-- The tile task gets an exception out of its Redis write. -/
def TileStage.raisesRedisError (stage : TileStage) (r : TileReply) : Bool :=
  decide (stage = .warming true ∧ r = .redis .redisError)

theorem downloadAndStore_withoutRedis (sh : Shared) (h : stage.raisesRedisError r = false) :
    sh.withoutRedis.downloadAndStore stage.withoutRedis r =
      (sh.downloadAndStore stage r).map fun p => (p.1.withoutRedis, p.2.withoutRedis) := by
  cases stage with
  | created =>
    cases r with
    | start =>
      show (if sh.s3Circuit.allowsWrite sh.mono then _ else _) = Option.map _ (if _ then _ else _)
      split <;> rfl
    | http x => rfl
    | s3 ok => rfl
    | redis x => rfl
    | raised e => rfl
  | fetching =>
    cases r with
    | http x => cases x <;> rfl
    | start => rfl
    | s3 ok => rfl
    | redis x => rfl
    | raised e => rfl
  | uploading =>
    cases r with
    | s3 ok => cases ok <;> rfl
    | start => rfl
    | http x => rfl
    | redis x => rfl
    | raised e => rfl
  | warming issued =>
    cases r with
    | redis x =>
      cases issued
      · rfl
      · cases x with
        | ok => rfl
        | listed => rfl
        | redisError => simp [TileStage.raisesRedisError] at h
    | start => rfl
    | http x => rfl
    | s3 ok => rfl
    | raised e => rfl

theorem tileEvents_withoutRedis (t : Tile) (stage : TileStage) (p : TileProgress) :
    tileEvents t stage.withoutRedis p.withoutRedis = tileEvents t stage p := by
  cases stage <;> rcases p with stage' | o | e <;> first | rfl | (cases stage' <;> rfl)

theorem move_withoutRedis (m : Memory) (i : Nat) (task : TileTask) (p : TileProgress) :
    m.withoutRedis.move i task.withoutRedis p.withoutRedis = (m.move i task p).withoutRedis := by
  cases p with
  | waits stage =>
    simp only [Memory.move, Memory.withoutRedis, TileProgress.withoutRedis, List.map_set]
    rfl
  | returns o =>
    simp only [Memory.move, Memory.withoutRedis, TileProgress.withoutRedis, List.eraseIdx_map]
    rfl
  | raises e =>
    simp only [Memory.move, Memory.withoutRedis, TileProgress.withoutRedis, List.eraseIdx_map]
    rfl

theorem tileStep_withoutRedis
    (h : ∀ task, w.mem.tasks[i]? = some task → task.stage.raisesRedisError r = false) :
    w.withoutRedis.tileStep i r = (w.tileStep i r).map World.withoutRedis := by
  have hget : w.withoutRedis.mem.tasks[i]? = w.mem.tasks[i]?.map TileTask.withoutRedis :=
    List.getElem?_map ..
  unfold World.tileStep
  rw [hget]
  cases ht : w.mem.tasks[i]? with
  | none => rfl
  | some task =>
    have hd := downloadAndStore_withoutRedis w.shared (h task ht)
    show (w.shared.withoutRedis.downloadAndStore task.stage.withoutRedis r).map _ = _
    rw [hd]
    show _ = ((w.shared.downloadAndStore task.stage r).map _).map _
    rw [Option.map_map, Option.map_map]
    congr 1
    funext p
    show (⟨p.1.withoutRedis, w.mem.withoutRedis.move i task.withoutRedis p.2.withoutRedis, w.rows,
      tileEvents task.tile task.stage.withoutRedis p.2.withoutRedis ++ w.log⟩ : World) = _
    rw [tileEvents_withoutRedis, move_withoutRedis]
    rfl

/-- The same error leaves two different logs. -/
theorem tileStep_raised {task : TileTask} (ht : w.mem.tasks[i]? = some task)
    (h : task.stage.raisesRedisError r = true) :
    (∃ u, w.tileStep i r = some u ∧ u.log = .redisRaised :: w.log) ∧
      ∀ u, w.withoutRedis.tileStep i r = some u → u.log = .outcome task.tile .ok :: w.log := by
  obtain ⟨hs, rfl⟩ := of_decide_eq_true h
  obtain ⟨idx, tile, stage⟩ := task
  obtain rfl : stage = .warming true := hs
  constructor
  · simp only [World.tileStep, ht]
    exact ⟨_, rfl, rfl⟩
  · intro u hu
    have hget : w.withoutRedis.mem.tasks[i]? = some ⟨idx, tile, .warming false⟩ := by
      show (w.mem.tasks.map TileTask.withoutRedis)[i]? = _
      rw [List.getElem?_map, ht]
      rfl
    simp only [World.tileStep, hget] at hu
    cases hu
    rfl

end Tile

def Sweep.withoutRedis (sweep : Sweep) : Sweep := { sweep with mem := sweep.mem.withoutRedis }

def Group.withoutRedis (g : Group) : Group := { g with sweep := g.sweep.map Sweep.withoutRedis }

def FleetState.withoutRedis (s : FleetState) : FleetState :=
  { s with shared := s.shared.withoutRedis, groups := s.groups.map Group.withoutRedis }

/-- A Redis write that was issued is answered with an error of redis-py. -/
def FleetState.raisesRedisError (s : FleetState) : FleetAction → Bool
  | .tile j i r =>
    ((s.groups[j]?.bind (·.sweep)).bind fun sweep => sweep.mem.tasks[i]?).any
      (·.stage.raisesRedisError r)
  | _ => false

/-- The two processes have the same rows, and the same has happened to their providers. -/
def FleetState.SameFiles (s t : FleetState) : Prop := t.files = s.files

/-- The coroutines of the running sweeps do not look at Redis. -/
def FleetState.AllBlind (s : FleetState) : Prop :=
  ∀ g ∈ s.groups, ∀ sweep, g.sweep = some sweep → sweep.code.Blind World.withoutRedis

variable {cfg : FleetConfig} {s t : FleetState} {a : FleetAction}

section Blind

variable {j : Nat} {g : Group} {p : BasemapProvider} {w : World} {out : Code (Nat × Nat) × World}

theorem allBlind_set (h : s.AllBlind)
    (hg : ∀ sweep, g.sweep = some sweep → sweep.code.Blind World.withoutRedis) :
    ((s.store p w).setGroup j g).AllBlind := by
  intro g' hg'
  rcases List.mem_or_eq_of_mem_set hg' with hg' | rfl
  · exact h g' hg'
  · exact hg

theorem allBlind_failGroup (h : s.AllBlind) (awaited : Bool) : (s.failGroup j awaited).AllBlind := by
  intro g hg sweep hs
  cases awaited with
  | true =>
    obtain ⟨g', hg', rfl⟩ := List.mem_map.mp hg
    exact h g' (List.mem_of_mem_eraseIdx hg') sweep hs
  | false => exact h g (List.mem_of_mem_eraseIdx hg) sweep hs

theorem allBlind_arriveAt (h : s.AllBlind) (hout : out.1.Blind World.withoutRedis) :
    (s.arriveAt j g p out).AllBlind := by
  obtain ⟨c, w⟩ := out
  have hset : (s.store p w).setGroup j { g with sweep := some ⟨p, w.mem, c⟩ } |>.AllBlind := by
    apply allBlind_set h
    intro sweep hs
    cases hs
    exact hout
  cases c with
  | ret x => exact allBlind_set h (by simp)
  | raise e => exact allBlind_failGroup (s := s.store p w) h _
  | atom f next => exact hset
  | await f next => exact hset

theorem allBlind_step (h : s.AllBlind) (hs : fleetStep cfg s a = some t) : t.AllBlind := by
  cases a with
  | begin =>
    by_cases hr : s.running
    · simp [fleetStep, hr] at hs
    · simp only [fleetStep, hr] at hs
      cases hs
      intro g hg sweep hsw
      rcases List.mem_append.mp hg with hg | hg
      · exact h g hg sweep hsw
      · obtain ⟨l, -, rfl⟩ := List.mem_map.mp hg
        cases hsw
  | clocks mono wall =>
    cases hs
    exact h
  | scrape j =>
    simp only [fleetStep] at hs
    split at hs
    · cases hs
      exact allBlind_arriveAt h (blind_scrapeProvider _).settle
    · cases hs
      exact fun g hg => h g (List.mem_of_mem_eraseIdx hg)
    · cases hs
  | tile j i r =>
    obtain ⟨g, hg, hs⟩ := Option.bind_eq_some_iff.mp hs
    obtain ⟨sweep, hsw, hs⟩ := Option.bind_eq_some_iff.mp hs
    obtain ⟨w, -, rfl⟩ := Option.map_eq_some_iff.mp hs
    apply allBlind_set h
    intro sweep' he
    cases he
    exact h g (List.mem_of_getElem? hg) sweep hsw
  | resume j r =>
    obtain ⟨g, hg, hs⟩ := Option.bind_eq_some_iff.mp hs
    obtain ⟨sweep, hsw, hs⟩ := Option.bind_eq_some_iff.mp hs
    obtain ⟨out, ho, rfl⟩ := Option.map_eq_some_iff.mp hs
    exact allBlind_arriveAt h ((h g (List.mem_of_getElem? hg) sweep hsw).answer ho)
  | kill =>
    cases hs
    exact fun g hg => by cases hg

end Blind

section Steps

variable {j : Nat} {g : Group} {p : BasemapProvider}

theorem setGroup_withoutRedis (w : World) :
    (s.withoutRedis.store p w.withoutRedis).setGroup j g.withoutRedis =
      ((s.store p w).setGroup j g).withoutRedis := by
  simp only [FleetState.setGroup, FleetState.store, FleetState.withoutRedis, List.map_set]
  rfl

theorem endGroup_withoutRedis : s.withoutRedis.endGroup j = (s.endGroup j).withoutRedis := by
  simp only [FleetState.endGroup, FleetState.withoutRedis, List.eraseIdx_map, List.any_map]
  rfl

theorem failGroup_withoutRedis (awaited : Bool) :
    s.withoutRedis.failGroup j awaited = (s.failGroup j awaited).withoutRedis := by
  cases awaited with
  | true =>
    simp only [FleetState.failGroup, FleetState.withoutRedis, List.eraseIdx_map, List.map_map,
      if_true]
    rfl
  | false =>
    simp only [FleetState.failGroup, FleetState.withoutRedis, List.eraseIdx_map,
      Bool.false_eq_true, if_false]

theorem arriveAt_withoutRedis (out : Code (Nat × Nat) × World) :
    s.withoutRedis.arriveAt j g.withoutRedis p (out.1, out.2.withoutRedis) =
      (s.arriveAt j g p out).withoutRedis := by
  obtain ⟨c, w⟩ := out
  cases c with
  | ret x => exact setGroup_withoutRedis (g := { g with sweep := none }) w
  | raise e => exact failGroup_withoutRedis (s := s.store p w) g.awaited
  | atom f next => exact setGroup_withoutRedis (g := { g with sweep := some ⟨p, w.mem, _⟩ }) w
  | await f next => exact setGroup_withoutRedis (g := { g with sweep := some ⟨p, w.mem, _⟩ }) w

theorem getGroup_withoutRedis (s : FleetState) (j : Nat) :
    s.withoutRedis.groups[j]? = s.groups[j]?.map Group.withoutRedis :=
  List.getElem?_map ..

theorem fleetStep_withoutRedis (hb : s.AllBlind) (h : s.raisesRedisError a = false) :
    fleetStep cfg s.withoutRedis a = (fleetStep cfg s a).map FleetState.withoutRedis := by
  cases a with
  | begin =>
    show (if s.running then _ else _) = Option.map _ (if s.running then _ else _)
    split
    · rfl
    · simp only [Option.map_some, FleetState.withoutRedis, List.map_append, List.map_map]
      rfl
  | clocks mono wall => rfl
  | scrape j =>
    simp only [fleetStep, getGroup_withoutRedis]
    cases hg : s.groups[j]? with
    | none => rfl
    | some g =>
      obtain ⟨waiting, sweep, awaited⟩ := g
      cases sweep with
      | some sweep => cases waiting <;> rfl
      | none =>
        cases waiting with
        | nil => exact congrArg some endGroup_withoutRedis
        | cons p waiting =>
          have hset := settle_blind (s := s.world p .new)
            (blind_scrapeProvider (cfg.scrapeConfig p))
          show some (s.withoutRedis.arriveAt j (Group.withoutRedis ⟨waiting, none, awaited⟩) p
            ((scrapeProvider (cfg.scrapeConfig p)).settle (s.world p .new).withoutRedis)) = _
          rw [hset, arriveAt_withoutRedis]
          rfl
  | tile j i r =>
    simp only [fleetStep, getGroup_withoutRedis]
    cases hg : s.groups[j]? with
    | none => rfl
    | some g =>
      obtain ⟨waiting, sweep, awaited⟩ := g
      cases sweep with
      | none => rfl
      | some sweep =>
        have htile : ∀ task, sweep.mem.tasks[i]? = some task →
            task.stage.raisesRedisError r = false := by
          intro task ht
          simpa [FleetState.raisesRedisError, hg, ht] using h
        have hstep := tileStep_withoutRedis (w := s.world sweep.provider sweep.mem) htile
        show ((s.world sweep.provider sweep.mem).withoutRedis.tileStep i r).map _ = _
        rw [hstep]
        show _ = (((s.world sweep.provider sweep.mem).tileStep i r).map _).map _
        rw [Option.map_map, Option.map_map]
        congr 1
        funext w
        exact setGroup_withoutRedis (g := ⟨waiting, some { sweep with mem := w.mem }, awaited⟩) w
  | resume j r =>
    simp only [fleetStep, getGroup_withoutRedis]
    cases hg : s.groups[j]? with
    | none => rfl
    | some g =>
      obtain ⟨waiting, sweep, awaited⟩ := g
      cases sweep with
      | none => rfl
      | some sweep =>
        have hcode := hb _ (List.mem_of_getElem? hg) sweep rfl
        have hstep := answer_blind (s := s.world sweep.provider sweep.mem) (r := r) hcode
        show (sweep.code.answer (s.world sweep.provider sweep.mem).withoutRedis r).map _ = _
        rw [hstep]
        show _ = ((sweep.code.answer (s.world sweep.provider sweep.mem) r).map _).map _
        rw [Option.map_map, Option.map_map]
        congr 1
        funext out
        exact arriveAt_withoutRedis (g := ⟨waiting, some sweep, awaited⟩) out
  | kill => rfl

/-- After a Redis error the provider has an event that the other process does not have. -/
theorem fleetStep_raised (h : s.raisesRedisError a = true) :
    ∃ t, fleetStep cfg s a = some t ∧
      ∀ t', fleetStep cfg s.withoutRedis a = some t' → ¬ t.SameFiles t' := by
  cases a with
  | tile j i r =>
    obtain ⟨task, hsome, hr⟩ := (Option.any_eq_true _ _).mp h
    obtain ⟨sweep, hsw, ht⟩ := Option.bind_eq_some_iff.mp hsome
    obtain ⟨g, hg, hgs⟩ := Option.bind_eq_some_iff.mp hsw
    obtain ⟨⟨u, hu, hlog⟩, hoff⟩ :=
      tileStep_raised (w := s.world sweep.provider sweep.mem) ht hr
    refine ⟨(s.store sweep.provider u).setGroup j
      { g with sweep := some { sweep with mem := u.mem } }, ?_, ?_⟩
    · simp only [fleetStep, hg, hgs, Option.bind_some, hu, Option.map_some]
    · intro t' ht' hsame
      simp only [fleetStep, getGroup_withoutRedis, hg, Option.map_some, Option.bind_some,
        Group.withoutRedis, hgs] at ht'
      obtain ⟨u', hu', rfl⟩ := Option.map_eq_some_iff.mp ht'
      have hlog' := hoff u' hu'
      have hfile : (⟨u'.rows, u'.log⟩ : ProviderFile) = ⟨u.rows, u.log⟩ := by
        simpa [FleetState.setGroup, FleetState.store, Sweep.withoutRedis] using
          congrFun hsame sweep.provider.providerId
      rw [ProviderFile.mk.injEq, hlog, hlog'] at hfile
      simp at hfile
  | begin => cases h
  | clocks mono wall => cases h
  | scrape j => cases h
  | resume j r => cases h
  | kill => cases h

end Steps

/-- For all providers, rows, schedules and numbers of cycles: the process that writes to
Redis does to the tiles, the bucket and the rows what the process that does not write does
iff no command that it issues is answered with an error of redis-py. -/
theorem alike_without_redis_iff (cfg : FleetConfig) (mono wall : Nat) (rows : Nat → ProviderRows)
    (as : List FleetAction) :
    StepSystem.RunsAlike (fleetStep cfg) FleetState.SameFiles (.boot mono wall true rows)
        (.boot mono wall false rows) as ↔
      StepSystem.Along (fleetStep cfg) (fun s a => s.raisesRedisError a = false)
        (.boot mono wall true rows) as := by
  show StepSystem.RunsAlike _ _ _ (FleetState.withoutRedis (.boot mono wall true rows)) as ↔ _
  apply StepSystem.runsAlike_iff_along (P := FleetState.AllBlind)
  · exact fun s a t hs => allBlind_step hs
  · exact fun s => rfl
  · exact fun s a hs => fleetStep_withoutRedis hs
  · exact fun s a ha => fleetStep_raised (by simpa using ha)
  · exact fun g hg => by cases hg

/-- One provider with one tile at each of two zooms. -/
def singleProviderFleet : FleetConfig where
  settings := singleTileConfig.settings
  providers := [singleTileConfig.provider]
  bbox := singleTileConfig.bbox
  parallelismMode := .sequential

/-- The tile is uploaded, and Redis answers its write with an error. -/
def redisErrorRun : List FleetAction :=
  [.begin, .scrape 0, .resume 0 .ok, .resume 0 .ok, .resume 0 .ok, .resume 0 (.rows []),
    .tile 0 0 .start, .tile 0 0 (.http .bytes), .tile 0 0 (.s3 true), .tile 0 0 (.redis .redisError),
    .resume 0 .ok, .resume 0 .ok]

theorem cursor_of_run (redisWrites : Bool) (cursor : Cursor)
    (h : (StepSystem.run (fleetStep singleProviderFleet)
      (.boot 0 1000 redisWrites fun _ => .empty) redisErrorRun).any
        (fun s => decide ((s.files 0).rows.cursor = some cursor)) = true) :
    ∃ s, StepSystem.run (fleetStep singleProviderFleet) (.boot 0 1000 redisWrites fun _ => .empty)
      redisErrorRun = some s ∧ (s.files 0).rows.cursor = some cursor := by
  obtain ⟨s, hs, hc⟩ := (Option.any_eq_true _ _).mp h
  exact ⟨s, hs, of_decide_eq_true hc⟩

/-- The error ends the cycle with the cursor before a tile that is in the bucket; without
Redis the sweep has gone on to the next zoom. -/
theorem redis_error_stops_the_sweep : ¬ ∀ cfg mono wall rows as,
    StepSystem.RunsAlike (fleetStep cfg) FleetState.SameFiles (.boot mono wall true rows)
      (.boot mono wall false rows) as := by
  intro h
  obtain ⟨s, hs, hc⟩ := cursor_of_run true ⟨3, 0⟩ (by decide)
  obtain ⟨t, ht, hc'⟩ := cursor_of_run false ⟨4, 0⟩ (by decide)
  have halike := h singleProviderFleet 0 1000 (fun _ => .empty) redisErrorRun
  obtain ⟨t', ht', hsame⟩ := halike.run hs
  obtain rfl : t = t' := Option.some.inj (ht.symm.trans ht')
  rw [hsame, hc] at hc'
  exact absurd hc' (by decide)

end DataService
