import DataService.Lib.StepSystem
import DataService.Basemap.TileReader

/-! One tile in Redis and S3, the chains that read it, their background writes, and the
scraper that stores it. Every command takes effect at one moment and is acknowledged later;
in between, and between two commands, anything else may happen. -/

namespace DataService

/-- The value that a cache may answer with is the one it has. -/
def RedisAnswer.fits {α : Type} [DecidableEq α] (a : α) : RedisAnswer α → Bool
  | .value b => decide (b = a)
  | _ => true

def S3Answer.fits (stored : Option TileBytes) : S3Answer → Bool
  | .bytes data => decide (stored = some data)
  | .noSuchKey => decide (stored = none)
  | _ => true

/-- The tier that a chain asks next; `answering` when it has found a tombstone. -/
inductive ChainStage where
  | askMiss
  | answering (since : Nat)
  | askProvider
  | askRedis
  | askS3
  deriving DecidableEq, Repr

/-- A run of `_resolve_tile`, with what it was answered so far. `since` is the number of
stores that had completed when it started. -/
structure ChainRun where
  since : Nat
  stage : ChainStage
  replies : TierReplies

def ChainStage.found : ChainStage → Option Nat
  | .answering since => some since
  | _ => none

/-- The store of the scraper, by the command that comes next. -/
inductive ScraperStage where
  | uploading
  | setting
  | clearing
  | cleared
  deriving DecidableEq, Repr

/-- A write in progress: a background task of a reader, `landed` once its command has taken
effect, or a store of the scraper. -/
inductive StoreTask where
  | reader (write : CacheWrite) (since : Nat) (landed : Bool)
  | scraper (data : TileBytes) (stage : ScraperStage)
  deriving DecidableEq

/-- The tombstone holds the `since` of the chain that decided it. `stores` counts the
completed stores; neither number is part of the service. -/
structure TileCache where
  redisTile : Option TileBytes
  s3Tile : Option TileBytes
  tombstone : Option Nat
  chains : List ChainRun
  tasks : List StoreTask
  stores : Nat

inductive TileCacheAction where
  /-- a get_tile starts a chain -/
  | arrive
  | askMiss (i : Nat) (r : RedisAnswer Bool)
  | askProvider (i : Nat) (gate : RelayGate) (r : ProviderReply)
  | askRedis (i : Nat) (r : RedisAnswer (Option TileBytes))
  /-- the last answer; the chain ends and schedules its writes -/
  | askS3 (i : Nat) (r : S3Answer)
  /-- the chain returns, or is given up -/
  | leave (i : Nat)
  | scrape (data : TileBytes)
  /-- the next command of a task takes effect -/
  | advance (k : Nat)
  /-- the last command of a task is acknowledged -/
  | finish (k : Nat)
  | drop (k : Nat)
  | expireTile
  | expireTombstone

namespace TileCache

def empty : TileCache := ⟨none, none, none, [], [], 0⟩

def newChain (s : TileCache) : ChainRun :=
  ⟨s.stores, .askMiss, ⟨.value false, ⟨none, 0, 0⟩, .missing, .value none, .noSuchKey⟩⟩

def setChain (s : TileCache) (i : Nat) (c : ChainRun) : TileCache :=
  { s with chains := s.chains.set i c }

def setTask (s : TileCache) (k : Nat) (task : StoreTask) : TileCache :=
  { s with tasks := s.tasks.set k task }

/-- The command of a background task takes effect. -/
def applyWrite (s : TileCache) (since : Nat) : CacheWrite → TileCache
  | .redisTile data => { s with redisTile := some data }
  | .s3Tile data => { s with s3Tile := some data }
  | .missMark => { s with tombstone := some since }

/-- The next command of the scraper takes effect. -/
def advanceScraper (s : TileCache) (k : Nat) (data : TileBytes) : ScraperStage → Option TileCache
  | .uploading => some ({ s with s3Tile := some data }.setTask k (.scraper data .setting))
  | .setting => some ({ s with redisTile := some data }.setTask k (.scraper data .clearing))
  | .clearing => some ({ s with tombstone := none }.setTask k (.scraper data .cleared))
  | .cleared => none

def advanceTask (s : TileCache) (k : Nat) : StoreTask → Option TileCache
  | .reader write since false => some ((s.applyWrite since write).setTask k (.reader write since true))
  | .reader _ _ true => none
  | .scraper data stage => s.advanceScraper k data stage

/-- What a chain has found out when Redis has answered its first question. -/
def afterMiss (cfg : ReaderConfig) (s : TileCache) (c : ChainRun) (r : RedisAnswer Bool) :
    ChainRun :=
  if cfg.negativeCacheEnabled then
    match r, s.tombstone with
    | .value true, some since => { c with stage := .answering since }
    | r, _ => { c with stage := .askProvider, replies := { c.replies with miss := r } }
  else { c with stage := .askProvider }

end TileCache

/-- The task has done what its store consists of, and the tile is in Redis. -/
def StoreTask.isStore : StoreTask → Bool
  | .reader (.redisTile _) _ true | .scraper _ .cleared => true
  | _ => false

def StoreTask.acknowledgeable : StoreTask → Bool
  | .reader _ _ true | .scraper _ .cleared => true
  | _ => false

open TileCache in
def tileCacheStep (cfg : ReaderConfig) (s : TileCache) : TileCacheAction → Option TileCache
  | .arrive => some { s with chains := s.chains ++ [s.newChain] }
  | .askMiss i r =>
    s.chains[i]?.bind fun c =>
      if c.stage = .askMiss ∧ r.fits s.tombstone.isSome then some (s.setChain i (afterMiss cfg s c r))
      else none
  | .askProvider i gate r =>
    s.chains[i]?.bind fun c =>
      if c.stage = .askProvider then
        some (s.setChain i
          { c with stage := .askRedis, replies := { c.replies with relay := gate, provider := r } })
      else none
  | .askRedis i r =>
    s.chains[i]?.bind fun c =>
      if c.stage = .askRedis ∧ r.fits s.redisTile then
        some (s.setChain i { c with stage := .askS3, replies := { c.replies with redis := r } })
      else none
  | .askS3 i r =>
    s.chains[i]?.bind fun c =>
      if c.stage = .askS3 ∧ r.fits s.s3Tile then
        some
          { s with
            chains := s.chains.eraseIdx i
            tasks := s.tasks ++ (resolveTile cfg { c.replies with s3 := r }).scheduled.map
              (.reader · c.since false) }
      else none
  | .leave i => s.chains[i]?.map fun _ => { s with chains := s.chains.eraseIdx i }
  | .scrape data => some { s with tasks := s.tasks ++ [.scraper data .uploading] }
  | .advance k => s.tasks[k]?.bind (s.advanceTask k)
  | .finish k =>
    s.tasks[k]?.bind fun task =>
      if task.acknowledgeable then
        some
          { s with
            tasks := s.tasks.eraseIdx k
            stores := s.stores + if task.isStore then 1 else 0 }
      else none
  | .drop k => s.tasks[k]?.map fun _ => { s with tasks := s.tasks.eraseIdx k }
  | .expireTile => some { s with redisTile := none }
  | .expireTombstone => some { s with tombstone := none }

namespace TileCache

/-- The tombstones that a get_tile which comes now may be answered with: the one in Redis,
and those that the chains it may join have found. -/
def answers (s : TileCache) : List Nat :=
  s.tombstone.toList ++ s.chains.filterMap (·.stage.found)

/-- None of them was decided by a chain that started before the last store completed. -/
def HidesNoStore (s : TileCache) : Prop := ∀ since ∈ s.answers, s.stores ≤ since

/-- A mark takes effect only if no store has completed since its chain started, and a store
completes only when there is no tombstone. -/
def Ordered (s : TileCache) : TileCacheAction → Prop
  | .advance k => ∀ since, s.tasks[k]? = some (.reader .missMark since false) → s.stores ≤ since
  | .finish k => ∀ task, s.tasks[k]? = some task → task.isStore = true → s.answers = []
  | _ => True

/-- Nothing is decided by a chain of the future. -/
structure Bounded (s : TileCache) : Prop where
  answers : ∀ since ∈ s.answers, since ≤ s.stores
  chains : ∀ c ∈ s.chains, c.since ≤ s.stores
  tasks : ∀ write since landed, .reader write since landed ∈ s.tasks → since ≤ s.stores

section Steps

variable {cfg : ReaderConfig} {s t : TileCache} {a : TileCacheAction} {i k since : Nat}
  {c c' : ChainRun}

theorem mem_answers : since ∈ s.answers ↔
    s.tombstone = some since ∨ ∃ c ∈ s.chains, c.stage.found = some since := by
  simp [answers, List.mem_filterMap]

theorem answers_setChain (h : since ∈ (s.setChain i c').answers) :
    since ∈ s.answers ∨ c'.stage.found = some since := by
  rcases mem_answers.mp h with h | ⟨x, hx, hfound⟩
  · exact .inl (mem_answers.mpr (.inl h))
  · rcases List.mem_or_eq_of_mem_set hx with hx | rfl
    · exact .inl (mem_answers.mpr (.inr ⟨x, hx, hfound⟩))
    · exact .inr hfound

theorem afterMiss_found {r : RedisAnswer Bool} (h : (afterMiss cfg s c r).stage.found = some since) :
    since ∈ s.answers := by
  unfold afterMiss at h
  split_ifs at h
  · split at h
    · next since' htomb =>
      obtain rfl : since' = since := Option.some.inj h
      exact mem_answers.mpr (.inl htomb)
    · cases h
  · cases h

theorem afterMiss_since (r : RedisAnswer Bool) : (afterMiss cfg s c r).since = c.since := by
  unfold afterMiss
  split
  · split <;> rfl
  · rfl

/-- Most steps neither complete a store nor plant a tombstone. -/
theorem step_answers (hs : tileCacheStep cfg s a = some t) :
    (t.stores = s.stores ∧ ∀ since ∈ t.answers, since ∈ s.answers) ∨
    (∃ k since, a = .advance k ∧ s.tasks[k]? = some (.reader .missMark since false) ∧
      t.stores = s.stores ∧ t.tombstone = some since ∧ t.chains = s.chains) ∨
    (∃ k task, a = .finish k ∧ s.tasks[k]? = some task ∧ task.isStore = true ∧
      t.stores = s.stores + 1 ∧ t.answers = s.answers) := by
  cases a with
  | arrive =>
    cases hs
    refine .inl ⟨rfl, fun since h => ?_⟩
    simpa [answers, newChain, ChainStage.found] using h
  | askMiss i r =>
    obtain ⟨c, -, hs⟩ := Option.bind_eq_some_iff.mp hs
    split_ifs at hs
    cases hs
    exact .inl ⟨rfl, fun since h => (answers_setChain h).elim id afterMiss_found⟩
  | askProvider i gate r =>
    obtain ⟨c, -, hs⟩ := Option.bind_eq_some_iff.mp hs
    split_ifs at hs
    cases hs
    refine .inl ⟨rfl, fun since h => (answers_setChain h).elim id fun hf => ?_⟩
    cases hf
  | askRedis i r =>
    obtain ⟨c, -, hs⟩ := Option.bind_eq_some_iff.mp hs
    split_ifs at hs
    cases hs
    refine .inl ⟨rfl, fun since h => (answers_setChain h).elim id fun hf => ?_⟩
    cases hf
  | askS3 i r =>
    obtain ⟨c, -, hs⟩ := Option.bind_eq_some_iff.mp hs
    split_ifs at hs
    cases hs
    refine .inl ⟨rfl, fun since h => mem_answers.mpr ((mem_answers.mp h).imp_right ?_)⟩
    exact fun ⟨x, hx, hf⟩ => ⟨x, List.mem_of_mem_eraseIdx hx, hf⟩
  | leave i =>
    obtain ⟨c, -, rfl⟩ := Option.map_eq_some_iff.mp hs
    refine .inl ⟨rfl, fun since h => mem_answers.mpr ((mem_answers.mp h).imp_right ?_)⟩
    exact fun ⟨x, hx, hf⟩ => ⟨x, List.mem_of_mem_eraseIdx hx, hf⟩
  | scrape data =>
    cases hs
    exact .inl ⟨rfl, fun since h => h⟩
  | advance k =>
    obtain ⟨task, htask, hs⟩ := Option.bind_eq_some_iff.mp hs
    cases task with
    | reader write since landed =>
      cases landed with
      | true => cases hs
      | false =>
        cases hs
        cases write with
        | redisTile data => exact .inl ⟨rfl, fun since h => h⟩
        | s3Tile data => exact .inl ⟨rfl, fun since h => h⟩
        | missMark => exact .inr (.inl ⟨k, since, rfl, htask, rfl, rfl, rfl⟩)
    | scraper data stage =>
      cases stage with
      | uploading =>
        cases hs
        exact .inl ⟨rfl, fun since h => h⟩
      | setting =>
        cases hs
        exact .inl ⟨rfl, fun since h => h⟩
      | clearing =>
        cases hs
        refine .inl ⟨rfl, fun since h => mem_answers.mpr (.inr ?_)⟩
        rcases mem_answers.mp h with h | h
        · cases h
        · exact h
      | cleared => cases hs
  | finish k =>
    obtain ⟨task, htask, hs⟩ := Option.bind_eq_some_iff.mp hs
    by_cases hack : task.acknowledgeable = true
    · rw [if_pos hack] at hs
      cases hs
      cases hstore : task.isStore with
      | true => exact .inr (.inr ⟨k, task, rfl, htask, hstore, rfl, rfl⟩)
      | false => exact .inl ⟨rfl, fun since h => h⟩
    · rw [if_neg hack] at hs
      cases hs
  | drop k =>
    obtain ⟨task, -, rfl⟩ := Option.map_eq_some_iff.mp hs
    exact .inl ⟨rfl, fun since h => h⟩
  | expireTile =>
    cases hs
    exact .inl ⟨rfl, fun since h => h⟩
  | expireTombstone =>
    cases hs
    refine .inl ⟨rfl, fun since h => mem_answers.mpr (.inr ?_)⟩
    rcases mem_answers.mp h with h | h
    · cases h
    · exact h

theorem step_chains (hb : s.Bounded) (hs : tileCacheStep cfg s a = some t) :
    s.stores ≤ t.stores ∧ ∀ c ∈ t.chains, c.since ≤ s.stores := by
  have hset : ∀ i c', c'.since ≤ s.stores → ∀ x ∈ (s.setChain i c').chains, x.since ≤ s.stores := by
    intro i c' hc' x hx
    rcases List.mem_or_eq_of_mem_set hx with hx | rfl
    · exact hb.chains x hx
    · exact hc'
  have herase : ∀ i, ∀ x ∈ s.chains.eraseIdx i, x.since ≤ s.stores :=
    fun i x hx => hb.chains x (List.mem_of_mem_eraseIdx hx)
  cases a with
  | arrive =>
    cases hs
    refine ⟨le_rfl, fun x hx => ?_⟩
    rcases List.mem_append.mp hx with hx | hx
    · exact hb.chains x hx
    · obtain rfl := List.mem_singleton.mp hx
      exact le_rfl
  | askMiss i r =>
    obtain ⟨c, hc, hs⟩ := Option.bind_eq_some_iff.mp hs
    split_ifs at hs
    cases hs
    have hsince := hb.chains c (List.mem_of_getElem? hc)
    exact ⟨le_rfl, hset i _ (by rwa [afterMiss_since])⟩
  | askProvider i gate r =>
    obtain ⟨c, hc, hs⟩ := Option.bind_eq_some_iff.mp hs
    split_ifs at hs
    cases hs
    have hsince := hb.chains c (List.mem_of_getElem? hc)
    exact ⟨le_rfl, hset i { c with stage := _, replies := _ } hsince⟩
  | askRedis i r =>
    obtain ⟨c, hc, hs⟩ := Option.bind_eq_some_iff.mp hs
    split_ifs at hs
    cases hs
    have hsince := hb.chains c (List.mem_of_getElem? hc)
    exact ⟨le_rfl, hset i { c with stage := _, replies := _ } hsince⟩
  | askS3 i r =>
    obtain ⟨c, -, hs⟩ := Option.bind_eq_some_iff.mp hs
    split_ifs at hs
    cases hs
    exact ⟨le_rfl, herase i⟩
  | leave i =>
    obtain ⟨c, -, rfl⟩ := Option.map_eq_some_iff.mp hs
    exact ⟨le_rfl, herase i⟩
  | scrape data =>
    cases hs
    exact ⟨le_rfl, hb.chains⟩
  | advance k =>
    obtain ⟨task, -, hs⟩ := Option.bind_eq_some_iff.mp hs
    cases task with
    | reader write since landed =>
      cases landed with
      | true => cases hs
      | false =>
        cases hs
        cases write <;> exact ⟨le_rfl, hb.chains⟩
    | scraper data stage => cases stage <;> cases hs <;> exact ⟨le_rfl, hb.chains⟩
  | finish k =>
    obtain ⟨task, -, hs⟩ := Option.bind_eq_some_iff.mp hs
    by_cases hack : task.acknowledgeable = true
    · rw [if_pos hack] at hs
      cases hs
      exact ⟨Nat.le_add_right _ _, hb.chains⟩
    · rw [if_neg hack] at hs
      cases hs
  | drop k =>
    obtain ⟨task, -, rfl⟩ := Option.map_eq_some_iff.mp hs
    exact ⟨le_rfl, hb.chains⟩
  | expireTile =>
    cases hs
    exact ⟨le_rfl, hb.chains⟩
  | expireTombstone =>
    cases hs
    exact ⟨le_rfl, hb.chains⟩

/-- A reader's task was there before the step, or a chain schedules it. -/
theorem step_tasks {write : CacheWrite} {landed : Bool} (hs : tileCacheStep cfg s a = some t)
    (hmem : .reader write since landed ∈ t.tasks) :
    (∃ landed', .reader write since landed' ∈ s.tasks) ∨ ∃ c ∈ s.chains, c.since = since := by
  have hsub : ∀ k, .reader write since landed ∈ s.tasks.eraseIdx k →
      ∃ landed', .reader write since landed' ∈ s.tasks :=
    fun k h => ⟨landed, List.mem_of_mem_eraseIdx h⟩
  have hset : ∀ k task, .reader write since landed ∈ s.tasks.set k task →
      .reader write since landed ≠ task → ∃ landed', .reader write since landed' ∈ s.tasks := by
    intro k task h hne
    rcases List.mem_or_eq_of_mem_set h with h | h
    · exact ⟨landed, h⟩
    · exact absurd h hne
  cases a with
  | arrive =>
    cases hs
    exact .inl ⟨landed, hmem⟩
  | askMiss i r =>
    obtain ⟨c, -, hs⟩ := Option.bind_eq_some_iff.mp hs
    split_ifs at hs
    cases hs
    exact .inl ⟨landed, hmem⟩
  | askProvider i gate r =>
    obtain ⟨c, -, hs⟩ := Option.bind_eq_some_iff.mp hs
    split_ifs at hs
    cases hs
    exact .inl ⟨landed, hmem⟩
  | askRedis i r =>
    obtain ⟨c, -, hs⟩ := Option.bind_eq_some_iff.mp hs
    split_ifs at hs
    cases hs
    exact .inl ⟨landed, hmem⟩
  | askS3 i r =>
    obtain ⟨c, hc, hs⟩ := Option.bind_eq_some_iff.mp hs
    split_ifs at hs
    cases hs
    rcases List.mem_append.mp hmem with hmem | hmem
    · exact .inl ⟨landed, hmem⟩
    · obtain ⟨w, -, he⟩ := List.mem_map.mp hmem
      cases he
      exact .inr ⟨c, List.mem_of_getElem? hc, rfl⟩
  | leave i =>
    obtain ⟨c, -, rfl⟩ := Option.map_eq_some_iff.mp hs
    exact .inl ⟨landed, hmem⟩
  | scrape data =>
    cases hs
    rcases List.mem_append.mp hmem with hmem | hmem
    · exact .inl ⟨landed, hmem⟩
    · cases List.mem_singleton.mp hmem
  | advance k =>
    obtain ⟨task, htask, hs⟩ := Option.bind_eq_some_iff.mp hs
    cases task with
    | reader w since' landed' =>
      cases landed' with
      | true => cases hs
      | false =>
        cases hs
        have hmem' : .reader write since landed ∈ s.tasks.set k (.reader w since' true) := by
          cases w <;> exact hmem
        rcases List.mem_or_eq_of_mem_set hmem' with h | h
        · exact .inl ⟨landed, h⟩
        · cases h
          exact .inl ⟨false, List.mem_of_getElem? htask⟩
    | scraper data stage =>
      cases stage with
      | uploading =>
        cases hs
        exact .inl (hset k _ hmem (by simp))
      | setting =>
        cases hs
        exact .inl (hset k _ hmem (by simp))
      | clearing =>
        cases hs
        exact .inl (hset k _ hmem (by simp))
      | cleared => cases hs
  | finish k =>
    obtain ⟨task, -, hs⟩ := Option.bind_eq_some_iff.mp hs
    by_cases hack : task.acknowledgeable = true
    · rw [if_pos hack] at hs
      cases hs
      exact .inl (hsub k hmem)
    · rw [if_neg hack] at hs
      cases hs
  | drop k =>
    obtain ⟨task, -, rfl⟩ := Option.map_eq_some_iff.mp hs
    exact .inl (hsub k hmem)
  | expireTile =>
    cases hs
    exact .inl ⟨landed, hmem⟩
  | expireTombstone =>
    cases hs
    exact .inl ⟨landed, hmem⟩

theorem bounded_step (hb : s.Bounded) (hs : tileCacheStep cfg s a = some t) : t.Bounded := by
  obtain ⟨hstores, hchains⟩ := step_chains hb hs
  refine ⟨?_, fun c hc => (hchains c hc).trans hstores, ?_⟩
  · intro since h
    rcases step_answers hs with ⟨-, hans⟩ | ⟨k, since', rfl, htask, -, htomb, hch⟩ |
      ⟨k, task, rfl, htask, -, -, hans⟩
    · exact (hb.answers since (hans since h)).trans hstores
    · rcases mem_answers.mp h with h | h
      · obtain rfl : since' = since := Option.some.inj (htomb.symm.trans h)
        exact (hb.tasks _ _ _ (List.mem_of_getElem? htask)).trans hstores
      · exact (hb.answers since (mem_answers.mpr (.inr (hch ▸ h)))).trans hstores
    · exact (hb.answers since (hans ▸ h)).trans hstores
  · intro write since landed hmem
    rcases step_tasks hs hmem with ⟨landed', h⟩ | ⟨c, hc, rfl⟩
    · exact (hb.tasks write since landed' h).trans hstores
    · exact (hb.chains c hc).trans hstores

theorem ordered_iff (hb : s.Bounded) (hh : s.HidesNoStore) :
    s.Ordered a ↔ ∀ t, tileCacheStep cfg s a = some t → t.HidesNoStore := by
  constructor
  · intro hord t hs since h
    rcases step_answers hs with ⟨hstores, hans⟩ | ⟨k, since', rfl, htask, hstores, htomb, hch⟩ |
      ⟨k, task, rfl, htask, hstore, hstores, hans⟩
    · rw [hstores]
      exact hh since (hans since h)
    · rw [hstores]
      rcases mem_answers.mp h with h | h
      · obtain rfl : since' = since := Option.some.inj (htomb.symm.trans h)
        exact hord since' htask
      · exact hh since (mem_answers.mpr (.inr (hch ▸ h)))
    · have hnil := hord task htask hstore
      rw [hans, hnil] at h
      cases h
  · intro hkeep
    cases a with
    | advance k =>
      intro since htask
      have hs : tileCacheStep cfg s (.advance k) =
          some ((s.applyWrite since .missMark).setTask k (.reader .missMark since true)) := by
        simp [tileCacheStep, htask, advanceTask]
      exact hkeep _ hs since (mem_answers.mpr (.inl rfl))
    | finish k =>
      intro task htask hstore
      have hack : task.acknowledgeable = true := by
        cases task with
        | reader write since landed => cases landed <;> simp_all [StoreTask.isStore, StoreTask.acknowledgeable]
        | scraper data stage => cases stage <;> simp_all [StoreTask.isStore, StoreTask.acknowledgeable]
      have hs : tileCacheStep cfg s (.finish k) =
          some { s with tasks := s.tasks.eraseIdx k, stores := s.stores + 1 } := by
        simp [tileCacheStep, htask, hack, hstore]
      refine List.eq_nil_iff_forall_not_mem.mpr fun since h => ?_
      have hafter : s.stores + 1 ≤ since := hkeep _ hs since h
      have hbefore := hb.answers since h
      omega
    | _ => trivial

end Steps

theorem bounded_empty : empty.Bounded := by
  refine ⟨?_, ?_, ?_⟩ <;> simp [empty, answers]

/-- For every configuration and every order of reads, background writes, scraper stores and
expirations: no get_tile is ever answered by a tombstone that a completed store has overtaken
iff no mark takes effect after a store that its chain did not see, and no store completes
beside a tombstone. -/
theorem hides_no_store_iff (cfg : ReaderConfig) (as : List TileCacheAction) :
    (∀ bs t, bs <+: as → StepSystem.run (tileCacheStep cfg) empty bs = some t → t.HidesNoStore) ↔
      StepSystem.Along (tileCacheStep cfg) Ordered empty as := by
  have hnew : empty.HidesNoStore := by simp [HidesNoStore, empty, answers]
  have halong : StepSystem.Always (tileCacheStep cfg) HidesNoStore empty as ↔
      StepSystem.Along (tileCacheStep cfg) Ordered empty as :=
    StepSystem.always_iff_along (fun s a t => bounded_step) (fun s a => ordered_iff)
      bounded_empty hnew
  rw [← halong, StepSystem.always_iff]

/-- A chain misses everywhere; before its mark is written the scraper stores the tile. -/
def lateMarkRun (data : TileBytes) : List TileCacheAction :=
  [.arrive, .askMiss 0 (.value false), .askProvider 0 ⟨none, 0, 0⟩ .missing,
    .askRedis 0 (.value none), .askS3 0 .noSuchKey, .scrape data, .advance 1, .advance 1,
    .advance 1, .finish 1, .advance 0]

/-- The tile is stored and cleared of tombstones, and then hidden by one. -/
theorem late_mark_hides_store : ¬ ∀ cfg as bs t, bs <+: as →
    StepSystem.run (tileCacheStep cfg) empty bs = some t → t.HidesNoStore := by
  intro h
  have hrun : (StepSystem.run (tileCacheStep fullReader) empty
      (lateMarkRun ⟨[1], by decide⟩)).any
        (fun t => decide (t.tombstone = some 0 ∧ t.stores = 1)) = true := by decide
  obtain ⟨t, ht, hp⟩ := (Option.any_eq_true _ _).mp hrun
  obtain ⟨htomb, hstores⟩ := of_decide_eq_true hp
  have hhides := h fullReader _ _ t (List.prefix_refl _) ht 0 (mem_answers.mpr (.inl htomb))
  omega

end TileCache

end DataService
