import Mathlib.Data.List.Basic
import DataService.Lib.IsoOrder

/-! The store of the metrics: three tables whose rows carry a stamp, written at their end and
pruned by stamp or by number. A stamp is a text there; the tables are over any type of stamps,
so that the same code can be run over the instants the texts stand for. -/

namespace DataService.Metrics

open IsoDateTime

structure SyncCycleRow (τ : Type) where
  domain : String
  startedAt : τ
  finishedAt : τ
  durationMs : Int
  downloaded : Int
  errors : Int
  outcome : String
  deriving DecidableEq

structure MemorySamplePoint (τ : Type) where
  sampledAt : τ
  domain : String
  keyCount : Int
  memoryBytes : Int
  deriving DecidableEq

/-- The values stand in the order of `infoFields`. -/
structure InfoSample (τ ν : Type) where
  sampledAt : τ
  values : List (Option ν)
  deriving DecidableEq

def infoFields : List String :=
  ["used_memory", "used_memory_rss", "used_memory_peak", "maxmemory", "mem_fragmentation_ratio",
    "evicted_keys", "expired_keys", "keyspace_hits", "keyspace_misses", "connected_clients",
    "total_keys"]

/-- The rows of each table in the order of their ids. -/
structure MetricsStore (τ ν : Type) where
  syncCycles : List (SyncCycleRow τ)
  redisMemorySamples : List (MemorySamplePoint τ)
  redisInfoSamples : List (InfoSample τ ν)
  deriving DecidableEq

/-- The statements that change the tables. -/
inductive Statement (τ ν : Type) where
  | recordSyncCycle (row : SyncCycleRow τ)
  | recordMemorySample (sampledAt : τ) (rows : List (String × Int × Int))
  | recordInfoSample (sampledAt : τ) (info : String → Option ν)
  | prune (before : τ)
  | pruneToMaxRows (maxRows : Int)

section Tables

variable {τ ρ : Type}

/-- `DELETE FROM table WHERE stamp < before` -/
def deleteBefore [LT τ] [DecidableLT τ] (stamp : ρ → τ) (before : τ) (table : List ρ) : List ρ :=
  table.filter fun row => ¬ stamp row < before

/-- The rows below the `maxRows`-th newest are deleted, and counted. -/
def capTable (maxRows : Nat) (table : List ρ) : List ρ × Nat :=
  (table.drop (table.length - maxRows), table.length - maxRows)

end Tables

namespace MetricsStore

variable {τ σ ν : Type}

def empty : MetricsStore τ ν := ⟨[], [], []⟩

def recordSyncCycle (row : SyncCycleRow τ) (store : MetricsStore τ ν) : MetricsStore τ ν :=
  { store with syncCycles := store.syncCycles ++ [row] }

def recordMemorySample (sampledAt : τ) (rows : List (String × Int × Int))
    (store : MetricsStore τ ν) : MetricsStore τ ν :=
  { store with
    redisMemorySamples := store.redisMemorySamples ++
      rows.map fun (domain, keyCount, memoryBytes) => ⟨sampledAt, domain, keyCount, memoryBytes⟩ }

def recordInfoSample (sampledAt : τ) (info : String → Option ν) (store : MetricsStore τ ν) :
    MetricsStore τ ν :=
  { store with redisInfoSamples := store.redisInfoSamples ++ [⟨sampledAt, infoFields.map info⟩] }

def prune [LT τ] [DecidableLT τ] (before : τ) (store : MetricsStore τ ν) : MetricsStore τ ν where
  syncCycles := deleteBefore SyncCycleRow.finishedAt before store.syncCycles
  redisMemorySamples := deleteBefore MemorySamplePoint.sampledAt before store.redisMemorySamples
  redisInfoSamples := deleteBefore InfoSample.sampledAt before store.redisInfoSamples

/-- The store and how many rows were deleted. -/
def pruneToMaxRows (maxRows : Int) (store : MetricsStore τ ν) : MetricsStore τ ν × Nat :=
  if maxRows ≤ 0 then (store, 0)
  else
    let cycles := capTable maxRows.toNat store.syncCycles
    let memory := capTable maxRows.toNat store.redisMemorySamples
    let info := capTable maxRows.toNat store.redisInfoSamples
    (⟨cycles.1, memory.1, info.1⟩, cycles.2 + memory.2 + info.2)

def execute [LT τ] [DecidableLT τ] (store : MetricsStore τ ν) : Statement τ ν → MetricsStore τ ν
  | .recordSyncCycle row => store.recordSyncCycle row
  | .recordMemorySample sampledAt rows => store.recordMemorySample sampledAt rows
  | .recordInfoSample sampledAt info => store.recordInfoSample sampledAt info
  | .prune before => store.prune before
  | .pruneToMaxRows maxRows => (store.pruneToMaxRows maxRows).1

def executeAll [LT τ] [DecidableLT τ] (store : MetricsStore τ ν) (statements : List (Statement τ ν)) :
    MetricsStore τ ν :=
  statements.foldl execute store

end MetricsStore

/-! The same over stamps of another type. -/

section Stamps

variable {τ σ ν : Type}

def SyncCycleRow.map (f : τ → σ) (row : SyncCycleRow τ) : SyncCycleRow σ :=
  { row with startedAt := f row.startedAt, finishedAt := f row.finishedAt }

def MemorySamplePoint.map (f : τ → σ) (row : MemorySamplePoint τ) : MemorySamplePoint σ :=
  { row with sampledAt := f row.sampledAt }

def InfoSample.map (f : τ → σ) (row : InfoSample τ ν) : InfoSample σ ν :=
  { row with sampledAt := f row.sampledAt }

def MetricsStore.map (f : τ → σ) (store : MetricsStore τ ν) : MetricsStore σ ν where
  syncCycles := store.syncCycles.map (SyncCycleRow.map f)
  redisMemorySamples := store.redisMemorySamples.map (MemorySamplePoint.map f)
  redisInfoSamples := store.redisInfoSamples.map (InfoSample.map f)

def Statement.map (f : τ → σ) : Statement τ ν → Statement σ ν
  | .recordSyncCycle row => .recordSyncCycle (row.map f)
  | .recordMemorySample sampledAt rows => .recordMemorySample (f sampledAt) rows
  | .recordInfoSample sampledAt info => .recordInfoSample (f sampledAt) info
  | .prune before => .prune (f before)
  | .pruneToMaxRows maxRows => .pruneToMaxRows maxRows

theorem capTable_map {ρ ρ' : Type} (g : ρ → ρ') (maxRows : Nat) (table : List ρ) :
    capTable maxRows (table.map g) =
      ((capTable maxRows table).1.map g, (capTable maxRows table).2) := by
  simp only [capTable, List.length_map, List.map_drop]

theorem pruneToMaxRows_map (f : τ → σ) (maxRows : Int) (store : MetricsStore τ ν) :
    (store.map f).pruneToMaxRows maxRows =
      ((store.pruneToMaxRows maxRows).1.map f, (store.pruneToMaxRows maxRows).2) := by
  unfold MetricsStore.pruneToMaxRows
  split
  · rfl
  · simp only [MetricsStore.map, capTable_map]

variable [LT τ] [DecidableLT τ] [LT σ] [DecidableLT σ] {f : τ → σ}

theorem deleteBefore_map {ρ ρ' : Type} {g : ρ → ρ'} (stamp : ρ → τ) (stamp' : ρ' → σ)
    (hf : ∀ a b, f a < f b ↔ a < b) (hg : ∀ row, stamp' (g row) = f (stamp row)) (before : τ)
    (table : List ρ) :
    deleteBefore stamp' (f before) (table.map g) = (deleteBefore stamp before table).map g := by
  unfold deleteBefore
  rw [List.filter_map]
  congr 1
  apply List.filter_congr
  intro row _
  simp only [Function.comp_apply, hg, hf]

theorem prune_map (hf : ∀ a b, f a < f b ↔ a < b) (before : τ) (store : MetricsStore τ ν) :
    (store.map f).prune (f before) = (store.prune before).map f := by
  simp only [MetricsStore.prune, MetricsStore.map]
  congr 1
  · exact deleteBefore_map SyncCycleRow.finishedAt SyncCycleRow.finishedAt hf (fun _ => rfl) before _
  · exact deleteBefore_map MemorySamplePoint.sampledAt MemorySamplePoint.sampledAt hf (fun _ => rfl)
      before _
  · exact deleteBefore_map InfoSample.sampledAt InfoSample.sampledAt hf (fun _ => rfl) before _

theorem execute_map (hf : ∀ a b, f a < f b ↔ a < b) (store : MetricsStore τ ν)
    (statement : Statement τ ν) :
    (store.map f).execute (statement.map f) = (store.execute statement).map f := by
  cases statement with
  | recordSyncCycle row =>
    simp [MetricsStore.execute, Statement.map, MetricsStore.recordSyncCycle, MetricsStore.map]
  | recordMemorySample sampledAt rows =>
    simp [MetricsStore.execute, Statement.map, MetricsStore.recordMemorySample, MetricsStore.map,
      MemorySamplePoint.map]
  | recordInfoSample sampledAt info =>
    simp [MetricsStore.execute, Statement.map, MetricsStore.recordInfoSample, MetricsStore.map,
      InfoSample.map]
  | prune before => exact prune_map hf before store
  | pruneToMaxRows maxRows =>
    simp only [MetricsStore.execute, Statement.map, pruneToMaxRows_map]

theorem executeAll_map (hf : ∀ a b, f a < f b ↔ a < b) (store : MetricsStore τ ν)
    (statements : List (Statement τ ν)) :
    (store.map f).executeAll (statements.map (Statement.map f)) =
      (store.executeAll statements).map f := by
  unfold MetricsStore.executeAll
  induction statements generalizing store with
  | nil => rfl
  | cons statement statements ih =>
    rw [List.map_cons, List.foldl_cons, List.foldl_cons, execute_map hf, ih]

end Stamps

/-- The rows that are not earlier than an instant, in time. -/
def MetricsStore.since {ν : Type} (cutoff : Instant) (store : MetricsStore Instant ν) :
    MetricsStore Instant ν where
  syncCycles := store.syncCycles.filter fun row => cutoff.elapsed ≤ row.finishedAt.elapsed
  redisMemorySamples :=
    store.redisMemorySamples.filter fun row => cutoff.elapsed ≤ row.sampledAt.elapsed
  redisInfoSamples :=
    store.redisInfoSamples.filter fun row => cutoff.elapsed ≤ row.sampledAt.elapsed

theorem deleteBefore_eq_since {ρ : Type} (stamp : ρ → Instant) (cutoff : Instant)
    (table : List ρ) : deleteBefore stamp cutoff table =
      table.filter fun row => cutoff.elapsed ≤ (stamp row).elapsed := by
  apply List.filter_congr
  intro row _
  simp only [← Instant.elapsed_lt_iff, not_lt]

theorem prune_eq_since {ν : Type} (cutoff : Instant) (store : MetricsStore Instant ν) :
    store.prune cutoff = store.since cutoff := by
  simp only [MetricsStore.prune, MetricsStore.since, deleteBefore_eq_since]

/-- The texts are ordered as time is, so a table of them is cut by text where time cuts it; and
every table that the statements leave holds the texts of instants. -/
theorem retention_by_time {ν : Type} :
    (∀ a b : Instant, isoformat a < isoformat b ↔ a.elapsed < b.elapsed) ∧
    (∀ (store : MetricsStore Instant ν) (cutoff : Instant),
      (store.map isoformat).prune (isoformat cutoff) = (store.since cutoff).map isoformat) ∧
    ∀ statements : List (Statement Instant ν),
      MetricsStore.empty.executeAll (statements.map (Statement.map isoformat)) =
        (MetricsStore.empty.executeAll statements).map isoformat := by
  have horder : ∀ a b : Instant, isoformat a < isoformat b ↔ a < b := fun _ _ => isoformat_lt_iff
  refine ⟨fun a b => ?_, fun store cutoff => ?_, executeAll_map horder MetricsStore.empty⟩
  · rw [horder, Instant.elapsed_lt_iff]
  · rw [prune_map horder, prune_eq_since]

end DataService.Metrics
