import Mathlib.Data.Prod.Lex
import Mathlib.Data.Rat.Defs
import DataService.Lib.Grouping
import DataService.Lib.IsoPrefix
import DataService.Metrics.MetricsStore

/-! The trend of the cycles: the rows of a window in buckets, where a bucket is a prefix of the text
of a stamp. The buckets are stretches of time. -/

namespace DataService.Metrics

open IsoDateTime Grouping

structure SyncHistoryBucket where
  bucket : List Char
  domain : String
  cycles : Nat
  downloaded : Int
  errors : Int
  avgDurationMs : ℚ
  deriving DecidableEq

/-- `prefix_len` -/
def prefixLen (bucket : String) : Nat :=
  if bucket = "day" then 10 else if bucket = "10min" then 15 else 13

/-- `if domain: … AND domain = ?` -/
def ofDomain {τ : Type} (domain : Option String) (row : SyncCycleRow τ) : Bool :=
  match domain with
  | none => true
  | some name => name = "" || row.domain = name

/-- `COUNT(*)`, `SUM(downloaded)`, `SUM(errors)` and `AVG(duration_ms)` -/
def aggregate {τ : Type} (bucket : List Char) (domain : String) (rows : List (SyncCycleRow τ)) :
    SyncHistoryBucket where
  bucket := bucket
  domain := domain
  cycles := rows.length
  downloaded := (rows.map (·.downloaded)).sum
  errors := (rows.map (·.errors)).sum
  avgDurationMs := (rows.map (·.durationMs)).sum / rows.length

namespace MetricsStore

variable {ν : Type}

def getSyncHistory (store : MetricsStore (List Char) ν) (since : List Char) (bucket : String)
    (domain : Option String) : List SyncHistoryBucket :=
  let rows := store.syncCycles.filter fun row =>
    decide (since ≤ row.finishedAt) && ofDomain domain row
  let key (row : SyncCycleRow (List Char)) :=
    toLex (row.finishedAt.take (prefixLen bucket), row.domain)
  (groupBy key rows).map fun group => aggregate (ofLex group.1).1 (ofLex group.1).2 group.2

end MetricsStore

/-- The stretches of time that a prefix stands for. -/
def widthOf (bucket : String) : Width :=
  if bucket = "day" then .day else if bucket = "10min" then .tenMinutes else .hour

theorem prefixLen_eq (bucket : String) : prefixLen bucket = (widthOf bucket).chars := by
  unfold prefixLen widthOf
  split_ifs <;> rfl

variable {τ σ : Type} {f : τ → σ} {rows : List (SyncCycleRow τ)}

@[simp] theorem ofDomain_map (domain : Option String) (row : SyncCycleRow τ) :
    ofDomain domain (row.map f) = ofDomain domain row := rfl

@[simp] theorem aggregate_map (bucket : List Char) (domain : String) :
    aggregate bucket domain (rows.map (SyncCycleRow.map f)) = aggregate bucket domain rows := by
  simp [aggregate, SyncCycleRow.map, Function.comp_def]

section History

variable {ν : Type} (store : MetricsStore Instant ν) (since : Instant) (bucket : String)
variable (domain : Option String)

/-- The rows that the trend is about, in time. -/
def windowRows : List (SyncCycleRow Instant) :=
  (store.since since).syncCycles.filter (ofDomain domain)

def bucketKey (row : SyncCycleRow Instant) : List Char ×ₗ String :=
  toLex ((isoformat row.finishedAt).take (prefixLen bucket), row.domain)

theorem window_map : ((store.map isoformat).syncCycles.filter fun row =>
      decide (isoformat since ≤ row.finishedAt) && ofDomain domain row) =
    (windowRows store since domain).map (SyncCycleRow.map isoformat) := by
  have hkept (row : SyncCycleRow Instant) : decide (isoformat since ≤ isoformat row.finishedAt) =
      decide (since.elapsed ≤ row.finishedAt.elapsed) := by
    rw [decide_eq_decide, ← not_lt, ← not_lt, Instant.elapsed_lt_iff]
    exact not_congr isoformat_lt_iff
  simp only [windowRows, MetricsStore.since, MetricsStore.map, List.filter_map, List.filter_filter,
    Function.comp_def, ofDomain_map]
  refine congrArg _ (List.filter_congr fun row _ => ?_)
  rw [Bool.and_comm]
  exact congrArg (ofDomain domain row && ·) (hkept row)

theorem getSyncHistory_eq :
    (store.map isoformat).getSyncHistory (isoformat since) bucket domain =
      (groupBy (bucketKey bucket) (windowRows store since domain)).map fun group =>
        aggregate (ofLex group.1).1 (ofLex group.1).2 group.2 := by
  rw [MetricsStore.getSyncHistory, window_map, groupBy_map, List.map_map]
  exact List.map_congr_left fun group _ => aggregate_map _ _

/-- The rows that share a row's bucket end in the same stretch of time. -/
theorem group_in_time {rows group : List (SyncCycleRow Instant)} {k : List Char ×ₗ String}
    (h : (k, group) ∈ groupBy (bucketKey bucket) rows) : ∃ row ∈ rows, k = bucketKey bucket row ∧
      group = rows.filter fun other => other.domain = row.domain ∧
        (row.finishedAt.floor (widthOf bucket)).elapsed ≤ other.finishedAt.elapsed ∧
          other.finishedAt.elapsed <
            (row.finishedAt.floor (widthOf bucket)).elapsed + (widthOf bucket).micros := by
  obtain ⟨⟨row, hrow, rfl⟩, rfl⟩ := mem_groupBy.mp h
  refine ⟨row, hrow, rfl, List.filter_congr fun other _ => ?_⟩
  rw [decide_eq_decide, bucketKey, bucketKey, toLex_inj, Prod.mk.injEq, prefixLen_eq,
    take_eq_iff_floor, and_comm]

/-- Behind every run of the statements, the trend of the texts is the trend in time: its buckets are
in order, each sums up the cycles of its domain that ended in its stretch of time, and together
they hold every cycle of the window once. -/
theorem history_by_time (statements : List (Statement Instant ν)) :
    let window := windowRows (MetricsStore.empty.executeAll statements) since domain
    let history := (MetricsStore.empty.executeAll (statements.map (Statement.map isoformat)))
      |>.getSyncHistory (isoformat since) bucket domain
    (history.Pairwise fun b c => b.bucket < c.bucket ∨ b.bucket = c.bucket ∧ b.domain < c.domain) ∧
    (∀ b ∈ history, ∃ start : Instant, (widthOf bucket).micros ∣ start.elapsed ∧
      let inside := window.filter fun row => row.domain = b.domain ∧
        start.elapsed ≤ row.finishedAt.elapsed ∧
          row.finishedAt.elapsed < start.elapsed + (widthOf bucket).micros
      inside ≠ [] ∧ b = aggregate ((isoformat start).take (prefixLen bucket)) b.domain inside) ∧
    (history.map (·.cycles)).sum = window.length ∧
    (history.map (·.downloaded)).sum = (window.map (·.downloaded)).sum ∧
    (history.map (·.errors)).sum = (window.map (·.errors)).sum := by
  intro window history
  have hhistory : history = (groupBy (bucketKey bucket) window).map fun group =>
      aggregate (ofLex group.1).1 (ofLex group.1).2 group.2 := by
    have hrun : MetricsStore.empty.executeAll (statements.map (Statement.map isoformat)) =
        (MetricsStore.empty.executeAll statements).map isoformat :=
      executeAll_map (fun _ _ => isoformat_lt_iff) MetricsStore.empty statements
    simp only [history, window, hrun, getSyncHistory_eq]
  rw [hhistory]
  refine ⟨?_, ?_, ?_, ?_, ?_⟩
  · rw [List.pairwise_map]
    exact groupBy_increasing.imp fun hlt => Prod.Lex.lt_iff.mp hlt
  · intro b hb
    obtain ⟨⟨k, group⟩, hgroup, rfl⟩ := List.mem_map.mp hb
    obtain ⟨row, hrow, rfl, rfl⟩ := group_in_time bucket hgroup
    refine ⟨row.finishedAt.floor (widthOf bucket), ?_, ?_⟩
    · rw [Instant.elapsed_floor]
      exact Nat.dvd_mul_left _ _
    · intro inside
      have hmem : row ∈ inside := List.mem_filter.mpr ⟨hrow, decide_eq_true
        ⟨rfl, Instant.floor_le, Instant.lt_floor_add⟩⟩
      refine ⟨List.ne_nil_of_mem hmem, ?_⟩
      rw [prefixLen_eq, take_floor, ← prefixLen_eq]
      rfl
  · have hcount : ((groupBy (bucketKey bucket) window).map fun g => (g.2.map fun _ => 1).sum).sum =
        (window.map fun _ => 1).sum := sum_groupBy fun _ => 1
    simp only [List.map_const', List.sum_replicate_nat, Nat.mul_one] at hcount
    rw [List.map_map, ← hcount]
    rfl
  · rw [List.map_map]
    exact sum_groupBy _
  · rw [List.map_map]
    exact sum_groupBy _

end History

end DataService.Metrics
