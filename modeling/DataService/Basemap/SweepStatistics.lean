import DataService.Basemap.CycleVerdict
import DataService.Basemap.StampSoundness

/-! The statistics row of a sweep. Whatever is not stored counts as failed, so the row says
what its columns promise exactly for the sweeps that met no other outcome than a stored tile
and an unavailable provider. -/

namespace DataService

open Coroutine CycleJournal

/-- The row counts the tiles that were stored and those whose provider was unavailable. -/
def StatsSayOutcomes (outcomes : List TileOutcome) (row : ScrapeStats) : Prop :=
  row.ok = outcomes.count .ok ∧ row.failed = outcomes.count .unavailable ∧
    row.attempted = row.ok + row.failed

instance (outcomes : List TileOutcome) (row : ScrapeStats) :
    Decidable (StatsSayOutcomes outcomes row) := by
  unfold StatsSayOutcomes
  infer_instance

/-- An answer of the provider about its own health. -/
def TileOutcome.isFetch : TileOutcome → Bool
  | .ok | .unavailable => true
  | _ => false

/-- Unavailable answers are among the unstored ones, and all of them when nothing else is. -/
theorem countP_unstored_eq_iff (l : List TileOutcome) :
    l.countP (· ≠ .ok) = l.count .unavailable ↔ ∀ o ∈ l, o.isFetch = true := by
  induction l with
  | nil => simp
  | cons o l ih =>
    have hle : l.count .unavailable ≤ l.countP (· ≠ .ok) := by
      refine List.countP_mono_left fun o _ ho => ?_
      obtain rfl : o = .unavailable := by simpa using ho
      rfl
    rw [List.forall_mem_cons, ← ih, List.countP_cons, List.count_cons]
    generalize l.countP (· ≠ .ok) = unstored at hle
    generalize l.count .unavailable = unavailable at hle
    cases o <;> simp [TileOutcome.isFetch] <;> omega

/-- In every sweep that got past its gates and came to one of its exits: the row it stores
says what its columns promise iff each outcome was a stored tile or an unavailable provider. -/
theorem sweep_stats_iff {cfg : ScrapeConfig} {sh : Shared} {rows : ProviderRows}
    {turns : List (Turn Reply Bystander)}
    {p : Process (World × CycleJournal) Reply ScrapeExn (Nat × Nat)} {n : Nat × Nat}
    (hrun : cycleRun cfg sh rows turns = some p) (hreturned : p.returned = some n)
    (hswept : p.memory.2.swept = true) :
    (∃ row, p.memory.1.rows.stats = some row ∧ StatsSayOutcomes p.memory.2.outcomes row) ↔
      ∀ o ∈ p.memory.2.outcomes, o.isFetch = true := by
  obtain ⟨row, hrow, hok, hfailed, hattempted⟩ := (cycle_concluded hrun hreturned).counted hswept
  rw [← countP_unstored_eq_iff]
  constructor
  · rintro ⟨row', hrow', hsay⟩
    obtain rfl : row = row' := Option.some.inj (hrow.symm.trans hrow')
    exact hfailed.symm.trans hsay.2.1
  · exact fun h => ⟨row, hrow, hok, hfailed.trans h, hattempted⟩

/-- A run of a cycle that returns in a place of which a test is true. -/
theorem cycleRun_of_any (cfg : ScrapeConfig) (sh : Shared) (rows : ProviderRows)
    (turns : List (Turn Reply Bystander)) (P : World → CycleJournal → Prop)
    [∀ w j, Decidable (P w j)]
    (h : (cycleRun cfg sh rows turns).any
      (fun p => p.returned.isSome && decide (P p.memory.1 p.memory.2)) = true) :
    ∃ p n, cycleRun cfg sh rows turns = some p ∧ p.returned = some n ∧
      P p.memory.1 p.memory.2 := by
  obtain ⟨p, hp, hP⟩ := (Option.any_eq_true _ _).mp h
  simp only [Bool.and_eq_true, decide_eq_true_eq] at hP
  obtain ⟨n, hn⟩ := Option.isSome_iff_exists.mp hP.1
  exact ⟨p, n, hp, hn, hP.2⟩

/-- The only tile of a zoom is stored. -/
def storedZoom : List (Turn Reply Bystander) :=
  [.answer (.rows []), .other (.tile 0 .start), .other (.tile 0 (.http .bytes)),
    .other (.tile 0 (.s3 true)), .other (.tile 0 (.redis .ok)), .answer .ok, .answer .ok,
    .answer (.rows []), .answer .ok]

/-- The only tile of zoom 3 does not exist at the provider. -/
def missingZoom : List (Turn Reply Bystander) :=
  [.answer (.rows []), .other (.tile 0 .start), .other (.tile 0 (.http .nothing)), .answer .ok,
    .answer .ok, .answer .ok, .answer (.rows [⟨3, 0, 0⟩])]

/-- A cycle of the two zooms, from its gates to its last write. -/
def completedCycle (first : List (Turn Reply Bystander)) : List (Turn Reply Bystander) :=
  List.replicate 3 (.answer .ok) ++ first ++ storedZoom ++ List.replicate 5 (.answer .ok)

theorem sweep_stats_iff_stored : ∃ p n,
    cycleRun singleTileConfig firstBoot .empty (completedCycle storedZoom) = some p ∧
      p.returned = some n ∧ p.memory.2.swept = true ∧
      ∃ row, p.memory.1.rows.stats = some row ∧ StatsSayOutcomes p.memory.2.outcomes row := by
  obtain ⟨p, n, hp, hn, hswept, hfetch⟩ := cycleRun_of_any singleTileConfig firstBoot .empty
    (completedCycle storedZoom)
    (fun _ j => j.swept = true ∧ ∀ o ∈ j.outcomes, o.isFetch = true) (by decide)
  exact ⟨p, n, hp, hn, hswept, (sweep_stats_iff hp hn hswept).mpr hfetch⟩

/-- A tile that does not exist is stored as a failure: two attempts, one of them failed. -/
theorem missing_tile_counted_failed : ¬ ∀ cfg sh rows turns
    (p : Process (World × CycleJournal) Reply ScrapeExn (Nat × Nat)) (n : Nat × Nat),
    cycleRun cfg sh rows turns = some p → p.returned = some n → p.memory.2.swept = true →
      ∃ row, p.memory.1.rows.stats = some row ∧ StatsSayOutcomes p.memory.2.outcomes row := by
  intro h
  obtain ⟨p, n, hp, hn, hswept, hoff⟩ := cycleRun_of_any singleTileConfig firstBoot .empty
    (completedCycle missingZoom)
    (fun w j => j.swept = true ∧ ∀ row ∈ w.rows.stats, ¬ StatsSayOutcomes j.outcomes row)
    (by decide)
  obtain ⟨row, hrow, hsay⟩ := h _ _ _ _ p n hp hn hswept
  exact hoff row hrow hsay

end DataService
