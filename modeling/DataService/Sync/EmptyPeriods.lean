import DataService.Sync.MirroredIndex

/-! Periods of ECMWF total precipitation that are indexed without a tile. The write that
closes a forecast lists every period, also one whose sync stored nothing. -/

namespace DataService.Sync

open Coroutine Coro ExpiringStore

/-- The periods of a forecast. -/
def IndexKey.listsPeriods : IndexKey → Bool
  | .ecmwfTpPeriods _ => true
  | _ => false

/-- The tile tasks of a unit ended, or its prefix had no tiles. -/
def WasSynced (log : List Event) (unit : UnitId) : Prop :=
  ∃ listed stored, .synced unit listed stored ∈ log

/-- Some sync of the unit brought a tile to Redis. -/
def HadTile (log : List Event) (unit : UnitId) : Prop :=
  ∃ listed stored, .synced unit listed stored ∈ log ∧ stored ≠ []

/-- Every period that was synced got a tile from one of its syncs. -/
def NoEmptyPeriod (log : List Event) : Prop :=
  ∀ unit, unit.index.listsPeriods → WasSynced log unit → HadTile log unit

variable {cfg : SyncConfig} {domain : Domain} {s : SyncState} {w : World} {unit : UnitId} {e : Event}
  {log : List Event}

theorem listsUnits_of_listsPeriods {key : IndexKey} (h : key.listsPeriods) : key.listsUnits := by
  cases key <;> first | rfl | cases h

theorem WasSynced.cons (h : WasSynced log unit) : WasSynced (e :: log) unit := by
  obtain ⟨listed, stored, he⟩ := h
  exact ⟨listed, stored, List.mem_cons_of_mem _ he⟩

/-- The periods that are indexed, and those that were read from an index, had a sync. -/
structure PeriodsSynced (w : World) : Prop where
  members : ∀ unit, unit.index.listsPeriods → unit.name ∈ w.memberNames unit.index →
    WasSynced w.log unit
  found : ∀ unit names, unit.index.listsPeriods → .found unit.index names ∈ w.log →
    unit.name ∈ names → WasSynced w.log unit

theorem PeriodsSynced.record (h : PeriodsSynced w) (he : ∀ key names, e ≠ .found key names) :
    PeriodsSynced (w.record e) where
  members unit hp hm := (h.members unit hp hm).cons
  found unit names hp hf hn := by
    rcases List.mem_cons.mp hf with hf | hf
    · exact absurd hf.symm (he _ _)
    · exact (h.found unit names hp hf hn).cons

theorem PeriodsSynced.read (h : PeriodsSynced w) (key : IndexKey) :
    PeriodsSynced (w.record (.found key (w.memberNames key))) where
  members unit hp hm := (h.members unit hp hm).cons
  found unit names hp hf hn := by
    rcases List.mem_cons.mp hf with hf | hf
    · obtain ⟨rfl, rfl⟩ := Event.found.inj hf
      exact (h.members unit hp hn).cons
    · exact (h.found unit names hp hf hn).cons

/-- A period that the cycle may write was synced before. -/
theorem PeriodsSynced.wasSynced (h : PeriodsSynced w) (hp : unit.index.listsPeriods)
    (he : Entitled w.log unit) : WasSynced w.log unit := by
  rcases he with ⟨listed, stored, hs, -⟩ | ⟨-, names, hf, hn⟩
  · exact ⟨listed, stored, mem_of_lastSynced (lastSynced_of_cycleLog hs)⟩
  · exact h.found unit names hp (List.takeWhile_subset _ hf) hn

theorem periodsSynced_loopInvariant (start : Nat) :
    LoopInvariant start fun w => start ≤ w.now ∧ PeriodsSynced w where
  clock w h := h.1
  shrink w w' hl hn hs h := by
    refine ⟨h.1.trans hn, ?_, ?_⟩
    · intro unit hp hm
      rw [hl]
      exact h.2.members unit hp (hs unit.index (listsUnits_of_listsPeriods hp) hm)
    · rw [hl]
      exact h.2.found
  synced w unit listed stored _ h := ⟨h.1, h.2.record (by simp)⟩
  found w key h := ⟨h.1, h.2.read key⟩
  indexed w w' unit he hl hn hm h := by
    refine ⟨hn ▸ h.1, ?_, ?_⟩
    · intro v hp hv
      rw [hl]
      apply WasSynced.cons
      rcases hm v.index (listsUnits_of_listsPeriods hp) v.name hv with hv | ⟨hindex, hname⟩
      · exact h.2.members v hp hv
      · obtain rfl : v = unit := UnitId.ext hindex hname
        exact h.2.wasSynced hp he
    · intro v names hp hf hn'
      rw [hl] at hf ⊢
      have hold := (List.mem_cons.mp hf).resolve_left (by simp)
      exact (h.2.found v names hp hold hn').cons

theorem periodsSynced_of_reachable (h : SyncReachable cfg domain s) : PeriodsSynced s.world := by
  have hempty : ∀ now, PeriodsSynced (SyncState.initial now).world := by
    intro now
    constructor
    · intro unit hp hm
      cases hm
    · intro unit names hp hf
      cases hf
  have hall := reachable_induction periodsSynced_loopInvariant
    (fun start w hw => ⟨Nat.le_refl _, hw.2.record (by simp)⟩)
    (fun start w n hw => ⟨hw.1, hw.2.record (by simp)⟩)
    (fun now => ⟨now, Nat.le_refl _, hempty now⟩) h
  obtain ⟨start, -, hs⟩ := hall
  exact hs

/-- In every run in which each synced period got a tile, a tile stands behind every member of
the periods indexes. -/
theorem tile_behind_of_no_empty_period (h : SyncReachable cfg domain s)
    (hnone : NoEmptyPeriod s.world.log) (hp : unit.index.listsPeriods)
    (hm : unit.name ∈ s.world.memberNames unit.index) : HadTile s.world.log unit :=
  hnone unit hp ((periodsSynced_of_reachable h).members unit hp hm)

def samplePeriod : UnitId := ⟨.ecmwfTpPeriods "20260401T0000Z", "20260401T0300Z"⟩

/-- A cycle over one forecast with one period, whose tiles are listed and answered as given. -/
def onePeriodRun (tiles : List String) (answers : List Action) : List Action :=
  [Action.begin, .resume (.names ["20260401T0000Z"]), .resume (.names ["20260401T0300Z"]),
    .resume .ok, .resume (.names tiles)] ++ answers

/-- One tile is stored, and the checkpoint, the closing write and the prune go through. -/
theorem tile_behind_sample_period : ∃ s, SyncReachable twoTileConfig .ecmwfTp s ∧
    samplePeriod.name ∈ s.world.memberNames samplePeriod.index ∧
      HadTile s.world.log samplePeriod := by
  obtain ⟨s, hs, hlog, hm⟩ := reachable_of_run_any twoTileConfig .ecmwfTp 1000
    (onePeriodRun ["tiles/3/2/1.webp"] [.tile 0 .bytes, .tile 0 .stored, .resume .ok, .resume .ok,
      .resume .ok, .resume .ok])
    (fun s => s.world.log = [.cycleEnd 0, .indexed samplePeriod, .indexed samplePeriod,
        .synced samplePeriod ["tiles/3/2/1.webp"] [⟨"tiles/3/2/1.webp", 1000, true⟩],
        .found samplePeriod.index [], .cycleStart 1000] ∧
      samplePeriod.name ∈ s.world.memberNames samplePeriod.index) (by decide)
  have hnone : NoEmptyPeriod s.world.log := by
    rintro unit - ⟨listed, stored, he⟩
    refine ⟨listed, stored, he, ?_⟩
    rw [hlog] at he
    simp only [List.mem_cons, List.not_mem_nil, or_false, reduceCtorEq, false_or,
      Event.synced.injEq] at he
    obtain ⟨-, -, rfl⟩ := he
    simp
  exact ⟨s, hs, hm, tile_behind_of_no_empty_period hs hnone rfl hm⟩

/-- A period directory without tiles enters the index, in a cycle with no error. -/
theorem empty_period_indexed : ¬ ∀ cfg domain s unit, SyncReachable cfg domain s →
    unit.index.listsPeriods → unit.name ∈ s.world.memberNames unit.index →
      HadTile s.world.log unit := by
  intro h
  obtain ⟨s, hs, hm, hlog⟩ := reachable_of_run_any twoTileConfig .ecmwfTp 1000
    (onePeriodRun [] [.resume .ok, .resume .ok])
    (fun s => samplePeriod.name ∈ s.world.memberNames samplePeriod.index ∧
      s.world.log = [.cycleEnd 0, .indexed samplePeriod, .synced samplePeriod [] [],
        .found samplePeriod.index [], .cycleStart 1000]) (by decide)
  obtain ⟨listed, stored, he, hne⟩ := h twoTileConfig .ecmwfTp s samplePeriod hs rfl hm
  rw [hlog] at he
  simp only [List.mem_cons, List.not_mem_nil, or_false, reduceCtorEq, false_or,
    Event.synced.injEq] at he
  exact hne he.2.2

end DataService.Sync
