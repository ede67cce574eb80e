import DataService.Sync.Runs

/-! Units that are indexed without all their tiles. A failed tile task is swallowed, and
one tile that was stored is enough for the unit to enter its index. -/

namespace DataService.Sync

open Coroutine Coro ExpiringStore

/-- Every well-formed tile of a listing reached Redis. -/
def FullyStored (names : NameCode) (listed : List String) (stored : List StoredTile) : Prop :=
  ∀ key ∈ listed, (names.parseZxy key).isSome → key ∈ stored.map (·.key)

/-- All that was listed by the cycle that last indexed the unit reached Redis. -/
def Mirrored (names : NameCode) (log : List Event) (unit : UnitId) : Prop :=
  ∃ listed stored, indexedSync unit log = some (listed, stored) ∧ FullyStored names listed stored

/-- The tile tasks of a unit brought all its tiles to Redis, or none was stored. -/
def Event.AllOrNothing (names : NameCode) : Event → Prop
  | .synced unit listed stored =>
    unit.index.gated → (∃ p ∈ stored, p.counted) → FullyStored names listed stored
  | _ => True

/-- No unit was left with a part of its tiles. -/
def NoPartialSync (names : NameCode) (log : List Event) : Prop :=
  ∀ e ∈ log, e.AllOrNothing names

instance (names : NameCode) (listed : List String) (stored : List StoredTile) :
    Decidable (FullyStored names listed stored) :=
  inferInstanceAs (Decidable (∀ key ∈ listed, (names.parseZxy key).isSome →
    key ∈ stored.map (·.key)))

instance (names : NameCode) : DecidablePred (Event.AllOrNothing names) := fun e =>
  match e with
  | .synced unit listed stored =>
    inferInstanceAs (Decidable (unit.index.gated → (∃ p ∈ stored, p.counted) →
      FullyStored names listed stored))
  | .cycleStart _ | .found .. | .indexed _ | .cycleEnd _ => isTrue trivial

instance (names : NameCode) (log : List Event) : Decidable (NoPartialSync names log) :=
  inferInstanceAs (Decidable (∀ e ∈ log, e.AllOrNothing names))

variable {cfg : SyncConfig} {domain : Domain} {s : SyncState} {unit : UnitId}

theorem listsUnits_of_gated {key : IndexKey} (h : key.gated) : key.listsUnits := by
  cases key <;> first | rfl | cases h

/-- Every member of a gated index entered it after a sync that stored one of its tiles. -/
def IndexedFromSync (w : World) : Prop :=
  ∀ unit, unit.index.gated → unit.name ∈ w.memberNames unit.index →
    ∃ listed stored, indexedSync unit w.log = some (listed, stored) ∧ ∃ p ∈ stored, p.counted

theorem IndexedFromSync.record {w : World} {e : Event} (h : IndexedFromSync w)
    (he : ∀ unit, e ≠ .indexed unit) : IndexedFromSync (w.record e) := by
  intro unit hg hm
  rw [World.record, indexedSync_cons (he unit)]
  exact h unit hg hm

theorem indexedFromSync_loopInvariant (start : Nat) :
    LoopInvariant start fun w => start ≤ w.now ∧ IndexedFromSync w where
  clock w h := h.1
  shrink w w' hl hn hs h := by
    refine ⟨h.1.trans hn, ?_⟩
    intro unit hg hm
    rw [hl]
    exact h.2 unit hg (hs unit.index (listsUnits_of_gated hg) hm)
  synced w unit listed stored _ h := ⟨h.1, h.2.record (by simp)⟩
  found w key h := ⟨h.1, h.2.record (by simp)⟩
  indexed w w' unit he hl hn hm h := by
    refine ⟨hn ▸ h.1, ?_⟩
    intro v hg hv
    rw [hl]
    by_cases hu : v = unit
    · subst hu
      rw [indexedSync_self]
      rcases he with ⟨listed, stored, hs, hc⟩ | ⟨hng, -⟩
      · exact ⟨listed, stored, lastSynced_of_cycleLog hs, hc hg⟩
      · rw [hg] at hng
        cases hng
    · have hne : Event.indexed unit ≠ .indexed v := by
        intro he
        cases he
        exact hu rfl
      rw [indexedSync_cons hne]
      have hold := (hm v.index (listsUnits_of_gated hg) v.name hv).resolve_right fun h =>
        hu (UnitId.ext h.1 h.2)
      exact h.2 v hg hold

theorem indexedFromSync_of_reachable (h : SyncReachable cfg domain s) :
    IndexedFromSync s.world := by
  have hall := reachable_induction indexedFromSync_loopInvariant
    (fun start w hw => ⟨Nat.le_refl _, hw.2.record (by simp)⟩)
    (fun start w n hw => ⟨hw.1, hw.2.record (by simp)⟩)
    (fun now => ⟨now, Nat.le_refl _, fun unit _ hm => by cases hm⟩) h
  obtain ⟨start, -, hs⟩ := hall
  exact hs

/-- In every run that leaves no unit half copied, every member of an index is mirrored. -/
theorem mirrored_of_no_partial_sync (h : SyncReachable cfg domain s)
    (hsync : NoPartialSync cfg.names s.world.log) (hg : unit.index.gated)
    (hm : unit.name ∈ s.world.memberNames unit.index) :
    Mirrored cfg.names s.world.log unit := by
  obtain ⟨listed, stored, hs, hc⟩ := indexedFromSync_of_reachable h unit hg hm
  have hall := hsync (.synced unit listed stored) (mem_of_indexedSync hs)
  exact ⟨listed, stored, hs, hall hg hc⟩

/-- Two tiles, and steps named after their hours. -/
def twoTileNames : NameCode where
  parseZxy key :=
    if key = "tiles/3/2/1.webp" then some (3, 2, 1)
    else if key = "tiles/4/2/1.webp" then some (4, 2, 1) else none
  extractWrfInitScore initTag := if initTag = "20260401_000000" then some 20260401000000 else none
  wrfStepScore fxxx := if fxxx = "F001" then some 1 else if fxxx = "F002" then some 2 else none
  digits := .asciiOnly

/-- The lifetimes of the settings, one satellite channel. -/
def twoTileConfig : SyncConfig where
  names := twoTileNames
  satelliteChannels := ["goes19/abi/c13"]
  satelliteTileTtl := 21600
  radarTileTtl := 21600
  ecmwfTileTtl := 86400
  ecmwfForecastsToKeep := 2
  wrfTileTtl := 64800
  wrfGeojsonTtl := 64800
  wrfOverlayRecheckTtl := 3600
  wrfInitsToKeep := 3

def sampleTileset : UnitId := ⟨.satellite "goes19/abi/c13", "20260740300213"⟩

/-- A cycle that lists two tiles and stores the first; the second is answered `last`. -/
def twoTileRun (last : List Action) : List Action :=
  [Action.begin, .resume (.names ["20260740300213"]), .resume .ok,
    .resume (.names ["tiles/3/2/1.webp", "tiles/4/2/1.webp"]), .tile 0 .bytes,
    .tile 0 .stored] ++ last ++ [Action.resume .ok, .resume .ok]

theorem reachable_of_run_any (cfg : SyncConfig) (domain : Domain) (now : Nat) (as : List Action)
    (P : SyncState → Prop) [DecidablePred P]
    (h : (StepSystem.run (syncStep cfg domain) (.initial now) as).any (P ·) = true) :
    ∃ s, SyncReachable cfg domain s ∧ P s := by
  obtain ⟨s, hs, hp⟩ := (Option.any_eq_true _ _).mp h
  exact ⟨s, ⟨now, as, hs⟩, of_decide_eq_true hp⟩

theorem mirrored_of_no_partial_sync_two_tiles : ∃ s, SyncReachable twoTileConfig .satellite s ∧
    sampleTileset.name ∈ s.world.memberNames sampleTileset.index ∧
      Mirrored twoTileNames s.world.log sampleTileset := by
  obtain ⟨s, hs, hsync, hm⟩ := reachable_of_run_any twoTileConfig .satellite 1000
    (twoTileRun [.tile 0 .bytes, .tile 0 .stored])
    (fun s => NoPartialSync twoTileNames s.world.log ∧
      sampleTileset.name ∈ s.world.memberNames sampleTileset.index) (by decide)
  exact ⟨s, hs, hm, mirrored_of_no_partial_sync hs hsync rfl hm⟩

/-- One of two downloads fails, and the tileset is indexed. -/
theorem indexed_with_missing_tile : ¬ ∀ cfg domain s unit, SyncReachable cfg domain s →
    unit.index.gated → unit.name ∈ s.world.memberNames unit.index →
      Mirrored cfg.names s.world.log unit := by
  intro h
  obtain ⟨s, hs, hm, hl⟩ := reachable_of_run_any twoTileConfig .satellite 1000
    (twoTileRun [.tile 0 (.failed false)])
    (fun s => sampleTileset.name ∈ s.world.memberNames sampleTileset.index ∧
      indexedSync sampleTileset s.world.log = some (["tiles/3/2/1.webp", "tiles/4/2/1.webp"],
        [⟨"tiles/3/2/1.webp", 1000, true⟩])) (by decide)
  obtain ⟨listed, stored, hi, hall⟩ := h twoTileConfig .satellite s sampleTileset hs rfl hm
  rw [hl] at hi
  cases hi
  exact absurd hall (by decide)

end DataService.Sync
