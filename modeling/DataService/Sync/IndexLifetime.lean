import DataService.Sync.IndexRenewals
import DataService.Sync.MirroredIndex

/-! Units that stay indexed after their tiles have gone. A tile keeps the deadline of its
own `SET`, but every write to an index moves the deadline of all its members. -/

namespace DataService.Sync

open Coroutine Coro ExpiringStore StepSystem

/-- The last sync of the unit brought all its tiles to Redis, and none has run out. -/
def Fresh (names : NameCode) (w : World) (unit : UnitId) (ttl : Nat) : Prop :=
  ∃ listed stored, lastSynced unit w.log = some (listed, stored) ∧
    FullyStored names listed stored ∧ ∀ p ∈ stored, w.now < p.time + ttl

/-- Cycles count no error, and a sync brings all the tiles of its unit to Redis. -/
def Event.ErrorFree (names : NameCode) : Event → Prop
  | .synced _ listed stored => FullyStored names listed stored
  | .cycleEnd errors => errors = 0
  | _ => True

def ErrorFree (names : NameCode) (log : List Event) : Prop := ∀ e ∈ log, e.ErrorFree names

/-- The tiles that the last sync of a unit brought to Redis. -/
def lastStored (unit : UnitId) (log : List Event) : List StoredTile :=
  ((lastSynced unit log).map Prod.snd).getD []

instance (names : NameCode) : DecidablePred (Event.ErrorFree names) := fun e =>
  match e with
  | .synced _ listed stored => inferInstanceAs (Decidable (FullyStored names listed stored))
  | .cycleEnd errors => inferInstanceAs (Decidable (errors = 0))
  | .cycleStart _ | .found .. | .indexed _ => isTrue trivial

instance (names : NameCode) (log : List Event) : Decidable (ErrorFree names log) :=
  inferInstanceAs (Decidable (∀ e ∈ log, e.ErrorFree names))

variable {cfg : SyncConfig} {domain : Domain} {s : SyncState} {unit : UnitId} {start ttl : Nat}
  {w w' : World} {e : Event} {log : List Event}

theorem mem_of_mem_cycleLog (h : e ∈ cycleLog log) : e ∈ log :=
  (List.takeWhile_prefix _).subset h

theorem listsUnits_of_modelTileTtl {key : IndexKey} (h : cfg.modelTileTtl key = some ttl) :
    key.listsUnits := by
  cases key <;> first | rfl | cases h

/-- The members of the indexes of units were synced, as were those that a cycle found there. -/
structure Sourced (start : Nat) (w : World) : Prop where
  clock : start ≤ w.now
  found : ∀ unit names, unit.index.listsUnits → .found unit.index names ∈ w.log →
    unit.name ∈ names → (lastSynced unit w.log).isSome
  member : ∀ unit, unit.index.listsUnits → unit.name ∈ w.memberNames unit.index →
    (lastSynced unit w.log).isSome

/-- A unit that the cycle may write was synced before. -/
theorem Sourced.isSome_of_entitled (h : Sourced start w) (hunit : unit.index.listsUnits)
    (he : Entitled w.log unit) : (lastSynced unit w.log).isSome := by
  rcases he with ⟨listed, stored, hs, -⟩ | ⟨-, names, hn, hm⟩
  · rw [lastSynced_of_cycleLog hs]
    rfl
  · exact h.found unit names hunit (mem_of_mem_cycleLog hn) hm

theorem Sourced.record (h : Sourced start w) (hf : ∀ key names, e ≠ .found key names) :
    Sourced start (w.record e) where
  clock := h.clock
  found unit names hu hn hm := by
    have hn' := (List.mem_cons.mp hn).resolve_left fun he => hf _ _ he.symm
    exact lastSynced_isSome_cons (h.found unit names hu hn' hm)
  member unit hu hm := lastSynced_isSome_cons (h.member unit hu hm)

theorem Sourced.read (h : Sourced start w) (key : IndexKey) :
    Sourced start (w.record (.found key (w.memberNames key))) where
  clock := h.clock
  found unit names hu hn hm := by
    apply lastSynced_isSome_cons
    rcases List.mem_cons.mp hn with he | hn
    · obtain ⟨rfl, rfl⟩ := Event.found.inj he
      exact h.member unit hu hm
    · exact h.found unit names hu hn hm
  member unit hu hm := lastSynced_isSome_cons (h.member unit hu hm)

theorem Sourced.add (h : Sourced start w) (he : Entitled w.log unit)
    (hl : w'.log = .indexed unit :: w.log) (hn : w'.now = w.now)
    (hm : ∀ key, key.listsUnits → ∀ name ∈ w'.memberNames key,
      name ∈ w.memberNames key ∨ (key = unit.index ∧ name = unit.name)) : Sourced start w' := by
  have hrec : Sourced start (w.record (.indexed unit)) := h.record (by simp)
  refine ⟨hn ▸ h.clock, hl ▸ hrec.found, fun v hv hmem => ?_⟩
  rw [hl]
  rcases hm v.index hv v.name hmem with hmem | ⟨hi, hname⟩
  · exact hrec.member v hv hmem
  · obtain rfl : v = unit := UnitId.ext hi hname
    exact lastSynced_isSome_cons (h.isSome_of_entitled hv he)

theorem sourced_loopInvariant (start : Nat) : LoopInvariant start (Sourced start) where
  clock w h := h.clock
  shrink w w' hl hn hs h :=
    ⟨h.clock.trans hn, hl ▸ h.found, fun unit hu hm => hl ▸ h.member unit hu (hs _ hu hm)⟩
  synced w unit listed stored _ h := h.record (by simp)
  found w key h := h.read key
  indexed w w' unit he hl hn hm h := h.add he hl hn hm

theorem Sourced.restart (h : Sourced start w) : Sourced w.now (w.record (.cycleStart w.now)) where
  clock := Nat.le_refl _
  found unit names hu hn hm :=
    lastSynced_isSome_cons (h.found unit names hu (by simpa [World.record] using hn) hm)
  member unit hu hm := lastSynced_isSome_cons (h.member unit hu hm)

theorem synced_of_member {s : SyncState} (h : SyncReachable cfg domain s)
    (hunit : unit.index.listsUnits) (hm : unit.name ∈ s.world.memberNames unit.index) :
    (lastSynced unit s.world.log).isSome := by
  have hall := reachable_induction sourced_loopInvariant (fun _ _ hw => hw.restart)
    (fun _ _ _ hw => hw.record (by simp))
    (fun now => ⟨0, Nat.zero_le _, by simp [SyncState.initial], fun unit _ hm => by cases hm⟩) h
  obtain ⟨start, hs⟩ := hall
  exact hs.member unit hunit hm

/-- A cycle over one product, one init run and these steps, of which it syncs the last;
every step has one tile, and no overlay layers. -/
def wrfCycle (steps : List String) : List Action :=
  [Action.begin, .resume (.names ["t2m"]), .resume (.names ["20260401_000000"]),
    .resume (.names steps), .resume .ok] ++
  (steps.dropLast.flatMap fun _ => [Action.resume .ok, .resume (.names []), .resume .ok]) ++
  [Action.resume (.names ["tiles/3/2/1.webp"]), .tile 0 .bytes, .tile 0 .stored, .resume .ok,
    .resume .ok, .resume .ok, .resume (.names []), .resume .ok, .resume .ok]

/-- A cycle that finds both steps in the index. -/
def quietWrfCycle : List Action :=
  [.begin, .resume (.names ["t2m"]), .resume (.names ["20260401_000000"]),
    .resume (.names ["F001", "F002"]), .resume .ok, .resume .ok, .resume (.names []), .resume .ok,
    .resume .ok, .resume (.names []), .resume .ok, .resume .ok]

def firstStep : UnitId := ⟨.wrfSteps "t2m" "20260401_000000", "F001"⟩

end DataService.Sync
