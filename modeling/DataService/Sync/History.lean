import DataService.Sync.Mirror

/-! Facts read off the history of a loop, newest event first. -/

namespace DataService.Sync

def Event.isCycleStart : Event → Bool
  | .cycleStart _ => true
  | _ => false

/-- The events of the running cycle. -/
def cycleLog (log : List Event) : List Event := log.takeWhile (!·.isCycleStart)

/-- What was listed and stored when the tile tasks of a unit last ended. -/
def lastSynced (unit : UnitId) (log : List Event) : Option (List String × List StoredTile) :=
  log.findSome? fun e =>
    match e with
    | .synced v listed stored => if v = unit then some (listed, stored) else none
    | _ => none

/-- What was listed and stored by the sync after which a unit last entered its index. -/
def indexedSync (unit : UnitId) : List Event → Option (List String × List StoredTile)
  | [] => none
  | e :: log => if e = .indexed unit then lastSynced unit log else indexedSync unit log

/-- The indexes a unit enters only when a tile of it was stored. -/
def IndexKey.gated : IndexKey → Bool
  | .satellite _ | .radarTilesets .. | .wrfSteps .. => true
  | _ => false

/-- The running cycle may write this unit to its index: it synced the unit, and stored a
tile of it where the index asks for that, or it read the unit from an index that does not. -/
def Entitled (log : List Event) (unit : UnitId) : Prop :=
  (∃ listed stored, lastSynced unit (cycleLog log) = some (listed, stored) ∧
    (unit.index.gated → ∃ p ∈ stored, p.counted)) ∨
  (unit.index.gated = false ∧
    ∃ names, .found unit.index names ∈ cycleLog log ∧ unit.name ∈ names)

/-- The running cycle synced this unit, or read it from its index. -/
def Noted (log : List Event) (unit : UnitId) : Prop :=
  (lastSynced unit (cycleLog log)).isSome ∨
    ∃ names, .found unit.index names ∈ cycleLog log ∧ unit.name ∈ names

variable {unit : UnitId} {e : Event} {log : List Event}

theorem cycleLog_cons (h : e.isCycleStart = false) : cycleLog (e :: log) = e :: cycleLog log := by
  simp [cycleLog, h]

theorem lastSynced_self (listed : List String) (stored : List StoredTile) :
    lastSynced unit (.synced unit listed stored :: log) = some (listed, stored) := by
  simp [lastSynced]

theorem lastSynced_cons (h : ∀ listed stored, e ≠ .synced unit listed stored) :
    lastSynced unit (e :: log) = lastSynced unit log := by
  cases e with
  | synced v listed stored =>
    have hv : v ≠ unit := by
      intro hv
      exact h listed stored (hv ▸ rfl)
    simp [lastSynced, hv]
  | cycleStart now => rfl
  | found key names => rfl
  | indexed v => rfl
  | cycleEnd errors => rfl

theorem lastSynced_isSome_cons (h : (lastSynced unit log).isSome) :
    (lastSynced unit (e :: log)).isSome := by
  cases e with
  | synced v listed stored =>
    by_cases hv : v = unit
    · subst hv
      rw [lastSynced_self]
      rfl
    · rw [lastSynced_cons]
      · exact h
      · intro l s he
        cases he
        exact hv rfl
  | cycleStart now => exact h
  | found key names => exact h
  | indexed v => exact h
  | cycleEnd errors => exact h

theorem Noted.cons (h : Noted log unit) (he : e.isCycleStart = false) :
    Noted (e :: log) unit := by
  rw [Noted, cycleLog_cons he]
  rcases h with h | ⟨names, hf, hn⟩
  · exact .inl (lastSynced_isSome_cons h)
  · exact .inr ⟨names, List.mem_cons_of_mem _ hf, hn⟩

theorem Noted.entitled (h : Noted log unit) (hg : unit.index.gated = false) :
    Entitled log unit := by
  rcases h with h | h
  · obtain ⟨⟨listed, stored⟩, hs⟩ := Option.isSome_iff_exists.mp h
    exact .inl ⟨listed, stored, hs, fun hgt => by rw [hg] at hgt; cases hgt⟩
  · exact .inr ⟨hg, h⟩

theorem mem_of_lastSynced {listed : List String} {stored : List StoredTile}
    (h : lastSynced unit log = some (listed, stored)) : .synced unit listed stored ∈ log := by
  obtain ⟨e, he, hs⟩ := List.exists_of_findSome?_eq_some h
  cases e with
  | synced v l s =>
    by_cases hv : v = unit
    · subst hv
      obtain ⟨rfl, rfl⟩ : l = listed ∧ s = stored := by simpa using hs
      exact he
    · simp [hv] at hs
  | cycleStart now => cases hs
  | found key names => cases hs
  | indexed v => cases hs
  | cycleEnd errors => cases hs

theorem lastSynced_of_cycleLog {p : List String × List StoredTile}
    (h : lastSynced unit (cycleLog log) = some p) : lastSynced unit log = some p := by
  induction log with
  | nil => exact h
  | cons e log ih =>
    cases hs : e.isCycleStart with
    | true => simp [cycleLog, hs, lastSynced] at h
    | false =>
      rw [cycleLog_cons hs] at h
      cases e with
      | synced v listed stored =>
        by_cases hv : v = unit
        · subst hv
          rw [lastSynced_self] at h ⊢
          exact h
        · have hne : ∀ l s, Event.synced v listed stored ≠ .synced unit l s := by
            intro l s he
            cases he
            exact hv rfl
          rw [lastSynced_cons hne] at h ⊢
          exact ih h
      | cycleStart now => cases hs
      | found key names => exact ih h
      | indexed v => exact ih h
      | cycleEnd errors => exact ih h

theorem indexedSync_self : indexedSync unit (.indexed unit :: log) = lastSynced unit log := by
  simp [indexedSync]

theorem indexedSync_cons (h : e ≠ .indexed unit) :
    indexedSync unit (e :: log) = indexedSync unit log := by
  simp [indexedSync, h]

theorem mem_of_indexedSync {listed : List String} {stored : List StoredTile}
    (h : indexedSync unit log = some (listed, stored)) : .synced unit listed stored ∈ log := by
  induction log with
  | nil => cases h
  | cons e log ih =>
    by_cases he : e = .indexed unit
    · subst he
      rw [indexedSync_self] at h
      exact List.mem_cons_of_mem _ (mem_of_lastSynced h)
    · rw [indexedSync_cons he] at h
      exact List.mem_cons_of_mem _ (ih h)

end DataService.Sync
