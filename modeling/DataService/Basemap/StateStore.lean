import DataService.Basemap.StorageCircuit

/-! The rows that the SQLite state store keeps for one provider. The failed-tile
table has a primary key, so its rows never repeat. -/

namespace DataService

/-- What `last_reason` is formatted from. -/
structure TripReason where
  recentFailed : Nat
  windowLength : Nat
  samples : List Tile
  deriving DecidableEq, Repr

structure ProviderHealth where
  consecutiveTrips : Nat
  cooldownUntil : Nat
  lastTrippedAt : Nat
  lastReason : Option TripReason
  deriving DecidableEq, Repr

structure ScrapeStats where
  attempted : Nat
  ok : Nat
  failed : Nat
  completed : Bool
  sweptAt : Nat
  deriving DecidableEq, Repr

structure FailedTiles where
  rows : List Tile
  nodup : rows.Nodup

namespace FailedTiles

def empty : FailedTiles := ⟨[], List.nodup_nil⟩

instance : Membership Tile FailedTiles := ⟨fun q t => t ∈ q.rows⟩

instance (q : FailedTiles) (t : Tile) : Decidable (t ∈ q) :=
  inferInstanceAs (Decidable (t ∈ q.rows))

def filter (q : FailedTiles) (p : Tile → Bool) : FailedTiles :=
  ⟨q.rows.filter p, q.nodup.filter p⟩

/-- `INSERT OR IGNORE` -/
def add (q : FailedTiles) (t : Tile) : FailedTiles := ⟨q.rows.insert t, q.nodup.insert⟩

def remove (q : FailedTiles) (t : Tile) : FailedTiles := q.filter (· ≠ t)

def clearZoom (q : FailedTiles) (zoom : Nat) : FailedTiles := q.filter (·.zoom ≠ zoom)

def atZoom (q : FailedTiles) (zoom : Nat) : List Tile := q.rows.filter (·.zoom = zoom)

theorem mem_def {q : FailedTiles} {t : Tile} : t ∈ q ↔ t ∈ q.rows := Iff.rfl

@[simp] theorem not_mem_empty (t : Tile) : ¬ t ∈ empty := by simp [mem_def, empty]

@[simp] theorem mem_add {q : FailedTiles} {s t : Tile} : t ∈ q.add s ↔ t = s ∨ t ∈ q := by
  simp [mem_def, add]

@[simp] theorem mem_remove {q : FailedTiles} {s t : Tile} : t ∈ q.remove s ↔ t ∈ q ∧ t ≠ s := by
  simp [mem_def, remove, filter]

@[simp] theorem mem_clearZoom {q : FailedTiles} {zoom : Nat} {t : Tile} :
    t ∈ q.clearZoom zoom ↔ t ∈ q ∧ t.zoom ≠ zoom := by
  simp [mem_def, clearZoom, filter]

@[simp] theorem mem_atZoom {q : FailedTiles} {zoom : Nat} {t : Tile} :
    t ∈ q.atZoom zoom ↔ t ∈ q ∧ t.zoom = zoom := by
  simp [mem_def, atZoom]

end FailedTiles

structure ProviderRows where
  cursor : Option Cursor
  failed : FailedTiles
  lastCompleted : Option Nat
  health : Option ProviderHealth
  stats : Option ScrapeStats

def ProviderRows.empty : ProviderRows := ⟨none, .empty, none, none, none⟩

end DataService
