import Mathlib.Data.Int.Range
import Mathlib.Data.List.Nodup
import Mathlib.Data.List.Basic

/-! The tiles of a bounding box and the order in which a sweep visits them. A
cursor is a position in that order; its meaning rests on `iterTiles` being the
same duplicate-free list in every process. -/

namespace DataService

structure Tile where
  zoom : Nat
  x : Int
  y : Int
  deriving DecidableEq, Repr

/-- Indices that `lon_to_tile_x` and `lat_to_tile_y` give for the four corners of
the box at a zoom level, before clamping. -/
structure BoundingBox where
  lonMinX : Nat → Int
  lonMaxX : Nat → Int
  latMaxY : Nat → Int
  latMinY : Nat → Int

/-- `(x_min, x_max, y_min, y_max)`, clamped to the world extent. -/
def tileRange (zoom : Nat) (bbox : BoundingBox) : Int × Int × Int × Int :=
  let maxTile : Int := 2 ^ zoom - 1
  (max 0 (bbox.lonMinX zoom), min maxTile (bbox.lonMaxX zoom),
    max 0 (bbox.latMaxY zoom), min maxTile (bbox.latMinY zoom))

def iterTiles (zoom : Nat) (bbox : BoundingBox) : List Tile :=
  let (xMin, xMax, yMin, yMax) := tileRange zoom bbox
  (Int.range xMin (xMax + 1)).flatMap fun x =>
    (Int.range yMin (yMax + 1)).map fun y => ⟨zoom, x, y⟩

structure Cursor where
  zoom : Nat
  tileIndex : Nat
  deriving DecidableEq, Repr

theorem zoom_of_mem_iterTiles {zoom : Nat} {bbox : BoundingBox} {t : Tile}
    (h : t ∈ iterTiles zoom bbox) : t.zoom = zoom := by
  simp only [iterTiles, List.mem_flatMap, List.mem_map] at h
  obtain ⟨x, _, y, _, rfl⟩ := h
  rfl

theorem intRange_nodup (m n : Int) : (Int.range m n).Nodup :=
  List.nodup_range.map fun a b h => by omega

theorem iterTiles_nodup (zoom : Nat) (bbox : BoundingBox) : (iterTiles zoom bbox).Nodup := by
  refine List.nodup_flatMap.mpr ⟨?_, ?_⟩
  · intro x _
    exact (intRange_nodup _ _).map fun a b h => by simpa using h
  · refine (intRange_nodup _ _).imp ?_
    intro a b hab
    simp only [Function.onFun, List.disjoint_left, List.mem_map]
    rintro t ⟨y, _, rfl⟩ ⟨y', _, he⟩
    exact hab (by simpa using (congrArg Tile.x he).symm)

/-- The tiles a sweep of the zooms from `minZoom` on has behind it at a cursor. -/
def passedTiles (minZoom : Nat) (bbox : BoundingBox) (c : Cursor) : List Tile :=
  (List.range' minZoom (c.zoom - minZoom)).flatMap (iterTiles · bbox) ++
    (iterTiles c.zoom bbox).take c.tileIndex

theorem mem_passedTiles {minZoom : Nat} {bbox : BoundingBox} {c : Cursor} {t : Tile} :
    t ∈ passedTiles minZoom bbox c ↔
      (minZoom ≤ t.zoom ∧ t.zoom < c.zoom ∧ t ∈ iterTiles t.zoom bbox) ∨
        t ∈ (iterTiles c.zoom bbox).take c.tileIndex := by
  simp only [passedTiles, List.mem_append, List.mem_flatMap, List.mem_range'_1]
  refine or_congr_left ⟨?_, ?_⟩
  · rintro ⟨z, hz, ht⟩
    obtain rfl := zoom_of_mem_iterTiles ht
    exact ⟨hz.1, by omega, ht⟩
  · rintro ⟨hmin, hlt, ht⟩
    exact ⟨t.zoom, ⟨hmin, by omega⟩, ht⟩

/-- The tiles still ahead of a cursor, up to `maxZoom`. -/
def aheadTiles (maxZoom : Nat) (bbox : BoundingBox) (c : Cursor) : List Tile :=
  if maxZoom < c.zoom then []
  else (iterTiles c.zoom bbox).drop c.tileIndex ++
    (List.range' (c.zoom + 1) (maxZoom - c.zoom)).flatMap (iterTiles · bbox)

theorem mem_aheadTiles {maxZoom : Nat} {bbox : BoundingBox} {c : Cursor} {t : Tile} :
    t ∈ aheadTiles maxZoom bbox c ↔ t.zoom ≤ maxZoom ∧
      ((c.zoom < t.zoom ∧ t ∈ iterTiles t.zoom bbox) ∨
        t ∈ (iterTiles c.zoom bbox).drop c.tileIndex) := by
  unfold aheadTiles
  split_ifs with h
  · simp only [List.not_mem_nil, false_iff, not_and, not_or]
    intro hle
    refine ⟨fun hc _ => by omega, fun ht => ?_⟩
    have := zoom_of_mem_iterTiles (List.mem_of_mem_drop ht)
    omega
  · simp only [List.mem_append, List.mem_flatMap, List.mem_range'_1]
    constructor
    · rintro (ht | ⟨z, hz, ht⟩)
      · exact ⟨by rw [zoom_of_mem_iterTiles (List.mem_of_mem_drop ht)]; omega, .inr ht⟩
      · obtain rfl := zoom_of_mem_iterTiles ht
        exact ⟨by omega, .inl ⟨by omega, ht⟩⟩
    · rintro ⟨hle, ⟨hlt, ht⟩ | ht⟩
      · exact .inr ⟨t.zoom, ⟨by omega, by omega⟩, ht⟩
      · exact .inl ht

theorem not_ahead_of_passed {minZoom maxZoom : Nat} {bbox : BoundingBox} {c : Cursor} {t : Tile}
    (h : t ∈ passedTiles minZoom bbox c) : t ∉ aheadTiles maxZoom bbox c := by
  intro ha
  rw [mem_passedTiles] at h
  rw [mem_aheadTiles] at ha
  have hcut : t ∈ (iterTiles c.zoom bbox).take c.tileIndex →
      t ∉ (iterTiles c.zoom bbox).drop c.tileIndex :=
    fun h₁ h₂ => List.disjoint_take_drop (iterTiles_nodup c.zoom bbox) (Nat.le_refl _) h₁ h₂
  rcases h with ⟨_, hlt, _⟩ | ht <;> rcases ha.2 with ⟨hgt, _⟩ | hd
  · omega
  · have := zoom_of_mem_iterTiles (List.mem_of_mem_drop hd)
    omega
  · have := zoom_of_mem_iterTiles (List.mem_of_mem_take ht)
    omega
  · exact hcut ht hd

theorem passed_or_ahead {minZoom maxZoom : Nat} {bbox : BoundingBox} {t : Tile} (c : Cursor)
    (hmin : minZoom ≤ t.zoom) (hmax : t.zoom ≤ maxZoom) (ht : t ∈ iterTiles t.zoom bbox) :
    t ∈ passedTiles minZoom bbox c ∨ t ∈ aheadTiles maxZoom bbox c := by
  rw [mem_passedTiles, mem_aheadTiles]
  rcases Nat.lt_trichotomy t.zoom c.zoom with h | h | h
  · exact .inl (.inl ⟨hmin, h, ht⟩)
  · have hh : t ∈ (iterTiles c.zoom bbox).take c.tileIndex ++
        (iterTiles c.zoom bbox).drop c.tileIndex := by
      rw [List.take_append_drop]
      exact h ▸ ht
    rcases List.mem_append.mp hh with hh | hh
    · exact .inl (.inr hh)
    · exact .inr ⟨hmax, .inr hh⟩
  · exact .inr ⟨hmax, .inl ⟨h, ht⟩⟩

end DataService
