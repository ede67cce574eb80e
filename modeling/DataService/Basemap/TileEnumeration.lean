import DataService.Basemap.Tiles
import Mathlib.Data.Int.Order.Basic
import Mathlib.Tactic.Ring

/-! The tiles of a zoom level are those of the clamped rectangle, column by column, and their
number is what `count_tiles` computes without going through them. So the rectangle alone
decides which tile an index denotes. -/

namespace DataService

/-- `count_tiles` -/
def countTiles (zoom : Nat) (bbox : BoundingBox) : Int :=
  let (xMin, xMax, yMin, yMax) := tileRange zoom bbox
  if xMax < xMin ∨ yMax < yMin then 0 else (xMax - xMin + 1) * (yMax - yMin + 1)

/-- The order of the columns, and of the tiles in a column. -/
def Tile.Before (t u : Tile) : Prop := t.x < u.x ∨ t.x = u.x ∧ t.y < u.y

/-- A tile of a zoom level in the clamped rectangle of a box. -/
structure InRectangle (zoom : Nat) (bbox : BoundingBox) (t : Tile) : Prop where
  zoom_eq : t.zoom = zoom
  west : max 0 (bbox.lonMinX zoom) ≤ t.x
  east : t.x ≤ min (2 ^ zoom - 1) (bbox.lonMaxX zoom)
  north : max 0 (bbox.latMaxY zoom) ≤ t.y
  south : t.y ≤ min (2 ^ zoom - 1) (bbox.latMinY zoom)

/-- The tile at a position of the clamped rectangle. -/
def tileAt (zoom : Nat) (bbox : BoundingBox) (i : Nat) : Tile :=
  let (xMin, _, yMin, yMax) := tileRange zoom bbox
  let height := (yMax - yMin + 1).toNat
  ⟨zoom, xMin + (i / height : Nat), yMin + (i % height : Nat)⟩

variable {zoom : Nat} {bbox : BoundingBox} {t : Tile}

theorem length_intRange (m n : Int) : (Int.range m n).length = (n - m).toNat := by
  rw [Int.range, List.length_map, List.length_range]

theorem intRange_getElem? (m n : Int) (i : Nat) :
    (Int.range m n)[i]? = if i < (n - m).toNat then some (m + i) else none := by
  rw [Int.range, List.getElem?_map]
  split
  · rename_i h
    rw [List.getElem?_range h]
    rfl
  · rename_i h
    rw [List.getElem?_eq_none (by simpa using h)]
    rfl

theorem intRange_pairwise (m n : Int) : (Int.range m n).Pairwise (· < ·) := by
  rw [Int.range, List.pairwise_map]
  refine List.pairwise_lt_range.imp fun {a b} hab => ?_
  omega

/-- In a list of blocks of one length, the block and the place in it are quotient and
remainder. -/
theorem getElem?_flatMap_blocks {α β : Type} {f : α → List β} {h : Nat} (hpos : 0 < h)
    {l : List α} (hl : ∀ a ∈ l, (f a).length = h) (i : Nat) :
    (l.flatMap f)[i]? = l[i / h]?.bind fun a => (f a)[i % h]? := by
  induction l generalizing i with
  | nil => simp
  | cons a l ih =>
    have ha : (f a).length = h := hl a List.mem_cons_self
    have htail := ih fun b hb => hl b (List.mem_cons_of_mem a hb)
    rw [List.flatMap_cons]
    by_cases hi : i < h
    · rw [List.getElem?_append_left (by omega), Nat.div_eq_of_lt hi, Nat.mod_eq_of_lt hi]
      rfl
    · have hle : h ≤ i := by omega
      rw [List.getElem?_append_right (by omega), ha, htail, Nat.div_eq_sub_div hpos hle,
        Nat.mod_eq_sub_mod hle, List.getElem?_cons_succ]

theorem mem_iterTiles : t ∈ iterTiles zoom bbox ↔ InRectangle zoom bbox t := by
  simp only [iterTiles, tileRange, List.mem_flatMap, List.mem_map, Int.mem_range_iff,
    Int.lt_add_one_iff]
  constructor
  · rintro ⟨x, ⟨hwest, heast⟩, y, ⟨hnorth, hsouth⟩, rfl⟩
    exact ⟨rfl, hwest, heast, hnorth, hsouth⟩
  · rintro ⟨rfl, hwest, heast, hnorth, hsouth⟩
    exact ⟨t.x, ⟨hwest, heast⟩, t.y, ⟨hnorth, hsouth⟩, rfl⟩

theorem iterTiles_pairwise (zoom : Nat) (bbox : BoundingBox) :
    (iterTiles zoom bbox).Pairwise Tile.Before := by
  rw [iterTiles, List.pairwise_flatMap]
  refine ⟨fun x _ => ?_, ?_⟩
  · rw [List.pairwise_map]
    exact (intRange_pairwise _ _).imp fun {y y'} hy => .inr ⟨rfl, hy⟩
  · refine (intRange_pairwise _ _).imp fun {x x'} hx t ht u hu => ?_
    obtain ⟨y, -, rfl⟩ := List.mem_map.mp ht
    obtain ⟨y', -, rfl⟩ := List.mem_map.mp hu
    exact .inl hx

theorem countTiles_of_range {xMin xMax yMin yMax : Int}
    (h : tileRange zoom bbox = (xMin, xMax, yMin, yMax)) : countTiles zoom bbox =
      if xMax < xMin ∨ yMax < yMin then 0 else (xMax - xMin + 1) * (yMax - yMin + 1) := by
  rw [countTiles, h]

theorem length_iterTiles (zoom : Nat) (bbox : BoundingBox) :
    ((iterTiles zoom bbox).length : Int) = countTiles zoom bbox := by
  rcases hrange : tileRange zoom bbox with ⟨xMin, xMax, yMin, yMax⟩
  have hlength : (iterTiles zoom bbox).length =
      (xMax + 1 - xMin).toNat * (yMax + 1 - yMin).toNat := by
    simp [iterTiles, hrange, List.length_flatMap, length_intRange]
  rw [hlength, countTiles_of_range hrange, Nat.cast_mul]
  split
  · rename_i hempty
    rcases hempty with hx | hy
    · have hzero : (xMax + 1 - xMin).toNat = 0 := by omega
      rw [hzero, Nat.cast_zero, zero_mul]
    · have hzero : (yMax + 1 - yMin).toNat = 0 := by omega
      rw [hzero, Nat.cast_zero, mul_zero]
  · rename_i hfull
    rw [Int.toNat_of_nonneg (by omega), Int.toNat_of_nonneg (by omega)]
    ring

/-- The tile of an index is decided by the clamped rectangle. -/
theorem iterTiles_getElem? (zoom : Nat) (bbox : BoundingBox) (i : Nat) :
    (iterTiles zoom bbox)[i]? =
      if (i : Int) < countTiles zoom bbox then some (tileAt zoom bbox i) else none := by
  split
  · rename_i hi
    rcases hrange : tileRange zoom bbox with ⟨xMin, xMax, yMin, yMax⟩
    have hfull : ¬ (xMax < xMin ∨ yMax < yMin) := by
      intro hempty
      rw [countTiles_of_range hrange, if_pos hempty] at hi
      omega
    obtain ⟨height, hheight⟩ : ∃ height : Nat, yMax - yMin + 1 = height :=
      ⟨_, (Int.toNat_of_nonneg (by omega)).symm⟩
    obtain ⟨width, hwidth⟩ : ∃ width : Nat, xMax - xMin + 1 = width :=
      ⟨_, (Int.toNat_of_nonneg (by omega)).symm⟩
    have hpos : 0 < height := by omega
    have hcolumn : i / height < width := by
      rw [countTiles_of_range hrange, if_neg hfull, hheight, hwidth] at hi
      exact Nat.div_lt_of_lt_mul (by rw [Nat.mul_comm]; exact_mod_cast hi)
    have hrow : i % height < height := Nat.mod_lt i hpos
    have hblock : ∀ x ∈ Int.range xMin (xMax + 1),
        ((Int.range yMin (yMax + 1)).map fun y => (⟨zoom, x, y⟩ : Tile)).length = height := by
      intro x _
      rw [List.length_map, length_intRange]
      omega
    simp only [iterTiles, hrange, tileAt]
    rw [getElem?_flatMap_blocks hpos hblock, intRange_getElem?, if_pos (by omega), Option.bind_some,
      List.getElem?_map, intRange_getElem?, if_pos (by omega), Option.map_some, hheight,
      Int.toNat_natCast]
  · rename_i hi
    rw [← length_iterTiles] at hi
    exact List.getElem?_eq_none (by omega)

/-- The tiles of a zoom level: in their order, each once, on the map, those of the clamped
rectangle, as many as are counted, and at an index the tile that the rectangle decides. -/
theorem tiles_enumerated (zoom : Nat) (bbox : BoundingBox) :
    (iterTiles zoom bbox).Pairwise Tile.Before ∧
    (iterTiles zoom bbox).Nodup ∧
    (∀ t ∈ iterTiles zoom bbox, (0 ≤ t.x ∧ t.x ≤ 2 ^ zoom - 1) ∧ 0 ≤ t.y ∧ t.y ≤ 2 ^ zoom - 1) ∧
    (∀ t, t ∈ iterTiles zoom bbox ↔ InRectangle zoom bbox t) ∧
    ((iterTiles zoom bbox).length : Int) = countTiles zoom bbox ∧
    ∀ i : Nat, (iterTiles zoom bbox)[i]? =
      if (i : Int) < countTiles zoom bbox then some (tileAt zoom bbox i) else none := by
  refine ⟨iterTiles_pairwise zoom bbox, iterTiles_nodup zoom bbox, fun t ht => ?_,
    fun t => mem_iterTiles, length_iterTiles zoom bbox, iterTiles_getElem? zoom bbox⟩
  obtain ⟨-, hwest, heast, hnorth, hsouth⟩ := mem_iterTiles.mp ht
  exact ⟨⟨(le_max_left _ _).trans hwest, heast.trans (min_le_left _ _)⟩,
    (le_max_left _ _).trans hnorth, hsouth.trans (min_le_left _ _)⟩

end DataService
