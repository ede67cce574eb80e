import DataService.Lib.IntText
import DataService.Sync.TileKeys
import DataService.Sync.WrfSync

/-! Tile keys read back. The coordinates are read as integers, of which there are more spellings
than the one that the builders write. -/

namespace DataService.Sync

open FloatText IntText NumberText

variable (R : FloatReader) (reader : NumberReader)

/-- The coordinates of a key whose integers are read as the language reads them. -/
def readTileKey (key : S3Key) : Option (Int × Int × Int) :=
  parseZxy (withInt R reader) (String.ofList key)

/-- The last three segments of the key are the coordinates, spelled as the builders do. -/
def NamesTile (key : S3Key) (z x y : Int) : Prop :=
  0 ≤ z ∧ 0 ≤ x ∧ 0 ≤ y ∧ [numeral z, numeral x, numeral y ++ ".webp".toList] <:+ key.splitOn '/'

instance (key : S3Key) (z x y : Int) : Decidable (NamesTile key z x y) :=
  inferInstanceAs (Decidable (_ ∧ _ ∧ _ ∧ _))

/-- The last three segments of a `.webp` key fail in neither way: if all are read as integers,
none is spelled otherwise than the builders do, and if all are spelled so, none is too long. -/
def Exact (key : S3Key) : Prop :=
  ∀ z x y : List Char, [z, x, y ++ ".webp".toList] <:+ key.splitOn '/' →
    ((∀ text ∈ [z, x, y], (int R text).isSome) → ∀ text ∈ [z, x, y], IsCanonical text) ∧
    ((∀ text ∈ [z, x, y], IsCanonical text) → ∀ text ∈ [z, x, y], text.length ≤ maxStrDigits)

def keyBelow (unit zs xs ys : List Char) : S3Key :=
  unit ++ '/' :: (zs ++ '/' :: (xs ++ '/' :: (ys ++ ".webp".toList)))

section Reading

variable {R reader} {key : S3Key} {z x y : Int}

/-- The last three segments, in the order in which the parser looks for them. -/
theorem last_segments {zs xs last : List Char} {segments : List (List Char)} :
    [zs, xs, last] <:+ segments ↔ ∃ rest, segments.reverse = last :: xs :: zs :: rest := by
  rw [← List.reverse_prefix]
  constructor
  · rintro ⟨rest, hrest⟩
    exact ⟨rest, by simpa using hrest.symm⟩
  · rintro ⟨rest, hrest⟩
    exact ⟨rest, by simp [hrest]⟩

/-- What the parser takes of a key: the last three segments. -/
theorem readTileKey_eq_some (h : ".webp".toList <:+ key) :
    readTileKey R reader key = some (z, x, y) ↔
      ∃ zs xs ys : List Char, [zs, xs, ys ++ ".webp".toList] <:+ key.splitOn '/' ∧
        int R zs = some z ∧ int R xs = some x ∧ int R ys = some y := by
  simp only [last_segments]
  unfold readTileKey parseZxy
  rw [String.toList_ofList]
  split
  · rename_i last xs zs rest hsegments
    have hparts : key.splitOn '/' = (rest.reverse ++ [zs, xs]) ++ [last] := by
      have hreverse := congrArg List.reverse hsegments
      simpa using hreverse
    obtain ⟨ys, rfl⟩ := Segments.suffix_of_splitOn (by decide) h hparts
    have hstem : (ys ++ ".webp".toList).take ((ys ++ ".webp".toList).length - 5) = ys := by
      simp
    have hsuffix : ".webp".toList.isSuffixOf (ys ++ ".webp".toList) = true := by
      rw [List.isSuffixOf_iff_suffix]
      exact List.suffix_append _ _
    simp only [hsuffix, if_true, hstem, hsegments, Option.bind_eq_bind, Option.bind_eq_some_iff,
      Option.pure_def, Option.some.injEq, Prod.mk.injEq, List.cons.injEq]
    constructor
    · rintro ⟨z', hz, x', hx, y', hy, rfl, rfl, rfl⟩
      exact ⟨zs, xs, ys, ⟨rest, rfl, rfl, rfl, rfl⟩, hz, hx, hy⟩
    · rintro ⟨zs', xs', ys', ⟨rest', hlast, rfl, rfl, -⟩, hz, hx, hy⟩
      obtain rfl := List.append_cancel_right hlast
      exact ⟨z, hz, x, hx, y, hy, rfl, rfl, rfl⟩
  · rename_i hnone
    refine iff_of_false (by simp) ?_
    rintro ⟨zs, xs, ys, ⟨rest, hsegments⟩, -⟩
    exact hnone _ _ _ _ hsegments

theorem namesTile_iff : NamesTile key z x y ↔ ∃ z' x' y' : Nat, z = z' ∧ x = x' ∧ y = y' ∧
    [Nat.toDigits 10 z', Nat.toDigits 10 x', Nat.toDigits 10 y' ++ ".webp".toList] <:+
      key.splitOn '/' := by
  constructor
  · rintro ⟨hz, hx, hy, h⟩
    obtain ⟨z', rfl⟩ := Int.eq_ofNat_of_zero_le hz
    obtain ⟨x', rfl⟩ := Int.eq_ofNat_of_zero_le hx
    obtain ⟨y', rfl⟩ := Int.eq_ofNat_of_zero_le hy
    exact ⟨z', x', y', rfl, rfl, rfl, h⟩
  · rintro ⟨z', x', y', rfl, rfl, rfl, h⟩
    exact ⟨Int.natCast_nonneg z', Int.natCast_nonneg x', Int.natCast_nonneg y', h⟩

/-- The last three segments are the same in every reading. -/
theorem segments_unique {zs xs ys zs' xs' ys' : List Char} {segments : List (List Char)}
    (h : [zs, xs, ys ++ ".webp".toList] <:+ segments)
    (h' : [zs', xs', ys' ++ ".webp".toList] <:+ segments) : zs = zs' ∧ xs = xs' ∧ ys = ys' := by
  obtain ⟨rest, hrest⟩ := last_segments.mp h
  obtain ⟨rest', hrest'⟩ := last_segments.mp h'
  rw [hrest] at hrest'
  simp only [List.cons.injEq, List.append_cancel_right_eq] at hrest'
  exact ⟨hrest'.2.2.1, hrest'.2.1, hrest'.1⟩

theorem int_canonical {text : List Char} {n : Int} (hcanonical : IsCanonical text)
    (h : int R text = some n) :
    (∃ m : Nat, n = m ∧ text = Nat.toDigits 10 m) ∧ text.length ≤ maxStrDigits := by
  obtain ⟨m, rfl⟩ := hcanonical
  rw [int_toDigits] at h
  split_ifs at h with hlength
  exact ⟨⟨m, (Option.some.inj h).symm, rfl⟩, hlength⟩

/-- A key is read exactly where each of its integers is. -/
theorem decodes_iff_exact (h : ".webp".toList <:+ key) :
    (∀ z x y, readTileKey R reader key = some (z, x, y) ↔ NamesTile key z x y) ↔ Exact R key := by
  constructor
  · intro hdecodes zs xs ys hsegments
    constructor
    · intro hsome
      simp only [List.mem_cons, List.not_mem_nil, or_false, forall_eq_or_imp, forall_eq,
        Option.isSome_iff_exists] at hsome
      obtain ⟨⟨z, hz⟩, ⟨x, hx⟩, ⟨y, hy⟩⟩ := hsome
      obtain ⟨z', x', y', -, -, -, hnamed⟩ := namesTile_iff.mp
        ((hdecodes z x y).mp ((readTileKey_eq_some h).mpr ⟨zs, xs, ys, hsegments, hz, hx, hy⟩))
      obtain ⟨rfl, rfl, rfl⟩ := segments_unique hsegments hnamed
      simp only [List.mem_cons, List.not_mem_nil, or_false, forall_eq_or_imp, forall_eq]
      exact ⟨⟨z', rfl⟩, ⟨x', rfl⟩, ⟨y', rfl⟩⟩
    · intro hcanonical
      simp only [List.mem_cons, List.not_mem_nil, or_false, forall_eq_or_imp, forall_eq]
        at hcanonical ⊢
      obtain ⟨hzs, hxs, hys⟩ := hcanonical
      obtain ⟨z, rfl⟩ := hzs
      obtain ⟨x, rfl⟩ := hxs
      obtain ⟨y, rfl⟩ := hys
      have hread := (hdecodes z x y).mpr (namesTile_iff.mpr ⟨z, x, y, rfl, rfl, rfl, hsegments⟩)
      obtain ⟨zs, xs, ys, hsegments', hz, hx, hy⟩ := (readTileKey_eq_some h).mp hread
      obtain ⟨rfl, rfl, rfl⟩ := segments_unique hsegments hsegments'
      exact ⟨(int_canonical ⟨z, rfl⟩ hz).2, (int_canonical ⟨x, rfl⟩ hx).2, (int_canonical ⟨y, rfl⟩ hy).2⟩
  · intro hexact z x y
    rw [readTileKey_eq_some h, namesTile_iff]
    constructor
    · rintro ⟨zs, xs, ys, hsegments, hz, hx, hy⟩
      have hcanonical := (hexact zs xs ys hsegments).1 (by simp [hz, hx, hy])
      obtain ⟨⟨z', rfl, rfl⟩, -⟩ := int_canonical (hcanonical zs (by simp)) hz
      obtain ⟨⟨x', rfl, rfl⟩, -⟩ := int_canonical (hcanonical xs (by simp)) hx
      obtain ⟨⟨y', rfl, rfl⟩, -⟩ := int_canonical (hcanonical ys (by simp)) hy
      exact ⟨z', x', y', rfl, rfl, rfl, hsegments⟩
    · rintro ⟨z', x', y', rfl, rfl, rfl, hsegments⟩
      have hlength := (hexact _ _ _ hsegments).2 (by simp [IsCanonical])
      have hread : ∀ n : Nat, (Nat.toDigits 10 n).length ≤ maxStrDigits →
          int R (Nat.toDigits 10 n) = some (n : Int) := by
        intro n hn
        rw [int_toDigits, if_pos hn]
      exact ⟨_, _, _, hsegments, hread z' (hlength _ (by simp)), hread x' (hlength _ (by simp)),
        hread y' (hlength _ (by simp))⟩

theorem webp_keyBelow (unit zs xs ys : List Char) : ".webp".toList <:+ keyBelow unit zs xs ys :=
  ⟨unit ++ '/' :: (zs ++ '/' :: (xs ++ '/' :: ys)), by simp [keyBelow]⟩

theorem splitOn_keyBelow (unit : List Char) {zs xs ys : List Char}
    (h : ∀ text ∈ [zs, xs, ys], '/' ∉ text) :
    (keyBelow unit zs xs ys).splitOn '/' = unit.splitOn '/' ++ [zs, xs, ys ++ ".webp".toList] := by
  simp only [List.mem_cons, List.not_mem_nil, or_false, forall_eq_or_imp, forall_eq] at h
  have hlast : '/' ∉ ys ++ ".webp".toList := by
    rw [List.mem_append]
    exact not_or.mpr ⟨h.2.2, by decide⟩
  rw [keyBelow, List.splitOn_append_cons_self, List.splitOn_append_cons_self_of_not_mem h.1,
    List.splitOn_append_cons_self_of_not_mem h.2.1, List.splitOn_eq_singleton hlast]

/-- Below one unit, keys that are read exactly are told apart by their coordinates. -/
theorem keyBelow_inj {unit zs xs ys zs' xs' ys' : List Char} (h : ∀ text ∈ [zs, xs, ys], '/' ∉ text)
    (h' : ∀ text ∈ [zs', xs', ys'], '/' ∉ text) (hexact : Exact R (keyBelow unit zs xs ys))
    (hexact' : Exact R (keyBelow unit zs' xs' ys'))
    (hread : readTileKey R reader (keyBelow unit zs xs ys) = some (z, x, y))
    (hread' : readTileKey R reader (keyBelow unit zs' xs' ys') = some (z, x, y)) :
    keyBelow unit zs xs ys = keyBelow unit zs' xs' ys' := by
  have hnamed := ((decodes_iff_exact (webp_keyBelow unit zs xs ys)).mpr hexact z x y).mp hread
  have hnamed' := ((decodes_iff_exact (webp_keyBelow unit zs' xs' ys')).mpr hexact' z x y).mp hread'
  have hsuffix := hnamed.2.2.2
  have hsuffix' := hnamed'.2.2.2
  rw [splitOn_keyBelow unit h] at hsuffix
  rw [splitOn_keyBelow unit h'] at hsuffix'
  obtain ⟨hz, hx, hy⟩ := segments_unique hsuffix (List.suffix_append _ _)
  obtain ⟨hz', hx', hy'⟩ := segments_unique hsuffix' (List.suffix_append _ _)
  rw [← hz, ← hx, ← hy, ← hz', ← hx', ← hy']

theorem tilePath_webp {names : List (List Char)} (hne : names ≠ []) :
    tilePath names z x y ++ ".webp".toList =
      keyBelow (List.intercalate ['/'] names) (numeral z) (numeral x) (numeral y) := by
  have hsplit : names ++ [numeral z, numeral x, numeral y] =
      ((names ++ [numeral z]) ++ [numeral x]) ++ [numeral y] := by simp
  rw [tilePath, hsplit, Segments.intercalate_concat (by simp), Segments.intercalate_concat (by simp),
    Segments.intercalate_concat hne]
  simp [keyBelow]

theorem s3Key_below (unit : TileUnit) (h : ∀ providerId, unit ≠ .basemap providerId) :
    ∃ names : List (List Char), ∀ z x y,
      unit.s3Key z x y =
        keyBelow (List.intercalate ['/'] names) (numeral z) (numeral x) (numeral y) := by
  cases unit with
  | basemap providerId => exact absurd rfl (h providerId)
  | _ => exact ⟨_, fun z x y => tilePath_webp (List.cons_ne_nil _ _)⟩

/-- A key of the builders is read unless a number is too long. -/
theorem read_keyBelow (unit : List Char) (z x y : Nat) :
    readTileKey R reader (keyBelow unit (numeral z) (numeral x) (numeral y)) =
        some ((z : Int), (x : Int), (y : Int)) ↔
      ∀ n ∈ [z, x, y], (Nat.toDigits 10 n).length ≤ maxStrDigits := by
  have hslash : ∀ text ∈ [numeral z, numeral x, numeral y], '/' ∉ text := by
    simp only [List.mem_cons, List.not_mem_nil, or_false, forall_eq_or_imp, forall_eq]
    exact ⟨notMem_numeral (by decide) (by decide) _, notMem_numeral (by decide) (by decide) _,
      notMem_numeral (by decide) (by decide) _⟩
  have hsegments : [numeral z, numeral x, numeral y ++ ".webp".toList] <:+
      (keyBelow unit (numeral z) (numeral x) (numeral y)).splitOn '/' := by
    rw [splitOn_keyBelow unit hslash]
    exact List.suffix_append _ _
  have hint : ∀ n : Nat, int R (numeral n) = some (n : Int) ↔
      (Nat.toDigits 10 n).length ≤ maxStrDigits := by
    intro n
    have hread : int R (numeral n) = _ := int_toDigits n
    rw [hread]
    split <;> simp_all
  rw [readTileKey_eq_some (webp_keyBelow _ _ _ _)]
  simp only [List.mem_cons, List.not_mem_nil, or_false, forall_eq_or_imp, forall_eq, ← hint]
  constructor
  · rintro ⟨zs, xs, ys, hsegments', hz, hx, hy⟩
    obtain ⟨rfl, rfl, rfl⟩ := segments_unique hsegments hsegments'
    exact ⟨hz, hx, hy⟩
  · exact fun ⟨hz, hx, hy⟩ => ⟨_, _, _, hsegments, hz, hx, hy⟩

end Reading

/-- The decoding of tile keys is exact on the keys whose integers have one spelling; on the keys
of the builders, on those whose numbers are not too long; and there no two keys of a unit name
one tile. -/
theorem tile_keys_decode_iff :
    (∀ key : S3Key, ".webp".toList <:+ key →
      ((∀ z x y, readTileKey R reader key = some (z, x, y) ↔ NamesTile key z x y) ↔ Exact R key)) ∧
    (∀ unit : TileUnit, (∀ providerId, unit ≠ .basemap providerId) → ∀ z x y : Nat,
      (readTileKey R reader (unit.s3Key z x y) = some ((z : Int), (x : Int), (y : Int)) ↔
        ∀ n ∈ [z, x, y], (Nat.toDigits 10 n).length ≤ maxStrDigits)) ∧
    ∀ unit zs xs ys zs' xs' ys' : List Char, (∀ text ∈ [zs, xs, ys], '/' ∉ text) →
      (∀ text ∈ [zs', xs', ys'], '/' ∉ text) → Exact R (keyBelow unit zs xs ys) →
      Exact R (keyBelow unit zs' xs' ys') → ∀ tile : Int × Int × Int,
      readTileKey R reader (keyBelow unit zs xs ys) = some tile →
      readTileKey R reader (keyBelow unit zs' xs' ys') = some tile →
      keyBelow unit zs xs ys = keyBelow unit zs' xs' ys' := by
  refine ⟨fun key h => decodes_iff_exact h, fun unit hunit z x y => ?_, ?_⟩
  · obtain ⟨names, hkey⟩ := s3Key_below unit hunit
    rw [hkey]
    exact read_keyBelow _ z x y
  · intro unit zs xs ys zs' xs' ys' h h' hexact hexact' tile hread hread'
    exact keyBelow_inj h h' hexact hexact' hread hread'

theorem tile_keys_decode_satellite :
    readTileKey .asciiOnly .asciiOnly ((TileUnit.satellite "c13" "t0").s3Key 3 1 2) =
      some (3, 1, 2) :=
  ((tile_keys_decode_iff .asciiOnly .asciiOnly).2.1 (.satellite "c13" "t0") (by simp) 3 1 2).mpr
    (by decide)

/-- A key with a zero and a sign that no builder writes is read as a tile. -/
theorem tile_key_spelled_twice :
    ¬ ∀ (R : FloatReader) (reader : NumberReader) (key : S3Key), ".webp".toList <:+ key →
      ∀ z x y, readTileKey R reader key = some (z, x, y) ↔ NamesTile key z x y := by
  intro h
  have hnamed := (h .asciiOnly .asciiOnly (keyBelow "tiles/c13/t0".toList "03".toList "+1".toList
    "2".toList) (webp_keyBelow _ _ _ _) 3 1 2).mp (by decide +kernel)
  exact absurd hnamed (by decide)

end DataService.Sync
