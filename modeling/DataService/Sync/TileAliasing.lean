import DataService.Sync.TileKeys

/-! Tiles that share a key in Redis. Every family but the radars' puts a slash between the names
of its key, and no name has one; the tileset and the elevation of a radar tile are put together
with an underscore. -/

namespace DataService.Sync

inductive TileFamily where
  | satellite
  | radar (network : RadarNetwork)
  | wrf
  | ecmwfTp
  | gfs
  | basemap
  deriving DecidableEq

/-- What stands between the first two colons of a key in Redis. -/
def TileFamily.space : TileFamily → List Char
  | satellite => "sat".toList
  | radar network => radarNs network.name
  | wrf => "wrf".toList
  | ecmwfTp => "ecmwf_tp".toList
  | gfs => "gfs".toList
  | basemap => "basemap".toList

theorem TileFamily.mem_all (f : TileFamily) :
    f ∈ [satellite, radar .sinarame, radar .inta, wrf, ecmwfTp, gfs, basemap] := by
  cases f with
  | radar network => cases network <;> decide
  | _ => decide

theorem TileFamily.colon_notMem_space (f : TileFamily) : ':' ∉ f.space :=
  (by decide : ∀ f ∈ [satellite, radar .sinarame, radar .inta, wrf, ecmwfTp, gfs, basemap],
    ':' ∉ f.space) f f.mem_all

theorem TileFamily.space_injective : Function.Injective TileFamily.space := by
  have hall : ∀ f ∈ [satellite, radar .sinarame, radar .inta, wrf, ecmwfTp, gfs, basemap],
      ∀ g ∈ [satellite, radar .sinarame, radar .inta, wrf, ecmwfTp, gfs, basemap],
        f.space = g.space → f = g := by decide
  exact fun f g => hall f f.mem_all g g.mem_all

namespace TileUnit

def family : TileUnit → TileFamily
  | satellite .. => .satellite
  | radar network .. => .radar network
  | wrf .. => .wrf
  | ecmwfTp .. => .ecmwfTp
  | gfs .. => .gfs
  | basemap _ => .basemap

/-- What stands behind them. -/
def redisPath (z x y : Int) : TileUnit → List Char
  | satellite channelDir tilesetId => tilePath [channelDir.toList, tilesetId.toList] z x y
  | radar _ radarId variableId tilesetId elevationId =>
    tilePath [radarId.toList, variableId.toList, tilesetId.toList ++ '_' :: elevationId.toList] z x y
  | wrf productId initTag fxxx => tilePath [productId.toList, initTag.toList, fxxx.toList] z x y
  | ecmwfTp forecastTs periodTs => tilePath [forecastTs.toList, periodTs.toList] z x y
  | gfs product cycle fxxx =>
    tilePath [product.productId.toList, cycle.toList, fxxx.toList] z x y
  | basemap providerId =>
    providerId.toList ++ ':' :: (numeral z ++ ':' :: (numeral x ++ ':' :: numeral y))

theorem tagged {tag space path : List Char} (h : tag = "tile:".toList ++ (space ++ [':'])) :
    tag ++ path = "tile:".toList ++ (space ++ ':' :: path) := by
  rw [h, List.append_assoc, List.append_assoc, List.singleton_append]

theorem redisKey_eq (u : TileUnit) (z x y : Int) :
    u.redisKey z x y = "tile:".toList ++ (u.family.space ++ ':' :: u.redisPath z x y) := by
  cases u with
  | satellite => exact tagged (by decide : "tile:sat:".toList = _ ++ ("sat".toList ++ _))
  | radar => exact List.append_assoc _ _ _
  | wrf => exact tagged (by decide : "tile:wrf:".toList = _ ++ ("wrf".toList ++ _))
  | ecmwfTp => exact tagged (by decide : "tile:ecmwf_tp:".toList = _ ++ ("ecmwf_tp".toList ++ _))
  | gfs => exact tagged (by decide : "tile:gfs:".toList = _ ++ ("gfs".toList ++ _))
  | basemap =>
    refine (List.append_assoc _ _ _).trans ?_
    exact tagged (by decide : "tile:basemap:".toList = _ ++ ("basemap".toList ++ _))

variable {u u' : TileUnit} {z x y z' x' y' : Int}

theorem redisKey_parts (h : u.redisKey z x y = u'.redisKey z' x' y') :
    u.family = u'.family ∧ u.redisPath z x y = u'.redisPath z' x' y' := by
  rw [redisKey_eq, redisKey_eq] at h
  obtain ⟨hspace, hpath⟩ := Segments.first_eq u.family.colon_notMem_space
    u'.family.colon_notMem_space (List.append_cancel_left h)
  exact ⟨TileFamily.space_injective hspace, hpath⟩

theorem basemap_parts {p p' : String} (h : (basemap p).redisPath z x y =
    (basemap p').redisPath z' x' y') : p = p' ∧ z = z' ∧ x = x' ∧ y = y' := by
  have hcolon : ∀ n : Int, ':' ∉ numeral n := notMem_numeral (by decide) (by decide)
  have hassoc : ∀ p z x y : List Char, p ++ ':' :: (z ++ ':' :: (x ++ ':' :: y)) =
      ((p ++ ':' :: z) ++ ':' :: x) ++ ':' :: y := by simp
  have hsplit := ((hassoc _ _ _ _).symm.trans h).trans (hassoc _ _ _ _)
  obtain ⟨hzx, hy⟩ := Segments.last_eq (hcolon y) (hcolon y') hsplit
  obtain ⟨hz, hx⟩ := Segments.last_eq (hcolon x) (hcolon x') hzx
  obtain ⟨hp, hz⟩ := Segments.last_eq (hcolon z) (hcolon z') hz
  exact ⟨String.toList_injective hp, numeral_injective hz, numeral_injective hx,
    numeral_injective hy⟩

/-- Units with one key are the same, but for where the tileset of a radar tile ends. -/
def SharesKey (u u' : TileUnit) : Prop :=
  u = u' ∨ ∃ network radarId variableId tilesetId elevationId tilesetId' elevationId',
    u = radar network radarId variableId tilesetId elevationId ∧
    u' = radar network radarId variableId tilesetId' elevationId' ∧
    tilesetId.toList ++ '_' :: elevationId.toList = tilesetId'.toList ++ '_' :: elevationId'.toList

theorem path_inj (l l' : List String) (h : ∀ name ∈ l.map String.toList, '/' ∉ name)
    (h' : ∀ name ∈ l'.map String.toList, '/' ∉ name)
    (hsame : tilePath (l.map String.toList) z x y = tilePath (l'.map String.toList) z' x' y') :
    l = l' ∧ z = z' ∧ x = x' ∧ y = y' := by
  obtain ⟨hnames, hcoordinates⟩ := tilePath_inj h h' hsame
  exact ⟨List.map_injective_iff.mpr (fun a b => String.toList_injective) hnames, hcoordinates⟩

theorem tilePath_names (c t : List Char) :
    tilePath [c, t] z x y = tilePath (c.splitOn '/' ++ [t]) z x y := by
  have hne := List.splitOn_ne_nil '/' c
  have hsame : ∀ parts : List (List Char), List.intercalate ['/'] (c :: t :: parts) =
      List.intercalate ['/'] (c.splitOn '/' ++ t :: parts) := by
    intro parts
    induction parts using List.reverseRecOn with
    | nil =>
      rw [Segments.intercalate_concat hne, List.intercalate_splitOn]
      simp
    | append_singleton parts part ih =>
      have hassoc : c.splitOn '/' ++ t :: (parts ++ [part]) =
          (c.splitOn '/' ++ t :: parts) ++ [part] := by simp
      have hcons : c :: t :: (parts ++ [part]) = (c :: t :: parts) ++ [part] := rfl
      rw [hassoc, hcons, Segments.intercalate_concat (by simp), Segments.intercalate_concat (by simp), ih]
  have hcoordinates := hsame [numeral z, numeral x, numeral y]
  simpa [tilePath] using hcoordinates

/-- A channel directory is a path, and the tileset behind it is one name. -/
theorem satellite_parts {c t c' t' : String} (h : ∀ name ∈ (satellite c t).names, '/' ∉ name)
    (h' : ∀ name ∈ (satellite c' t').names, '/' ∉ name)
    (hpath : (satellite c t).redisPath z x y = (satellite c' t').redisPath z' x' y') :
    satellite c t = satellite c' t' ∧ z = z' ∧ x = x' ∧ y = y' := by
  rw [redisPath, redisPath, tilePath_names, tilePath_names] at hpath
  obtain ⟨hnames, hcoordinates⟩ := tilePath_inj h h' hpath
  obtain ⟨hchannel, htileset⟩ := List.append_inj' hnames rfl
  have hdir := congrArg (List.intercalate ['/']) hchannel
  rw [List.intercalate_splitOn, List.intercalate_splitOn] at hdir
  obtain rfl := String.toList_injective hdir
  obtain rfl := String.toList_injective (List.singleton_inj.mp htileset)
  exact ⟨rfl, hcoordinates⟩

/-- The names of the key of a radar tile have no slash. -/
theorem slash_notMem_radar {r v t e : String}
    (h : ∀ name ∈ [r.toList, v.toList, t.toList, e.toList], '/' ∉ name) :
    ∀ name ∈ [r.toList, v.toList, t.toList ++ '_' :: e.toList], '/' ∉ name := by
  simp only [List.mem_cons, List.not_mem_nil, or_false, forall_eq_or_imp, forall_eq] at h ⊢
  obtain ⟨hr, hv, ht, he⟩ := h
  refine ⟨hr, hv, ?_⟩
  simp [ht, he]

theorem product_of_id : ∀ p ∈ gfsProducts, ∀ q ∈ gfsProducts, p.productId = q.productId → p = q := by
  decide

theorem slash_notMem_productId : ∀ p ∈ gfsProducts, '/' ∉ p.productId.toList := by decide

theorem sharesKey_of_redisKey (hu : u.WellNamed) (hu' : u'.WellNamed)
    (h : u.redisKey z x y = u'.redisKey z' x' y') :
    u.SharesKey u' ∧ z = z' ∧ x = x' ∧ y = y' := by
  obtain ⟨hfamily, hpath⟩ := redisKey_parts h
  have hslash : ∀ name ∈ u.names, '/' ∉ name := fun name hname => (hu.1 name hname).2
  have hslash' : ∀ name ∈ u'.names, '/' ∉ name := fun name hname => (hu'.1 name hname).2
  cases u with
  | satellite c t =>
    cases u' with
    | satellite c' t' =>
      obtain ⟨hnames, hcoordinates⟩ := satellite_parts hslash hslash' hpath
      exact ⟨.inl hnames, hcoordinates⟩
    | _ => cases hfamily
  | radar network r v t e =>
    cases u' with
    | radar network' r' v' t' e' =>
      cases hfamily
      obtain ⟨hnames, hcoordinates⟩ :=
        tilePath_inj (slash_notMem_radar hslash) (slash_notMem_radar hslash') hpath
      simp only [List.cons.injEq, String.toList_inj, and_true] at hnames
      obtain ⟨rfl, rfl, hjoined⟩ := hnames
      exact ⟨.inr ⟨network, r, v, t, e, t', e', rfl, rfl, hjoined⟩, hcoordinates⟩
    | _ => cases hfamily
  | wrf p i f =>
    cases u' with
    | wrf p' i' f' =>
      obtain ⟨hnames, hcoordinates⟩ := path_inj [p, i, f] [p', i', f'] hslash hslash' hpath
      cases hnames
      exact ⟨.inl rfl, hcoordinates⟩
    | _ => cases hfamily
  | ecmwfTp f p =>
    cases u' with
    | ecmwfTp f' p' =>
      obtain ⟨hnames, hcoordinates⟩ := path_inj [f, p] [f', p'] hslash hslash' hpath
      cases hnames
      exact ⟨.inl rfl, hcoordinates⟩
    | _ => cases hfamily
  | gfs p c f =>
    cases u' with
    | gfs p' c' f' =>
      have hp : p ∈ gfsProducts := hu.2
      have hp' : p' ∈ gfsProducts := hu'.2
      obtain ⟨hnames, hcoordinates⟩ := path_inj [p.productId, c, f] [p'.productId, c', f']
        (List.forall_mem_cons.mpr ⟨slash_notMem_productId p hp, hslash⟩)
        (List.forall_mem_cons.mpr ⟨slash_notMem_productId p' hp', hslash'⟩) hpath
      simp only [List.cons.injEq, and_true] at hnames
      obtain ⟨hid, rfl, rfl⟩ := hnames
      obtain rfl := product_of_id p hp p' hp' hid
      exact ⟨.inl rfl, hcoordinates⟩
    | _ => cases hfamily
  | basemap p =>
    cases u' with
    | basemap p' =>
      obtain ⟨rfl, hcoordinates⟩ := basemap_parts hpath
      exact ⟨.inl rfl, hcoordinates⟩
    | _ => cases hfamily

theorem WellNamed.radar {network : RadarNetwork} {r v t e : String}
    (hr : r.toList ≠ [] ∧ '/' ∉ r.toList) (hv : v.toList ≠ [] ∧ '/' ∉ v.toList)
    (ht : t.toList ≠ [] ∧ '/' ∉ t.toList)
    (he : '/' ∉ e.toList) (helev : "elev".toList <+: e.toList) :
    (TileUnit.radar network r v t e).WellNamed := by
  refine ⟨?_, helev⟩
  have hne : e.toList ≠ [] := by
    intro hempty
    rw [hempty] at helev
    exact absurd helev (by decide)
  simp only [names, List.mem_cons, List.not_mem_nil, or_false, forall_eq_or_imp, forall_eq]
  exact ⟨hr, hv, ht, hne, he⟩

end TileUnit

section Split

variable {t e t' e' : List Char}

/-- If a tileset and an elevation of another split are not the same, the marker of an elevation
stands in one of the two. -/
theorem marker_of_split (hne : t' ≠ []) (he' : "elev".toList <+: e') (he : "elev".toList <+: e)
    (h : t ++ '_' :: e = t' ++ '_' :: e') :
    t = t' ∧ e = e' ∨ "_elev".toList <:+: t.drop 1 ∨ "_elev".toList <:+: e := by
  rcases List.append_eq_append_iff.mp h with ⟨l, rfl, hl⟩ | ⟨l, rfl, hl⟩
  · cases l with
    | nil => exact .inl ⟨by simp, by simpa using hl⟩
    | cons c l =>
      obtain ⟨rest, rfl⟩ := he'
      obtain ⟨rfl, rfl⟩ := List.cons_eq_cons.mp hl
      exact .inr (.inr ⟨l, rest, by simp⟩)
  · cases l with
    | nil => exact .inl ⟨by simp, by simpa using hl.symm⟩
    | cons c l =>
      obtain ⟨rfl, hover⟩ := List.cons_eq_cons.mp hl
      -- the other elevation reaches over the underscore of this one
      obtain ⟨m, rfl⟩ : "elev".toList <+: l := by
        obtain ⟨rest, hrest⟩ := he'
        rcases List.append_eq_append_iff.mp (hrest.trans hover) with ⟨m, hm, -⟩ | ⟨m, hm, hm'⟩
        · exact ⟨m, hm.symm⟩
        · cases m with
          | nil => exact ⟨[], by simpa using hm⟩
          | cons d m =>
            obtain ⟨rfl, -⟩ := List.cons_eq_cons.mp hm'
            exact absurd (hm ▸ List.mem_append_right _ List.mem_cons_self)
              (by decide : '_' ∉ "elev".toList)
      obtain ⟨d, t', rfl⟩ := List.exists_cons_of_ne_nil hne
      exact .inr (.inl ⟨t', m, by simp⟩)

theorem split_of_marker_tileset (h : "_elev".toList <:+: t.drop 1) : ∃ front back,
    t = front ++ '_' :: ("elev".toList ++ back) ∧ front ≠ [] := by
  obtain ⟨front, back, hfront⟩ := h
  cases t with
  | nil => simp at hfront
  | cons c t =>
    refine ⟨c :: front, back, ?_, by simp⟩
    rw [List.drop_one, List.tail_cons] at hfront
    simp [← hfront]

theorem split_of_marker_elevation (he : "elev".toList <+: e) (h : "_elev".toList <:+: e) :
    ∃ front back, e = "elev".toList ++ (front ++ '_' :: ("elev".toList ++ back)) := by
  obtain ⟨rest, rfl⟩ := he
  obtain ⟨front, back, hfront⟩ := h
  have hsplit : front ++ '_' :: ("elev".toList ++ back) = "elev".toList ++ rest := by
    simpa using hfront
  rcases List.append_eq_append_iff.mp hsplit with ⟨m, hm, hm'⟩ | ⟨m, hm, hm'⟩
  · cases m with
    | nil => exact ⟨[], back, by rw [List.nil_append, hm', List.nil_append]⟩
    | cons d m =>
      obtain ⟨rfl, -⟩ := List.cons_eq_cons.mp hm'
      exact absurd (hm ▸ List.mem_append_right _ List.mem_cons_self)
        (by decide : '_' ∉ "elev".toList)
  · exact ⟨m, back, by rw [hm']⟩

end Split

section Radar

open TileUnit

variable {network : RadarNetwork} {r v t e t' e' : String} {z x y : Int}

theorem TileUnit.WellNamed.radar_parts (h : (TileUnit.radar network r v t e).WellNamed) :
    (r.toList ≠ [] ∧ '/' ∉ r.toList) ∧ (v.toList ≠ [] ∧ '/' ∉ v.toList) ∧
      (t.toList ≠ [] ∧ '/' ∉ t.toList) ∧
      '/' ∉ e.toList ∧ "elev".toList <+: e.toList := by
  obtain ⟨hnames, helev⟩ := h
  simp only [names, List.mem_cons, List.not_mem_nil, or_false, forall_eq_or_imp, forall_eq] at hnames
  exact ⟨hnames.1, hnames.2.1, hnames.2.2.1, hnames.2.2.2.2, helev⟩

theorem radar_s3Key_inj (hu : (TileUnit.radar network r v t e).WellNamed)
    (hu' : (TileUnit.radar network r v t' e').WellNamed)
    (h : (TileUnit.radar network r v t e).s3Key z x y =
      (TileUnit.radar network r v t' e').s3Key z x y) : t = t' := by
  obtain ⟨hr, hv, ht, he, -⟩ := hu.radar_parts
  obtain ⟨-, -, ht', he', -⟩ := hu'.radar_parts
  have hnetwork : '/' ∉ network.name.toList := by cases network <;> decide
  have hslash : ∀ t e : String, '/' ∉ t.toList → '/' ∉ e.toList → ∀ name ∈ ["tiles".toList,
      "radar".toList, network.name.toList, r.toList, v.toList, e.toList, t.toList], '/' ∉ name := by
    intro t e ht he
    simp only [List.mem_cons, List.not_mem_nil, or_false, forall_eq_or_imp, forall_eq]
    exact ⟨by decide, by decide, hnetwork, hr.2, hv.2, he, ht⟩
  obtain ⟨hnames, -⟩ := tilePath_inj (hslash t e ht.2 he) (hslash t' e' ht'.2 he')
    (List.append_cancel_right h)
  simp only [List.cons.injEq, String.toList_inj, and_true, true_and] at hnames
  exact hnames.2

theorem exists_alias (hu : (TileUnit.radar network r v t e).WellNamed)
    (h : ¬ (TileUnit.radar network r v t e).Unambiguous) : ∃ t' e' : String,
      (TileUnit.radar network r v t' e').WellNamed ∧
      t'.toList ++ '_' :: e'.toList = t.toList ++ '_' :: e.toList ∧ t' ≠ t := by
  obtain ⟨hr, hv, ht, he, helev⟩ := hu.radar_parts
  have hmarker : "_elev".toList <:+: t.toList.drop 1 ∨ "_elev".toList <:+: e.toList := by
    by_contra hnone
    exact h (not_or.mp hnone)
  rcases hmarker with hmarker | hmarker
  · obtain ⟨front, back, hfront, hne⟩ := split_of_marker_tileset hmarker
    have hslash : '/' ∉ front ∧ '/' ∉ back := by
      constructor
      · exact fun hc => ht.2 (by simp [hfront, hc])
      · exact fun hc => ht.2 (by simp [hfront, hc])
    refine ⟨String.ofList front, String.ofList ("elev".toList ++ back ++ '_' :: e.toList),
      WellNamed.radar hr hv ⟨?_, ?_⟩ ?_ ?_, ?_, ?_⟩
    · simpa using hne
    · simpa using hslash.1
    · simp [hslash.2, he]
    · simp
    · simp [hfront]
    · intro hsame
      have hlength := congrArg List.length hfront
      rw [← hsame, String.toList_ofList] at hlength
      simp at hlength
  · obtain ⟨front, back, hfront⟩ := split_of_marker_elevation helev hmarker
    have hslash : '/' ∉ front ∧ '/' ∉ back := by
      constructor
      · exact fun hc => he (by simp [hfront, hc])
      · exact fun hc => he (by simp [hfront, hc])
    refine ⟨String.ofList (t.toList ++ '_' :: ("elev".toList ++ front)),
      String.ofList ("elev".toList ++ back), WellNamed.radar hr hv ⟨?_, ?_⟩ ?_ ?_, ?_, ?_⟩
    · simp
    · simp [ht.2, hslash.1]
    · simp [hslash.2]
    · simp
    · simp [hfront]
    · intro hsame
      have hlength := congrArg (fun s : String => s.toList.length) hsame
      simp at hlength

end Radar

/-- The tile that a key in Redis names is one object in S3 exactly if the key can be taken apart:
in a radar tile the marker of an elevation must stand nowhere else. -/
theorem redis_key_names_one_object (a : TileAddress) :
    (∀ b : TileAddress, b.redisKey = a.redisKey → b.s3Key = a.s3Key) ↔ a.unit.Unambiguous := by
  obtain ⟨u, hu, z, x, y⟩ := a
  constructor
  · intro h
    by_contra hambiguous
    cases u with
    | radar network r v t e =>
      obtain ⟨t', e', hu', hjoined, hne⟩ := exists_alias hu hambiguous
      have hredis : (TileUnit.radar network r v t' e').redisKey z x y =
          (TileUnit.radar network r v t e).redisKey z x y :=
        congrArg (fun joined => "tile:".toList ++ radarNs network.name ++ ':' ::
          tilePath [r.toList, v.toList, joined] z x y) hjoined
      exact hne (radar_s3Key_inj hu' hu (h ⟨_, hu', z, x, y⟩ hredis))
    | _ => exact hambiguous trivial
  · rintro hclear ⟨u', hu', z', x', y'⟩ hsame
    obtain ⟨hshare, rfl, rfl, rfl⟩ := TileUnit.sharesKey_of_redisKey hu' hu hsame
    rcases hshare with rfl | ⟨network, r, v, t', e', t, e, rfl, rfl, hjoined⟩
    · rfl
    · obtain ⟨-, -, ht', -, helev'⟩ := hu'.radar_parts
      obtain ⟨-, -, -, -, helev⟩ := hu.radar_parts
      rcases marker_of_split ht'.1 helev' helev hjoined.symm with ⟨ht, he⟩ | hmarker | hmarker
      · obtain rfl := String.toList_injective ht
        obtain rfl := String.toList_injective he
        rfl
      · exact absurd hmarker hclear.1
      · exact absurd hmarker hclear.2

/-- Two elevations of a radar whose tiles are kept under one key. -/
theorem redis_key_names_two_objects : ∃ a b : TileAddress,
    a.redisKey = b.redisKey ∧ a.s3Key ≠ b.s3Key := by
  have ha : (TileUnit.radar .sinarame "RMA1" "dbzh" "t0" "elev1_elev0").WellNamed :=
    TileUnit.WellNamed.radar (by decide) (by decide) (by decide) (by decide) (by decide)
  have hb : (TileUnit.radar .sinarame "RMA1" "dbzh" "t0_elev1" "elev0").WellNamed :=
    TileUnit.WellNamed.radar (by decide) (by decide) (by decide) (by decide) (by decide)
  have hredis : radarTileKey 3 2 1 "sinarame" "RMA1" "dbzh" "t0" "elev1_elev0" =
      radarTileKey 3 2 1 "sinarame" "RMA1" "dbzh" "t0_elev1" "elev0" := by decide
  have hs3 : buildRadarTileKey 3 2 1 "sinarame" "RMA1" "dbzh" "t0" "elev1_elev0" ≠
      buildRadarTileKey 3 2 1 "sinarame" "RMA1" "dbzh" "t0_elev1" "elev0" := by decide
  exact ⟨⟨_, ha, 3, 2, 1⟩, ⟨_, hb, 3, 2, 1⟩, hredis, hs3⟩

end DataService.Sync
