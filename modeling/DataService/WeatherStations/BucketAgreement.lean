import DataService.WeatherStations.HourBuckets

/-! The listing, the warm-up and the fetch choose the same snapshot of every hour. All three
read its instant back from the key, and keep the latest. -/

namespace DataService

namespace HourBuckets

open DecimalText UtcDateTime Latest

variable {D : DigitTable} {t u : DateTime}

section Text

theorem yearText_eq (h : 1000 ≤ t.year) : yearText t = pad 4 t.year := if_neg (by omega)

theorem readMinutes_hourText (h : 1000 ≤ t.year) {minute : Nat} (hm : minute < 100)
    (rest : List Char) : readMinutes D (hourText t ++ pad 2 minute ++ rest) =
      some ((t.year, t.month, t.day, t.hour, minute), rest) := by
  have hy : t.year < 10 ^ 4 := by
    have hle := t.valid.year_le
    omega
  have hmo : t.month < 10 ^ 2 := by
    have hle := t.valid.month_le
    omega
  have hd : t.day < 10 ^ 2 := by
    have hle := t.valid.day_le.trans (DateTime.daysInMonth_le t.year t.month)
    omega
  have hh : t.hour < 10 ^ 2 := by
    have hlt := t.valid.hour_lt
    omega
  simp only [hourText, yearText_eq h, List.append_assoc, List.cons_append, readMinutes,
    read_pad D hy, read_pad D hmo, read_pad D hd, read_pad D hh,
    read_pad D (show minute < 10 ^ 2 from hm), Option.bind_some, readChar_cons, Option.map_some]

theorem length_hourText (h : 1000 ≤ t.year) : (hourText t).length = 11 := by
  simp [hourText, yearText_eq h]

theorem pad_ne_newline {w n : Nat} {c : Char} (h : c ∈ pad w n) : c ≠ '\n' := by
  induction w with
  | zero => cases h
  | succ w ih =>
    rcases List.mem_cons.mp h with rfl | h
    · have hlt : n / 10 ^ w % 10 < 10 := Nat.mod_lt _ (by omega)
      intro he
      have hnat := Nat.toNat_digitChar_of_lt_ten hlt
      rw [he] at hnat
      simp at hnat
      omega
    · exact ih h

theorem hourText_ne_newline (h : 1000 ≤ t.year) {c : Char} (hc : c ∈ hourText t) : c ≠ '\n' := by
  simp only [hourText, yearText_eq h, List.mem_append, List.mem_cons] at hc
  rcases hc with ((hc | hc) | hc) | rfl | hc
  · exact pad_ne_newline hc
  · exact pad_ne_newline hc
  · exact pad_ne_newline hc
  · decide
  · exact pad_ne_newline hc

theorem chomp_eq {cs : List Char} (h : ∀ c ∈ cs, c ≠ '\n') : chomp cs = cs :=
  if_neg fun hlast => h '\n' (List.mem_of_getLast? hlast) rfl

/-- What the pattern of snapshot keys sees of a key: all up to the hour, and the rest. -/
def snapshotName (t : DateTime) : List Char :=
  '/' :: hourText t ++ pad 2 t.minute ++ pad 2 t.second ++ "Z.json".toList

theorem snapshotKey_eq (t : DateTime) :
    snapshotKey t = (dayPrefix t ++ pad 2 t.hour) ++ snapshotName t := by
  simp [snapshotKey, snapshotName, List.append_assoc]

theorem length_snapshotName (h : 1000 ≤ t.year) : (snapshotName t).length = 22 := by
  simp [snapshotName, length_hourText h]

theorem dayPrefix_ne_newline (h : 1000 ≤ t.year) {c : Char} (hc : c ∈ dayPrefix t) : c ≠ '\n' := by
  have hstart : '\n' ∉ snapshotsPrefix := by decide
  simp only [dayPrefix, yearText_eq h, List.mem_append, List.mem_cons] at hc
  rcases hc with (((hc | hc) | (rfl | hc)) | (rfl | hc)) | (rfl | hc)
  · exact ne_of_mem_of_not_mem hc hstart
  · exact pad_ne_newline hc
  · decide
  · exact pad_ne_newline hc
  · decide
  · exact pad_ne_newline hc
  · decide
  · cases hc

theorem snapshotKey_ne_newline (h : 1000 ≤ t.year) : ∀ c ∈ snapshotKey t, c ≠ '\n' := by
  intro c hc
  have hend : '\n' ∉ "Z.json".toList := by decide
  rw [snapshotKey_eq, snapshotName] at hc
  simp only [List.mem_append, List.mem_cons] at hc
  rcases hc with (hc | hc) | ((((rfl | hc) | hc) | hc) | hc)
  · exact dayPrefix_ne_newline h hc
  · exact pad_ne_newline hc
  · decide
  · exact hourText_ne_newline h hc
  · exact pad_ne_newline hc
  · exact pad_ne_newline hc
  · exact ne_of_mem_of_not_mem hc hend

theorem readSnapshotName_snapshotName (h : 1000 ≤ t.year) :
    readSnapshotName D (snapshotName t) = some t := by
  have hmi : t.minute < 100 := by
    have hlt := t.valid.minute_lt
    omega
  have hs : t.second < 10 ^ 2 := by
    have hlt := t.valid.second_lt
    omega
  have hread := readMinutes_hourText (D := D) h hmi (pad 2 t.second ++ "Z.json".toList)
  have hname : snapshotName t =
      '/' :: (hourText t ++ pad 2 t.minute ++ (pad 2 t.second ++ "Z.json".toList)) := by
    simp [snapshotName, List.append_assoc]
  rw [readSnapshotName, hname, readChar_cons, Option.bind_some, hread, Option.bind_some,
    read_pad D hs, Option.bind_some]
  exact (if_pos rfl).trans (DateTime.ofFields_self t)

theorem parseSnapshotKey_snapshotKey (h : 1000 ≤ t.year) :
    parseSnapshotKey D (snapshotKey t) = some t := by
  have hlen := length_snapshotName h
  have hsplit : (snapshotKey t).length = (dayPrefix t ++ pad 2 t.hour).length + 22 := by
    rw [snapshotKey_eq, ← hlen]
    exact List.length_append
  have hpre : (snapshotKey t).length - 22 = (dayPrefix t ++ pad 2 t.hour).length := by
    rw [hsplit, Nat.add_sub_cancel]
  have htake : (snapshotKey t).take (dayPrefix t ++ pad 2 t.hour).length =
      dayPrefix t ++ pad 2 t.hour := by
    rw [snapshotKey_eq, List.take_left]
  have hdrop : (snapshotKey t).drop (dayPrefix t ++ pad 2 t.hour).length = snapshotName t := by
    rw [snapshotKey_eq, List.drop_left]
  rw [parseSnapshotKey, chomp_eq (snapshotKey_ne_newline h), hpre, htake, hdrop, if_neg]
  · exact readSnapshotName_snapshotName h
  · rintro (hshort | hmem)
    · omega
    · rcases List.mem_append.mp hmem with hmem | hmem
      · exact dayPrefix_ne_newline h hmem rfl
      · exact pad_ne_newline hmem rfl

theorem not_meta_snapshotKey (t : DateTime) : ¬ snapshotMetaSuffix <:+ snapshotKey t := by
  intro hmeta
  have hjson : "Z.json".toList <:+ snapshotKey t := List.suffix_append _ _
  have hboth := List.suffix_of_suffix_length_le hjson hmeta (by decide)
  exact absurd hboth (by decide)

/-- An id is the start of its hour. -/
theorem parseTilesetId_tilesetIdFor (h : 1000 ≤ t.year) :
    parseTilesetId D (tilesetIdFor t) = some t.floorHour := by
  have htext : tilesetIdFor t = hourText t ++ pad 2 0 ++ ['Z'] := by
    simp [tilesetIdFor, pad, List.append_assoc]
  have hchomp : chomp (tilesetIdFor t) = tilesetIdFor t := by
    apply chomp_eq
    intro c hc
    have hend : '\n' ∉ "00Z".toList := by decide
    rcases List.mem_append.mp hc with hc | hc
    · exact hourText_ne_newline h hc
    · exact ne_of_mem_of_not_mem hc hend
  rw [parseTilesetId, hchomp, htext, readMinutes_hourText h (by omega), Option.bind_some,
    if_pos rfl]
  exact DateTime.ofFields_self t.floorHour

theorem tilesetIdFor_eq_iff (ht : 1000 ≤ t.year) (hu : 1000 ≤ u.year) :
    tilesetIdFor t = tilesetIdFor u ↔ t.floorHour = u.floorHour := by
  constructor
  · intro h
    have hparse := parseTilesetId_tilesetIdFor (D := .asciiOnly) ht
    rw [h, parseTilesetId_tilesetIdFor hu] at hparse
    exact (Option.some.inj hparse).symm
  · intro h
    have hfloor : ∀ x : DateTime, tilesetIdFor x.floorHour = tilesetIdFor x := fun x => rfl
    rw [← hfloor t, h, hfloor]

end Text

/-- The bucket holds snapshots of these years and meta objects, and a LIST answers with
exactly the keys under its prefix. -/
structure SnapshotListing (objects : List S3Key) (list : S3Key → List S3Key) : Prop where
  snapshots : ∀ k ∈ objects, ∃ t : DateTime, 1000 ≤ t.year ∧ t.year ≤ 9998 ∧
    (k = snapshotKey t ∨ k = snapshotMetaKey (snapshotKey t))
  exact : ∀ p k, k ∈ list p ↔ k ∈ objects ∧ p <+: k

section Buckets

variable {objects : List S3Key} {list : S3Key → List S3Key} {k : S3Key} {b : List Char}

theorem bucketOf_snapshotKey (h : 1000 ≤ t.year) :
    bucketOf D (snapshotKey t) = some (tilesetIdFor t, t) := by
  rw [bucketOf, if_neg (not_meta_snapshotKey t), parseSnapshotKey_snapshotKey h, Option.map_some]

theorem timeWithin_snapshotKey (h : 1000 ≤ t.year) {start stop : DateTime} :
    timeWithin D start stop (snapshotKey t) = some t ↔ start ≤ t ∧ t < stop := by
  rw [timeWithin, if_neg (not_meta_snapshotKey t), parseSnapshotKey_snapshotKey h]
  simp

theorem SnapshotListing.cases (h : SnapshotListing objects list) (hk : k ∈ objects) :
    snapshotMetaSuffix <:+ k ∨ ∃ t : DateTime, 1000 ≤ t.year ∧ t.year ≤ 9998 ∧ k = snapshotKey t := by
  obtain ⟨t, hlo, hhi, rfl | rfl⟩ := h.snapshots k hk
  · exact .inr ⟨t, hlo, hhi, rfl⟩
  · exact .inl (List.suffix_append _ _)

/-- A key that has a bucket is the key of the snapshot of its instant. -/
theorem SnapshotListing.of_bucketOf (h : SnapshotListing objects list) (hk : k ∈ objects)
    (hb : bucketOf D k = some (b, t)) :
    k = snapshotKey t ∧ b = tilesetIdFor t ∧ 1000 ≤ t.year ∧ t.year ≤ 9998 := by
  rcases h.cases hk with hmeta | ⟨u, hlo, hhi, rfl⟩
  · simp [bucketOf, hmeta] at hb
  · rw [bucketOf_snapshotKey hlo, Option.some.injEq, Prod.mk.injEq] at hb
    obtain ⟨rfl, rfl⟩ := hb
    exact ⟨rfl, rfl, hlo, hhi⟩

theorem snapshotsPrefix_prefix (t : DateTime) : snapshotsPrefix <+: snapshotKey t := by
  simp only [snapshotKey, dayPrefix, List.append_assoc]
  exact List.prefix_append _ _

theorem dayPrefix_prefix (t : DateTime) : dayPrefix t <+: snapshotKey t := by
  simp only [snapshotKey, List.append_assoc]
  exact List.prefix_append _ _

theorem dayPrefixesCovering_of_addDay {next : DateTime} (hnext : t.floorDay.addDay = some next) :
    dayPrefixesCovering t t = some [dayPrefix t] := by
  have hstop : dayPrefixesFrom next t.floorDay = some [] := by
    rw [dayPrefixesFrom, dif_neg (not_le.mpr (DateTime.lt_addDay hnext))]
  have hday : dayPrefix t.floorDay = dayPrefix t := rfl
  rw [dayPrefixesCovering, if_neg (lt_irrefl t), dayPrefixesFrom, dif_pos le_rfl]
  split
  · next hnone => simp [hnext] at hnone
  · next u hu =>
    obtain rfl : next = u := Option.some.inj (hnext.symm.trans hu)
    rw [hstop, Option.map_some, hday]

theorem dayPrefixesCovering_self (h : t.year ≤ 9998) :
    dayPrefixesCovering t t = some [dayPrefix t] := by
  obtain ⟨next, hnext⟩ := DateTime.exists_addDay (t := t.floorDay) h
  exact dayPrefixesCovering_of_addDay hnext

/-- The fetch of a full hour finds what the listing has for that hour. -/
theorem resolve_eq_lookup (h : SnapshotListing objects list) (hlo : 1000 ≤ t.year)
    (hhi : t.year ≤ 9998) (hm : t.minute = 0) (hs : t.second = 0) :
    resolveBucketSnapshotKey D list t =
      some ((latest (timeIn (bucketOf D) (tilesetIdFor t)) (list snapshotsPrefix)).map Prod.snd) := by
  obtain ⟨bucketEnd, hend⟩ := DateTime.exists_addHour hhi
  have hfloor : t.floorHour = t := (DateTime.floorHour_eq_iff hm hs).mpr ⟨rfl, rfl, rfl, rfl⟩
  have hkeys : listSnapshotKeysForWindow list t t = some (list (dayPrefix t)) := by
    simp [listSnapshotKeysForWindow, dayPrefixesCovering_self hhi]
  have hsame : ∀ k u,
      (k ∈ list (dayPrefix t) ∧ timeWithin D t bucketEnd k = some u) ↔
      (k ∈ list snapshotsPrefix ∧ timeIn (bucketOf D) (tilesetIdFor t) k = some u) := by
    intro k u
    rw [h.exact, h.exact]
    constructor
    · rintro ⟨⟨hk, -⟩, htime⟩
      rcases h.cases hk with hmeta | ⟨v, hv, -, rfl⟩
      · simp [timeWithin, hmeta] at htime
      · have huv : u = v := by
          rw [timeWithin, if_neg (not_meta_snapshotKey v), parseSnapshotKey_snapshotKey hv] at htime
          exact (Option.some.inj (Option.filter_eq_some_iff.mp htime).1).symm
        subst huv
        have hin := (DateTime.in_hour_iff hm hs hend).mp ((timeWithin_snapshotKey hv).mp htime)
        have hid : tilesetIdFor u = tilesetIdFor t :=
          (tilesetIdFor_eq_iff hv hlo).mpr (hin.trans hfloor.symm)
        refine ⟨⟨hk, snapshotsPrefix_prefix u⟩, ?_⟩
        rw [timeIn, bucketOf_snapshotKey hv, Option.bind_some, if_pos hid]
    · rintro ⟨⟨hk, -⟩, htime⟩
      obtain ⟨⟨c, v⟩, hbucket, hc⟩ := Option.bind_eq_some_iff.mp htime
      split_ifs at hc with hcid
      obtain rfl : v = u := Option.some.inj hc
      obtain ⟨rfl, hid, hv, -⟩ := h.of_bucketOf hk hbucket
      have hin : v.floorHour = t :=
        ((tilesetIdFor_eq_iff hv hlo).mp (hid.symm.trans hcid)).trans hfloor
      have hday : dayPrefix t = dayPrefix v := by
        rw [← hin]
        rfl
      refine ⟨⟨hk, hday ▸ dayPrefix_prefix v⟩, ?_⟩
      exact (timeWithin_snapshotKey hv).mpr ((DateTime.in_hour_iff hm hs hend).mpr hin)
  have hkey : ∀ k u, k ∈ list (dayPrefix t) → timeWithin D t bucketEnd k = some u →
      k = snapshotKey u := by
    intro k u hk htime
    obtain ⟨hk', htime'⟩ := (hsame k u).mp ⟨hk, htime⟩
    obtain ⟨⟨c, v⟩, hbucket, hc⟩ := Option.bind_eq_some_iff.mp htime'
    split_ifs at hc with hcid
    obtain rfl : v = u := Option.some.inj hc
    exact (h.of_bucketOf ((h.exact _ k).mp hk').1 hbucket).1
  have hlatest : latest (timeWithin D t bucketEnd) (list (dayPrefix t)) =
      latest (timeIn (bucketOf D) (tilesetIdFor t)) (list snapshotsPrefix) := by
    apply latest_congr hsame
    intro k k' u hk hk' hu hu'
    rw [hkey k u hk hu, hkey k' u hk' hu']
  rw [resolveBucketSnapshotKey, hend, Option.bind_some, hkeys, Option.map_some, hlatest]

/-- What a bucket is listed with, from the instant of its snapshot alone. -/
def bucketRow (t : DateTime) : List Char × DateTime × S3Key := (tilesetIdFor t, t, snapshotKey t)

/-- The instants of the snapshots that stand for their buckets. -/
def bucketTimes (D : DigitTable) (list : S3Key → List S3Key) : List DateTime :=
  (latestSnapshotPerBucket D list).map (·.2.1)

theorem mem_latestSnapshotPerBucket (h : SnapshotListing objects list)
    (hrow : (b, t, k) ∈ latestSnapshotPerBucket D list) :
    (b, t, k) = bucketRow t ∧ 1000 ≤ t.year ∧ t.year ≤ 9998 := by
  obtain ⟨hk, htime, -⟩ := latest_eq_some (mem_groupLatest.mp hrow)
  obtain ⟨⟨c, u⟩, hbucket, hc⟩ := Option.bind_eq_some_iff.mp htime
  split_ifs at hc with hcb
  obtain rfl : u = t := Option.some.inj hc
  obtain ⟨hkey, hid, hlo, hhi⟩ := h.of_bucketOf ((h.exact _ k).mp hk).1 hbucket
  refine ⟨?_, hlo, hhi⟩
  rw [bucketRow, ← hid, ← hkey, ← hcb]

theorem latestSnapshotPerBucket_eq (h : SnapshotListing objects list) :
    latestSnapshotPerBucket D list = (bucketTimes D list).map bucketRow := by
  rw [bucketTimes, List.map_map]
  refine (List.map_id _).symm.trans (List.map_congr_left fun row hrow => ?_)
  obtain ⟨b, t, k⟩ := row
  exact (mem_latestSnapshotPerBucket h hrow).1

theorem nodup_bucketIds (h : SnapshotListing objects list) :
    ((bucketTimes D list).map tilesetIdFor).Nodup := by
  have hnd : ((latestSnapshotPerBucket D list).map Prod.fst).Nodup := nodup_groupLatest
  rw [latestSnapshotPerBucket_eq h, List.map_map] at hnd
  exact hnd

/-- A bucket stands in the listing with its latest snapshot. -/
theorem mem_bucketTimes (h : SnapshotListing objects list) : t ∈ bucketTimes D list ↔
    latest (timeIn (bucketOf D) (tilesetIdFor t)) (list snapshotsPrefix) =
      some (t, snapshotKey t) := by
  constructor
  · intro ht
    obtain ⟨⟨b, u, k⟩, hrow, rfl⟩ := List.mem_map.mp ht
    obtain ⟨he, -, -⟩ := mem_latestSnapshotPerBucket h hrow
    rw [he] at hrow
    exact mem_groupLatest.mp hrow
  · intro hl
    exact List.mem_map.mpr ⟨_, mem_groupLatest.mpr hl, rfl⟩

theorem year_of_mem_bucketTimes (h : SnapshotListing objects list) (ht : t ∈ bucketTimes D list) :
    1000 ≤ t.year ∧ t.year ≤ 9998 := by
  obtain ⟨⟨b, u, k⟩, hrow, rfl⟩ := List.mem_map.mp ht
  exact (mem_latestSnapshotPerBucket h hrow).2

def bucketsInOrder (D : DigitTable) (list : S3Key → List S3Key) : List DateTime :=
  (bucketTimes D list).mergeSort fun a b => decide (a ≤ b)

theorem pairwise_bucketsInOrder (h : SnapshotListing objects list) :
    (bucketsInOrder D list).Pairwise (· < ·) := by
  have hle : (bucketsInOrder D list).Pairwise (fun a b => decide (a ≤ b) = true) := by
    apply List.pairwise_mergeSort
    · intro a b c hab hbc
      simp only [decide_eq_true_eq] at hab hbc ⊢
      exact hab.trans hbc
    · intro a b
      simpa using le_total a b
  have hnd : (bucketsInOrder D list).Nodup :=
    (List.mergeSort_perm _ _).nodup_iff.mpr (nodup_bucketIds h).of_map
  refine (hle.and hnd).imp ?_
  intro a b hab
  exact lt_of_le_of_ne (of_decide_eq_true hab.1) hab.2

theorem entries_eq (h : SnapshotListing objects list) (stationCount : S3Key → Int) :
    computeTilesetsEntries D stationCount list = (bucketsInOrder D list).map fun t =>
      ⟨tilesetIdFor t, isoText t, stationCount (snapshotKey t)⟩ := by
  have hsort : (latestSnapshotPerBucket D list).mergeSort (fun a b => decide (a.2.1 ≤ b.2.1)) =
      (bucketsInOrder D list).map bucketRow := by
    rw [bucketsInOrder, latestSnapshotPerBucket_eq h]
    exact (List.map_mergeSort (r := fun a b => decide (a ≤ b))
      (s := fun a b => decide (a.2.1 ≤ b.2.1)) (f := bucketRow) fun a _ b _ => rfl).symm
  rw [computeTilesetsEntries, hsort, List.map_map]
  rfl

theorem recent_eq (h : SnapshotListing objects list) (window : Int) :
    recentSnapshotKeys D list window =
      ((bucketsInOrder D list).reverse.take window.toNat).map snapshotKey := by
  have hrev : (bucketTimes D list).mergeSort (fun a b => decide (b ≤ a)) =
      (bucketsInOrder D list).reverse := by
    have hperm : ((bucketTimes D list).mergeSort fun a b => decide (b ≤ a)).Perm
        (bucketsInOrder D list).reverse :=
      (List.mergeSort_perm _ _).trans
        ((List.mergeSort_perm _ _).symm.trans (List.reverse_perm _).symm)
    have hanti : ∀ a b : DateTime, a ∈ (bucketTimes D list).mergeSort (fun a b => decide (b ≤ a)) →
        b ∈ (bucketsInOrder D list).reverse → b ≤ a → a ≤ b → a = b :=
      fun a b _ _ hba hab => le_antisymm hab hba
    apply hperm.eq_of_pairwise hanti
    · have hdesc : ((bucketTimes D list).mergeSort fun a b => decide (b ≤ a)).Pairwise
          (fun a b => decide (b ≤ a) = true) := by
        apply List.pairwise_mergeSort
        · intro a b c hab hbc
          simp only [decide_eq_true_eq] at hab hbc ⊢
          exact hbc.trans hab
        · intro a b
          simpa using le_total b a
      exact hdesc.imp fun hab => of_decide_eq_true hab
    · rw [List.pairwise_reverse]
      exact (pairwise_bucketsInOrder h).imp fun hab => le_of_lt hab
  unfold recentSnapshotKeys
  split_ifs with hw
  · rw [Int.toNat_of_nonpos hw, List.take_zero, List.map_nil]
  · have hsort : ((latestSnapshotPerBucket D list).map Prod.snd).mergeSort
        (fun a b => decide (b.1 ≤ a.1)) =
        (bucketsInOrder D list).reverse.map fun t => (t, snapshotKey t) := by
      rw [← hrev, latestSnapshotPerBucket_eq h, List.map_map]
      exact (List.map_mergeSort (r := fun a b => decide (b ≤ a))
        (s := fun a b => decide (b.1 ≤ a.1)) (f := fun t => (t, snapshotKey t))
        fun a _ b _ => rfl).symm
    rw [hsort, ← List.map_take, List.map_map]
    rfl

theorem resolve_listed (h : SnapshotListing objects list) (ht : t ∈ bucketTimes D list) :
    parseTilesetId D (tilesetIdFor t) = some t.floorHour ∧
      resolveBucketSnapshotKey D list t.floorHour = some (some (snapshotKey t)) := by
  obtain ⟨hlo, hhi⟩ := year_of_mem_bucketTimes h ht
  refine ⟨parseTilesetId_tilesetIdFor hlo, ?_⟩
  have hlatest : latest (timeIn (bucketOf D) (tilesetIdFor t.floorHour)) (list snapshotsPrefix) =
      some (t, snapshotKey t) := (mem_bucketTimes h).mp ht
  rw [resolve_eq_lookup h (t := t.floorHour) hlo hhi rfl rfl, hlatest]
  rfl

/-- An id in ASCII, without a newline, is spelled as the listing spells its bucket. -/
theorem tilesetId_of_parse {id : List Char} (hascii : ∀ c ∈ id, c.toNat < 128)
    (hline : '\n' ∉ id) (hparse : parseTilesetId D id = some t) (hlo : 1000 ≤ t.year)
    (hm : t.minute = 0) : id = tilesetIdFor t := by
  have hchomp : chomp id = id := chomp_eq fun c hc he => hline (he ▸ hc)
  rw [parseTilesetId, hchomp] at hparse
  obtain ⟨m, hread, hparse⟩ := Option.bind_eq_some_iff.mp hparse
  split_ifs at hparse with hz
  obtain ⟨hy, hmo, hd, hh, hmi, -⟩ := DateTime.ofFields_eq_some hparse
  obtain ⟨⟨y, cs₁⟩, h₁, hread⟩ := Option.bind_eq_some_iff.mp hread
  obtain ⟨⟨mo, cs₂⟩, h₂, hread⟩ := Option.bind_eq_some_iff.mp hread
  obtain ⟨⟨d, cs₃⟩, h₃, hread⟩ := Option.bind_eq_some_iff.mp hread
  obtain ⟨cs₄, h₄, hread⟩ := Option.bind_eq_some_iff.mp hread
  obtain ⟨⟨hr, cs₅⟩, h₅, hread⟩ := Option.bind_eq_some_iff.mp hread
  obtain ⟨⟨mi, cs₆⟩, h₆, rfl⟩ := Option.map_eq_some_iff.mp hread
  obtain ⟨n₁, -, rfl, e₁⟩ := pad_of_readDigits D hascii h₁
  have hascii₁ : ∀ c ∈ cs₁, c.toNat < 128 := fun c hc => hascii c (by simp [e₁, hc])
  obtain ⟨n₂, -, rfl, e₂⟩ := pad_of_readDigits D hascii₁ h₂
  have hascii₂ : ∀ c ∈ cs₂, c.toNat < 128 := fun c hc => hascii₁ c (by simp [e₂, hc])
  obtain ⟨n₃, -, rfl, e₃⟩ := pad_of_readDigits D hascii₂ h₃
  have hascii₃ : ∀ c ∈ cs₃, c.toNat < 128 := fun c hc => hascii₂ c (by simp [e₃, hc])
  have e₄ : cs₃ = 'T' :: cs₄ := readChar_eq_some h₄
  have hascii₄ : ∀ c ∈ cs₄, c.toNat < 128 := fun c hc => hascii₃ c (by simp [e₄, hc])
  obtain ⟨n₅, -, rfl, e₅⟩ := pad_of_readDigits D hascii₄ h₅
  have hascii₅ : ∀ c ∈ cs₅, c.toNat < 128 := fun c hc => hascii₄ c (by simp [e₅, hc])
  obtain ⟨n₆, -, rfl, e₆⟩ := pad_of_readDigits D hascii₅ h₆
  simp only [Nat.zero_mul, Nat.zero_add] at hy hmo hd hh hmi hz
  have hzero : n₆ = 0 := hmi.symm.trans hm
  have htail : cs₅ = "00Z".toList := by
    rw [e₆, hz, hzero]
    rfl
  rw [e₁, e₂, e₃, e₄, e₅, htail, tilesetIdFor, hourText, yearText_eq hlo, hy, hmo, hd, hh]
  simp [List.append_assoc]

/-- The fetch of a full hour finds a snapshot only if the hour is listed with it. -/
theorem listed_of_resolve (h : SnapshotListing objects list) (hm : t.minute = 0) (hs : t.second = 0)
    (hresolve : resolveBucketSnapshotKey D list t = some (some k)) :
    ∃ u ∈ bucketTimes D list, k = snapshotKey u ∧ u.floorHour = t := by
  obtain ⟨bucketEnd, hend, hfound⟩ := Option.bind_eq_some_iff.mp hresolve
  obtain ⟨keys, hkeys, hbest⟩ := Option.map_eq_some_iff.mp hfound
  obtain ⟨⟨u, k'⟩, hlatest, rfl⟩ := Option.map_eq_some_iff.mp hbest
  obtain ⟨hmem, htime, -⟩ := latest_eq_some hlatest
  have hk : k' ∈ objects := by
    obtain ⟨prefixes, -, rfl⟩ := Option.map_eq_some_iff.mp hkeys
    obtain ⟨p, -, hp⟩ := List.mem_flatMap.mp hmem
    exact ((h.exact p k').mp hp).1
  rcases h.cases hk with hmeta | ⟨v, hlo, hhi, rfl⟩
  · simp [timeWithin, hmeta] at htime
  · have huv : u = v := by
      rw [timeWithin, if_neg (not_meta_snapshotKey v), parseSnapshotKey_snapshotKey hlo] at htime
      exact (Option.some.inj (Option.filter_eq_some_iff.mp htime).1).symm
    subst huv
    have hin := (DateTime.in_hour_iff hm hs hend).mp ((timeWithin_snapshotKey hlo).mp htime)
    have hyear : u.year = t.year := ((DateTime.floorHour_eq_iff hm hs).mp hin).1
    have hid : tilesetIdFor t = tilesetIdFor u := by
      rw [← hin]
      rfl
    rw [resolve_eq_lookup h (by omega) (by omega) hm hs, hid, Option.some.injEq,
      Option.map_eq_some_iff] at hresolve
    obtain ⟨⟨w, k⟩, hfound, hkw⟩ := hresolve
    obtain rfl : k = snapshotKey u := hkw
    obtain ⟨hk, htime, -⟩ := latest_eq_some hfound
    obtain ⟨⟨c, x⟩, hbucket, hc⟩ := Option.bind_eq_some_iff.mp htime
    rw [bucketOf_snapshotKey hlo, Option.some.injEq, Prod.mk.injEq] at hbucket
    obtain ⟨rfl, rfl⟩ := hbucket
    rw [if_pos rfl] at hc
    obtain rfl : u = w := Option.some.inj hc
    exact ⟨u, (mem_bucketTimes h).mpr hfound, rfl, hin⟩

/-- A stored snapshot has its hour listed, with a snapshot that is no older. -/
theorem listed_of_stored (h : SnapshotListing objects list) (hlo : 1000 ≤ t.year)
    (hk : snapshotKey t ∈ objects) : ∃ u ∈ bucketTimes D list, u.floorHour = t.floorHour ∧ t ≤ u := by
  have hlisted : snapshotKey t ∈ list snapshotsPrefix :=
    (h.exact _ _).mpr ⟨hk, snapshotsPrefix_prefix t⟩
  have hin : timeIn (bucketOf D) (tilesetIdFor t) (snapshotKey t) = some t := by
    rw [timeIn, bucketOf_snapshotKey hlo, Option.bind_some, if_pos rfl]
  cases hlatest : latest (timeIn (bucketOf D) (tilesetIdFor t)) (list snapshotsPrefix) with
  | none => exact absurd (hin.symm.trans (latest_eq_none hlatest hlisted)) nofun
  | some row =>
    obtain ⟨u, k⟩ := row
    obtain ⟨hkey, htime, hmax⟩ := latest_eq_some hlatest
    obtain ⟨⟨c, v⟩, hbucket, hc⟩ := Option.bind_eq_some_iff.mp htime
    split_ifs at hc with hcid
    obtain rfl : v = u := Option.some.inj hc
    obtain ⟨rfl, hid, hv, -⟩ := h.of_bucketOf ((h.exact _ k).mp hkey).1 hbucket
    have hsame : tilesetIdFor v = tilesetIdFor t := hid.symm.trans hcid
    refine ⟨v, (mem_bucketTimes h).mpr ?_, (tilesetIdFor_eq_iff hv hlo).mp hsame,
      hmax _ hlisted t hin⟩
    rw [hsame, hlatest]

end Buckets

section Example

/-- The last scrape of a day. -/
def lateScrape : DateTime := ⟨2026, 5, 17, 23, 59, 30, by decide⟩

/-- The first scrape of the next day. -/
def earlyScrape : DateTime := ⟨2026, 5, 18, 0, 9, 30, by decide⟩

def storedKeys : List S3Key :=
  [snapshotKey earlyScrape, snapshotMetaKey (snapshotKey lateScrape), snapshotKey lateScrape,
    snapshotMetaKey (snapshotKey earlyScrape)]

def listStored (p : S3Key) : List S3Key := storedKeys.filter (p.isPrefixOf ·)

theorem snapshotListing_listStored : SnapshotListing storedKeys listStored where
  snapshots := by
    simp only [storedKeys, List.forall_mem_cons, List.not_mem_nil, false_implies, implies_true,
      and_true]
    exact ⟨⟨earlyScrape, by decide, by decide, .inl rfl⟩,
      ⟨lateScrape, by decide, by decide, .inr rfl⟩,
      ⟨lateScrape, by decide, by decide, .inl rfl⟩, ⟨earlyScrape, by decide, by decide, .inr rfl⟩⟩
  exact := fun p k => by simp [listStored]

end Example

end HourBuckets

end DataService
