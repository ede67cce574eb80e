import Mathlib.Data.List.Infix
import DataService.Lib.DecimalText
import DataService.Lib.Latest
import DataService.Lib.UtcDateTime

/-! The keys of the weather-station snapshots, and the three functions that group them into
hour buckets: the listing, the warm-up and the fetch. `list` answers a prefix LIST; `D` says
which characters Python takes for decimal digits. -/

namespace DataService

namespace HourBuckets

open DecimalText UtcDateTime Latest

abbrev S3Key := List Char

def snapshotsPrefix : S3Key := "weather-stations/snapshots/".toList

def snapshotMetaSuffix : List Char := ".meta.json".toList

/-- `%Y`, which the C library does not pad. -/
def yearText (t : DateTime) : List Char :=
  if t.year < 1000 then Nat.toDigits 10 t.year else pad 4 t.year

/-- `%Y%m%dT%H` -/
def hourText (t : DateTime) : List Char :=
  yearText t ++ pad 2 t.month ++ pad 2 t.day ++ 'T' :: pad 2 t.hour

/-- `weather-stations/snapshots/YYYY/MM/DD/` -/
def dayPrefix (t : DateTime) : S3Key :=
  snapshotsPrefix ++ yearText t ++ '/' :: pad 2 t.month ++ '/' :: pad 2 t.day ++ ['/']

/-- `weather-stations/snapshots/YYYY/MM/DD/HH/YYYYMMDDTHHMMSSZ.json` -/
def snapshotKey (t : DateTime) : S3Key :=
  dayPrefix t ++ pad 2 t.hour ++ '/' :: hourText t ++ pad 2 t.minute ++ pad 2 t.second ++
    "Z.json".toList

def snapshotMetaKey (key : S3Key) : S3Key := key.take (key.length - 5) ++ snapshotMetaSuffix

/-- `$` also matches before a newline at the end. -/
def chomp (cs : List Char) : List Char := if cs.getLast? = some '\n' then cs.dropLast else cs

/-- `(\d{4})(\d{2})(\d{2})T(\d{2})(\d{2})`, with what follows. -/
def readMinutes (D : DigitTable) (cs : List Char) :
    Option ((Nat × Nat × Nat × Nat × Nat) × List Char) :=
  (readDigits D 4 0 cs).bind fun y => (readDigits D 2 0 y.2).bind fun mo =>
    (readDigits D 2 0 mo.2).bind fun d => (readChar 'T' d.2).bind fun cs =>
      (readDigits D 2 0 cs).bind fun h => (readDigits D 2 0 h.2).map fun mi =>
        ((y.1, mo.1, d.1, h.1, mi.1), mi.2)

/-- The end of a snapshot key: a slash, the instant and the extension. -/
def readSnapshotName (D : DigitTable) (cs : List Char) : Option DateTime :=
  (readChar '/' cs).bind fun cs => (readMinutes D cs).bind fun m =>
    (readDigits D 2 0 m.2).bind fun s =>
      if s.2 = "Z.json".toList then
        DateTime.ofFields m.1.1 m.1.2.1 m.1.2.2.1 m.1.2.2.2.1 m.1.2.2.2.2 s.1
      else none

/-- `parse_snapshot_key`; what stands before the last 22 characters is matched by `.*`. -/
def parseSnapshotKey (D : DigitTable) (key : S3Key) : Option DateTime :=
  if (chomp key).length < 22 ∨ '\n' ∈ (chomp key).take ((chomp key).length - 22) then none
  else readSnapshotName D ((chomp key).drop ((chomp key).length - 22))

/-- `parse_tileset_id`, none for a TilesetIdFormatError. -/
def parseTilesetId (D : DigitTable) (tilesetId : List Char) : Option DateTime :=
  (readMinutes D (chomp tilesetId)).bind fun m =>
    if m.2 = ['Z'] then
      DateTime.ofFields m.1.1 m.1.2.1 m.1.2.2.1 m.1.2.2.2.1 m.1.2.2.2.2 0
    else none

/-- `tileset_id_for` -/
def tilesetIdFor (t : DateTime) : List Char := hourText t ++ "00Z".toList

/-- The prefixes of a day and the days up to the last one; none for an OverflowError. -/
def dayPrefixesFrom (day endDay : DateTime) : Option (List S3Key) :=
  if _ : day ≤ endDay then
    match _ : day.addDay with
    | none => none
    | some next => (dayPrefixesFrom next endDay).map (dayPrefix day :: ·)
  else some []
termination_by endDay.stamp + 1 - day.stamp
decreasing_by
  have hlt := DateTime.lt_def.mp (DateTime.lt_addDay ‹day.addDay = some next›)
  have hle := DateTime.le_def.mp ‹day ≤ endDay›
  omega

/-- `day_prefixes_covering` -/
def dayPrefixesCovering (start last : DateTime) : Option (List S3Key) :=
  if last < start then dayPrefixesFrom last.floorDay start.floorDay
  else dayPrefixesFrom start.floorDay last.floorDay

/-- The bucket and the time of a key, if it is the key of a snapshot. -/
def bucketOf (D : DigitTable) (key : S3Key) : Option (List Char × DateTime) :=
  if snapshotMetaSuffix <:+ key then none
  else (parseSnapshotKey D key).map fun ts => (tilesetIdFor ts, ts)

/-- `_latest_snapshot_per_bucket` -/
def latestSnapshotPerBucket (D : DigitTable) (list : S3Key → List S3Key) :
    List (List Char × DateTime × S3Key) :=
  groupLatest (bucketOf D) (list snapshotsPrefix)

/-- `isoformat`, with a Z for the offset -/
def isoText (t : DateTime) : List Char :=
  pad 4 t.year ++ '-' :: pad 2 t.month ++ '-' :: pad 2 t.day ++ 'T' :: pad 2 t.hour ++
    ':' :: pad 2 t.minute ++ ':' :: pad 2 t.second ++ ['Z']

structure TilesetEntry where
  tilesetId : List Char
  scrapedAt : List Char
  stationCount : Int

/-- `compute_tilesets_entries`; `stationCount` is what the meta object of a snapshot says. -/
def computeTilesetsEntries (D : DigitTable) (stationCount : S3Key → Int)
    (list : S3Key → List S3Key) : List TilesetEntry :=
  ((latestSnapshotPerBucket D list).mergeSort fun a b => decide (a.2.1 ≤ b.2.1)).map fun item =>
    ⟨item.1, isoText item.2.1, stationCount item.2.2⟩

/-- `recent_snapshot_keys` -/
def recentSnapshotKeys (D : DigitTable) (list : S3Key → List S3Key) (window : Int) : List S3Key :=
  if window ≤ 0 then []
  else
    ((((latestSnapshotPerBucket D list).map Prod.snd).mergeSort
      fun a b => decide (b.1 ≤ a.1)).take window.toNat).map Prod.snd

/-- `_list_snapshot_keys_for_window` -/
def listSnapshotKeysForWindow (list : S3Key → List S3Key) (windowStart target : DateTime) :
    Option (List S3Key) :=
  (dayPrefixesCovering windowStart target).map fun prefixes => prefixes.flatMap list

/-- The time of a key, if it is the key of a snapshot of these instants. -/
def timeWithin (D : DigitTable) (start stop : DateTime) (key : S3Key) : Option DateTime :=
  if snapshotMetaSuffix <:+ key then none
  else (parseSnapshotKey D key).filter fun ts => decide (start ≤ ts) && decide (ts < stop)

/-- `_resolve_bucket_snapshot_key`; the outer option is none for an OverflowError. -/
def resolveBucketSnapshotKey (D : DigitTable) (list : S3Key → List S3Key) (target : DateTime) :
    Option (Option S3Key) :=
  target.addHour.bind fun bucketEnd =>
    (listSnapshotKeysForWindow list target target).map fun keys =>
      (latest (timeWithin D target bucketEnd) keys).map Prod.snd

end HourBuckets

end DataService
