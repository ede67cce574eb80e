import DataService.Lib.ExpiringStore
import DataService.Lib.StepSystem
import DataService.Sync.TileAliasing
import DataService.Sync.TileNames

/-! The tiles of the products between S3, Redis and the readers. A read looks in Redis and then in
S3, and leaves what it found there to a task that stores it; the sync service stores the objects it
has listed. Any of these tasks may end late or not at all, and Redis may drop a key at any time. -/

namespace DataService.Sync

open ExpiringStore (Store)
open FloatText NumberText

abbrev TileData := List UInt8

structure TileConfig where
  /-- the `FullSync` strategies; else the on-demand ones -/
  fullSync : Bool
  s3Configured : Bool
  readTtl : Nat
  syncTtl : Option Nat

/-- The await at which `get_tile` stands. `again` when the fallback will look in Redis once more. -/
inductive ReadStage where
  | redis (again : Bool)
  | s3
  | answered (data : Option TileData)
  | raised
  deriving DecidableEq

structure TileRead where
  address : TileAddress
  stage : ReadStage

/-- A `SET` of a task that has not ended. -/
structure PendingStore where
  key : List Char
  data : TileData
  ttl : Option Nat

structure TileSite where
  now : Nat
  bucket : AList fun _ : S3Key => TileData
  redis : Store (List Char) TileData
  reads : List TileRead
  stores : List PendingStore
  /-- every object that has ever stood in the bucket -/
  uploads : List (S3Key × TileData)

/-- The base map has a reader of its own. -/
def TileUnit.isBasemap : TileUnit → Bool
  | .basemap _ => true
  | _ => false

def TileUnit.isGfs : TileUnit → Bool
  | .gfs .. => true
  | _ => false

/-- The prefix of a directory. -/
def dirPrefix (names : List (List Char)) : S3Key := List.intercalate ['/'] (names ++ [[]])

/-- Where the sync service lists the tiles of a unit. Those of GFS and of the base map are not
stored ahead of the reads. -/
def TileUnit.syncPrefix : TileUnit → Option S3Key
  | .satellite channelDir tilesetId =>
    some (dirPrefix ["tiles".toList, channelDir.toList, tilesetId.toList])
  | .radar network radarId variableId tilesetId elevationId =>
    some (dirPrefix ["tiles".toList, "radar".toList, network.name.toList, radarId.toList,
      variableId.toList, elevationId.toList, tilesetId.toList])
  | .wrf productId initTag fxxx =>
    some (dirPrefix ["tiles".toList, "wrf-arg4k".toList, productId.toList, initTag.toList,
      fxxx.toList])
  | .ecmwfTp forecastTs periodTs =>
    some (dirPrefix ["tiles".toList, "ecmwf-ifs".toList, "total-precipitation".toList,
      forecastTs.toList, periodTs.toList])
  | .gfs .. | .basemap _ => none

/-- The sync service takes the object for a tile of the unit. -/
def TileUnit.lists (u : TileUnit) (key : S3Key) : Bool :=
  u.syncPrefix.any (·.isPrefixOf key) && ".webp".toList.isSuffixOf key

inductive TileAction where
  | wait (seconds : Nat)
  | upload (key : S3Key) (data : TileData)
  | remove (key : S3Key)
  /-- Redis evicts the key, or a tileset is deleted -/
  | drop (key : List Char)
  | request (address : TileAddress)
  | redisGet (read : Nat) (ok : Bool)
  | s3Get (read : Nat) (reachable : Bool)
  /-- a listed object is read for `_download_tile_to_redis` -/
  | syncTile (unit : TileUnit) (wellNamed : unit.WellNamed) (key : S3Key)
  | store (task : Nat) (ok : Bool)

namespace TileSite

variable (R : FloatReader) (reader : NumberReader) (cfg : TileConfig)

/-- `GfsFullSyncStrategy` goes to the on-demand path at once. -/
def firstStage (unit : TileUnit) : ReadStage :=
  .redis (cfg.fullSync && cfg.s3Configured && !unit.isGfs)

/-- The strategies of the satellite and the radars do not hand on an empty body. -/
def afterS3 (unit : TileUnit) (data : Option TileData) : Option TileData :=
  match unit with
  | .satellite .. | .radar .. => data.filter (· ≠ [])
  | _ => data

def setStage (s : TileSite) (i : Nat) (r : TileRead) (stage : ReadStage) : TileSite :=
  { s with reads := s.reads.set i { r with stage } }

/-- The stage that the look in Redis leads to. -/
def redisStage (s : TileSite) (r : TileRead) (again : Bool) : ReadStage :=
  match (s.redis.get s.now r.address.redisKey).filter (· ≠ []) with
  | some data => .answered (some data)
  | none => if again then .redis false else if cfg.s3Configured then .s3 else .answered none

def onRedisGet (s : TileSite) (i : Nat) (r : TileRead) (again : Bool) : TileSite :=
  s.setStage i r (redisStage cfg s r again)

def onS3Get (s : TileSite) (i : Nat) (r : TileRead) (object : Option TileData) : TileSite :=
  let t := s.setStage i r (.answered (afterS3 r.address.unit object))
  match object.filter (· ≠ []) with
  | some data => { t with stores := t.stores ++ [⟨r.address.redisKey, data, some cfg.readTtl⟩] }
  | none => t

/-- A time to live of zero is an error of the command. -/
def onStore (s : TileSite) (p : PendingStore) : TileSite :=
  match p.ttl with
  | some 0 => s
  | ttl => { s with redis := s.redis.put p.key p.data (ttl.map (s.now + ·)) }

def step (s : TileSite) : TileAction → Option TileSite
  | .wait seconds => some { s with now := s.now + seconds }
  | .upload key data =>
    some { s with bucket := s.bucket.insert key data, uploads := (key, data) :: s.uploads }
  | .remove key => some { s with bucket := s.bucket.erase key }
  | .drop key => some { s with redis := s.redis.del key }
  | .request address =>
    if address.unit.isBasemap then none
    else some { s with reads := s.reads ++ [⟨address, firstStage cfg address.unit⟩] }
  | .redisGet i ok =>
    match s.reads[i]? with
    | some r =>
      match r.stage with
      | .redis again => some (if ok then s.onRedisGet cfg i r again else s.setStage i r .raised)
      | _ => none
    | none => none
  | .s3Get i reachable =>
    match s.reads[i]? with
    | some r =>
      if r.stage = .s3 then
        some (s.onS3Get cfg i r (if reachable then s.bucket.lookup r.address.s3Key else none))
      else none
    | none => none
  | .syncTile unit _ key =>
    match readTileKey R reader key, s.bucket.lookup key with
    | some (z, x, y), some data =>
      if unit.lists key then
        some { s with stores := s.stores ++ [⟨unit.redisKey z x y, data, cfg.syncTtl⟩] }
      else none
    | _, _ => none
  | .store i ok =>
    match s.stores[i]? with
    | some p =>
      let t := { s with stores := s.stores.eraseIdx i }
      some (if ok then t.onStore p else t)
    | none => none

/-- Before the first request: objects in the bucket, nothing in Redis. -/
def cold (objects : AList fun _ : S3Key => TileData) : TileSite where
  now := 0
  bucket := objects
  redis := ∅
  reads := []
  stores := []
  uploads := objects.entries.map fun e => (e.1, e.2)

end TileSite

/-- The objects that may be kept under a key in Redis: those of the tiles that have this key,
and those that are listed for a unit and read as such a tile. -/
inductive Denotes (R : FloatReader) (reader : NumberReader) (redisKey : List Char) :
    S3Key → Prop where
  | tile (b : TileAddress) (hkey : b.redisKey = redisKey) : Denotes R reader redisKey b.s3Key
  | listed (unit : TileUnit) (wellNamed : unit.WellNamed) (key : S3Key) (z x y : Int)
      (hlists : unit.lists key = true) (hread : readTileKey R reader key = some (z, x, y))
      (hkey : unit.redisKey z x y = redisKey) :
    Denotes R reader redisKey key

/-- What is uploaded has one of the names. -/
def TileAction.Uploads (names : Set S3Key) : TileAction → Prop
  | .upload key _ => key ∈ names
  | _ => True

namespace TileSite

variable {R : FloatReader} {reader : NumberReader} {cfg : TileConfig} {s t : TileSite}
  {key : List Char} {data : TileData} {r : TileRead} {stage : ReadStage} {i : Nat}
  {p : PendingStore} {a : TileAction}

/-- The bytes have stood in an object that may be kept under this key in Redis. -/
def Genuine (R : FloatReader) (reader : NumberReader) (s : TileSite) (key : List Char)
    (data : TileData) : Prop :=
  ∃ object, Denotes R reader key object ∧ (object, data) ∈ s.uploads

structure Coherent (R : FloatReader) (reader : NumberReader) (s : TileSite) : Prop where
  bucket : ∀ key data, s.bucket.lookup key = some data → (key, data) ∈ s.uploads
  redis : ∀ key slot, s.redis.lookup key = some slot → s.Genuine R reader key slot.value
  stores : ∀ p ∈ s.stores, s.Genuine R reader p.key p.data
  reads : ∀ r ∈ s.reads, ∀ data, r.stage = .answered (some data) →
    s.Genuine R reader r.address.redisKey data

theorem coherent_cold (objects : AList fun _ : S3Key => TileData) : (cold objects).Coherent R reader := by
  constructor
  · intro key data h
    exact List.mem_map.mpr ⟨⟨key, data⟩, AList.mem_lookup_iff.mp h, rfl⟩
  · intro key slot h
    simp [cold] at h
  · simp [cold]
  · simp [cold]

theorem Coherent.setStage (h : s.Coherent R reader)
    (hstage : ∀ data, stage = .answered (some data) → s.Genuine R reader r.address.redisKey data) :
    (s.setStage i r stage).Coherent R reader := by
  refine ⟨h.bucket, h.redis, h.stores, ?_⟩
  intro q hq data hdata
  rcases List.mem_or_eq_of_mem_set hq with hold | rfl
  · exact h.reads q hold data hdata
  · exact hstage data hdata

theorem Coherent.onStore (h : s.Coherent R reader) (hp : s.Genuine R reader p.key p.data) :
    (s.onStore p).Coherent R reader := by
  have hput : ∀ deadline, ({ s with redis := s.redis.put p.key p.data deadline }).Coherent R reader := by
    intro deadline
    refine ⟨h.bucket, fun key slot hslot => ?_, h.stores, h.reads⟩
    by_cases hkey : key = p.key
    · subst hkey
      have hnew : slot = ⟨p.data, deadline⟩ := by
        simpa [Store.put, eq_comm] using hslot
      rw [hnew]
      exact hp
    · exact h.redis key slot (by simpa [Store.put, AList.lookup_insert_ne hkey] using hslot)
  unfold TileSite.onStore
  split
  · exact h
  · exact hput _

theorem Coherent.addStore (h : s.Coherent R reader) (hp : s.Genuine R reader p.key p.data) :
    ({ s with stores := s.stores ++ [p] }).Coherent R reader := by
  refine ⟨h.bucket, h.redis, fun q hq => ?_, h.reads⟩
  rcases List.mem_append.mp hq with hold | hnew
  · exact h.stores q hold
  · obtain rfl := List.mem_singleton.mp hnew
    exact hp

theorem Coherent.onRedisGet (h : s.Coherent R reader) (again : Bool) :
    (s.onRedisGet cfg i r again).Coherent R reader := by
  refine h.setStage fun data hdata => ?_
  unfold redisStage at hdata
  split at hdata
  · rename_i found hget
    obtain rfl : found = data := by simpa using hdata
    obtain ⟨hfound, -⟩ := Option.filter_eq_some_iff.mp hget
    obtain ⟨slot, hslot, rfl⟩ := Option.map_eq_some_iff.mp hfound
    exact h.redis _ slot (Option.filter_eq_some_iff.mp hslot).1
  · split_ifs at hdata
    cases hdata

theorem afterS3_le {unit : TileUnit} {object : Option TileData}
    (h : afterS3 unit object = some data) : object = some data := by
  unfold afterS3 at h
  split at h
  · exact (Option.filter_eq_some_iff.mp h).1
  · exact (Option.filter_eq_some_iff.mp h).1
  · exact h

theorem Coherent.onS3Get (h : s.Coherent R reader) {object : Option TileData}
    (hobject : ∀ data, object = some data → (r.address.s3Key, data) ∈ s.uploads) :
    (s.onS3Get cfg i r object).Coherent R reader := by
  have hstage : (s.setStage i r (.answered (afterS3 r.address.unit object))).Coherent R reader := by
    refine h.setStage fun data hdata => ?_
    exact ⟨_, .tile r.address rfl, hobject data (afterS3_le (ReadStage.answered.inj hdata))⟩
  unfold TileSite.onS3Get
  split
  · rename_i data hdata
    exact hstage.addStore ⟨_, .tile r.address rfl, hobject data (Option.filter_eq_some_iff.mp hdata).1⟩
  · exact hstage

theorem Genuine.mono (h : s.Genuine R reader key data) (hsub : s.uploads ⊆ t.uploads) :
    t.Genuine R reader key data := by
  obtain ⟨a, hkey, hmem⟩ := h
  exact ⟨a, hkey, hsub hmem⟩

theorem step_request {address : TileAddress}
    (hs : step R reader cfg s (.request address) = some t) :
    t = { s with reads := s.reads ++ [⟨address, firstStage cfg address.unit⟩] } := by
  simp only [step] at hs
  split_ifs at hs
  exact (Option.some.inj hs).symm

theorem step_redisGet {ok : Bool} (hs : step R reader cfg s (.redisGet i ok) = some t) :
    ∃ r again, s.reads[i]? = some r ∧ r.stage = .redis again ∧
      t = if ok then s.onRedisGet cfg i r again else s.setStage i r .raised := by
  simp only [step] at hs
  split at hs
  · rename_i r hr
    split at hs
    · rename_i again hstage
      exact ⟨r, again, hr, hstage, (Option.some.inj hs).symm⟩
    · cases hs
  · cases hs

theorem step_s3Get {reachable : Bool} (hs : step R reader cfg s (.s3Get i reachable) = some t) :
    ∃ r, s.reads[i]? = some r ∧ r.stage = .s3 ∧
      t = s.onS3Get cfg i r (if reachable then s.bucket.lookup r.address.s3Key else none) := by
  simp only [step] at hs
  split at hs
  · rename_i r hr
    obtain ⟨hstage, hsome⟩ := Option.ite_none_right_eq_some.mp hs
    exact ⟨r, hr, hstage, (Option.some.inj hsome).symm⟩
  · cases hs

theorem step_syncTile {unit : TileUnit} {hnamed : unit.WellNamed} {key : S3Key}
    (hs : step R reader cfg s (.syncTile unit hnamed key) = some t) : ∃ z x y data,
      readTileKey R reader key = some (z, x, y) ∧ s.bucket.lookup key = some data ∧
        unit.lists key = true ∧
          t = { s with stores := s.stores ++ [⟨unit.redisKey z x y, data, cfg.syncTtl⟩] } := by
  simp only [step] at hs
  split at hs
  · rename_i z x y data hread hlookup
    split_ifs at hs with hlists
    exact ⟨z, x, y, data, hread, hlookup, hlists, (Option.some.inj hs).symm⟩
  · cases hs

theorem step_store {ok : Bool} (hs : step R reader cfg s (.store i ok) = some t) :
    ∃ p, s.stores[i]? = some p ∧ t =
      if ok then ({ s with stores := s.stores.eraseIdx i } : TileSite).onStore p
      else { s with stores := s.stores.eraseIdx i } := by
  simp only [step] at hs
  split at hs
  · rename_i p hp
    exact ⟨p, hp, (Option.some.inj hs).symm⟩
  · cases hs

theorem coherent_step (h : s.Coherent R reader) (hs : step R reader cfg s a = some t) :
    t.Coherent R reader := by
  cases a with
  | wait seconds =>
    cases hs
    exact ⟨h.bucket, h.redis, h.stores, h.reads⟩
  | upload key data =>
    cases hs
    have hsub : s.uploads ⊆ (key, data) :: s.uploads := List.subset_cons_self _ _
    refine ⟨fun k d hd => ?_, fun k slot hslot => (h.redis k slot hslot).mono hsub,
      fun p hp => (h.stores p hp).mono hsub, fun r hr d hd => (h.reads r hr d hd).mono hsub⟩
    by_cases hk : k = key
    · subst hk
      obtain rfl : data = d := by simpa using hd
      exact List.mem_cons_self
    · exact hsub (h.bucket k d (by simpa [AList.lookup_insert_ne hk] using hd))
  | remove key =>
    cases hs
    refine ⟨fun k d hd => ?_, h.redis, h.stores, h.reads⟩
    by_cases hk : k = key
    · subst hk
      simp at hd
    · exact h.bucket k d (by simpa [AList.lookup_erase_ne hk] using hd)
  | drop key =>
    cases hs
    refine ⟨h.bucket, fun k slot hslot => ?_, h.stores, h.reads⟩
    by_cases hk : k = key
    · subst hk
      simp [Store.del] at hslot
    · exact h.redis k slot (by simpa [Store.del, AList.lookup_erase_ne hk] using hslot)
  | request address =>
    obtain rfl := step_request hs
    refine ⟨h.bucket, h.redis, h.stores, fun r hr data hdata => ?_⟩
    rcases List.mem_append.mp hr with hold | hnew
    · exact h.reads r hold data hdata
    · obtain rfl := List.mem_singleton.mp hnew
      cases hdata
  | redisGet i ok =>
    obtain ⟨r, again, -, -, rfl⟩ := step_redisGet hs
    split
    · exact h.onRedisGet _
    · exact h.setStage fun data hdata => by cases hdata
  | s3Get i reachable =>
    obtain ⟨r, -, -, rfl⟩ := step_s3Get hs
    split
    · exact h.onS3Get fun data hdata => h.bucket _ data hdata
    · exact h.onS3Get fun data hdata => by cases hdata
  | syncTile unit hnamed key =>
    obtain ⟨z, x, y, data, hread, hlookup, hlists, rfl⟩ := step_syncTile hs
    exact h.addStore ⟨key, .listed unit hnamed key z x y hlists hread rfl, h.bucket _ data hlookup⟩
  | store i ok =>
    obtain ⟨p, hp, rfl⟩ := step_store hs
    have hrest : ({ s with stores := s.stores.eraseIdx i }).Coherent R reader :=
      ⟨h.bucket, h.redis, fun q hq => h.stores q (List.mem_of_mem_eraseIdx hq), h.reads⟩
    split
    · exact hrest.onStore (h.stores p (List.mem_of_getElem? hp))
    · exact hrest

theorem coherent_run {as : List TileAction} (h : s.Coherent R reader)
    (hrun : StepSystem.run (step R reader cfg) s as = some t) : t.Coherent R reader :=
  StepSystem.run_invariant (fun _ _ _ hs hstep => coherent_step hs hstep) h hrun

theorem redisStage_miss (again : Bool) (h : s.redis.get s.now r.address.redisKey = none) :
    redisStage cfg s r again =
      if again then .redis false else if cfg.s3Configured then .s3 else .answered none := by
  simp [redisStage, h]

theorem redisStage_hit (again : Bool) (h : s.redis.get s.now r.address.redisKey = some data)
    (hne : data ≠ []) : redisStage cfg s r again = .answered (some data) := by
  simp [redisStage, h, Option.filter, hne]

theorem afterS3_found (unit : TileUnit) (hne : data ≠ []) :
    afterS3 unit (some data) = some data := by
  unfold afterS3
  split <;> simp [Option.filter, hne]

theorem onS3Get_found (hne : data ≠ []) : s.onS3Get cfg i r (some data) =
    { s.setStage i r (.answered (some data)) with
      stores := s.stores ++ [⟨r.address.redisKey, data, some cfg.readTtl⟩] } := by
  simp [TileSite.onS3Get, afterS3_found _ hne, TileSite.setStage, Option.filter, hne]

theorem onStore_expiring (httl : 0 < cfg.readTtl) : s.onStore ⟨key, data, some cfg.readTtl⟩ =
    { s with redis := s.redis.put key data (some (s.now + cfg.readTtl)) } := by
  obtain ⟨n, hn⟩ := Nat.exists_eq_succ_of_ne_zero (Nat.pos_iff_ne_zero.mp httl)
  simp [TileSite.onStore, hn]

/-- The run of a read that finds an object in the bucket and leaves it in Redis. -/
def fetching (b : TileAddress) (again : Bool) : List TileAction :=
  .upload b.s3Key [0] :: .request b :: .redisGet 0 true ::
    ((if again then [.redisGet 0 true] else []) ++ [.s3Get 0 true, .store 0 true])

/-- The site after it. -/
def fetched (cfg : TileConfig) (b : TileAddress) : TileSite where
  now := 0
  bucket := (∅ : AList fun _ : S3Key => TileData).insert b.s3Key [0]
  redis := (∅ : Store (List Char) TileData).put b.redisKey [0] (some (0 + cfg.readTtl))
  reads := [⟨b, .answered (some [0])⟩]
  stores := []
  uploads := [(b.s3Key, [0])]

theorem run_fetching (R : FloatReader) (reader : NumberReader) (b : TileAddress)
    (hs3 : cfg.s3Configured = true) (httl : 0 < cfg.readTtl) (hb : b.unit.isBasemap = false) :
    ∃ again,
      StepSystem.run (step R reader cfg) (cold ∅) (fetching b again) = some (fetched cfg b) := by
  have hmiss : (∅ : Store (List Char) TileData).get 0 b.redisKey = none := by simp [Store.get]
  cases hagain : cfg.fullSync && !b.unit.isGfs with
  | true =>
    refine ⟨true, ?_⟩
    simp [fetching, fetched, StepSystem.run, step, hb, cold, firstStage, hs3, hagain, hmiss,
      redisStage_miss, TileSite.onRedisGet, TileSite.setStage, onS3Get_found, onStore_expiring httl,
      -AList.insert_empty]
  | false =>
    refine ⟨false, ?_⟩
    simp [fetching, fetched, StepSystem.run, step, hb, cold, firstStage, hs3, hagain, hmiss,
      redisStage_miss, TileSite.onRedisGet, TileSite.setStage, onS3Get_found, onStore_expiring httl,
      -AList.insert_empty]

/-- A tile that is read from the slot of another one. -/
theorem read_kept (R : FloatReader) (reader : NumberReader) {b : TileAddress}
    (hget : s.redis.get s.now b.redisKey = some data) (hne : data ≠ [])
    (hb : b.unit.isBasemap = false) : ∃ t,
      StepSystem.run (step R reader cfg) s [.request b, .redisGet s.reads.length true] = some t ∧
      (⟨b, .answered (some data)⟩ : TileRead) ∈ t.reads ∧ t.uploads = s.uploads := by
  have hread : (s.reads ++ [⟨b, firstStage cfg b.unit⟩])[s.reads.length]? =
      some ⟨b, firstStage cfg b.unit⟩ := by simp
  refine ⟨{ s with reads := s.reads ++ [⟨b, .answered (some data)⟩] }, ?_, by simp, rfl⟩
  simp only [StepSystem.run, step, hb, Bool.false_eq_true, if_false, Option.bind_some]
  rw [hread]
  simp only [firstStage, if_true]
  rw [TileSite.onRedisGet, redisStage_hit _ hget hne]
  simp [TileSite.setStage]

/-- The site at which an object was listed and stored as a tile. -/
theorem run_listing {unit : TileUnit} (hnamed : unit.WellNamed) {object : S3Key} {z x y : Int}
    (hsync : cfg.syncTtl ≠ some 0) (hlists : unit.lists object = true)
    (hread : readTileKey R reader object = some (z, x, y)) : ∃ t,
      StepSystem.run (step R reader cfg) (cold ∅)
        [.upload object [0], .syncTile unit hnamed object, .store 0 true] = some t ∧
      t.redis.get t.now (unit.redisKey z x y) = some [0] ∧ t.reads = [] ∧
      t.uploads = [(object, [0])] := by
  have hlookup : ((∅ : AList fun _ : S3Key => TileData).insert object [0]).lookup object = some [0] :=
    AList.lookup_insert _
  have hrun : StepSystem.run (step R reader cfg) (cold ∅)
      [.upload object [0], .syncTile unit hnamed object, .store 0 true] =
      some (onStore { (cold ∅) with
        bucket := (∅ : AList fun _ : S3Key => TileData).insert object [0]
        uploads := [(object, [0])] } ⟨unit.redisKey z x y, [0], cfg.syncTtl⟩) := by
    simp [StepSystem.run, step, cold, hread, hlists, -AList.insert_empty]
  refine ⟨_, hrun, ?_, ?_, ?_⟩
  · cases httl : cfg.syncTtl with
    | none => simp [TileSite.onStore, cold, Store.get_put_self]
    | some n =>
      have hpos : n ≠ 0 := fun hzero => hsync (httl.trans (congrArg some hzero))
      obtain ⟨m, rfl⟩ := Nat.exists_eq_succ_of_ne_zero hpos
      simp [TileSite.onStore, cold, Store.get_put_self]
  · unfold TileSite.onStore
    split <;> rfl
  · unfold TileSite.onStore
    split <;> rfl

theorem objects_onS3Get (object : Option TileData) :
    (s.onS3Get cfg i r object).bucket = s.bucket ∧
      (s.onS3Get cfg i r object).uploads = s.uploads := by
  unfold TileSite.onS3Get
  split <;> exact ⟨rfl, rfl⟩

theorem objects_onStore :
    (s.onStore p).bucket = s.bucket ∧ (s.onStore p).uploads = s.uploads := by
  unfold TileSite.onStore
  split <;> exact ⟨rfl, rfl⟩

/-- Only an upload or a deletion changes the bucket. -/
theorem step_objects (hs : step R reader cfg s a = some t) :
    t.bucket = s.bucket ∧ t.uploads = s.uploads ∨
    (∃ key d, a = .upload key d ∧ t.bucket = s.bucket.insert key d ∧
      t.uploads = (key, d) :: s.uploads) ∨
    ∃ key, a = .remove key ∧ t.bucket = s.bucket.erase key ∧ t.uploads = s.uploads := by
  cases a with
  | wait seconds | drop key =>
    cases hs
    exact .inl ⟨rfl, rfl⟩
  | upload key d =>
    cases hs
    exact .inr (.inl ⟨key, d, rfl, rfl, rfl⟩)
  | remove key =>
    cases hs
    exact .inr (.inr ⟨key, rfl, rfl, rfl⟩)
  | request address' =>
    obtain rfl := step_request hs
    exact .inl ⟨rfl, rfl⟩
  | redisGet j ok =>
    obtain ⟨r, again, -, -, rfl⟩ := step_redisGet hs
    cases ok <;> simp [TileSite.onRedisGet, TileSite.setStage]
  | s3Get j reachable =>
    obtain ⟨r, -, -, rfl⟩ := step_s3Get hs
    exact .inl (objects_onS3Get _)
  | syncTile unit hnamed key =>
    obtain ⟨z, x, y, data, -, -, -, rfl⟩ := step_syncTile hs
    exact .inl ⟨rfl, rfl⟩
  | store j ok =>
    obtain ⟨p, -, rfl⟩ := step_store hs
    cases ok
    · exact .inl ⟨rfl, rfl⟩
    · exact .inl objects_onStore

/-- Nothing else is ever uploaded. -/
theorem uploads_run {names : Set S3Key} {as : List TileAction}
    (h : ∀ object ∈ s.uploads, object.1 ∈ names) (has : ∀ act ∈ as, TileAction.Uploads names act)
    (hrun : StepSystem.run (step R reader cfg) s as = some t) :
    ∀ object ∈ t.uploads, object.1 ∈ names := by
  refine StepSystem.run_invariant_along (P := fun u : TileSite => ∀ object ∈ u.uploads, object.1 ∈ names)
    (fun u act v hu hact hstep => ?_) h
    ((StepSystem.along_true s as).restrict has) hrun
  rcases step_objects hstep with ⟨-, huploads⟩ | ⟨key, d, rfl, -, huploads⟩ | ⟨key, rfl, -, huploads⟩
  · rwa [huploads]
  · rw [huploads]
    exact List.forall_mem_cons.mpr ⟨hact.1, hu⟩
  · rwa [huploads]

/-- A tile that some run serves for an address out of any object that may be kept under its key. -/
theorem served_of_denotes (R : FloatReader) (reader : NumberReader) (cfg : TileConfig)
    (hs3 : cfg.s3Configured = true) (httl : 0 < cfg.readTtl) (hsync : cfg.syncTtl ≠ some 0)
    {a : TileAddress} (ha : a.unit.isBasemap = false) {object : S3Key}
    (hdenotes : Denotes R reader a.redisKey object) : ∃ as t,
      (∀ act ∈ as, TileAction.Uploads {object} act) ∧
      StepSystem.run (step R reader cfg) (cold ∅) as = some t ∧
      (⟨a, .answered (some [0])⟩ : TileRead) ∈ t.reads ∧ t.uploads = [(object, [0])] := by
  cases hdenotes with
  | tile b hkey =>
    have hb : b.unit.isBasemap = false := by
      have hfamily := (TileUnit.redisKey_parts hkey).1
      cases hunit : b.unit <;> cases hunit' : a.unit <;> simp_all [TileUnit.family, TileUnit.isBasemap]
    obtain ⟨again, hfetch⟩ := run_fetching R reader b hs3 httl hb
    have hget : (fetched cfg b).redis.get (fetched cfg b).now a.redisKey = some [0] := by
      rw [← hkey, fetched, Store.get_put_self]
      simp [httl]
    obtain ⟨t, hread, hmem, huploads⟩ := read_kept R reader hget (by simp) ha
    refine ⟨_, t, ?_, (StepSystem.run_append hfetch _).trans hread, hmem, huploads⟩
    cases again <;> simp [fetching, TileAction.Uploads]
  | listed unit hnamed object z x y hlists hparsed hkey =>
    obtain ⟨u, hrun, hget, hreads, huploads⟩ := run_listing hnamed hsync hlists hparsed
    rw [hkey] at hget
    obtain ⟨t, hread, hmem, ht⟩ := read_kept R reader hget (by simp) ha
    refine ⟨_, t, ?_, (StepSystem.run_append hrun _).trans hread, hmem, ht.trans huploads⟩
    simp [TileAction.Uploads]

theorem satellite_wellNamed : (TileUnit.satellite "goes19/abi/c13" "t0").WellNamed :=
  ⟨by decide, trivial⟩

def satelliteTile : TileAddress :=
  ⟨.satellite "goes19/abi/c13" "t0", satellite_wellNamed, 3, 1, 2⟩

def minuteCache : TileConfig := ⟨true, true, 60, none⟩

end TileSite

end DataService.Sync
