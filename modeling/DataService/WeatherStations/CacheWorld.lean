import Mathlib.Data.List.AList
import DataService.Lib.RelyGuarantee
import DataService.WeatherStations.HourBuckets
import DataService.WeatherStations.SeriesPivot

/-! The bucket of the weather stations, the caches in front of it, and the commands that
reach them. A command takes effect at one moment and its answer arrives at a later one. -/

namespace DataService.WeatherCache

open Coroutine Coro DecimalText HourBuckets Series UtcDateTime

/-- A snapshot as it is stored. -/
structure Body (ρ : Type) where
  scrapedAt : DateTime
  stations : List (Observation ρ)

inductive S3Object (ρ : Type) where
  | snapshot (body : Body ρ)
  | info (stationCount : Int)

/-- The keys below `cache:ws:`. -/
inductive CacheKey where
  | latest
  | tilesets
  | snapBody (key : S3Key)
  | series (stationId : Int)
  deriving DecidableEq

inductive CacheValue (ρ π : Type) where
  | snapshot (body : Body ρ)
  | entries (l : List TilesetEntry)
  | points (l : List (Point π))

/-- The moment at which S3 was first read for a value, and whether that was a LIST that
failed. Moments are lengths of the log below. No part of the service. -/
structure Origin where
  moment : Nat
  failed : Bool
  deriving DecidableEq, Repr

structure Sourced (α : Type) where
  value : α
  origin : Origin

def Sourced.map {α β : Type} (f : α → β) (a : Sourced α) : Sourced β := ⟨f a.value, a.origin⟩

/-- A value in Redis, with the moment at which it was written. -/
structure Slot (α : Type) extends Sourced α where
  written : Nat

/-- A prefix LIST in the memory of a web process. -/
structure ListEntry where
  expires : Nat
  keys : Sourced (List S3Key)

inductive ListCaller where
  | reader
  | tilesetsWarmUp
  | recentWarmUp
  deriving DecidableEq, Repr

/-- An answer to a latest-snapshot request: when the request came, when its snapshot was read
from S3, and the stamp of the snapshot. -/
structure LatestAnswer where
  arrived : Nat
  read : Nat
  stamp : Nat
  deriving DecidableEq, Repr

inductive Event where
  /-- S3 has taken an object; `stamp` is that of a snapshot -/
  | uploaded (key : S3Key) (stamp : Nat)
  /-- a write-through is completed, of what was made of S3 as it was at a moment -/
  | wroteThrough (key : CacheKey) (moment : Nat)
  | returned (answer : LatestAnswer)
  deriving DecidableEq

/-- What the service does not know: what has happened so far, and who issued the LISTs that
failed. -/
structure History where
  log : List Event
  failedLists : List ListCaller

def History.moment (history : History) : Nat := history.log.length

def History.note (history : History) (e : Event) : History :=
  { history with log := history.log ++ [e] }

/-- List caches and their locks belong to web processes, which have numbers. -/
structure World (ρ π : Type) where
  now : DateTime
  monotonic : Nat
  bucket : AList fun _ : S3Key => S3Object ρ
  redis : AList fun _ : CacheKey => Slot (CacheValue ρ π)
  listCache : AList fun _ : Nat × S3Key => ListEntry
  listLocks : List Nat
  writeBacks : List (CacheKey × Sourced (CacheValue ρ π))
  history : History

/-- `failed` is an error that the client reports as a miss, or that a caller swallows. -/
inductive Reply (ρ : Type) where
  | ok
  | failed (landed : Bool)
  | raised
  | cancelled
  | observations (l : List (Observation ρ))

inductive CacheExn where
  | cancelled
  | error
  deriving DecidableEq, Repr

abbrev Code (ρ π : Type) := Coro (World ρ π) (Reply ρ) CacheExn

structure CacheConfig (ρ π : Type) where
  digits : DigitTable
  code : RaisingCode ρ π
  cacheEnabled : Bool
  listCacheTtl : Nat
  seriesHours : Nat
  animationWarmBuckets : Nat

def S3Object.stamp {ρ : Type} : S3Object ρ → Nat
  | snapshot body => body.scrapedAt.stamp
  | info _ => 0

def latestObject : S3Key := "weather-stations/latest.json".toList

variable {ρ π : Type}

namespace World

variable (w : World ρ π)

def keysUnder (p : S3Key) : List S3Key := w.bucket.keys.filter (p.isPrefixOf ·)

def putObject (key : S3Key) (object : S3Object ρ) : World ρ π :=
  { w with
    bucket := w.bucket.insert key object
    history := w.history.note (.uploaded key object.stamp) }

def setRedis (key : CacheKey) (v : Sourced (CacheValue ρ π)) : World ρ π :=
  { w with redis := w.redis.insert key ⟨v, w.history.moment⟩ }

def noteFailedList (caller : ListCaller) : World ρ π :=
  { w with history := { w.history with failedLists := caller :: w.history.failedLists } }

def noteWriteThrough (key : CacheKey) (moment : Nat) : World ρ π :=
  { w with history := w.history.note (.wroteThrough key moment) }

/-- A live entry of `_list_cache`. -/
def freshKeys (worker : Nat) (p : S3Key) : Option (Sourced (List S3Key)) :=
  ((w.listCache.lookup (worker, p)).filter fun e => decide (w.monotonic < e.expires)).map (·.keys)

def rememberKeys (ttl worker : Nat) (p : S3Key) (keys : Sourced (List S3Key)) : World ρ π :=
  { w with listCache := w.listCache.insert (worker, p) ⟨w.monotonic + ttl, keys⟩ }

end World

def look {α : Type} (f : World ρ π → α) : Code ρ π α := act fun w => (f w, w)

def update (f : World ρ π → World ρ π) : Code ρ π Unit := act fun w => ((), f w)

/-- The answer of a command arrives. -/
def delivery : Code ρ π Unit :=
  call fun w r =>
    match r with
    | .ok => some (.ok (), w)
    | .cancelled => some (.error .cancelled, w)
    | _ => none

/-- A command: its effect, and later its answer. -/
def roundTrip {α : Type} (f : World ρ π → Reply ρ → Option (Except CacheExn α × World ρ π)) :
    Code ρ π α := do
  let a ← call f
  delivery
  pure a

/-- `except Exception` -/
def catchException {α : Type} (body handler : Code ρ π α) : Code ρ π α :=
  body.tryCatch fun e => if e = .cancelled then raise e else handler

/-- `list_object_keys`: a LIST that fails is answered with no keys. -/
def listObjectKeys (caller : ListCaller) (p : S3Key) : Code ρ π (Sourced (List S3Key)) := do
  let keys ← roundTrip fun w r =>
    match r with
    | .ok => some (.ok ⟨w.keysUnder p, ⟨w.history.moment, false⟩⟩, w)
    | .failed _ => some (.ok ⟨[], ⟨w.history.moment, true⟩⟩, w)
    | .raised => some (.error .error, w)
    | .cancelled => some (.error .cancelled, w)
    | .observations _ => none
  if keys.origin.failed then update (World.noteFailedList · caller) else pure ()
  pure keys

/-- `download_tile`: an object that cannot be read is no object. -/
def downloadTile (key : S3Key) : Code ρ π (Option (Sourced (S3Object ρ))) :=
  roundTrip fun w r =>
    match r with
    | .ok => some (.ok ((w.bucket.lookup key).map (⟨·, ⟨w.history.moment, false⟩⟩)), w)
    | .failed _ => some (.ok none, w)
    | .raised => some (.error .error, w)
    | .cancelled => some (.error .cancelled, w)
    | .observations _ => none

/-- `upload_tile` -/
def uploadTile (key : S3Key) (object : S3Object ρ) : Code ρ π Unit :=
  roundTrip fun w r =>
    match r with
    | .ok => some (.ok (), w.putObject key object)
    | .failed landed => some (.error .error, if landed then w.putObject key object else w)
    | .cancelled => some (.error .cancelled, w)
    | .raised | .observations _ => none

/-- `_cache_get`: a Redis error is a miss. -/
def cacheGet (cfg : CacheConfig ρ π) (key : CacheKey) :
    Code ρ π (Option (Sourced (CacheValue ρ π))) :=
  if cfg.cacheEnabled then
    roundTrip fun w r =>
      match r with
      | .ok => some (.ok ((w.redis.lookup key).map (·.toSourced)), w)
      | .failed _ => some (.ok none, w)
      | .cancelled => some (.error .cancelled, w)
      | .raised | .observations _ => none
  else pure none

/-- `_redis_set` of the scraper: an error is swallowed. Done is what was acknowledged. -/
def redisSet (cfg : CacheConfig ρ π) (key : CacheKey) (v : Sourced (CacheValue ρ π)) :
    Code ρ π Unit :=
  if cfg.cacheEnabled then do
    let done ← roundTrip fun w r =>
      match r with
      | .ok => some (.ok true, w.setRedis key v)
      | .failed landed => some (.ok false, if landed then w.setRedis key v else w)
      | .cancelled => some (.error .cancelled, w)
      | .raised | .observations _ => none
    if done then update (World.noteWriteThrough · key v.origin.moment) else pure ()
  else pure ()

/-- `_cache_set_bg`: a task of its own, which nobody waits for. -/
def cacheSetBg (cfg : CacheConfig ρ π) (key : CacheKey) (v : Sourced (CacheValue ρ π)) :
    Code ρ π Unit :=
  if cfg.cacheEnabled then update fun w => { w with writeBacks := w.writeBacks ++ [(key, v)] }
  else pure ()

def acquireListLock (worker : Nat) : Code ρ π Unit :=
  call fun w r =>
    match r with
    | .ok =>
      if worker ∈ w.listLocks then none
      else some (.ok (), { w with listLocks := worker :: w.listLocks })
    | .cancelled => some (.error .cancelled, w)
    | _ => none

def releaseListLock (worker : Nat) : Code ρ π Unit :=
  update fun w => { w with listLocks := w.listLocks.erase worker }

/-- `fetch_current_weather_stations`; none for an SmnApiError. -/
def fetchObservations : Code ρ π (Option (List (Observation ρ))) :=
  call fun w r =>
    match r with
    | .observations l => some (.ok (some l), w)
    | .failed _ => some (.ok none, w)
    | .raised => some (.error .error, w)
    | .cancelled => some (.error .cancelled, w)
    | .ok => none

section Rules

variable {R G : World ρ π → World ρ π → Prop} {E : CacheExn → World ρ π → Prop} {w : World ρ π}

/-- What a command has to meet when it takes effect, and what its answer has to find. -/
theorem honours_roundTrip {α : Type} {Q : α → World ρ π → Prop} (hrefl : ∀ v, G v v)
    {f : World ρ π → Reply ρ → Option (Except CacheExn α × World ρ π)}
    (hok : ∀ t, R w t → ∀ r a u, f t r = some (.ok a, u) →
      G t u ∧ ∀ v, R u v → E .cancelled v ∧ Q a v)
    (herror : ∀ t, R w t → ∀ r e u, f t r = some (.error e, u) → G t u ∧ E e u) :
    (roundTrip f).Honours R G Q E w := by
  apply honours_bind
  refine honours_call (fun t ht r a u hu => ?_) herror
  obtain ⟨hG, hanswer⟩ := hok t ht r a u hu
  refine ⟨hG, honours_bind (honours_call (fun v hv r x u' hu' => ?_) fun v hv r e u' hu' => ?_)⟩
  · cases r <;> cases hu'
    exact ⟨hrefl v, (hanswer v hv).2⟩
  · cases r <;> cases hu'
    exact ⟨hrefl v, (hanswer v hv).1⟩

theorem within_roundTrip {F : World ρ π → World ρ π → Prop} (hrefl : ∀ v, F v v) {α : Type}
    {f : World ρ π → Reply ρ → Option (Except CacheExn α × World ρ π)}
    (h : ∀ s r x t, f s r = some (x, t) → F s t) : (roundTrip f).Within F := by
  refine within_bind (within_call h) fun a => within_bind (within_call ?_) fun _ => trivial
  intro s r x t ht
  cases r <;> cases ht <;> exact hrefl s

end Rules

end DataService.WeatherCache
