import DataService.Lib.Coroutine
import DataService.Lib.DecimalText
import DataService.Lib.ExpiringStore

/-! The mirror that the background loops keep in Redis: tiles, and indexes of the units
(tilesets, forecast steps, periods) whose tiles are there. One unit is copied by a task
for each of its tiles; the loops are coroutines that await S3, Redis and these tasks. -/

namespace DataService.Sync

open Coroutine Coro DecimalText ExpiringStore

/-- The keys below `idx:`, by what they list. -/
inductive IndexKey where
  | satellite (channelDir : String)
  | radars (network : String)
  | radarVariables (network radarId : String)
  | radarElevations (network radarId variableId : String)
  | radarTilesets (network radarId variableId elevationId : String)
  | ecmwfTpForecasts
  | ecmwfTpPeriods (forecastTs : String)
  | wrfProducts
  | wrfInitRuns (productId : String)
  | wrfSteps (productId initTag : String)
  | wrfLayers (productId initTag fxxx : String)
  | ecmwfMslpForecasts
  | ecmwfMslpTimestamps (forecastTs : String)
  | gfsCycles (productId : String)
  | gfsSteps (productId cycle : String)
  | gfsLayers (productId cycle fxxx : String)
  deriving DecidableEq, Repr

/-- A tileset, forecast step or period: a member of one of the indexes. -/
@[ext]
structure UnitId where
  index : IndexKey
  name : String
  deriving DecidableEq, Repr

/-- Whether the members of an index are units with tiles of their own. -/
def IndexKey.listsUnits : IndexKey → Bool
  | .satellite _ | .radarTilesets .. | .ecmwfTpPeriods _ | .wrfSteps .. => true
  | _ => false

inductive RedisKey where
  | tile (unit : UnitId) (z x y : Int)
  | wrfGeojson (productId initTag fxxx layer : String)
  | wrfOverlaysDone (productId initTag fxxx : String)
  | ecmwfMslpGeojson (forecastTs timestampTs : String)
  | gfsGeojson (productId cycle fxxx layer : String)
  | index (key : IndexKey)
  deriving DecidableEq, Repr

/-- A string, or a set whose members have scores; a plain set has scores 0. -/
inductive RedisValue where
  | bytes
  | members (l : List (String × Int))
  deriving DecidableEq, Repr

abbrev Redis := Store RedisKey RedisValue

/-- The members of an index; a key that is not there has none. -/
def members (redis : Redis) (now : Nat) (key : IndexKey) : List (String × Int) :=
  match redis.get now (.index key) with
  | some (.members l) => l
  | _ => []

def memberNames (redis : Redis) (now : Nat) (key : IndexKey) : List String :=
  (members redis now key).map Prod.fst

inductive TileStage where
  | downloading
  | storing
  deriving DecidableEq, Repr

structure TileTask where
  key : String
  stage : TileStage
  deriving DecidableEq, Repr

/-- A tile that reached Redis. A `SET` that landed although it failed is not counted. -/
structure StoredTile where
  key : String
  time : Nat
  counted : Bool
  deriving DecidableEq, Repr

/-- The tile tasks of one unit: what was listed, what still runs, and what was stored. -/
structure Gather where
  unit : UnitId
  ttl : Nat
  listed : List String
  tasks : List TileTask
  stored : List StoredTile

/-- The history: the members a loop read from an index, a unit whose tile tasks have all
ended, a unit that entered its index, and the two ends of a cycle. -/
inductive Event where
  | cycleStart (now : Nat)
  | found (key : IndexKey) (names : List String)
  | synced (unit : UnitId) (listed : List String) (stored : List StoredTile)
  | indexed (unit : UnitId)
  | cycleEnd (errors : Nat)
  deriving DecidableEq, Repr

structure World where
  now : Nat
  redis : Redis
  gather : Option Gather
  downloaded : Nat
  log : List Event

/-- What a loop is told about names and keys; `\d` is a digit of the table. -/
structure NameCode where
  parseZxy : String → Option (Int × Int × Int)
  extractWrfInitScore : String → Option Int
  wrfStepScore : String → Option Int
  digits : DigitTable

/-- `\d{8}T\d{4}Z`, and no more. -/
def isValidTimestampFormat (D : DigitTable) (periodTs : String) : Bool :=
  let text := periodTs.toList
  text.length == 14 && text[8]? == some 'T' && text[13]? == some 'Z' &&
    (text.take 8 ++ (text.drop 9).take 4).all fun c => (D.value c).isSome

/-- A watchdog or `stop` cancels; every other exception is an `Exception`. -/
inductive SyncExn where
  | cancelled
  | error
  deriving DecidableEq, Repr

/-- The answer to an await of a loop. -/
inductive Reply where
  | ok
  | names (l : List String)
  | raised (e : SyncExn) (landed : Bool)
  deriving DecidableEq, Repr

/-- The answer to an await of a tile task. -/
inductive TileReply where
  | bytes
  | stored
  | failed (landed : Bool)
  deriving DecidableEq, Repr

abbrev Code := Coro World Reply SyncExn

namespace World

def record (w : World) (e : Event) : World := { w with log := e :: w.log }

def setRedis (w : World) (redis : Redis) : World := { w with redis := redis }

def memberNames (w : World) (key : IndexKey) : List String := Sync.memberNames w.redis w.now key

/-- `ZADD`, or `SADD` with score 0. -/
def add (key : IndexKey) (name : String) (score : Int) (w : World) : World :=
  let kept := (members w.redis w.now key).filter (fun p => p.1 ≠ name)
  w.setRedis (w.redis.update w.now (.index key) (.members (kept ++ [(name, score)])))

/-- `ZREM`, `SREM` or `ZREMRANGEBYSCORE`: a set without members is no key. -/
def keep (key : IndexKey) (p : String × Int → Bool) (w : World) : World :=
  match (members w.redis w.now key).filter p with
  | [] => w.setRedis (w.redis.del (.index key))
  | l => w.setRedis (w.redis.update w.now (.index key) (.members l))

def expire (key : IndexKey) (ttl : Nat) (w : World) : World :=
  w.setRedis (w.redis.expire w.now (.index key) ttl)

/-- Add a member and give its index a new deadline. -/
def addFor (key : IndexKey) (name : String) (score : Int) (ttl : Nat) (w : World) : World :=
  (w.add key name score).expire key ttl

/-- `SET` with `EX`. -/
def setEx (key : RedisKey) (ttl : Nat) (w : World) : World :=
  w.setRedis (w.redis.put key .bytes (some (w.now + ttl)))

/-- A tile reaches Redis. -/
def storeTile (names : NameCode) (g : Gather) (key : String) (w : World) : World :=
  match names.parseZxy key with
  | some (z, x, y) => w.setEx (.tile g.unit z x y) g.ttl
  | none => w

/-- The `SET` of the `i`th tile task took effect. -/
def landTile (names : NameCode) (g : Gather) (i : Nat) (key : String) (counted : Bool) (w : World) :
    World :=
  { w.storeTile names g key with
    gather := some { g with
      tasks := g.tasks.eraseIdx i, stored := g.stored ++ [⟨key, w.now, counted⟩] } }

/-- The `i`th tile task is answered. Redis refuses a `SET` with a zero expiry. -/
def tileStep (names : NameCode) (w : World) (i : Nat) (r : TileReply) : Option World :=
  w.gather.bind fun g =>
    match g.tasks[i]?, r with
    | some ⟨key, .downloading⟩, .bytes =>
      some { w with gather := some { g with tasks := g.tasks.set i ⟨key, .storing⟩ } }
    | some ⟨key, .storing⟩, .stored =>
      if g.ttl = 0 then none else some (w.landTile names g i key true)
    | some ⟨key, .storing⟩, .failed true =>
      if g.ttl = 0 then none else some (w.landTile names g i key false)
    | some _, .failed _ => some { w with gather := some { g with tasks := g.tasks.eraseIdx i } }
    | _, _ => none

end World

def look {α : Type} (f : World → α) : Code α := act fun w => (f w, w)

def modify (f : World → World) : Code Unit := act fun w => ((), f w)

/-- An S3 listing: the names of the sub-directories, or the keys of the objects. -/
def listNames : Code (List String) :=
  call fun w r =>
    match r with
    | .names l => some (.ok l, w)
    | .raised e _ => some (.error e, w)
    | .ok => none

/-- Read one object from S3. -/
def fetchObject : Code Unit :=
  call fun w r =>
    match r with
    | .ok => some (.ok (), w)
    | .raised e _ => some (.error e, w)
    | .names _ => none

/-- A Redis command, or a pipeline of them; it may take effect although it fails. -/
def command (f : World → World) : Code Unit :=
  call fun w r =>
    match r with
    | .ok => some (.ok (), f w)
    | .raised e landed => some (.error e, if landed then f w else w)
    | .names _ => none

/-- Read an index. The members of an index of units are noted in the history. -/
def readMembers (key : IndexKey) : Code (List String) :=
  call fun w r =>
    match r with
    | .ok =>
      let names := w.memberNames key
      some (.ok names, if key.listsUnits then w.record (.found key names) else w)
    | .raised e _ => some (.error e, w)
    | .names _ => none

/-- Read whether a key is there. -/
def readExists (key : RedisKey) : Code Bool :=
  call fun w r =>
    match r with
    | .ok => some (.ok (w.redis.get w.now key).isSome, w)
    | .raised e _ => some (.error e, w)
    | .names _ => none

/-- `except Exception`: handle everything but a cancellation. -/
def catchException {α : Type} (body : Code α) (handler : Code α) : Code α :=
  body.tryCatch fun e => if e = .cancelled then raise e else handler

/-- `asyncio.gather` over the tile tasks; their own exceptions are swallowed, and a
cancellation cancels them all. -/
def awaitTiles : Code (List StoredTile) :=
  call fun w r =>
    match w.gather, r with
    | some g, .ok =>
      if g.tasks = [] then
        some (.ok g.stored, { w.record (.synced g.unit g.listed g.stored) with gather := none })
      else none
    | some _, .raised .cancelled _ => some (.error .cancelled, { w with gather := none })
    | _, _ => none

def isWebp (key : String) : Bool := ".webp".toList.isSuffixOf key.toList

/-- `_download_*_tile_to_redis` for each listed tile; a malformed key fails at once. -/
def startTiles (names : NameCode) (unit : UnitId) (ttl : Nat) (listed : List String) : Code Unit :=
  modify fun w =>
    { w with
      gather := some
        { unit := unit
          ttl := ttl
          listed := listed
          tasks := (listed.filter fun key => (names.parseZxy key).isSome).map (⟨·, .downloading⟩)
          stored := [] } }

/-- `sync_prefix_to_redis` and its siblings: the number of tiles stored. -/
def syncUnitToRedis (names : NameCode) (unit : UnitId) (ttl : Nat) : Code Nat := do
  let objects ← listNames
  let tileObjects := objects.filter isWebp
  if tileObjects = [] then
    modify (World.record · (.synced unit [] []))
    pure 0
  else
    startTiles names unit ttl tileObjects
    let stored ← awaitTiles
    pure (stored.countP (·.counted))

def forEach {α : Type} (f : α → Code Unit) : List α → Code Unit
  | [] => pure ()
  | a :: as => do
    f a
    forEach f as

def countDownloaded (n : Nat) : Code Unit := modify fun w => { w with downloaded := w.downloaded + n }

end DataService.Sync
