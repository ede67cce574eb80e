import DataService.Basemap.StorageCircuit

/-! `BasemapTileReader._resolve_tile`: the tombstone, then the provider, Redis and S3, each
behind a wrapper that turns some failures into None. A chain asks every tier at most once,
so its run is a function of what the tiers answer. -/

namespace DataService

/-- The bodies that are stored: no writer stores an empty one. -/
abbrev TileBytes := { data : List UInt8 // data ≠ [] }

/-- An exception that no wrapper of the reader lists. -/
inductive ReaderExn where
  | redisError
  | unlisted
  deriving DecidableEq, Repr

structure ReaderConfig where
  onlineFallback : Bool
  /-- the provider of the request is configured -/
  providerKnown : Bool
  redisCacheEnabled : Bool
  s3CacheEnabled : Bool
  negativeCacheRequested : Bool
  relayCircuitEnabled : Bool
  relaySettings : CircuitSettings

/-- The tombstone lives in Redis. -/
def ReaderConfig.negativeCacheEnabled (cfg : ReaderConfig) : Bool :=
  cfg.negativeCacheRequested && cfg.redisCacheEnabled

inductive ProviderReply where
  | bytes (data : TileBytes)
  /-- 404, 403, another status that is not retried, or no tile in the body -/
  | missing
  | unavailable
  | raised (e : ReaderExn)
  deriving DecidableEq

inductive RedisAnswer (α : Type) where
  | value (a : α)
  /-- an httpx, timeout or socket error -/
  | transportError
  | raised (e : ReaderExn)
  deriving DecidableEq

inductive S3Answer where
  | bytes (data : TileBytes)
  | noSuchKey
  | clientError
  | infrastructureError
  | raised (e : ReaderExn)
  deriving DecidableEq

/-- The relay circuit of the provider when its host is asked and when it answers. -/
structure RelayGate where
  circuit : Option StorageCircuit
  askedAt : Nat
  answeredAt : Nat

/-- What the tiers answer, if they are asked. -/
structure TierReplies where
  miss : RedisAnswer Bool
  relay : RelayGate
  provider : ProviderReply
  redis : RedisAnswer (Option TileBytes)
  s3 : S3Answer

inductive CacheWrite where
  | redisTile (data : TileBytes)
  | s3Tile (data : TileBytes)
  | missMark
  deriving DecidableEq

structure Resolution where
  result : Except ReaderExn (Option TileBytes)
  scheduled : List CacheWrite
  relay : Option StorageCircuit

/-- `_safe_get_miss`, `_safe_redis_get`: a transport error reads as the default. -/
def RedisAnswer.safeGet {α : Type} (default : α) : RedisAnswer α → Except ReaderExn α
  | .value a => .ok a
  | .transportError => .ok default
  | .raised e => .error e

/-- `download_tile` of the S3 client, and `_safe_s3_get` around it. -/
def S3Answer.safeGet : S3Answer → Except ReaderExn (Option TileBytes)
  | .bytes data => .ok (some data)
  | .noSuchKey | .clientError | .infrastructureError => .ok none
  | .raised e => .error e

/-- `_download_from_provider` -/
def downloadFromProvider (r : ProviderReply) (circuit : Option StorageCircuit) (now : Nat) :
    Except ReaderExn (Option TileBytes) × Option StorageCircuit :=
  match r with
  | .unavailable => (.ok none, circuit.map fun c => (c.recordFailure now).1)
  | .raised e => (.error e, circuit)
  | .missing => (.ok none, circuit.map fun c => (c.recordSuccess now).1)
  | .bytes data => (.ok (some data), circuit.map fun c => (c.recordSuccess now).1)

/-- `_relay_circuit`: created on first use, none when the breaker is disabled. -/
def relayCircuit (cfg : ReaderConfig) (gate : RelayGate) : Option StorageCircuit :=
  if cfg.relayCircuitEnabled then some (gate.circuit.getD (.new cfg.relaySettings)) else none

/-- The circuit lets the request through to the host. -/
def relayAllows (cfg : ReaderConfig) (gate : RelayGate) : Bool :=
  (relayCircuit cfg gate).all fun c => c.allowsWrite gate.askedAt

/-- `_try_provider` -/
def tryProvider (cfg : ReaderConfig) (a : TierReplies) :
    Except ReaderExn (Option TileBytes) × Option StorageCircuit :=
  if cfg.onlineFallback && cfg.providerKnown then
    if relayAllows cfg a.relay then
      downloadFromProvider a.provider (relayCircuit cfg a.relay) a.relay.answeredAt
    else (.ok none, relayCircuit cfg a.relay)
  else (.ok none, a.relay.circuit)

def tryMiss (cfg : ReaderConfig) (a : TierReplies) : Except ReaderExn Bool :=
  if cfg.negativeCacheEnabled then a.miss.safeGet false else .ok false

def tryRedis (cfg : ReaderConfig) (a : TierReplies) : Except ReaderExn (Option TileBytes) :=
  if cfg.redisCacheEnabled then a.redis.safeGet none else .ok none

def tryS3 (cfg : ReaderConfig) (a : TierReplies) : Except ReaderExn (Option TileBytes) :=
  if cfg.s3CacheEnabled then a.s3.safeGet else .ok none

/-- Tiers 2 and 3, and the tombstone when they have nothing either. -/
def resolveFromCaches (cfg : ReaderConfig) (a : TierReplies) (relay : Option StorageCircuit) :
    Resolution :=
  match tryRedis cfg a with
  | .error e => ⟨.error e, [], relay⟩
  | .ok (some data) => ⟨.ok (some data), [], relay⟩
  | .ok none =>
    match tryS3 cfg a with
    | .error e => ⟨.error e, [], relay⟩
    | .ok (some data) =>
      ⟨.ok (some data), if cfg.redisCacheEnabled then [.redisTile data] else [], relay⟩
    | .ok none => ⟨.ok none, if cfg.negativeCacheEnabled then [.missMark] else [], relay⟩

/-- `_resolve_tile` -/
def resolveTile (cfg : ReaderConfig) (a : TierReplies) : Resolution :=
  match tryMiss cfg a with
  | .error e => ⟨.error e, [], a.relay.circuit⟩
  | .ok true => ⟨.ok none, [], a.relay.circuit⟩
  | .ok false =>
    match tryProvider cfg a with
    | (.error e, relay) => ⟨.error e, [], relay⟩
    | (.ok (some data), relay) =>
      ⟨.ok (some data),
        (if cfg.redisCacheEnabled then [.redisTile data] else []) ++
          (if cfg.s3CacheEnabled then [.s3Tile data] else []), relay⟩
    | (.ok none, relay) => resolveFromCaches cfg a relay

/-- What a tier has to say about the tile. -/
inductive TierVerdict where
  | off
  | found
  | absent
  | outage
  | raised
  deriving DecidableEq, Repr

def providerVerdict (cfg : ReaderConfig) (a : TierReplies) : TierVerdict :=
  if cfg.onlineFallback && cfg.providerKnown then
    if relayAllows cfg a.relay then
      match a.provider with
      | .bytes _ => .found
      | .missing => .absent
      | .unavailable => .outage
      | .raised _ => .raised
    else .outage
  else .off

def redisVerdict (cfg : ReaderConfig) (a : TierReplies) : TierVerdict :=
  if cfg.redisCacheEnabled then
    match a.redis with
    | .value (some _) => .found
    | .value none => .absent
    | .transportError => .outage
    | .raised _ => .raised
  else .off

def s3Verdict (cfg : ReaderConfig) (a : TierReplies) : TierVerdict :=
  if cfg.s3CacheEnabled then
    match a.s3 with
    | .bytes _ => .found
    | .noSuchKey => .absent
    | .clientError | .infrastructureError => .outage
    | .raised _ => .raised
  else .off

/-- The provider, Redis and S3. -/
def tierVerdicts (cfg : ReaderConfig) (a : TierReplies) : List TierVerdict :=
  [providerVerdict cfg a, redisVerdict cfg a, s3Verdict cfg a]

/-- Every enabled tier answered that the tile does not exist. -/
def ConfirmedMiss (cfg : ReaderConfig) (a : TierReplies) : Prop :=
  ∀ v ∈ tierVerdicts cfg a, v = .off ∨ v = .absent

/-- Something ends the chain before its last line: a tombstone, the tile, an exception. -/
def EndsEarly (cfg : ReaderConfig) (a : TierReplies) : Prop :=
  tryMiss cfg a ≠ .ok false ∨ ∃ v ∈ tierVerdicts cfg a, v = .found ∨ v = .raised

section Verdicts

variable {cfg : ReaderConfig} {a : TierReplies}

theorem tryProvider_none_iff : (tryProvider cfg a).1 = .ok none ↔
    providerVerdict cfg a ≠ .found ∧ providerVerdict cfg a ≠ .raised := by
  unfold tryProvider providerVerdict
  split
  · split
    · cases a.provider <;> simp [downloadFromProvider]
    · simp
  · simp

theorem tryRedis_none_iff : tryRedis cfg a = .ok none ↔
    redisVerdict cfg a ≠ .found ∧ redisVerdict cfg a ≠ .raised := by
  unfold tryRedis redisVerdict
  split
  · cases a.redis with
    | value data => cases data <;> simp [RedisAnswer.safeGet]
    | transportError => simp [RedisAnswer.safeGet]
    | raised e => simp [RedisAnswer.safeGet]
  · simp

theorem tryS3_none_iff : tryS3 cfg a = .ok none ↔
    s3Verdict cfg a ≠ .found ∧ s3Verdict cfg a ≠ .raised := by
  unfold tryS3 s3Verdict
  split
  · cases a.s3 <;> simp [S3Answer.safeGet]
  · simp

theorem mark_from_caches_iff (relay : Option StorageCircuit) :
    .missMark ∈ (resolveFromCaches cfg a relay).scheduled ↔
      cfg.negativeCacheEnabled = true ∧ tryRedis cfg a = .ok none ∧ tryS3 cfg a = .ok none := by
  unfold resolveFromCaches
  cases tryRedis cfg a with
  | error e => simp
  | ok redis =>
    cases redis with
    | some data => simp
    | none =>
      cases tryS3 cfg a with
      | error e => simp
      | ok s3 =>
        cases s3 with
        | some data => cases cfg.redisCacheEnabled <;> simp
        | none => cases cfg.negativeCacheEnabled <;> simp

/-- The mark is scheduled when no tier has the tile, whatever kept it from answering. -/
theorem mark_scheduled_iff : .missMark ∈ (resolveTile cfg a).scheduled ↔
    cfg.negativeCacheEnabled = true ∧ ¬ EndsEarly cfg a := by
  have hearly : ¬ EndsEarly cfg a ↔ tryMiss cfg a = .ok false ∧
      (tryProvider cfg a).1 = .ok none ∧ tryRedis cfg a = .ok none ∧ tryS3 cfg a = .ok none := by
    rw [tryProvider_none_iff, tryRedis_none_iff, tryS3_none_iff]
    simp [EndsEarly, tierVerdicts, not_or]
  rw [hearly]
  unfold resolveTile
  cases hmiss : tryMiss cfg a with
  | error e => simp
  | ok found =>
    cases found with
    | true => simp
    | false =>
      obtain ⟨result, relay⟩ := tryProvider cfg a
      cases result with
      | error e => simp
      | ok data =>
        cases data with
        | some data => cases cfg.redisCacheEnabled <;> cases cfg.s3CacheEnabled <;> simp
        | none => simp [mark_from_caches_iff]

end Verdicts

/-- For every configuration and every answer of every tier: a tombstone is planted on
nothing but a confirmed miss iff the negative cache is off, no enabled tier is out of
reach, or the chain ends early. -/
theorem mark_confirmed_iff (cfg : ReaderConfig) (a : TierReplies) :
    (.missMark ∈ (resolveTile cfg a).scheduled → ConfirmedMiss cfg a) ↔
      cfg.negativeCacheEnabled = false ∨ .outage ∉ tierVerdicts cfg a ∨ EndsEarly cfg a := by
  rw [mark_scheduled_iff]
  constructor
  · intro h
    by_cases hneg : cfg.negativeCacheEnabled = true
    · by_cases hearly : EndsEarly cfg a
      · exact .inr (.inr hearly)
      · right; left
        intro hout
        have hv := h ⟨hneg, hearly⟩ .outage hout
        simp at hv
    · exact .inl (by simpa using hneg)
  · rintro (hneg | hout | hearly) ⟨hneg', hlate⟩ v hv
    · simp [hneg] at hneg'
    · have hlate' : v ≠ .found ∧ v ≠ .raised := by
        have hboth := fun hbad => hlate (.inr ⟨v, hv, hbad⟩)
        simpa [not_or] using hboth
      cases v with
      | off => exact .inl rfl
      | absent => exact .inr rfl
      | outage => exact absurd hv hout
      | found => exact absurd rfl hlate'.1
      | raised => exact absurd rfl hlate'.2
    · exact absurd hearly hlate

/-- All tiers on, as in the mode that writes through on reads. -/
def fullReader : ReaderConfig :=
  ⟨true, true, true, true, true, true, .default⟩

/-- The host is down, and neither cache has the tile. -/
def providerDown : TierReplies :=
  ⟨.value false, ⟨none, 0, 0⟩, .unavailable, .value none, .noSuchKey⟩

theorem outage_plants_tombstone : ¬ ∀ cfg a,
    .missMark ∈ (resolveTile cfg a).scheduled → ConfirmedMiss cfg a := by
  intro h
  have hv := h fullReader providerDown (by decide) .outage (by decide)
  simp at hv

end DataService
