import DataService.Lib.RemoteStore

/-! The registry half of the weather-station scraper: one cycle reads the stored hash
once, refreshes `stations.json` when the upstream text changed, and warms the cache. -/

namespace DataService.Registry

open RemoteStore (Outcome)

inductive Source where
  | remote
  | bundled
  deriving DecidableEq, Repr

/-- The JSON of `stations.json`. -/
structure RegistryPayload (σ : Type*) where
  fetchedAt : Int
  sourceUrl : String
  source : Source
  stations : List σ
  deriving DecidableEq, Repr

/-- The JSON of `stations.meta.json`. -/
structure RegistryMeta (η : Type*) where
  sourceHash : η
  stationCount : Nat
  updatedAt : Int
  source : Source
  deriving DecidableEq, Repr

/-- The bytes of `stations.meta.json`, as far as the bootstrap tells them apart: what the
scraper writes, another JSON object with or without a string `source_hash`, another JSON
value (or a text that the JSON reader gives up on), or bytes that are no JSON. -/
inductive MetaBody (η : Type*) where
  | written (m : RegistryMeta η)
  | object (sourceHash : Option η)
  | value
  | unreadable
  deriving DecidableEq, Repr

/-- The parser gives no list where it raises. -/
structure RegistryConfig (η σ : Type*) where
  sha256 : String → η
  parseEstacionesTxt : String → Option (List σ)
  smnStationsRegistryUrl : String
  registryFallbackPath : String
  registryFallbackEnabled : Bool
  cacheEnabled : Bool

variable {η σ : Type*} [DecidableEq η]

/-- Where a cycle stands: which answer it awaits. `scraping` is the rest of the cycle. -/
inductive Pc (η σ : Type*) where
  | idle
  | bootstrapping
  | fetching
  | readingBundle
  | puttingRegistry (payload : RegistryPayload σ) (m : RegistryMeta η)
  | puttingMeta (m : RegistryMeta η)
  | warming
  | scraping
  deriving DecidableEq, Repr

/-- The two attributes of the scraper object that the registry code uses. -/
structure Memory (η : Type*) where
  registryHash : Option η
  registryBootstrapped : Bool
  deriving DecidableEq, Repr

def Memory.fresh : Memory η := ⟨none, false⟩

/-- What happened: a payload reached `stations.json` over what was there before, a cycle
went on to the observations, or a cycle ended with an exception. -/
inductive Event (σ : Type*) where
  | stored (before : Option (RegistryPayload σ)) (payload : RegistryPayload σ)
  | scraped
  | raised
  deriving DecidableEq, Repr

/-- The two objects of the bucket, the scraper process, and the history, newest first. -/
structure State (η σ : Type*) where
  registry : Option (RegistryPayload σ)
  registryMeta : Option (MetaBody η)
  memory : Memory η
  pc : Pc η σ
  log : List (Event σ)
  deriving DecidableEq, Repr

/-- A scraper process has just started over a bucket. -/
def State.boot (registry : Option (RegistryPayload σ)) (registryMeta : Option (MetaBody η)) :
    State η σ :=
  ⟨registry, registryMeta, Memory.fresh, .idle, []⟩

namespace State

def goTo (s : State η σ) (pc : Pc η σ) : State η σ := { s with pc := pc }

def setHash (s : State η σ) (hash : Option η) : State η σ :=
  { s with memory := { s.memory with registryHash := hash } }

def setBootstrapped (s : State η σ) : State η σ :=
  { s with memory := { s.memory with registryBootstrapped := true } }

def scrape (s : State η σ) : State η σ := { s with pc := .scraping, log := .scraped :: s.log }

def raise (s : State η σ) : State η σ := { s with pc := .idle, log := .raised :: s.log }

def storeRegistry (s : State η σ) (payload : RegistryPayload σ) : State η σ :=
  { s with registry := some payload, log := .stored s.registry payload :: s.log }

def storeMeta (s : State η σ) (m : RegistryMeta η) : State η σ :=
  { s with registryMeta := some (.written m) }

/-- The upload in flight takes effect. -/
def land (s : State η σ) : State η σ :=
  match s.pc with
  | .puttingRegistry payload _ => s.storeRegistry payload
  | .puttingMeta m => s.storeMeta m
  | _ => s

end State

/-- `_maybe_bootstrap_registry_hash` on the answer of its read; `.get` fails on a JSON
value that is no object. -/
def bootstrap (s : State η σ) : Option (MetaBody η) → Option (State η σ)
  | none => some s.setBootstrapped
  | some (.written m) => some (s.setHash (some m.sourceHash)).setBootstrapped
  | some (.object (some hash)) => some (s.setHash (some hash)).setBootstrapped
  | some (.object none) => some s.setBootstrapped
  | some .unreadable => some s.setBootstrapped
  | some .value => none

/-- `_warm_registry_cache` up to its read. -/
def warm (cfg : RegistryConfig η σ) (s : State η σ) : State η σ :=
  if cfg.cacheEnabled then s.goTo .warming else s.scrape

def shouldSeedFromBundle (cfg : RegistryConfig η σ) (m : Memory η) : Bool :=
  cfg.registryFallbackEnabled && m.registryHash.isNone

def registryPayload (cfg : RegistryConfig η σ) (source : Source) (stations : List σ)
    (now : Int) : RegistryPayload σ where
  fetchedAt := now
  sourceUrl := match source with
    | .remote => cfg.smnStationsRegistryUrl
    | .bundled => cfg.registryFallbackPath
  source := source
  stations := stations

/-- `_refresh_registry_if_changed` once it has a text: nothing to do, an upload, or the exception
of the parser. -/
def offer (cfg : RegistryConfig η σ) (s : State η σ) (source : Source) (text : String)
    (now : Int) : State η σ :=
  let sourceHash := cfg.sha256 text
  if some sourceHash = s.memory.registryHash then warm cfg s
  else
    match cfg.parseEstacionesTxt text with
    | none => s.raise
    | some [] => warm cfg s
    | some (station :: stations) =>
      let payload := registryPayload cfg source (station :: stations) now
      let m := ⟨sourceHash, payload.stations.length, payload.fetchedAt, source⟩
      s.goTo (.puttingRegistry payload m)

/-- What happens next: a cycle begins, an awaited answer arrives, an object disappears from
the bucket, or the process stops and comes back with or without its memory; an upload in
flight may still land then. -/
inductive Action where
  | begin
  | downloaded (ok : Bool)
  | fetched (text : Option String) (now : Int)
  | bundleRead (text : Option String) (now : Int)
  | uploaded (o : Outcome)
  | scrapeDone
  | registryLost
  | metaLost
  | cancel (landed : Bool)
  | restart (landed : Bool)
  deriving DecidableEq, Repr

def registryStep (cfg : RegistryConfig η σ) (s : State η σ) : Action → Option (State η σ)
  | .begin =>
    match s.pc with
    | .idle =>
      if s.memory.registryBootstrapped then some (s.goTo .fetching)
      else some (s.goTo .bootstrapping)
    | _ => none
  | .downloaded ok =>
    match s.pc with
    | .bootstrapping =>
      match bootstrap s (if ok then s.registryMeta else none) with
      | some t => some (t.goTo .fetching)
      | none => some s.raise
    | .warming =>
      match if ok then s.registry else none with
      | none => some (s.setHash none).scrape
      | some _ => some s.scrape
    | _ => none
  | .fetched text now =>
    match s.pc, text with
    | .fetching, some text => some (offer cfg s .remote text now)
    | .fetching, none =>
      if shouldSeedFromBundle cfg s.memory then some (s.goTo .readingBundle)
      else some (warm cfg s)
    | _, _ => none
  | .bundleRead text now =>
    match s.pc, text with
    | .readingBundle, some text => some (offer cfg s .bundled text now)
    | .readingBundle, none => some (warm cfg s)
    | _, _ => none
  | .uploaded o =>
    match s.pc with
    | .puttingRegistry _ m =>
      let t := if o.landed then s.land else s
      if o = .ok then some (t.goTo (.puttingMeta m)) else some (warm cfg t)
    | .puttingMeta m =>
      let t := if o.landed then s.land else s
      if o = .ok then some (warm cfg (t.setHash (some m.sourceHash))) else some (warm cfg t)
    | _ => none
  | .scrapeDone =>
    match s.pc with
    | .scraping => some (s.goTo .idle)
    | _ => none
  | .registryLost => some { s with registry := none }
  | .metaLost => some { s with registryMeta := none }
  | .cancel landed => some ((if landed then s.land else s).goTo .idle)
  | .restart landed =>
    some { (if landed then s.land else s) with memory := .fresh, pc := .idle }

end DataService.Registry
