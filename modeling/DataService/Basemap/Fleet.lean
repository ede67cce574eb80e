import Mathlib.Logic.Function.Basic
import DataService.Basemap.Cycles

/-! The scraper process over all its providers: `_run_sync` scrapes groups of providers
side by side, the providers of one group in turn, all over one memory and one state file. -/

namespace DataService

open Coroutine Coro

/-- `basemap_scrape_parallelism`; every other value is sequential. -/
inductive ParallelismMode where
  | full
  | perOrigin
  | sequential
  deriving DecidableEq, Repr

structure FleetConfig where
  settings : ScraperSettings
  providers : List BasemapProvider
  bbox : BoundingBox
  parallelismMode : ParallelismMode

def FleetConfig.scrapeConfig (cfg : FleetConfig) (p : BasemapProvider) : ScrapeConfig :=
  ⟨cfg.settings, p, cfg.bbox⟩

def buildScrapeGroups (cfg : FleetConfig) : List (List BasemapProvider) :=
  if cfg.providers = [] then []
  else
    match cfg.parallelismMode with
    | .full => cfg.providers.map ([·])
    | .perOrigin =>
      (cfg.providers.map (·.host)).eraseDups.map fun host =>
        cfg.providers.filter fun p => decide (p.host = host)
    | .sequential => [cfg.providers]

/-- The rows of one provider, and what has happened to it. -/
structure ProviderFile where
  rows : ProviderRows
  log : List Event

/-- A running `_scrape_provider`, at an await. -/
structure Sweep where
  provider : BasemapProvider
  mem : Memory
  code : Code (Nat × Nat)

/-- A running `_scrape_group`: the providers still to be scraped, and whether a
`_run_sync` waits for it. -/
structure Group where
  waiting : List BasemapProvider
  sweep : Option Sweep
  awaited : Bool

/-- `running` while a `_run_sync` waits for its groups. -/
structure FleetState where
  shared : Shared
  files : Nat → ProviderFile
  groups : List Group
  running : Bool

inductive FleetAction where
  /-- the loop calls `_run_sync` -/
  | begin
  | clocks (mono wall : Nat)
  /-- the group goes on to its next provider, or ends -/
  | scrape (group : Nat)
  | tile (group i : Nat) (r : TileReply)
  | resume (group : Nat) (r : Reply)
  | kill

namespace FleetState

/-- A new process over a state file. -/
def boot (mono wall : Nat) (redisWritesEnabled : Bool) (rows : Nat → ProviderRows) : FleetState :=
  ⟨.boot mono wall redisWritesEnabled, fun id => ⟨rows id, []⟩, [], false⟩

/-- What a sweep of this provider sees. -/
def world (s : FleetState) (p : BasemapProvider) (mem : Memory) : World :=
  ⟨s.shared, mem, (s.files p.providerId).rows, (s.files p.providerId).log⟩

def store (s : FleetState) (p : BasemapProvider) (w : World) : FleetState :=
  { s with
    shared := w.shared, files := Function.update s.files p.providerId ⟨w.rows, w.log⟩ }

def setGroup (s : FleetState) (j : Nat) (g : Group) : FleetState :=
  { s with groups := s.groups.set j g }

/-- The last group that `_run_sync` waits for ends the cycle. -/
def endGroup (s : FleetState) (j : Nat) : FleetState :=
  { s with
    groups := s.groups.eraseIdx j
    running := s.running && (s.groups.eraseIdx j).any (·.awaited) }

/-- `asyncio.gather` passes on the first exception of a group; the others run on, and
nobody waits for them. -/
def failGroup (s : FleetState) (j : Nat) (awaited : Bool) : FleetState :=
  if awaited then
    { s with
      groups := (s.groups.eraseIdx j).map fun g => { g with awaited := false }
      running := false }
  else { s with groups := s.groups.eraseIdx j }

/-- Where the group stands when its sweep has run to its next await. -/
def arriveAt (s : FleetState) (j : Nat) (g : Group) (p : BasemapProvider)
    (out : Code (Nat × Nat) × World) : FleetState :=
  match out.1 with
  | .ret _ => (s.store p out.2).setGroup j { g with sweep := none }
  | .raise _ => (s.store p out.2).failGroup j g.awaited
  | code => (s.store p out.2).setGroup j { g with sweep := some ⟨p, out.2.mem, code⟩ }

end FleetState

def fleetStep (cfg : FleetConfig) (s : FleetState) : FleetAction → Option FleetState
  | .begin =>
    if s.running then none
    else
      some
        { s with
          shared := { s.shared with storageRetryDue := false, storageDownThisCycle := false }
          groups := s.groups ++ (buildScrapeGroups cfg).map (⟨·, none, true⟩)
          running := !(buildScrapeGroups cfg).isEmpty }
  | .clocks mono wall => some { s with shared := { s.shared with mono := mono, wall := wall } }
  | .scrape j =>
    match s.groups[j]? with
    | some ⟨p :: waiting, none, awaited⟩ =>
      some (s.arriveAt j ⟨waiting, none, awaited⟩ p
        ((scrapeProvider (cfg.scrapeConfig p)).settle (s.world p .new)))
    | some ⟨[], none, _⟩ => some (s.endGroup j)
    | _ => none
  | .tile j i r =>
    s.groups[j]?.bind fun g => g.sweep.bind fun sweep =>
      ((s.world sweep.provider sweep.mem).tileStep i r).map fun w =>
        (s.store sweep.provider w).setGroup j { g with sweep := some { sweep with mem := w.mem } }
  | .resume j r =>
    s.groups[j]?.bind fun g => g.sweep.bind fun sweep =>
      (sweep.code.answer (s.world sweep.provider sweep.mem) r).map
        (s.arriveAt j g sweep.provider)
  | .kill =>
    some
      { s with
        shared := .boot s.shared.mono s.shared.wall s.shared.redisWritesEnabled
        groups := []
        running := false }

end DataService
