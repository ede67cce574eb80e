import DataService.Basemap.Scraper
import DataService.Lib.StepSystem

/-! Runs of the scraper as one provider sees them: cycles begin, the coroutine and
its tile tasks are answered in any order, other providers change the shared
memory, and the process may die between any two steps. -/

namespace DataService

open Coroutine Coro

inductive Action where
  /-- `_scrape_group` calls `_scrape_provider` -/
  | begin
  /-- clocks and other providers change what is shared -/
  | env (sh : Shared)
  | tile (i : Nat) (r : TileReply)
  | resume (r : Reply)
  /-- the process dies and is started again -/
  | kill

/-- `main` is the running `_scrape_provider`, at an await. -/
structure ScraperState where
  world : World
  main : Option (Code (Nat × Nat))

def ScraperState.initial (sh : Shared) : ScraperState := ⟨⟨sh, .new, .empty, []⟩, none⟩

/-- Where the coroutine stands after running to its next await. -/
def arrive (p : Code (Nat × Nat) × World) : ScraperState :=
  match p.1 with
  | .ret _ | .raise _ => ⟨p.2, none⟩
  | c => ⟨p.2, some c⟩

def World.restart (w : World) : World :=
  { w with
    shared := .boot w.shared.mono w.shared.wall w.shared.redisWritesEnabled
    mem := .new }

def scraperStep (cfg : ScrapeConfig) (s : ScraperState) : Action → Option ScraperState
  | .begin =>
    match s.main with
    | none => some (arrive ((scrapeProvider cfg).settle s.world))
    | some _ => none
  | .env sh => some { s with world := { s.world with shared := sh } }
  | .tile i r => (s.world.tileStep i r).map fun w => { s with world := w }
  | .resume r => s.main.bind fun c => (c.answer s.world r).map arrive
  | .kill => some ⟨s.world.restart, none⟩

/-- States that some run from a fresh state file reaches. -/
def ScraperReachable (cfg : ScrapeConfig) (s : ScraperState) : Prop :=
  ∃ sh as, StepSystem.run (scraperStep cfg) (.initial sh) as = some s

end DataService
