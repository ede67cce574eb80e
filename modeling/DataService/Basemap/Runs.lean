import DataService.Basemap.CycleWalk

/-! The books hold in every state of every run: whatever the tiles answer, in
whatever order they finish, wherever cycles trip, are cancelled or die. -/

namespace DataService

open Coroutine Coro

/-- Between cycles the books are closed; within one the coroutine keeps them. -/
def StateOk (cfg : ScrapeConfig) (s : ScraperState) : Prop :=
  match s.main with
  | none => Resting cfg s.world
  | some c => c.Pending ∧ Meets (Good cfg) (Resting cfg) (fun _ => Resting cfg) c s.world

theorem stateOk_arrive {cfg : ScrapeConfig} {c : Code (Nat × Nat)} {w : World}
    (h : Meets (Good cfg) (Resting cfg) (fun _ => Resting cfg) (c.settle w).1 (c.settle w).2) :
    StateOk cfg (arrive (c.settle w)) := by
  rcases settle_ended_or_pending c w with ⟨a, ha⟩ | ⟨e, he⟩ | hp
  · simp only [arrive, ha] at h ⊢
    exact h
  · simp only [arrive, he] at h ⊢
    exact h
  · cases hc : (c.settle w).1 with
    | await f next =>
      simp only [arrive, hc] at h ⊢
      exact ⟨trivial, h⟩
    | ret a => simp [hc, Pending] at hp
    | raise e => simp [hc, Pending] at hp
    | atom f next => simp [hc, Pending] at hp

theorem StateOk.good {cfg : ScrapeConfig} {s : ScraperState} (h : StateOk cfg s) :
    Good cfg s.world := by
  obtain ⟨w, main⟩ := s
  cases main with
  | none => exact Resting.good h
  | some c => exact safe_crash h.1 h.2 .refl

theorem stateOk_nudge {cfg : ScrapeConfig} {s : ScraperState} {w : World} (h : StateOk cfg s)
    (hn : Nudge s.world w) : StateOk cfg { s with world := w } := by
  obtain ⟨w₀, main⟩ := s
  cases main with
  | none => exact stable_resting w₀ w hn h
  | some c => exact ⟨h.1, safe_interfere h.1 (fun u hu => hu.head hn) h.2⟩

theorem stateOk_step {cfg : ScrapeConfig} {s t : ScraperState} {a : Action} (h : StateOk cfg s)
    (hs : scraperStep cfg s a = some t) : StateOk cfg t := by
  obtain ⟨w, main⟩ := s
  cases a with
  | begin =>
    cases main with
    | none =>
      cases hs
      exact stateOk_arrive (safe_settle (scrapeProvider_meets h))
    | some c => cases hs
  | env sh =>
    cases hs
    exact stateOk_nudge h (.env w sh)
  | tile i r =>
    obtain ⟨w', hw, rfl⟩ := Option.map_eq_some_iff.mp hs
    exact stateOk_nudge h (.tile hw)
  | resume r =>
    cases main with
    | none => cases hs
    | some c =>
      obtain ⟨p, hp, rfl⟩ := Option.map_eq_some_iff.mp hs
      obtain ⟨d, u, rfl⟩ := answer_settled hp
      exact stateOk_arrive (safe_answer h.2 .refl hp)
  | kill =>
    cases hs
    exact ⟨h.good.of_eq rfl rfl (.inl rfl), rfl, rfl⟩

theorem stateOk_initial (cfg : ScrapeConfig) (sh : Shared) : StateOk cfg (.initial sh) := by
  refine ⟨⟨?_, ?_, ?_, ?_⟩, rfl, rfl⟩
  · intro l₁ e l₂ hl
    simp [ScraperState.initial] at hl
  · exact fun t ht => absurd ht (FailedTiles.not_mem_empty t)
  · exact fun hc => by cases hc
  · exact fun c hc => by cases hc

theorem good_of_reachable {cfg : ScrapeConfig} {s : ScraperState} (h : ScraperReachable cfg s) :
    Good cfg s.world := by
  obtain ⟨sh, as, hrun⟩ := h
  exact (StepSystem.run_invariant (fun _ _ _ hok hst => stateOk_step hok hst)
    (stateOk_initial cfg sh) hrun).good

end DataService
