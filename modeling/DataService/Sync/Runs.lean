import DataService.Sync.Walk

/-! Invariants over whole runs of a loop: what a cycle keeps at each of its awaits, it
keeps wherever the cycle ends, is cancelled, or dies. -/

namespace DataService.Sync

open Coroutine Coro ExpiringStore

variable {cfg : SyncConfig} {domain : Domain} {start : Nat} {G : World → Prop} {s t : SyncState}
  {a : Action} {w : World}

/-- `G` holds now, and the running cycle keeps it. -/
def StateOk (G : World → Prop) (s : SyncState) : Prop :=
  G s.world ∧ ∀ c, s.main = some c → c.Pending ∧ Meets G (fun _ t => G t) c s.world

theorem stateOk_arrive {c : Code Unit}
    (h : Meets G (fun _ t => G t) (c.settle w).1 (c.settle w).2) :
    StateOk G (arrive (c.settle w)) := by
  rcases settle_ended_or_pending c w with ⟨a, ha⟩ | ⟨e, he⟩ | hp
  · simp only [arrive, ha] at h ⊢
    exact ⟨h, by simp⟩
  · simp only [arrive, he] at h ⊢
    exact ⟨h, by simp⟩
  · cases hc : (c.settle w).1 with
    | await f next =>
      simp only [arrive, hc] at h ⊢
      have hp : (Coro.await f next : Code Unit).Pending := trivial
      refine ⟨safe_crash hp h (.refl _), ?_⟩
      intro d hd
      cases hd
      exact ⟨hp, h⟩
    | ret a => simp [hc, Pending] at hp
    | raise e => simp [hc, Pending] at hp
    | atom f next => simp [hc, Pending] at hp

theorem stateOk_nudge (hG : LoopInvariant start G) (h : StateOk G s) (hn : Nudge s.world w) :
    StateOk G { s with world := w } := by
  refine ⟨hG.nudge hn h.1, ?_⟩
  intro c hc
  obtain ⟨hp, hm⟩ := h.2 c hc
  exact ⟨hp, safe_interfere hp (fun u hu => hn.trans hu) hm⟩

theorem runSync_meets (hG : LoopInvariant start G) (hend : ∀ t n, G t → G (t.record (.cycleEnd n)))
    (hw : G (w.record (.cycleStart w.now))) :
    Meets G (fun _ t => G t) (runSync cfg domain) w := by
  have hreset : G { w.record (.cycleStart w.now) with downloaded := 0 } :=
    hG.shrink (w.record (.cycleStart w.now)) _ rfl (Nat.le_refl _) (fun _ _ _ hn => hn) hw
  show Meets G (fun _ t => G t) (syncDomain cfg w.now domain >>= _) _
  apply meets_bind (syncDomain_meets hG hreset w.now domain)
  intro errors t ht
  exact hend t errors ht

theorem stateOk_begin (hG : LoopInvariant start G) (hend : ∀ t n, G t → G (t.record (.cycleEnd n)))
    (hw : G (s.world.record (.cycleStart s.world.now))) (hs : syncStep cfg domain s .begin = some t) :
    StateOk G t := by
  obtain ⟨w, main⟩ := s
  cases main with
  | none =>
    cases hs
    exact stateOk_arrive (safe_settle (runSync_meets hG hend hw))
  | some c => cases hs

/-- Every step but the start of a cycle. -/
theorem stateOk_step (hG : LoopInvariant start G) (h : StateOk G s) (ha : a ≠ .begin)
    (hs : syncStep cfg domain s a = some t) : StateOk G t := by
  cases a with
  | begin => exact absurd rfl ha
  | tick seconds =>
    cases hs
    exact stateOk_nudge hG h (nudge_tick s.world seconds)
  | evict key =>
    cases hs
    exact stateOk_nudge hG h (nudge_evict s.world key)
  | tile i r =>
    obtain ⟨w, hw, rfl⟩ := Option.map_eq_some_iff.mp hs
    exact stateOk_nudge hG h (nudge_tile hw)
  | resume r =>
    obtain ⟨c, hc, hs⟩ := Option.bind_eq_some_iff.mp hs
    obtain ⟨p, hp, rfl⟩ := Option.map_eq_some_iff.mp hs
    obtain ⟨d, u, rfl⟩ := answer_settled hp
    exact stateOk_arrive (safe_answer (h.2 c hc).2 (.refl _) hp)
  | kill =>
    cases hs
    exact ⟨hG.shrink s.world _ rfl (Nat.le_refl _) (.refl _) h.1, by simp⟩

/-- An invariant that speaks of the time at which the last cycle began, and that also
survives the two ends of a cycle, holds in every run. -/
theorem reachable_induction {G : Nat → World → Prop} (hG : ∀ start, LoopInvariant start (G start))
    (hstart : ∀ start w, G start w → G w.now (w.record (.cycleStart w.now)))
    (hend : ∀ start w n, G start w → G start (w.record (.cycleEnd n)))
    (hinit : ∀ now, ∃ start, G start (SyncState.initial now).world)
    (h : SyncReachable cfg domain s) : ∃ start, G start s.world := by
  obtain ⟨now, as, hrun⟩ := h
  obtain ⟨start, hs⟩ := hinit now
  have hok : ∃ start, StateOk (G start) s := by
    apply StepSystem.run_invariant (P := fun u => ∃ start, StateOk (G start) u) _
      ⟨start, hs, by simp [SyncState.initial]⟩ hrun
    rintro u a v ⟨start, hu⟩ hs
    by_cases ha : a = .begin
    · subst ha
      exact ⟨u.world.now, stateOk_begin (hG _) (hend _) (hstart start _ hu.1) hs⟩
    · exact ⟨start, stateOk_step (hG start) hu ha hs⟩
  obtain ⟨start, h⟩ := hok
  exact ⟨start, h.1⟩

end DataService.Sync
