import Mathlib.Data.List.Flatten
import Mathlib.Data.List.Nodup
import DataService.Lib.OrderedDict
import DataService.Basemap.ScrapeLoop
import DataService.Basemap.RedisIndependence

/-! Which providers are being swept at the same time. A cycle hands every provider to one
of its groups, so two sweeps of a provider belong to two cycles. -/

namespace DataService

open Coroutine Coro

/-- The providers of a group that are not finished. -/
def Group.ids (g : Group) : List Nat :=
  (g.sweep.map (·.provider.providerId)).toList ++ g.waiting.map (·.providerId)

def FleetState.ids (s : FleetState) : List Nat := s.groups.flatMap Group.ids

/-- What a step in a cycle does to the groups: one goes on, ends, or fails, and if it fails
while `_run_sync` waits for it, `_run_sync` waits for none of the others either. -/
inductive GroupsMove (s t : FleetState) : Option ScrapeExn → Prop where
  | advanced (j : Nat) (g g' : Group) (hg : s.groups[j]? = some g)
      (hgroups : t.groups = s.groups.set j g') (hids : g'.ids.Sublist g.ids)
      (hawaited : g'.awaited = g.awaited) (hrunning : t.running = s.running) : GroupsMove s t none
  | finished (j : Nat) (hgroups : t.groups = s.groups.eraseIdx j)
      (hrunning : t.running = (s.running && (s.groups.eraseIdx j).any (·.awaited))) :
      GroupsMove s t none
  | failed (j : Nat) (g : Group) (e : ScrapeExn) (hg : s.groups[j]? = some g)
      (hawaited : g.awaited = true)
      (hgroups : t.groups = (s.groups.eraseIdx j).map fun g => { g with awaited := false })
      (hrunning : t.running = false) : GroupsMove s t (some e)
  | dropped (j : Nat) (g : Group) (hg : s.groups[j]? = some g) (hawaited : g.awaited = false)
      (hgroups : t.groups = s.groups.eraseIdx j) (hrunning : t.running = s.running) :
      GroupsMove s t none

section Moves

variable {cfg : FleetConfig} {s t : FleetState} {j : Nat} {g : Group} {p : BasemapProvider}

theorem arriveAt_moves (out : Code (Nat × Nat) × World) (g' : Group) (hg : s.groups[j]? = some g)
    (hids : g.ids = p.providerId :: g'.waiting.map (·.providerId))
    (hawaited : g'.awaited = g.awaited) :
    GroupsMove s (s.arriveAt j g' p out) (if g.awaited then out.1.exception else none) := by
  obtain ⟨c, w⟩ := out
  have hnone : ∀ code : Code (Nat × Nat), code.exception = none →
      (if g.awaited then code.exception else none) = none := by
    intro code hcode
    rw [hcode, ite_self]
  have hwait : ∀ mem code,
      GroupsMove s ((s.store p w).setGroup j { g' with sweep := some ⟨p, mem, code⟩ }) none := by
    intro mem code
    exact .advanced j g _ hg rfl (by rw [hids]; exact List.Sublist.refl _) hawaited rfl
  cases c with
  | ret x =>
    have hsub : ({ g' with sweep := none } : Group).ids.Sublist g.ids := by
      rw [hids]
      exact List.sublist_cons_self _ _
    have hmove : GroupsMove s ((s.store p w).setGroup j { g' with sweep := none }) none :=
      .advanced j g _ hg rfl hsub hawaited rfl
    rw [hnone _ rfl]
    exact hmove
  | raise e =>
    have hfail : s.arriveAt j g' p (.raise e, w) = (s.store p w).failGroup j g.awaited := by
      rw [← hawaited]
      rfl
    rw [hfail]
    cases ha : g.awaited with
    | true => exact .failed j g e hg ha rfl rfl
    | false => exact .dropped j g hg ha rfl rfl
  | atom f next =>
    rw [hnone _ rfl]
    exact hwait w.mem _
  | await f next =>
    rw [hnone _ rfl]
    exact hwait w.mem _

theorem scrape_moves (h : fleetStep cfg s (.scrape j) = some t) :
    GroupsMove s t (s.escaped cfg (.scrape j)) := by
  cases hg : s.groups[j]? with
  | none => simp [fleetStep, hg] at h
  | some g =>
    obtain ⟨waiting, sweep, awaited⟩ := g
    cases sweep with
    | some sweep => cases waiting <;> simp [fleetStep, hg] at h
    | none =>
      cases waiting with
      | nil =>
        simp only [fleetStep, hg] at h
        cases h
        have hnone : s.escaped cfg (.scrape j) = none := by simp [FleetState.escaped, hg]
        rw [hnone]
        exact .finished j rfl rfl
      | cons p waiting =>
        simp only [fleetStep, hg] at h
        cases h
        have hmove := arriveAt_moves (p := p)
          ((scrapeProvider (cfg.scrapeConfig p)).settle (s.world p .new))
          ⟨waiting, none, awaited⟩ hg rfl rfl
        cases awaited <;> simpa [FleetState.escaped, hg] using hmove

theorem resume_moves {r : Reply} (h : fleetStep cfg s (.resume j r) = some t) :
    GroupsMove s t (s.escaped cfg (.resume j r)) := by
  obtain ⟨g, hg, h⟩ := Option.bind_eq_some_iff.mp h
  obtain ⟨sweep, hsweep, h⟩ := Option.bind_eq_some_iff.mp h
  obtain ⟨out, hout, rfl⟩ := Option.map_eq_some_iff.mp h
  have hids : g.ids = sweep.provider.providerId :: g.waiting.map (·.providerId) := by
    simp [Group.ids, hsweep]
  have hmove := arriveAt_moves out g hg hids rfl
  have hescaped : s.escaped cfg (.resume j r) =
      if g.awaited then out.1.exception else none := by
    simp [FleetState.escaped, hg, hsweep, hout]
  rwa [hescaped]

theorem tile_moves {i : Nat} {r : TileReply} (h : fleetStep cfg s (.tile j i r) = some t) :
    GroupsMove s t (s.escaped cfg (.tile j i r)) := by
  obtain ⟨g, hg, h⟩ := Option.bind_eq_some_iff.mp h
  obtain ⟨sweep, hsweep, h⟩ := Option.bind_eq_some_iff.mp h
  obtain ⟨w, -, rfl⟩ := Option.map_eq_some_iff.mp h
  refine .advanced j g _ hg rfl ?_ rfl rfl
  simp [Group.ids, hsweep]

end Moves

/-- The providers of the groups are distinct, `_run_sync` waits for all groups or for none,
and between two cycles there are no groups, unless a CancelledError ends the loop. -/
structure Orderly (s : LoopState) : Prop where
  nodup : s.fleet.ids.Nodup
  awaited : ∀ g ∈ s.fleet.groups, g.awaited = s.fleet.running
  scraping : s.fleet.running = true → ∃ startedAt, s.phase = .scraping startedAt none
  drained : s.fleet.running = false → s.fleet.groups = [] ∨ s.phase = .ended ∨
    ∃ startedAt, s.phase = .scraping startedAt (some .cancelled)

/-- Unless the loop is cancelled, the group that fails is the only one left. -/
def LoopState.FailsAlone (cfg : LoopConfig) (s : LoopState) : LoopAction → Prop
  | .fleet a => ∀ e ∈ s.fleet.escaped cfg.fleet a, e = .cancelled ∨ s.fleet.groups.length ≤ 1
  | _ => True

instance (cfg : LoopConfig) (s : LoopState) : ∀ a, Decidable (s.FailsAlone cfg a)
  | .fleet a => inferInstanceAs
    (Decidable (∀ e ∈ s.fleet.escaped cfg.fleet a, e = .cancelled ∨ s.fleet.groups.length ≤ 1))
  | .begin | .conclude | .answer _ | .cancel => isTrue trivial

section Lists

variable {α β : Type*}

theorem flatMap_set_sublist {f : α → List β} {l : List α} {j : Nat} {a b : α}
    (ha : l[j]? = some a) (hb : (f b).Sublist (f a)) :
    ((l.set j b).flatMap f).Sublist (l.flatMap f) := by
  induction l generalizing j with
  | nil => cases ha
  | cons x l ih =>
    cases j with
    | zero =>
      obtain rfl : x = a := by simpa using ha
      simpa using hb.append_right (l.flatMap f)
    | succ j =>
      have htail := ih (j := j) (by simpa using ha)
      simpa using htail.append_left (f x)

end Lists

theorem sweeping_sublist_ids (s : FleetState) : s.sweeping.Sublist s.ids := by
  unfold FleetState.sweeping FleetState.ids
  induction s.groups with
  | nil => exact List.Sublist.refl _
  | cons g l ih =>
    obtain ⟨waiting, sweep, awaited⟩ := g
    cases sweep with
    | none => simpa [Group.ids] using ih.trans (List.sublist_append_right _ _)
    | some sweep =>
      have happ := ih.trans (List.sublist_append_right (waiting.map (·.providerId)) _)
      simpa [Group.ids] using happ

theorem nodup_buildScrapeGroups (cfg : LoopConfig) :
    ((buildScrapeGroups cfg.fleet).flatMap fun l => l.map (·.providerId)).Nodup := by
  have hnd := cfg.providersNodup
  unfold buildScrapeGroups
  split
  · simp
  · split
    · rw [List.flatMap_map]
      simpa only [List.map_cons, List.map_nil, ← List.map_eq_flatMap] using hnd
    · rw [List.flatMap_map, List.nodup_flatMap]
      constructor
      · intro host _
        exact hnd.sublist (List.filter_sublist.map _)
      · refine (OrderedDict.nodup_eraseDups _).imp ?_
        intro host host' hne id hid hid'
        obtain ⟨p, hp, rfl⟩ := List.mem_map.mp hid
        obtain ⟨p', hp', he⟩ := List.mem_map.mp hid'
        rw [List.mem_filter] at hp hp'
        obtain rfl : p' = p := List.inj_on_of_nodup_map hnd hp'.1 hp.1 he
        simp only [decide_eq_true_eq] at hp hp'
        exact hne (hp.2.symm.trans hp'.2)
    · simpa using hnd

section Steps

variable {cfg : LoopConfig} {s t : LoopState} {a : LoopAction}

theorem Orderly.of_move {e : Option ScrapeExn} {fleet : FleetState} (h : Orderly s)
    (hmove : GroupsMove s.fleet fleet e)
    (halone : ∀ x ∈ e, x = .cancelled ∨ s.fleet.groups.length ≤ 1) :
    Orderly { s with fleet := fleet, phase := s.phase.note e } := by
  obtain ⟨hnodup, hawaited, hscraping, hdrained⟩ := h
  have herase : ∀ j, ((s.fleet.groups.eraseIdx j).flatMap Group.ids).Sublist s.fleet.ids :=
    fun j => (List.eraseIdx_sublist _ j).flatMap _
  have hquiet : s.phase.note none = s.phase := by
    cases s.phase with
    | scraping startedAt escaped => cases escaped <;> rfl
    | computing code => rfl
    | sleeping wake => rfl
    | ended => rfl
  cases hmove with
  | advanced j g g' hg hgroups hids haw hrunning =>
    rw [hquiet]
    refine ⟨?_, ?_, ?_, ?_⟩
    · show (fleet.groups.flatMap Group.ids).Nodup
      rw [hgroups]
      exact hnodup.sublist (flatMap_set_sublist hg hids)
    · intro x hx
      show x.awaited = fleet.running
      rw [hrunning]
      rcases List.mem_or_eq_of_mem_set (hgroups ▸ hx) with hx | rfl
      · exact hawaited x hx
      · exact haw.trans (hawaited g (List.mem_of_getElem? hg))
    · exact fun hr => hscraping (hrunning.symm.trans hr)
    · intro hr
      refine (hdrained (hrunning.symm.trans hr)).imp_left fun hnil => ?_
      simp [hnil] at hg
  | finished j hgroups hrunning =>
    rw [hquiet]
    have hstill : fleet.running = true → s.fleet.running = true := by
      intro hr
      rw [hrunning, Bool.and_eq_true] at hr
      exact hr.1
    have hrest : ∀ g ∈ fleet.groups, g ∈ s.fleet.groups := by
      intro g hg
      exact List.mem_of_mem_eraseIdx (hgroups ▸ hg)
    refine ⟨?_, ?_, fun hr => hscraping (hstill hr), ?_⟩
    · show (fleet.groups.flatMap Group.ids).Nodup
      rw [hgroups]
      exact hnodup.sublist (herase j)
    · intro g hg
      show g.awaited = fleet.running
      have haw := hawaited g (hrest g hg)
      cases hr : s.fleet.running with
      | false => simp [haw, hrunning, hr]
      | true =>
        have hany : (s.fleet.groups.eraseIdx j).any (·.awaited) = true :=
          List.any_eq_true.mpr ⟨g, hgroups ▸ hg, haw.trans hr⟩
        simp [haw, hrunning, hr, hany]
    · intro hr
      cases hrun : s.fleet.running with
      | false =>
        refine (hdrained hrun).imp_left fun hnil => ?_
        show fleet.groups = []
        simp [hgroups, hnil]
      | true =>
        left
        refine List.eq_nil_iff_forall_not_mem.mpr fun g hg => ?_
        have hnone : (s.fleet.groups.eraseIdx j).any (·.awaited) = false := by
          simpa [hrunning, hrun] using hr
        have haw := List.any_eq_false.mp hnone g (hgroups ▸ hg)
        exact haw ((hawaited g (hrest g hg)).trans hrun)
  | failed j g e hg haw hgroups hrunning =>
    obtain ⟨startedAt, hphase⟩ :=
      hscraping ((hawaited g (List.mem_of_getElem? hg)).symm.trans haw)
    have hids : ∀ l : List Group,
        (l.map fun g => { g with awaited := false }).flatMap Group.ids = l.flatMap Group.ids := by
      intro l
      rw [List.flatMap_map]
      rfl
    refine ⟨?_, ?_, ?_, ?_⟩
    · show (fleet.groups.flatMap Group.ids).Nodup
      rw [hgroups, hids]
      exact hnodup.sublist (herase j)
    · intro x hx
      obtain ⟨g', -, rfl⟩ := List.mem_map.mp (hgroups ▸ hx : x ∈ List.map _ _)
      exact hrunning.symm
    · intro hr
      exact absurd (hrunning.symm.trans hr) (by decide)
    · intro _
      by_cases he : e = .cancelled
      · subst he
        right; right
        exact ⟨startedAt, by rw [hphase]; rfl⟩
      · left
        have hlen := (halone e rfl).resolve_left he
        have hj : j < s.fleet.groups.length := (List.getElem?_eq_some_iff.mp hg).1
        have hzero : (s.fleet.groups.eraseIdx j).length = 0 := by
          rw [List.length_eraseIdx_of_lt hj]
          omega
        show fleet.groups = []
        rw [hgroups, List.length_eq_zero_iff.mp hzero]
        rfl
  | dropped j g hg haw hgroups hrunning =>
    rw [hquiet]
    refine ⟨?_, ?_, fun hr => hscraping (hrunning.symm.trans hr), ?_⟩
    · show (fleet.groups.flatMap Group.ids).Nodup
      rw [hgroups]
      exact hnodup.sublist (herase j)
    · intro x hx
      show x.awaited = fleet.running
      rw [hrunning]
      exact hawaited x (List.mem_of_mem_eraseIdx (hgroups ▸ hx))
    · intro hr
      refine (hdrained (hrunning.symm.trans hr)).imp_left fun hnil => ?_
      simp [hnil] at hg

theorem Orderly.arriveAt {out : LoopCode Nat × LoopView} (h : Orderly s)
    (hdone : s.fleet.running = false) (hnil : s.fleet.groups = []) : Orderly (s.arriveAt out) := by
  have hquiet : ∀ phase, Orderly { s with phase := phase } := by
    intro phase
    refine ⟨h.nodup, h.awaited, fun hr => ?_, fun _ => .inl hnil⟩
    exact absurd (hdone.symm.trans hr) (by decide)
  obtain ⟨c, v⟩ := out
  cases c with
  | ret sleep => exact hquiet _
  | raise e => exact hquiet _
  | atom f next => exact hquiet _
  | await f next => exact hquiet _

theorem orderly_begin (h : Orderly s) (hs : loopStep cfg s .begin = some t) : Orderly t := by
  cases hphase : s.phase with
  | sleeping wake =>
    by_cases hwake : wake ≤ s.fleet.shared.mono
    · by_cases hr : s.fleet.running = true
      · simp [loopStep, hphase, hwake, fleetStep, hr] at hs
      · have hnil : s.fleet.groups = [] := by
          rcases h.drained (by simpa using hr) with hnil | hended | ⟨startedAt, hscraping⟩
          · exact hnil
          · simp [hphase] at hended
          · simp [hphase] at hscraping
        simp only [loopStep, hphase, hwake, fleetStep, hr, hnil, if_true, Bool.false_eq_true,
          if_false, List.nil_append, Option.map_some, Option.some.injEq] at hs
        subst hs
        refine ⟨?_, ?_, fun _ => ⟨_, rfl⟩, ?_⟩
        · have hnd := nodup_buildScrapeGroups cfg
          show (((buildScrapeGroups cfg.fleet).map (⟨·, none, true⟩)).flatMap Group.ids).Nodup
          rw [List.flatMap_map]
          simpa [Group.ids] using hnd
        · intro g hg
          obtain ⟨l, hl, rfl⟩ := List.mem_map.mp hg
          show true = !(buildScrapeGroups cfg.fleet).isEmpty
          simp [List.ne_nil_of_mem hl]
        · intro hr'
          left
          have hempty : buildScrapeGroups cfg.fleet = [] := by simpa using hr'
          show (buildScrapeGroups cfg.fleet).map _ = []
          rw [hempty]
          rfl
    · simp [loopStep, hphase, hwake] at hs
  | scraping startedAt escaped => simp [loopStep, hphase] at hs
  | computing code => simp [loopStep, hphase] at hs
  | ended => simp [loopStep, hphase] at hs

theorem orderly_fleet {x : FleetAction} (h : Orderly s) (halone : s.FailsAlone cfg (.fleet x))
    (hs : loopStep cfg s (.fleet x) = some t) : Orderly t := by
  cases x with
  | begin => cases hs
  | clocks mono wall =>
    by_cases hm : s.fleet.shared.mono ≤ mono
    · simp only [loopStep, hm, if_true, fleetStep, Option.map_some, Option.some.injEq] at hs
      subst hs
      exact ⟨h.nodup, h.awaited, h.scraping, h.drained⟩
    · simp [loopStep, hm] at hs
  | scrape j =>
    obtain ⟨fleet, hf, rfl⟩ := Option.map_eq_some_iff.mp hs
    exact h.of_move (scrape_moves hf) halone
  | tile j i r =>
    obtain ⟨fleet, hf, rfl⟩ := Option.map_eq_some_iff.mp hs
    exact h.of_move (tile_moves hf) halone
  | resume j r =>
    obtain ⟨fleet, hf, rfl⟩ := Option.map_eq_some_iff.mp hs
    exact h.of_move (resume_moves hf) halone
  | kill =>
    cases hs
    refine ⟨List.nodup_nil, ?_, ?_, ?_⟩
    · intro g hg
      cases hg
    · intro hr
      cases hr
    · exact fun _ => .inl rfl

theorem orderly_step (h : Orderly s) (halone : s.FailsAlone cfg a)
    (hs : loopStep cfg s a = some t) : Orderly t := by
  cases a with
  | begin => exact orderly_begin h hs
  | fleet x => exact orderly_fleet h halone hs
  | conclude =>
    cases hphase : s.phase with
    | scraping startedAt escaped =>
      cases hr : s.fleet.running with
      | true => simp [loopStep, hphase, hr] at hs
      | false =>
        simp only [loopStep, hphase, hr, Bool.false_eq_true, if_false, Option.some.injEq] at hs
        subst hs
        unfold LoopState.conclude
        split
        · refine ⟨h.nodup, h.awaited, fun hr' => ?_, fun _ => .inr (.inl rfl)⟩
          exact absurd (hr.symm.trans hr') (by decide)
        · next hnot =>
          have hnil : s.fleet.groups = [] := by
            rcases h.drained hr with hnil | hended | ⟨startedAt', hscraping⟩
            · exact hnil
            · simp [hphase] at hended
            · rw [hphase, LoopPhase.scraping.injEq] at hscraping
              exact absurd hscraping.2 hnot
          refine Orderly.arriveAt ⟨h.nodup, h.awaited, fun hr' => ?_, fun _ => .inl hnil⟩ hr hnil
          exact absurd (hr.symm.trans hr') (by decide)
    | computing code => simp [loopStep, hphase] at hs
    | sleeping wake => simp [loopStep, hphase] at hs
    | ended => simp [loopStep, hphase] at hs
  | answer r =>
    cases hphase : s.phase with
    | computing code =>
      simp only [loopStep, hphase, Option.map_eq_some_iff] at hs
      obtain ⟨out, -, rfl⟩ := hs
      have hr : s.fleet.running = false := by
        by_contra hr
        obtain ⟨startedAt, hscraping⟩ := h.scraping (by simpa using hr)
        simp [hphase] at hscraping
      have hnil : s.fleet.groups = [] := by
        rcases h.drained hr with hnil | hended | ⟨startedAt, hscraping⟩
        · exact hnil
        · simp [hphase] at hended
        · simp [hphase] at hscraping
      exact h.arriveAt hr hnil
    | scraping startedAt escaped => simp [loopStep, hphase] at hs
    | sleeping wake => simp [loopStep, hphase] at hs
    | ended => simp [loopStep, hphase] at hs
  | cancel =>
    cases hphase : s.phase with
    | sleeping wake =>
      simp only [loopStep, hphase, Option.some.injEq] at hs
      subst hs
      refine ⟨h.nodup, h.awaited, fun hr => ?_, fun _ => .inr (.inl rfl)⟩
      obtain ⟨startedAt, hscraping⟩ := h.scraping hr
      simp [hphase] at hscraping
    | scraping startedAt escaped => simp [loopStep, hphase] at hs
    | computing code => simp [loopStep, hphase] at hs
    | ended => simp [loopStep, hphase] at hs

end Steps

theorem orderly_boot (mono wall : Nat) (redisWrites : Bool) (rows : Nat → ProviderRows) :
    Orderly (.boot mono wall redisWrites rows) := by
  refine ⟨List.nodup_nil, ?_, ?_, fun _ => .inl rfl⟩
  · intro g hg
    cases hg
  · intro hr
    cases hr

/-- For all providers, modes, state files, schedules and restarts: as long as every group
that fails is the last one of its cycle, no two running sweeps are of one provider. -/
theorem sweeping_nodup_of_fails_alone (cfg : LoopConfig) (mono wall : Nat) (redisWrites : Bool)
    (rows : Nat → ProviderRows) (as : List LoopAction) (s : LoopState)
    (h : StepSystem.run (loopStep cfg) (.boot mono wall redisWrites rows) as = some s)
    (halone : StepSystem.Along (loopStep cfg) (LoopState.FailsAlone cfg)
      (.boot mono wall redisWrites rows) as) : s.fleet.sweeping.Nodup := by
  have hs : Orderly s := StepSystem.run_invariant_along (fun s a t => orderly_step)
    (orderly_boot mono wall redisWrites rows) halone h
  exact hs.nodup.sublist (sweeping_sublist_ids s.fleet)

/-- Two providers of two hosts, side by side. -/
def twoProviderLoop : LoopConfig where
  fleet :=
    { settings := singleTileConfig.settings, providers := [⟨0, 0, 3, 4⟩, ⟨1, 1, 3, 4⟩],
      bbox := singleTileConfig.bbox, parallelismMode := .full }
  providersNodup := by decide

/-- The first query of the first sweep raises while the second sweep waits for its own. -/
def lockedFileRun : List LoopAction :=
  [.begin, .fleet (.scrape 0), .fleet (.scrape 1),
    .fleet (.resume 0 (.raised .operationalError false)), .conclude]

/-- No provider was ever scraped, so the next sleep is 0, and the second provider is swept
again beside its running sweep. -/
def secondSweepRun : List LoopAction :=
  lockedFileRun ++ List.replicate 6 (LoopAction.answer .ok) ++
    [LoopAction.begin, .fleet (.scrape 2)]

theorem loop_run_any (cfg : LoopConfig) (as : List LoopAction) (P : LoopState → Prop)
    [DecidablePred P] (h : (StepSystem.run (loopStep cfg) (.boot 0 1000 false fun _ => .empty)
      as).any (fun s => P s) = true) :
    ∃ s, StepSystem.run (loopStep cfg) (.boot 0 1000 false fun _ => .empty) as = some s ∧ P s := by
  obtain ⟨s, hs, hp⟩ := (Option.any_eq_true _ _).mp h
  exact ⟨s, hs, of_decide_eq_true hp⟩

theorem sweeping_nodup_of_fails_alone_together : ∃ s,
    StepSystem.run (loopStep twoProviderLoop) (.boot 0 1000 false fun _ => .empty)
      [.begin, .fleet (.scrape 0), .fleet (.scrape 1)] = some s ∧
    s.fleet.sweeping = [0, 1] ∧ s.fleet.sweeping.Nodup := by
  obtain ⟨s, hs, hp⟩ := loop_run_any twoProviderLoop
    [.begin, .fleet (.scrape 0), .fleet (.scrape 1)] (fun s => s.fleet.sweeping = [0, 1])
    (by decide)
  exact ⟨s, hs, hp, sweeping_nodup_of_fails_alone _ _ _ _ _ _ s hs (by decide)⟩

/-- An exception of one group lets the loop go on beside a sweep that nobody waits for. -/
theorem two_sweeps_of_one_provider : ¬ ∀ cfg mono wall redisWrites rows as s,
    StepSystem.run (loopStep cfg) (.boot mono wall redisWrites rows) as = some s →
      s.fleet.sweeping.Nodup := by
  intro h
  obtain ⟨s, hs, hp⟩ := loop_run_any twoProviderLoop secondSweepRun
    (fun s => ¬ s.fleet.sweeping.Nodup) (by decide)
  exact hp (h _ _ _ _ _ _ s hs)

end DataService
