import DataService.Basemap.CycleAccounts

/-! When the loop may scrape again at once: after a cycle that got past a gate and left the
rows as they were, only if an exception ended it. -/

namespace DataService

open Coroutine Coro

section Sleep

variable {cfg : LoopConfig} {v : LoopView}

/-- `_compute_next_sleep` counts the provider among those that are ready. -/
def ready (interval now : Nat) (rows : ProviderRows) : Prop :=
  cooldownRemaining rows.health now = 0 ∧
    (rows.cursor.isSome = true ∨ remainingUntilDue interval rows.lastCompleted now = 0)

instance (interval now : Nat) (rows : ProviderRows) : Decidable (ready interval now rows) :=
  inferInstanceAs (Decidable (_ ∧ _))

def SameFiles (v v' : LoopView) : Prop := v'.files = v.files

theorem SameFiles.trans {v v' v'' : LoopView} (h : SameFiles v v') (h' : SameFiles v' v'') :
    SameFiles v v'' := Eq.trans h' h

/-- As long as the files stay as they are, the sleep that comes out is a long one. -/
def Rests (code : LoopCode Nat) (v : LoopView) : Prop :=
  code.Honours SameFiles SameFiles (fun sleep _ => 60000 ≤ sleep) (fun _ _ => True) v

theorem rests_ask {α : Type} {p : BasemapProvider} {f : ProviderRows → α} {k : α → LoopCode Nat}
    (hk : ∀ v', SameFiles v v' → Rests (k (f (v.files p.providerId).rows)) v') :
    Rests (ask p f >>= k) v := by
  refine honours_bind (honours_call (fun v' hv r a u hu => ?_) fun v' _ r e u hu => ?_)
  · cases r <;> cases hu
    refine ⟨rfl, ?_⟩
    have hfiles : v'.files = v.files := hv
    rw [hfiles]
    exact hk v' hv
  · cases r <;> cases hu
    exact ⟨rfl, trivial⟩

theorem rests_nextSleepOver {interval now : Nat} {ps : List BasemapProvider} (soonest : Nat)
    (h : ∀ p ∈ ps, ¬ ready interval now (v.files p.providerId).rows) :
    Rests (nextSleepOver interval now ps soonest false) v := by
  induction ps generalizing soonest v with
  | nil => exact le_max_left 60000 soonest
  | cons p ps ih =>
    have hp := h p List.mem_cons_self
    have hrest (v' : LoopView) (hv : SameFiles v v') (n : Nat) :
        Rests (nextSleepOver interval now ps n false) v' := by
      refine ih n fun q hq => ?_
      have hfiles : v'.files = v.files := hv
      rw [hfiles]
      exact h q (List.mem_cons_of_mem _ hq)
    refine rests_ask fun v₁ hv₁ => ?_
    by_cases hcooldown : 0 < cooldownRemaining (v.files p.providerId).rows.health now
    · rw [if_pos hcooldown]
      exact hrest v₁ hv₁ _
    · rw [if_neg hcooldown]
      have hzero : cooldownRemaining (v.files p.providerId).rows.health now = 0 := by omega
      have hfiles₁ : v₁.files = v.files := hv₁
      refine rests_ask fun v₂ hv₂ => ?_
      rw [hfiles₁]
      by_cases hcursor : (v.files p.providerId).rows.cursor.isSome = true
      · exact absurd ⟨hzero, .inl hcursor⟩ hp
      · rw [if_neg hcursor]
        have hfiles₂ : v₂.files = v.files := hv₁.trans hv₂
        refine rests_ask fun v₃ hv₃ => ?_
        rw [hfiles₂]
        by_cases hdue : remainingUntilDue interval (v.files p.providerId).rows.lastCompleted now = 0
        · exact absurd ⟨hzero, .inr hdue⟩ hp
        · rw [if_neg hdue]
          exact hrest v₃ ((hv₁.trans hv₂).trans hv₃) _

theorem rests_computeNextSleep (default : Nat) (h : v.shared.storageRetryDue = true ∨
    ∀ p ∈ cfg.fleet.providers,
      ¬ ready cfg.fleet.settings.scrapeInterval v.shared.wall (v.files p.providerId).rows) :
    Rests (computeNextSleep cfg default) v := by
  refine ⟨rfl, ?_⟩
  show Rests (if v.shared.storageRetryDue then _ else _) v
  by_cases hretry : v.shared.storageRetryDue = true
  · rw [if_pos hretry]
    exact le_rfl
  · rw [if_neg hretry]
    exact ⟨rfl, rests_nextSleepOver default (h.resolve_left hretry)⟩

end Sleep

/-- A provider got past its gates, and the rows of all providers are what they were. -/
structure CycleRecord.Fruitless (cfg : LoopConfig) (r : CycleRecord) : Prop where
  passed : ∃ p ∈ cfg.fleet.providers, cyclesStarted (r.before p.providerId).log <
    cyclesStarted (r.after p.providerId).log
  unchanged : ∀ p ∈ cfg.fleet.providers, (r.before p.providerId).rows.Same (r.after p.providerId).rows

instance (cfg : LoopConfig) (r : CycleRecord) : Decidable (r.Fruitless cfg) :=
  decidable_of_iff ((∃ p ∈ cfg.fleet.providers, cyclesStarted (r.before p.providerId).log <
      cyclesStarted (r.after p.providerId).log) ∧
    ∀ p ∈ cfg.fleet.providers, (r.before p.providerId).rows.Same (r.after p.providerId).rows)
    ⟨fun h => ⟨h.1, h.2⟩, fun h => ⟨h.passed, h.unchanged⟩⟩

namespace LoopState

/-- If the next cycle starts now, then a minute after one that was fruitless. -/
def StartsRested (cfg : LoopConfig) (s : LoopState) : Prop :=
  ∀ t, loopStep cfg s .begin = some t → ∀ r ∈ s.record, r.Fruitless cfg →
    r.endedAt + 60000 ≤ s.fleet.shared.mono

def caught (s : LoopState) : Option ScrapeExn :=
  match s.phase with
  | .scraping _ escaped => escaped.filter (· ≠ .cancelled)
  | _ => none

/-- After a fruitless cycle that an exception has ended the storage retry is due, or no
provider is ready. The wall clock does not go back. -/
def HoldsBack (cfg : LoopConfig) (s : LoopState) : LoopAction → Prop
  | .conclude => ∀ _e ∈ s.caught, ∀ r ∈ s.record,
      CycleRecord.Fruitless cfg { r with after := s.fleet.files } →
        s.fleet.shared.storageRetryDue = true ∨ ∀ p ∈ cfg.fleet.providers,
          ¬ ready cfg.fleet.settings.scrapeInterval s.fleet.shared.wall
            (s.fleet.files p.providerId).rows
  | .fleet (.clocks _ wall) => s.fleet.shared.wall ≤ wall
  | _ => True

instance (cfg : LoopConfig) (s : LoopState) : ∀ a, Decidable (s.HoldsBack cfg a)
  | .conclude => inferInstanceAs (Decidable (∀ _e ∈ s.caught, ∀ r ∈ s.record,
      CycleRecord.Fruitless cfg { r with after := s.fleet.files } →
        s.fleet.shared.storageRetryDue = true ∨ ∀ p ∈ cfg.fleet.providers,
          ¬ ready cfg.fleet.settings.scrapeInterval s.fleet.shared.wall
            (s.fleet.files p.providerId).rows))
  | .fleet (.clocks _ wall) => inferInstanceAs (Decidable (s.fleet.shared.wall ≤ wall))
  | .begin | .answer _ | .cancel | .fleet .begin | .fleet (.scrape _) | .fleet (.tile ..)
  | .fleet (.resume ..) | .fleet .kill => isTrue trivial

/-- The cycles end so that the loop knows when to rest. -/
def EndsWell (cfg : LoopConfig) (s : LoopState) (a : LoopAction) : Prop :=
  s.FailsAlone cfg a ∧ s.HoldsBack cfg a

instance (cfg : LoopConfig) (s : LoopState) (a : LoopAction) : Decidable (s.EndsWell cfg a) :=
  inferInstanceAs (Decidable (_ ∧ _))

end LoopState

/-- What is known of the last cycle, and of the sleep after it. -/
structure Accountable (cfg : LoopConfig) (s : LoopState) : Prop where
  orderly : Orderly s
  scraping : ∀ startedAt, s.phase = .scraping startedAt none →
    ∃ r, s.record = some r ∧ s.fleet.Accounts r.before
  computing : ∀ code, s.phase = .computing code → ∀ r ∈ s.record, r.Fruitless cfg →
    r.endedAt ≤ s.fleet.shared.mono ∧ code.Settled ∧ Rests code s.fleet.view
  sleeping : ∀ wake, s.phase = .sleeping wake → ∀ r ∈ s.record, r.Fruitless cfg →
    r.endedAt + 60000 ≤ wake

section Loop

variable {cfg : LoopConfig} {s t : LoopState} {a : LoopAction}

theorem Orderly.awaited_true (h : Orderly s) {startedAt : Nat}
    (hphase : s.phase = .scraping startedAt none) : ∀ g ∈ s.fleet.groups, g.awaited = true := by
  intro g hg
  rw [h.awaited g hg]
  by_contra hr
  rcases h.drained (by simpa using hr) with hnil | hended | ⟨startedAt', hcancelled⟩
  · rw [hnil] at hg
    exact absurd hg List.not_mem_nil
  · simp [hphase] at hended
  · simp [hphase] at hcancelled

/-- The loop computes and sleeps while no group is left. -/
theorem Orderly.groups_nil (h : Orderly s) (hscraping : ∀ startedAt e, s.phase ≠ .scraping startedAt e)
    (hended : s.phase ≠ .ended) : s.fleet.groups = [] := by
  have hr : s.fleet.running = false := by
    by_contra hr
    obtain ⟨startedAt, hphase⟩ := h.scraping (by simpa using hr)
    exact hscraping _ _ hphase
  rcases h.drained hr with hnil | hphase | ⟨startedAt, hphase⟩
  · exact hnil
  · exact absurd hphase hended
  · exact absurd hphase (hscraping _ _)

theorem accountable_ended (horderly : Orderly s) (hphase : s.phase = .ended) : Accountable cfg s := by
  refine ⟨horderly, fun _ h => ?_, fun _ h => ?_, fun _ h => ?_⟩
  · simp [hphase] at h
  · simp [hphase] at h
  · simp [hphase] at h

theorem Accountable.arriveAt {out : LoopCode Nat × LoopView} (horderly : Orderly (s.arriveAt out))
    (hsettled : out.1.Settled) (hrest : ∀ r ∈ s.record, r.Fruitless cfg →
      r.endedAt ≤ s.fleet.shared.mono ∧ Rests out.1 s.fleet.view) :
    Accountable cfg (s.arriveAt out) := by
  obtain ⟨c, v⟩ := out
  cases c with
  | ret sleep =>
    refine ⟨horderly, fun _ h => ?_, fun _ h => ?_, fun wake hwake r hr hfruitless => ?_⟩
    · cases h
    · cases h
    · obtain ⟨hend, hsleep⟩ := hrest r hr hfruitless
      have hsleep' : 60000 ≤ sleep := hsleep
      obtain rfl : s.fleet.shared.mono + sleep = wake := by simpa [LoopState.arriveAt] using hwake
      omega
  | raise e => exact accountable_ended horderly rfl
  | atom f next => exact hsettled.elim
  | await f next =>
    refine ⟨horderly, fun _ h => ?_, fun code hcode r hr hfruitless => ?_, fun _ h => ?_⟩
    · cases h
    · obtain ⟨hend, hrests⟩ := hrest r hr hfruitless
      obtain rfl : (.await f next : LoopCode Nat) = code := by simpa [LoopState.arriveAt] using hcode
      exact ⟨hend, trivial, hrests⟩
    · cases h

theorem rests_same {code : LoopCode Nat} {v v' : LoopView} (hsettled : code.Settled)
    (h : Rests code v) (hv : SameFiles v v') : Rests code v' :=
  honours_rely (R := SameFiles) (fun _ _ _ h h' => h.trans h') hsettled h hv (fun _ hq => hq)
    fun _ _ => trivial

theorem rests_settle {code : LoopCode Nat} {v : LoopView} (h : Rests code v) :
    Rests (code.settle v).1 v := by
  obtain ⟨hfiles, hrests⟩ := honours_settle (G := SameFiles) (fun _ => rfl)
    (fun _ _ _ h h' => h.trans h') h
  exact rests_same (settled_settle _ _) hrests (Eq.symm hfiles)

theorem rests_answer {code : LoopCode Nat} {v : LoopView} {r : Reply} {out : LoopCode Nat × LoopView}
    (h : Rests code v) (hout : code.answer v r = some out) : Rests out.1 v := by
  obtain ⟨hfiles, hrests⟩ := honours_answer (G := SameFiles) (fun _ => rfl)
    (fun _ _ _ h h' => h.trans h') h rfl hout
  exact rests_same (settled_answer hout) hrests (Eq.symm hfiles)

theorem accountable_begin (h : Accountable cfg s) (horderly : Orderly t)
    (hs : loopStep cfg s .begin = some t) : Accountable cfg t := by
  cases hphase : s.phase with
  | sleeping wake =>
    have hnil := h.orderly.groups_nil (by simp [hphase]) (by simp [hphase])
    by_cases hwake : wake ≤ s.fleet.shared.mono
    · by_cases hr : s.fleet.running = true
      · simp [loopStep, hphase, hwake, fleetStep, hr] at hs
      · simp only [loopStep, hphase, hwake, fleetStep, hr, hnil, if_true, Bool.false_eq_true,
          if_false, List.nil_append, Option.map_some, Option.some.injEq] at hs
        subst hs
        refine ⟨horderly, fun _ _ => ⟨_, rfl, ?_⟩, (fun _ hc => by cases hc),
          (fun _ hc => by cases hc)⟩
        refine ⟨fun _ _ _ _ => rfl, fun g hg sweep hsweep => ?_, fun _ _ => .inl rfl⟩
        obtain ⟨l, -, rfl⟩ := List.mem_map.mp hg
        cases hsweep
    · simp [loopStep, hphase, hwake] at hs
  | scraping startedAt escaped => simp [loopStep, hphase] at hs
  | computing code => simp [loopStep, hphase] at hs
  | ended => simp [loopStep, hphase] at hs

theorem Accountable.of_groups (h : Accountable cfg s) {fleet : FleetState} {e : Option ScrapeExn}
    (horderly : Orderly { s with fleet := fleet, phase := s.phase.note e })
    (hgroups : s.fleet.groups ≠ [])
    (haccounts : ∀ before, s.fleet.Accounts before → (∀ g ∈ s.fleet.groups, g.awaited = true) →
      e = none → fleet.Accounts before) :
    Accountable cfg { s with fleet := fleet, phase := s.phase.note e } := by
  have hbusy : (∃ startedAt escaped, s.phase = .scraping startedAt escaped) ∨ s.phase = .ended := by
    by_contra hnot
    rw [not_or] at hnot
    exact hgroups (h.orderly.groups_nil (fun _ _ hphase => hnot.1 ⟨_, _, hphase⟩) hnot.2)
  rcases hbusy with ⟨startedAt, escaped, hphase⟩ | hphase
  · have hnote : s.phase.note e = .scraping startedAt (escaped.or e) := by
      rw [hphase]
      cases escaped <;> rfl
    refine ⟨horderly, fun startedAt' hnone => ?_, fun _ hc => ?_, fun _ hc => ?_⟩
    · have hboth : s.phase.note e = .scraping startedAt' none := hnone
      rw [hnote, LoopPhase.scraping.injEq, Option.or_eq_none_iff] at hboth
      obtain ⟨rfl, rfl, rfl⟩ := hboth
      obtain ⟨r, hr, hbefore⟩ := h.scraping _ hphase
      exact ⟨r, hr, haccounts r.before hbefore (h.orderly.awaited_true hphase) rfl⟩
    · exact absurd (hnote.symm.trans hc) (by simp)
    · exact absurd (hnote.symm.trans hc) (by simp)
  · refine accountable_ended horderly ?_
    show s.phase.note e = .ended
    rw [hphase]
    rfl

theorem accountable_fleet {x : FleetAction} (hinterval : 0 < cfg.fleet.settings.scrapeInterval)
    (hschedule : ∀ c ∈ cfg.fleet.settings.cooldownSchedule, 0 < c) (h : Accountable cfg s)
    (hG : s.HoldsBack cfg (.fleet x)) (horderly : Orderly t)
    (hs : loopStep cfg s (.fleet x) = some t) : Accountable cfg t := by
  cases x with
  | begin => cases hs
  | clocks mono wall =>
    by_cases hm : s.fleet.shared.mono ≤ mono
    · simp only [loopStep, hm, if_true, fleetStep, Option.map_some, Option.some.injEq] at hs
      subst hs
      refine ⟨horderly, fun startedAt hphase => ?_, fun code hphase r hr hfruitless => ?_, h.sleeping⟩
      · obtain ⟨r, hr, hbefore⟩ := h.scraping startedAt hphase
        exact ⟨r, hr, hbefore.clocks mono hG⟩
      · obtain ⟨hend, hsettled, hrests⟩ := h.computing code hphase r hr hfruitless
        exact ⟨hend.trans hm, hsettled, rests_same hsettled hrests rfl⟩
    · simp [loopStep, hm] at hs
  | scrape j =>
    obtain ⟨fleet, hf, rfl⟩ := Option.map_eq_some_iff.mp hs
    have hgroups : s.fleet.groups ≠ [] := by
      intro hnil
      simp [fleetStep, hnil] at hf
    exact h.of_groups horderly hgroups fun before hbefore hawaited hend =>
      FleetState.accounts_scrape hinterval hschedule hbefore h.orderly.nodup hawaited hend hf
  | tile j i r =>
    obtain ⟨fleet, hf, rfl⟩ := Option.map_eq_some_iff.mp hs
    have hgroups : s.fleet.groups ≠ [] := by
      intro hnil
      simp [fleetStep, hnil] at hf
    exact h.of_groups horderly hgroups fun before hbefore _ _ =>
      FleetState.accounts_tile hbefore h.orderly.nodup hf
  | resume j r =>
    obtain ⟨fleet, hf, rfl⟩ := Option.map_eq_some_iff.mp hs
    have hgroups : s.fleet.groups ≠ [] := by
      intro hnil
      simp [fleetStep, hnil] at hf
    exact h.of_groups horderly hgroups fun before hbefore hawaited hend =>
      FleetState.accounts_resume hbefore h.orderly.nodup hawaited hend hf
  | kill =>
    cases hs
    exact ⟨horderly, (fun _ hc => by cases hc), (fun _ hc => by cases hc),
      (fun _ _ _ hr => by cases hr)⟩

theorem accountable_conclude (h : Accountable cfg s) (hG : s.HoldsBack cfg .conclude)
    (horderly : Orderly t) (hs : loopStep cfg s .conclude = some t) : Accountable cfg t := by
  cases hphase : s.phase with
  | scraping startedAt escaped =>
    cases hrunning : s.fleet.running with
    | true => simp [loopStep, hphase, hrunning] at hs
    | false =>
      simp only [loopStep, hphase, hrunning, Bool.false_eq_true, if_false, Option.some.injEq] at hs
      subst hs
      by_cases hcancelled : escaped = some .cancelled
      · simp only [LoopState.conclude, if_pos hcancelled] at horderly ⊢
        exact accountable_ended horderly rfl
      · simp only [LoopState.conclude, if_neg hcancelled] at horderly ⊢
        refine .arriveAt horderly (settled_settle _ _) fun r' hr' hfruitless => ?_
        obtain ⟨r, hr, rfl⟩ := Option.map_eq_some_iff.mp hr'
        refine ⟨le_rfl, rests_settle (rests_computeNextSleep _ ?_)⟩
        cases escaped with
        | some e =>
          have hcaught : s.caught = some e := by
            have he : e ≠ .cancelled := fun he => hcancelled (congrArg some he)
            simp [LoopState.caught, hphase, Option.filter, he]
          exact hG e hcaught r hr ⟨hfruitless.passed, hfruitless.unchanged⟩
        | none =>
          -- every provider has spent the cycle, and none by changing its rows
          left
          obtain ⟨r₀, hr₀, hbefore⟩ := h.scraping startedAt hphase
          obtain rfl : r₀ = r := Option.some.inj (hr₀.symm.trans hr)
          have hnil : s.fleet.ids = [] := by
            rcases h.orderly.drained hrunning with hgroups | hended | ⟨_, hscraping⟩
            · simp [FleetState.ids, hgroups]
            · simp [hphase] at hended
            · simp [hphase] at hscraping
          obtain ⟨p, hp, hpassed⟩ := hfruitless.passed
          rcases hbefore.finished p.providerId (by simp [hnil]) with hstarted | hretry | hrows
          · exact absurd hstarted.symm hpassed.ne
          · exact hretry
          · exact absurd (hfruitless.unchanged p hp) hrows
  | computing code => simp [loopStep, hphase] at hs
  | sleeping wake => simp [loopStep, hphase] at hs
  | ended => simp [loopStep, hphase] at hs

theorem accountable_step (hinterval : 0 < cfg.fleet.settings.scrapeInterval)
    (hschedule : ∀ c ∈ cfg.fleet.settings.cooldownSchedule, 0 < c) (h : Accountable cfg s)
    (hG : s.EndsWell cfg a) (hs : loopStep cfg s a = some t) : Accountable cfg t := by
  have horderly := orderly_step h.orderly hG.1 hs
  cases a with
  | begin => exact accountable_begin h horderly hs
  | fleet x => exact accountable_fleet hinterval hschedule h hG.2 horderly hs
  | conclude => exact accountable_conclude h hG.2 horderly hs
  | answer r =>
    cases hphase : s.phase with
    | computing code =>
      simp only [loopStep, hphase, Option.map_eq_some_iff] at hs
      obtain ⟨out, hout, rfl⟩ := hs
      refine .arriveAt horderly (settled_answer hout) fun r hr hfruitless => ?_
      obtain ⟨hend, -, hrests⟩ := h.computing code hphase r hr hfruitless
      exact ⟨hend, rests_answer hrests hout⟩
    | scraping startedAt escaped => simp [loopStep, hphase] at hs
    | sleeping wake => simp [loopStep, hphase] at hs
    | ended => simp [loopStep, hphase] at hs
  | cancel =>
    cases hphase : s.phase with
    | sleeping wake =>
      simp only [loopStep, hphase, Option.some.injEq] at hs
      subst hs
      exact accountable_ended horderly rfl
    | scraping startedAt escaped => simp [loopStep, hphase] at hs
    | computing code => simp [loopStep, hphase] at hs
    | ended => simp [loopStep, hphase] at hs

theorem Accountable.startsRested (h : Accountable cfg s) : s.StartsRested cfg := by
  intro t ht r hr hfruitless
  cases hphase : s.phase with
  | sleeping wake =>
    by_cases hwake : wake ≤ s.fleet.shared.mono
    · exact (h.sleeping wake hphase r hr hfruitless).trans hwake
    · simp [loopStep, hphase, hwake] at ht
  | scraping startedAt escaped => simp [loopStep, hphase] at ht
  | computing code => simp [loopStep, hphase] at ht
  | ended => simp [loopStep, hphase] at ht

end Loop

theorem accountable_boot (cfg : LoopConfig) (mono wall : Nat) (redisWrites : Bool)
    (rows : Nat → ProviderRows) : Accountable cfg (.boot mono wall redisWrites rows) :=
  ⟨orderly_boot mono wall redisWrites rows, fun _ h => (by cases h), fun _ h => (by cases h),
    fun _ _ _ hr => (by cases hr)⟩

/-- For all providers, modes, state files, schedules and restarts: as long as no exception
ends a fruitless cycle while a provider is ready, a fruitless cycle is followed by a minute
of rest. -/
theorem starts_rested_along (cfg : LoopConfig) (mono wall : Nat) (redisWrites : Bool)
    (rows : Nat → ProviderRows) (as : List LoopAction) (s : LoopState)
    (hinterval : 0 < cfg.fleet.settings.scrapeInterval)
    (hschedule : ∀ c ∈ cfg.fleet.settings.cooldownSchedule, 0 < c)
    (hG : StepSystem.Along (loopStep cfg) (LoopState.EndsWell cfg)
      (.boot mono wall redisWrites rows) as)
    (h : StepSystem.run (loopStep cfg) (.boot mono wall redisWrites rows) as = some s) :
    s.StartsRested cfg :=
  (StepSystem.run_invariant_along
    (fun _ _ _ hp hg hstep => accountable_step hinterval hschedule hp hg hstep)
    (accountable_boot cfg mono wall redisWrites rows) hG h).startsRested

/-- One provider with one tile. -/
def oneTileLoop : LoopConfig where
  fleet :=
    { settings := singleTileConfig.settings, providers := [⟨0, 0, 4, 4⟩],
      bbox := singleTileConfig.bbox, parallelismMode := .sequential }
  providersNodup := by decide

def resumes (n : Nat) : List LoopAction := List.replicate n (.fleet (.resume 0 .ok))

/-- The cycle up to the query of the failed rows. -/
def passGates : List LoopAction := [LoopAction.begin, .fleet (.scrape 0)] ++ resumes 3

/-- S3 does not take the tile. -/
def failUpload : List LoopAction :=
  [.fleet (.tile 0 0 .start), .fleet (.tile 0 0 (.http .bytes)), .fleet (.tile 0 0 (.s3 false)),
    .fleet (.resume 0 .ok)]

def sweepWithoutStorage : List LoopAction :=
  failUpload ++ resumes 2 ++ [LoopAction.fleet (.resume 0 (.rows [⟨4, 0, 0⟩]))] ++ resumes 2 ++
    [LoopAction.fleet (.scrape 0), .conclude]

/-- Two cycles without S3; the second one finds the failed row of the first and leaves it. -/
def storageOutage : List LoopAction :=
  passGates ++ [LoopAction.fleet (.resume 0 (.rows []))] ++ sweepWithoutStorage ++
    [LoopAction.fleet (.clocks 60000 1060)] ++ passGates ++
    [LoopAction.fleet (.resume 0 (.rows [⟨4, 0, 0⟩]))] ++ failUpload ++ sweepWithoutStorage ++
    [LoopAction.fleet (.clocks 120000 1120)]

/-- The query of the failed rows raises, and the next sleep is 0. -/
def lockedQueryRun : List LoopAction :=
  passGates ++ [LoopAction.fleet (.resume 0 (.raised .operationalError false)), .conclude] ++
    List.replicate 3 (LoopAction.answer .ok)

theorem starts_rested_along_outage : ∃ s,
    StepSystem.run (loopStep oneTileLoop) (.boot 0 1000 false fun _ => .empty) storageOutage = some s ∧
    (∃ r ∈ s.record, r.Fruitless oneTileLoop) ∧ s.StartsRested oneTileLoop := by
  obtain ⟨s, hs, hp⟩ := loop_run_any oneTileLoop storageOutage
    (fun s => ∃ r ∈ s.record, r.Fruitless oneTileLoop) (by decide)
  exact ⟨s, hs, hp, starts_rested_along oneTileLoop 0 1000 false _ storageOutage s (by decide)
    (by decide) (by decide) hs⟩

/-- A cycle that an exception ended at its first query is repeated at once. -/
theorem locked_query_repeats_at_once : ¬ ∀ cfg mono wall redisWrites rows as s,
    0 < cfg.fleet.settings.scrapeInterval → (∀ c ∈ cfg.fleet.settings.cooldownSchedule, 0 < c) →
    StepSystem.run (loopStep cfg) (.boot mono wall redisWrites rows) as = some s →
      s.StartsRested cfg := by
  intro h
  obtain ⟨s, hs, hbegin, r, hr, hfruitless, hmono⟩ := loop_run_any oneTileLoop lockedQueryRun
    (fun s => (loopStep oneTileLoop s .begin).isSome = true ∧ ∃ r ∈ s.record,
      r.Fruitless oneTileLoop ∧ s.fleet.shared.mono < r.endedAt + 60000) (by decide)
  obtain ⟨t, ht⟩ := Option.isSome_iff_exists.mp hbegin
  have hrested := h _ _ _ _ _ _ s (by decide) (by decide) hs t ht r hr hfruitless
  omega

end DataService
