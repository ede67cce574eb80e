import Mathlib.Logic.Function.Basic
import DataService.Sync.BaseSyncService

/-! Several workers start the same service. The lock file decides which of them syncs, and the
system takes the lock from a process that ends. -/

namespace DataService

/-- What happens to one worker. In `start` the lock file is opened before it is locked; the handle
of an earlier start is then closed, and its lock is gone. -/
inductive WorkerEvent where
  | service (a : ServiceAction)
  | reopen
  | crash
  deriving DecidableEq, Repr

/-- The service of each worker, and the process that holds the lock. -/
structure Workers (ω : Type*) where
  service : ω → BaseSyncService
  owner : Option ω

namespace Workers

variable {ω : Type*} [DecidableEq ω]

def new : Workers ω := ⟨fun _ => .new, none⟩

/-- What `lockf` can answer: it is refused while another process has the lock. -/
def allows (g : Workers ω) (w : ω) : ServiceAction → Bool
  | .start outcome =>
    (g.service w).running ||
      match outcome with
      | .checkFailed | .openFailed => true
      | .lockBroken => !(g.service w).lockHeld
      | .lockRefused => !(g.service w).lockHeld && g.owner.isSome
      | .acquired => !(g.service w).lockHeld && g.owner.isNone
  | _ => true

/-- The lock goes with the handle. -/
def set (g : Workers ω) (w : ω) (s : BaseSyncService) : Workers ω where
  service := Function.update g.service w s
  owner := if s.lockHeld then some w else if g.owner = some w then none else g.owner

def step (g : Workers ω) : ω × WorkerEvent → Option (Workers ω)
  | (w, .service a) => if g.allows w a then (serviceStep (g.service w) a).map (g.set w) else none
  | (w, .reopen) =>
    if (g.service w).running = false ∧ (g.service w).stopping = false then
      some (g.set w { g.service w with lockHeld := false })
    else none
  | (w, .crash) => some (g.set w .new)

end Workers

namespace BaseSyncService

/-- The task has not ended. -/
def Working (s : BaseSyncService) : Prop :=
  s.task = some .runningSync ∨ s.task = some .computingSleep ∨ s.task = some .sleeping

instance (s : BaseSyncService) : Decidable s.Working := by
  unfold Working
  infer_instance

/-- A task that has not ended belongs to a service that holds the lock, and that runs or is
being stopped. -/
def Backed (s : BaseSyncService) : Prop :=
  s.Working → s.lockHeld = true ∧ (s.running = true ∨ s.stopping = true)

section Steps

variable {s t : BaseSyncService} {a : ServiceAction}

theorem not_working_of_finished {e : Option LoopExn} (h : s.task = some (.finished e)) :
    ¬ s.Working := by
  simp [Working, h]

theorem backed_step (h : s.Backed) (hs : serviceStep s a = some t) : t.Backed := by
  cases a with
  | start outcome =>
    simp only [serviceStep] at hs
    split_ifs at hs with hstop hrun
    · cases hs
      exact h
    · have hidle : ¬ s.Working := fun hw => by simpa [hstop, hrun] using (h hw).2
      cases outcome with
      | acquired =>
        cases hs
        exact fun _ => ⟨rfl, .inl rfl⟩
      | _ =>
        cases hs
        exact fun hw => absurd hw hidle
  | runSync raised =>
    simp only [serviceStep] at hs
    split_ifs at hs with htask hraised
    · cases hs
      exact fun hw => absurd hw (not_working_of_finished rfl)
    · have hback := h (.inl htask)
      cases hs
      intro _
      unfold afterCycle nextCycle
      split_ifs <;> exact hback
  | computeNextSleep raised =>
    simp only [serviceStep] at hs
    split_ifs at hs with htask
    have hback := h (.inr (.inl htask))
    cases raised with
    | none =>
      cases hs
      exact fun _ => hback
    | some e =>
      cases hs
      exact fun hw => absurd hw (not_working_of_finished rfl)
  | sleep cancelled =>
    simp only [serviceStep] at hs
    split_ifs at hs with htask hcancelled
    · cases hs
      exact fun hw => absurd hw (not_working_of_finished rfl)
    · have hback := h (.inr (.inr htask))
      cases hs
      exact fun _ => hback
  | stop =>
    simp only [serviceStep] at hs
    split_ifs at hs
    · cases hs
      exact fun hw => ⟨(h hw).1, .inr rfl⟩
    · cases hs
      exact h
  | stopped =>
    simp only [serviceStep] at hs
    split at hs
    · rename_i htask
      cases hs
      exact fun hw => absurd hw (not_working_of_finished htask)
    · cases hs
      simp [Backed, Working]
    · cases hs

/-- The lock is taken by a `start` and given back by the `stop` that comes to its end. -/
theorem lockHeld_step (hs : serviceStep s a = some t) (hne : t.lockHeld ≠ s.lockHeld) :
    a = .stopped ∧ t.lockHeld = false ∨
      ∃ outcome, a = .start outcome ∧ s.running = false ∧ outcome ≠ .checkFailed ∧
        outcome ≠ .openFailed ∧ (t.lockHeld = true → outcome = .acquired) := by
  cases a with
  | start outcome =>
    simp only [serviceStep] at hs
    split_ifs at hs with hstop hrun
    · cases hs
      exact absurd rfl hne
    · refine .inr ⟨outcome, rfl, by simpa using hrun, ?_⟩
      cases outcome with
      | checkFailed | openFailed =>
        cases hs
        exact absurd rfl hne
      | _ =>
        cases hs
        simp
  | runSync raised =>
    simp only [serviceStep, afterCycle, nextCycle] at hs
    split_ifs at hs <;> cases hs <;> exact absurd rfl hne
  | computeNextSleep raised =>
    simp only [serviceStep] at hs
    split_ifs at hs
    cases raised <;> cases hs <;> exact absurd rfl hne
  | sleep cancelled =>
    simp only [serviceStep, nextCycle] at hs
    split_ifs at hs <;> cases hs <;> exact absurd rfl hne
  | stop =>
    simp only [serviceStep] at hs
    split_ifs at hs <;> cases hs <;> exact absurd rfl hne
  | stopped =>
    simp only [serviceStep] at hs
    split at hs
    · cases hs
      exact absurd rfl hne
    · cases hs
      exact .inl ⟨rfl, rfl⟩
    · cases hs

theorem working_step (hs : serviceStep s a = some t) (hw : t.Working) :
    s.Working ∨ a = .start .acquired ∧ s.running = false := by
  cases a with
  | start outcome =>
    simp only [serviceStep] at hs
    split_ifs at hs with hstop hrun
    · cases hs
      exact .inl hw
    · cases outcome with
      | acquired => exact .inr ⟨rfl, by simpa using hrun⟩
      | _ =>
        cases hs
        exact .inl hw
  | runSync raised =>
    simp only [serviceStep] at hs
    split_ifs at hs with htask <;> exact .inl (.inl htask)
  | computeNextSleep raised =>
    simp only [serviceStep] at hs
    split_ifs at hs with htask
    exact .inl (.inr (.inl htask))
  | sleep cancelled =>
    simp only [serviceStep] at hs
    split_ifs at hs with htask <;> exact .inl (.inr (.inr htask))
  | stop =>
    simp only [serviceStep] at hs
    split_ifs at hs <;> cases hs <;> exact .inl hw
  | stopped =>
    simp only [serviceStep] at hs
    split at hs
    · cases hs
      exact .inl hw
    · cases hs
      simp [Working] at hw
    · cases hs

/-- The task has ended with an exception and the lock is still held. -/
def Dead (s : BaseSyncService) : Prop :=
  s.task = some (.finished (some .exception)) ∧ s.lockHeld = true

/-- The exception comes out of `stop` before the lock is given back. -/
theorem dead_step (h : s.Dead) (hs : serviceStep s a = some t)
    (ha : ∀ outcome, a = .start outcome →
      s.running = true ∨ outcome = .checkFailed ∨ outcome = .openFailed) : t.Dead := by
  obtain ⟨htask, hheld⟩ := h
  cases a with
  | start outcome =>
    simp only [serviceStep] at hs
    split_ifs at hs with hstop hrun
    · cases hs
      exact ⟨htask, hheld⟩
    · rcases ha outcome rfl with hr | rfl | rfl
      · exact absurd hr hrun
      · cases hs
        exact ⟨htask, hheld⟩
      · cases hs
        exact ⟨htask, hheld⟩
  | runSync raised => simp [serviceStep, htask] at hs
  | computeNextSleep raised => simp [serviceStep, htask] at hs
  | sleep cancelled => simp [serviceStep, htask] at hs
  | stop =>
    simp only [serviceStep] at hs
    split_ifs at hs <;> cases hs <;> exact ⟨htask, hheld⟩
  | stopped =>
    cases hstop : s.stopping with
    | true =>
      simp only [serviceStep, htask, hstop, Option.some.injEq] at hs
      cases hs
      exact ⟨rfl, hheld⟩
    | false => simp [serviceStep, hstop] at hs

end Steps

end BaseSyncService

/-- What can take the lock from a worker. -/
def WorkerEvent.Releases (e : WorkerEvent) : Prop :=
  e = .service .stopped ∨ e = .reopen ∨ e = .crash

namespace Workers

variable {ω : Type*} {g g' : Workers ω} {w w' : ω} {e : WorkerEvent} {s : BaseSyncService}

/-- The lock that a service believes to hold is the one the system has given. -/
structure Consistent (g : Workers ω) : Prop where
  backed : ∀ w, (g.service w).Backed
  held : ∀ w, (g.service w).lockHeld = true ↔ g.owner = some w

theorem consistent_new : (new : Workers ω).Consistent := by
  constructor
  · intro w hw
    simp [new, BaseSyncService.new, BaseSyncService.Working] at hw
  · simp [new, BaseSyncService.new]

theorem Consistent.owner_of_working (h : g.Consistent) (hw : (g.service w).Working) :
    g.owner = some w := (h.held w).mp (h.backed w hw).1

variable [DecidableEq ω]

@[simp] theorem service_set_self : (g.set w s).service w = s := by simp [set]

theorem service_set_ne (h : w' ≠ w) : (g.set w s).service w' = g.service w' := by
  simp [set, Function.update_of_ne h]

/-- What one event can do: the service of one worker changes, with its hold on the lock. -/
theorem step_cases (h : step g (w, e) = some g') : ∃ s, g' = g.set w s ∧
    ((g.service w).Backed → s.Backed) ∧
    (s.Working → (g.service w).Working ∨ g.owner = none ∧ e = .service (.start .acquired)) ∧
    (s.lockHeld = true →
      (g.service w).lockHeld = true ∨ g.owner = none ∧ e = .service (.start .acquired)) ∧
    (s.lockHeld = false → (g.service w).lockHeld = true → e.Releases) := by
  cases e with
  | service a =>
    simp only [step] at h
    split_ifs at h with hallows
    obtain ⟨s, hs, rfl⟩ := Option.map_eq_some_iff.mp h
    have hopen : a = .start .acquired → (g.service w).running = false → g.owner = none := by
      rintro rfl hrun
      simp only [allows, hrun, Bool.false_or, Bool.and_eq_true] at hallows
      simpa using hallows.2
    refine ⟨s, rfl, fun hback => BaseSyncService.backed_step hback hs, fun hw => ?_,
      fun hheld => ?_,
      fun hfree hheld => ?_⟩
    · rcases BaseSyncService.working_step hs hw with hw | ⟨rfl, hrun⟩
      · exact .inl hw
      · exact .inr ⟨hopen rfl hrun, rfl⟩
    · by_cases hbefore : (g.service w).lockHeld = true
      · exact .inl hbefore
      · have hne : s.lockHeld ≠ (g.service w).lockHeld := by
          rw [hheld]
          exact fun hh => hbefore hh.symm
        rcases BaseSyncService.lockHeld_step hs hne with
          ⟨-, hfree⟩ | ⟨outcome, rfl, hrun, -, -, hacquired⟩
        · simp [hfree] at hheld
        · obtain rfl := hacquired hheld
          exact .inr ⟨hopen rfl hrun, rfl⟩
    · have hne : s.lockHeld ≠ (g.service w).lockHeld := by simp [hfree, hheld]
      rcases BaseSyncService.lockHeld_step hs hne with
        ⟨rfl, -⟩ | ⟨outcome, rfl, hrun, hcheck, hopen, -⟩
      · exact .inl rfl
      · cases outcome with
        | checkFailed => exact absurd rfl hcheck
        | openFailed => exact absurd rfl hopen
        | lockRefused | lockBroken | acquired => simp [allows, hrun, hheld] at hallows
  | reopen =>
    simp only [step] at h
    split_ifs at h with hidle
    cases h
    refine ⟨_, rfl, fun hback hw => ?_, fun hw => .inl hw, fun hheld => by simp at hheld,
      fun _ _ => .inr (.inl rfl)⟩
    have hno := (hback hw).2
    simp [hidle.1, hidle.2] at hno
  | crash =>
    cases h
    refine ⟨.new, rfl, fun _ hw => ?_, fun hw => ?_, fun hheld => ?_, fun _ _ => .inr (.inr rfl)⟩
    · simp [BaseSyncService.Working, BaseSyncService.new] at hw
    · simp [BaseSyncService.Working, BaseSyncService.new] at hw
    · simp [BaseSyncService.new] at hheld

theorem consistent_set (h : g.Consistent) (hback : s.Backed)
    (hheld : s.lockHeld = true → g.owner = none ∨ g.owner = some w) : (g.set w s).Consistent := by
  constructor
  · intro v
    by_cases hv : v = w
    · subst hv
      rwa [service_set_self]
    · rw [service_set_ne hv]
      exact h.backed v
  · intro v
    by_cases hv : v = w
    · subst hv
      rw [service_set_self]
      by_cases hs : s.lockHeld = true
      · simp [set, hs]
      · by_cases ho : g.owner = some v <;> simp [set, hs, ho]
    · rw [service_set_ne hv, h.held v]
      by_cases hs : s.lockHeld = true
      · rcases hheld hs with ho | ho <;> simp [set, hs, ho, Ne.symm hv]
      · by_cases ho : g.owner = some w
        · simp [set, hs, ho, Ne.symm hv]
        · simp [set, hs, ho]

theorem consistent_step (h : g.Consistent) (hs : step g (w, e) = some g') : g'.Consistent := by
  obtain ⟨s, rfl, hback, -, hheld, -⟩ := step_cases hs
  refine consistent_set h (hback (h.backed w)) fun hlock => ?_
  rcases hheld hlock with hbefore | ⟨hnone, -⟩
  · exact .inr ((h.held w).mp hbefore)
  · exact .inl hnone

theorem consistent_run {bs : List (ω × WorkerEvent)} (h : g.Consistent)
    (hrun : StepSystem.run step g bs = some g') : g'.Consistent :=
  StepSystem.run_invariant (fun _ _ _ => consistent_step) h hrun

/-- A worker that comes to work has started while nobody had the lock. -/
theorem started {bs : List (ω × WorkerEvent)} (hidle : ¬ (g.service w').Working)
    (hrun : StepSystem.run step g bs = some g') (hw : (g'.service w').Working) :
    ∃ before after h, bs = before ++ (w', .service (.start .acquired)) :: after ∧
      StepSystem.run step g before = some h ∧ h.owner = none := by
  induction bs generalizing g with
  | nil =>
    obtain rfl : g = g' := by simpa [StepSystem.run] using hrun
    exact absurd hw hidle
  | cons b bs ih =>
    obtain ⟨v, e⟩ := b
    obtain ⟨u, hu, hrest⟩ := StepSystem.run_cons.mp hrun
    by_cases hnow : (u.service w').Working
    · obtain ⟨s, rfl, -, hgain, -⟩ := step_cases hu
      obtain rfl : v = w' := by
        by_contra hv
        rw [service_set_ne (Ne.symm hv)] at hnow
        exact hidle hnow
      rw [service_set_self] at hnow
      rcases hgain hnow with hbefore | ⟨hnone, rfl⟩
      · exact absurd hbefore hidle
      · exact ⟨[], bs, g, rfl, rfl, hnone⟩
    · obtain ⟨before, after, h, rfl, hbefore, hnone⟩ := ih hnow hrest
      exact ⟨(v, e) :: before, after, h, rfl, StepSystem.run_cons.mpr ⟨u, hu, hbefore⟩, hnone⟩

/-- The lock leaves a worker in an event of its own. -/
theorem released {bs : List (ω × WorkerEvent)} (h : g.Consistent) (howner : g.owner = some w)
    (hrun : StepSystem.run step g bs = some g') (hfree : g'.owner ≠ some w) :
    ∃ before e after, bs = before ++ (w, e) :: after ∧ e.Releases := by
  induction bs generalizing g with
  | nil =>
    obtain rfl : g = g' := by simpa [StepSystem.run] using hrun
    exact absurd howner hfree
  | cons b bs ih =>
    obtain ⟨v, e⟩ := b
    obtain ⟨u, hu, hrest⟩ := StepSystem.run_cons.mp hrun
    have hcons := consistent_step h hu
    by_cases hstill : u.owner = some w
    · obtain ⟨before, e', after, rfl, hrel⟩ := ih hcons hstill hrest
      exact ⟨(v, e) :: before, e', after, rfl, hrel⟩
    · obtain ⟨s, rfl, -, -, -, hlost⟩ := step_cases hu
      obtain rfl : v = w := by
        by_contra hv
        refine hstill ((hcons.held w).mp ?_)
        rw [service_set_ne (Ne.symm hv)]
        exact (h.held w).mpr howner
      refine ⟨[], e, bs, rfl, hlost ?_ ((h.held v).mpr howner)⟩
      by_contra hs
      refine hstill ((hcons.held v).mp ?_)
      rw [service_set_self]
      simpa using hs

/-- In every interleaving one worker syncs at a time, and between the cycles of two workers the
first has given the lock back, or has ended, before the second has started. -/
theorem sync_exclusive (as bs : List (ω × WorkerEvent)) (g g' : Workers ω)
    (has : StepSystem.run step new as = some g) (hbs : StepSystem.run step g bs = some g')
    (w w' : ω) (hw : (g.service w).Working) (hw' : (g'.service w').Working) :
    (bs = [] → w = w') ∧ (w ≠ w' → ∃ before e between after,
      bs = before ++ (w, e) :: (between ++ (w', .service (.start .acquired)) :: after) ∧
      e.Releases) := by
  have hg : g.Consistent := consistent_run consistent_new has
  have howner := hg.owner_of_working hw
  have honly : ∀ v, (g.service v).Working → v = w := by
    intro v hv
    have hv' := hg.owner_of_working hv
    rw [howner] at hv'
    exact (Option.some.inj hv').symm
  constructor
  · rintro rfl
    obtain rfl : g = g' := by simpa [StepSystem.run] using hbs
    exact (honly w' hw').symm
  · intro hne
    obtain ⟨before, after, h, rfl, hbefore, hnone⟩ :=
      started (fun hidle => hne (honly w' hidle).symm) hbs hw'
    obtain ⟨before, e, between, rfl, hrel⟩ := released hg howner hbefore (by simp [hnone])
    exact ⟨before, e, between, after, by simp, hrel⟩

def restartElsewhere : List (Nat × WorkerEvent) :=
  [(0, .service .stop), (0, .service (.runSync (some .cancelled))), (0, .service .stopped),
    (1, .service (.start .acquired))]

theorem sync_exclusive_restart : ∃ before e between after,
    restartElsewhere = before ++ (0, e) :: (between ++ (1, .service (.start .acquired)) :: after) ∧
      e.Releases :=
  (sync_exclusive [(0, .service (.start .acquired))] restartElsewhere _ _ rfl rfl 0 1 (.inl rfl)
    (.inl rfl)).2 (by decide)

/-- A worker whose task has died in an exception keeps the others from syncing, even after it
is stopped, until its process ends or it is started again. -/
theorem dead_worker_stalls (as bs : List (ω × WorkerEvent)) (g g' : Workers ω) (w : ω)
    (has : StepSystem.run step new as = some g) (hdead : (g.service w).Dead)
    (hbs : StepSystem.run step g bs = some g')
    (hkept : ∀ b ∈ bs, b ≠ (w, .crash) ∧ b ≠ (w, .reopen)) (v : ω) :
    ¬ (g'.service v).Working := by
  have hstep : ∀ (s : Workers ω) b t, s.Consistent ∧ (s.service w).Dead →
      (b ≠ (w, .crash) ∧ b ≠ (w, .reopen)) ∧ True → step s b = some t →
      t.Consistent ∧ (t.service w).Dead := by
    rintro s ⟨u, e⟩ t ⟨hcons, hd⟩ ⟨⟨hcrash, hreopen⟩, -⟩ hs
    refine ⟨consistent_step hcons hs, ?_⟩
    by_cases hu : u = w
    · subst hu
      cases e with
      | service a =>
        simp only [step] at hs
        split_ifs at hs with hallows
        obtain ⟨r, hr, rfl⟩ := Option.map_eq_some_iff.mp hs
        rw [service_set_self]
        refine BaseSyncService.dead_step hd hr ?_
        rintro outcome rfl
        cases outcome <;> simp_all [allows, BaseSyncService.Dead]
      | reopen => exact absurd rfl hreopen
      | crash => exact absurd rfl hcrash
    · obtain ⟨r, rfl, -⟩ := step_cases hs
      rwa [service_set_ne (Ne.symm hu)]
  have hg : g.Consistent := consistent_run consistent_new has
  obtain ⟨hcons, hd⟩ := StepSystem.run_invariant_along hstep ⟨hg, hdead⟩
    ((StepSystem.along_true g bs).restrict hkept) hbs
  intro hv
  have howner := hcons.owner_of_working hv
  rw [(hcons.held w).mp hd.2] at howner
  obtain rfl := Option.some.inj howner
  exact BaseSyncService.not_working_of_finished hd.1 hv

def dyingTask : List (Nat × WorkerEvent) :=
  [(0, .service (.start .acquired)), (0, .service (.runSync none)),
    (0, .service (.computeNextSleep (some .exception)))]

def stoppedAfterwards : List (Nat × WorkerEvent) :=
  [(0, .service .stop), (0, .service .stopped), (1, .service (.start .lockRefused))]

theorem dead_worker_stopped : ∃ g : Workers Nat,
    StepSystem.run step new (dyingTask ++ stoppedAfterwards) = some g ∧ ¬ (g.service 1).Working :=
  ⟨_, rfl, dead_worker_stalls dyingTask stoppedAfterwards _ _ 0 rfl ⟨rfl, rfl⟩ rfl (by decide) 1⟩

end Workers

end DataService
