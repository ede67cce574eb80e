import DataService.Lib.StepSystem

/-! `BaseSyncService`, whatever the subclass does in a cycle: start, stop and the loop
between them. The application starts and stops a service in turn. -/

namespace DataService

/-- A CancelledError is no `Exception`, so `except Exception` does not catch it. -/
inductive LoopExn where
  | cancelled
  | exception
  deriving DecidableEq, Repr

/-- The await at which the task of `_sync_loop` stands, or how the task has ended. -/
inductive LoopStage where
  | runningSync
  | computingSleep
  | sleeping
  | finished (e : Option LoopExn)
  deriving DecidableEq, Repr

/-- `stopping` while a call of `stop` waits for the task. -/
structure BaseSyncService where
  running : Bool
  lockHeld : Bool
  task : Option LoopStage
  stopping : Bool
  deriving DecidableEq, Repr

inductive StartOutcome where
  | checkFailed
  | openFailed
  /-- another worker is active -/
  | lockRefused
  | lockBroken
  | acquired
  deriving DecidableEq, Repr

/-- What an await of the loop is answered: it returns, or it raises. -/
inductive ServiceAction where
  | start (outcome : StartOutcome)
  | runSync (raised : Option LoopExn)
  | computeNextSleep (raised : Option LoopExn)
  | sleep (cancelled : Bool)
  /-- `stop` is called: the flag is cleared and the task is asked to end -/
  | stop
  /-- the task has ended and `stop` goes on -/
  | stopped
  deriving DecidableEq, Repr

namespace BaseSyncService

def new : BaseSyncService := ⟨false, false, none, false⟩

/-- `while self._running:` -/
def nextCycle (s : BaseSyncService) : BaseSyncService :=
  { s with task := some (if s.running then .runningSync else .finished none) }

/-- After a cycle that was not cancelled. -/
def afterCycle (s : BaseSyncService) : BaseSyncService :=
  if s.running then { s with task := some .computingSleep } else s.nextCycle

end BaseSyncService

def serviceStep (s : BaseSyncService) : ServiceAction → Option BaseSyncService
  | .start outcome =>
    if s.stopping then none
    else if s.running then some s
    else
      match outcome with
      | .checkFailed | .openFailed => some s
      | .lockRefused | .lockBroken => some { s with lockHeld := false }
      | .acquired => some { s with running := true, lockHeld := true, task := some .runningSync }
  | .runSync raised =>
    if s.task = some .runningSync then
      if raised = some .cancelled then some { s with task := some (.finished none) }
      else some s.afterCycle
    else none
  | .computeNextSleep raised =>
    if s.task = some .computingSleep then
      match raised with
      | none => some { s with task := some .sleeping }
      | some e => some { s with task := some (.finished (some e)) }
    else none
  | .sleep cancelled =>
    if s.task = some .sleeping then
      if cancelled then some { s with task := some (.finished (some .cancelled)) }
      else some s.nextCycle
    else none
  | .stop =>
    if s.stopping then none
    else if s.running then some { s with running := false, stopping := true }
    else some s
  | .stopped =>
    match s.stopping, s.task with
    | true, some (.finished (some .exception)) => some { s with stopping := false }
    | true, some (.finished _) => some ⟨s.running, false, none, false⟩
    | _, _ => none

namespace BaseSyncService

/-- The flag is up and the lock is held, but no task syncs. -/
def Stranded (s : BaseSyncService) : Prop :=
  s.running = true ∧ s.lockHeld = true ∧ ∃ e, s.task = some (.finished e)

/-- The loop is in a cycle, or comes to one as its awaits return. -/
def KeepsScheduling (s : BaseSyncService) : Prop :=
  s.running = true → ∃ as t,
    (∀ a ∈ as, a = .computeNextSleep none ∨ a = .sleep false) ∧
    StepSystem.run serviceStep s as = some t ∧ t.task = some .runningSync

/-- While the flag is up the loop is not cancelled, and `_compute_next_sleep` does not raise. -/
def Undisturbed (s : BaseSyncService) : ServiceAction → Prop
  | .runSync raised => s.running = true → s.task = some .runningSync → raised ≠ some .cancelled
  | .computeNextSleep raised => s.running = true → s.task = some .computingSleep → raised = none
  | .sleep cancelled => s.running = true → s.task = some .sleeping → cancelled = false
  | _ => True

instance (s : BaseSyncService) : ∀ a, Decidable (s.Undisturbed a)
  | .runSync raised => inferInstanceAs (Decidable
    (s.running = true → s.task = some .runningSync → raised ≠ some .cancelled))
  | .computeNextSleep raised => inferInstanceAs (Decidable
    (s.running = true → s.task = some .computingSleep → raised = none))
  | .sleep cancelled => inferInstanceAs (Decidable
    (s.running = true → s.task = some .sleeping → cancelled = false))
  | .start _ | .stop | .stopped => isTrue trivial

/-- A service that runs holds the lock and has a task. -/
def Sound (s : BaseSyncService) : Prop :=
  s.running = true → s.lockHeld = true ∧ s.task.isSome = true ∧ s.stopping = false

/-- A service that runs has a task that has not ended. -/
def Alive (s : BaseSyncService) : Prop := s.running = true → ∀ e, s.task ≠ some (.finished e)

section Steps

variable {s t : BaseSyncService} {a : ServiceAction}

theorem sound_step (h : s.Sound) (hs : serviceStep s a = some t) : t.Sound := by
  cases a with
  | start outcome =>
    cases hstop : s.stopping with
    | true => simp [serviceStep, hstop] at hs
    | false =>
      cases hrun : s.running with
      | true =>
        obtain rfl : s = t := by simpa [serviceStep, hstop, hrun] using hs
        exact h
      | false =>
        simp only [serviceStep, hstop, hrun, Bool.false_eq_true, if_false] at hs
        cases outcome <;> cases hs <;> simp_all [Sound]
  | runSync raised =>
    simp only [serviceStep, afterCycle, nextCycle] at hs
    split_ifs at hs <;> cases hs <;> simp_all [Sound]
  | computeNextSleep raised =>
    simp only [serviceStep] at hs
    split_ifs at hs
    cases raised <;> cases hs <;> simp_all [Sound]
  | sleep cancelled =>
    simp only [serviceStep, nextCycle] at hs
    split_ifs at hs <;> cases hs <;> simp_all [Sound]
  | stop =>
    simp only [serviceStep] at hs
    split_ifs at hs <;> cases hs
    · simp [Sound]
    · exact h
  | stopped =>
    have hquiet : s.stopping = true → s.running = false := by
      intro hstop
      by_contra hrun
      have hno := (h (by simpa using hrun)).2.2
      simp [hstop] at hno
    simp only [serviceStep] at hs
    split at hs
    · cases hs
      simp_all [Sound]
    · cases hs
      simp_all [Sound]
    · cases hs

theorem alive_nextCycle (s : BaseSyncService) : s.nextCycle.Alive := by
  intro hrun e
  have hr : s.running = true := hrun
  simp [nextCycle, hr]

theorem alive_afterCycle (s : BaseSyncService) : s.afterCycle.Alive := by
  unfold afterCycle
  split
  · intro _ e
    simp
  · exact alive_nextCycle s

theorem undisturbed_iff (halive : s.Alive) :
    s.Undisturbed a ↔ ∀ t, serviceStep s a = some t → t.Alive := by
  cases a with
  | start outcome =>
    refine iff_of_true trivial fun t hs => ?_
    simp only [serviceStep] at hs
    split_ifs at hs with hstop hrun
    · cases hs
      exact halive
    · cases outcome <;> cases hs <;> simp_all [Alive]
  | runSync raised =>
    by_cases htask : s.task = some .runningSync
    · by_cases hraised : raised = some .cancelled
      · simp [Undisturbed, serviceStep, htask, hraised, Alive]
      · simp [Undisturbed, serviceStep, htask, hraised, alive_afterCycle]
    · simp [Undisturbed, serviceStep, htask]
  | computeNextSleep raised =>
    by_cases htask : s.task = some .computingSleep
    · cases raised with
      | none => simp [Undisturbed, serviceStep, htask, Alive]
      | some e => simp [Undisturbed, serviceStep, htask, Alive]
    · simp [Undisturbed, serviceStep, htask]
  | sleep cancelled =>
    by_cases htask : s.task = some .sleeping
    · cases cancelled with
      | true => simp [Undisturbed, serviceStep, htask, Alive]
      | false => simp [Undisturbed, serviceStep, htask, alive_nextCycle]
    · simp [Undisturbed, serviceStep, htask]
  | stop =>
    refine iff_of_true trivial fun t hs => ?_
    simp only [serviceStep] at hs
    split_ifs at hs <;> cases hs
    · simp [Alive]
    · exact halive
  | stopped =>
    refine iff_of_true trivial fun t hs => ?_
    simp only [serviceStep] at hs
    split at hs
    · cases hs
      exact halive
    · cases hs
      simp [Alive]
    · cases hs

end Steps

/-- An ended task is what keeps a service that runs from its next cycle. -/
theorem alive_iff {s : BaseSyncService} (h : s.Sound) :
    s.Alive ↔ s.KeepsScheduling ∧ ¬ s.Stranded := by
  constructor
  · intro halive
    constructor
    · intro hrun
      cases htask : s.task with
      | none =>
        have hsome := (h hrun).2.1
        simp [htask] at hsome
      | some stage =>
        cases stage with
        | runningSync => exact ⟨[], s, by simp, rfl, htask⟩
        | computingSleep =>
          refine ⟨[.computeNextSleep none, .sleep false], { s with task := some .runningSync },
            by simp, ?_, rfl⟩
          simp [StepSystem.run, serviceStep, htask, nextCycle, hrun]
        | sleeping =>
          refine ⟨[.sleep false], { s with task := some .runningSync }, by simp, ?_, rfl⟩
          simp [StepSystem.run, serviceStep, htask, nextCycle, hrun]
        | finished e => exact absurd htask (halive hrun e)
    · rintro ⟨hrun, -, e, htask⟩
      exact halive hrun e htask
  · rintro ⟨-, hstranded⟩ hrun e htask
    exact hstranded ⟨hrun, (h hrun).1, e, htask⟩

/-- For every service, run and sequence of exceptions: the loop goes on and the lock is
never held for nothing, as long as `running` is set, iff it is neither cancelled meanwhile
nor `_compute_next_sleep` raises. -/
theorem keeps_scheduling_iff (as : List ServiceAction) :
    (∀ bs t, bs <+: as → StepSystem.run serviceStep new bs = some t →
      t.KeepsScheduling ∧ ¬ t.Stranded) ↔ StepSystem.Along serviceStep Undisturbed new as := by
  have hnew : new.Sound := fun hrun => by cases hrun
  have hsound : ∀ bs t, StepSystem.run serviceStep new bs = some t → t.Sound :=
    fun bs t => StepSystem.run_invariant (fun s a t => sound_step) hnew
  have halive : new.Alive := fun hrun => by cases hrun
  have halong : StepSystem.Always serviceStep Alive new as ↔
      StepSystem.Along serviceStep Undisturbed new as :=
    StepSystem.always_iff_along (fun s a t => sound_step) (fun s a _ => undisturbed_iff) hnew halive
  rw [← halong, StepSystem.always_iff]
  constructor
  · exact fun h bs t hbs ht => (alive_iff (hsound bs t ht)).mpr (h bs t hbs ht)
  · exact fun h bs t hbs ht => (alive_iff (hsound bs t ht)).mp (h bs t hbs ht)

/-- The state store of the basemap scraper cannot be read after its first cycle. -/
def unreadableStateRun : List ServiceAction :=
  [.start .acquired, .runSync none, .computeNextSleep (some .exception)]

/-- No cycle follows, and no other worker gets the lock. -/
theorem loop_strands_the_lock : ¬ ∀ as bs t, bs <+: as →
    StepSystem.run serviceStep new bs = some t → t.KeepsScheduling ∧ ¬ t.Stranded := by
  intro h
  have hstranded : Stranded ⟨true, true, some (.finished (some .exception)), false⟩ :=
    ⟨rfl, rfl, _, rfl⟩
  exact (h unreadableStateRun unreadableStateRun _ (List.prefix_refl _) rfl).2 hstranded

end BaseSyncService

end DataService
