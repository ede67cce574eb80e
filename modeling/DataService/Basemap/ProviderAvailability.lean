import Mathlib.Data.List.Basic
import Mathlib.Logic.Function.Basic
import DataService.Lib.StepSystem

/-! `BasemapService._check_provider_available` for one provider: the checks of several processes,
which share one flag in Redis, and of which those of one process share a probe. Without the online
fallback a check is a look into S3. -/

namespace DataService

/-- What a process has attached: `online_fallback`, and whether there is an S3 and a Redis client. -/
structure AvailabilityConfig where
  onlineFallback : Bool
  s3 : Bool
  redis : Bool
  deriving DecidableEq, Repr

/-- What a probe and the look into S3 that went with it have shown. -/
structure Verdict where
  start : Nat
  finish : Nat
  probeOk : Bool
  s3Ok : Bool
  deriving DecidableEq, Repr

def Verdict.available (v : Verdict) : Bool := v.probeOk || v.s3Ok

/-- A look into S3 without a probe; it finds nothing out where it fails. -/
structure S3Look where
  check : Nat
  start : Nat
  finish : Nat
  found : Option Bool
  deriving DecidableEq, Repr

/-- The flag in Redis, with the verdict that it is of and the time of its `SET`. -/
structure CachedFlag where
  verdict : Verdict
  written : Nat
  deriving DecidableEq, Repr

/-- `reading` awaits the `GET`, which Redis has answered with a flag where it is `read`; `storing`
awaits the `SET`, `following` the future of another check. -/
inductive CheckStage where
  | looking (start : Nat)
  | looked (available : Bool) (time : Nat)
  | reading
  | read (v : Verdict) (time : Nat)
  | leading (start : Nat)
  | storing (v : Verdict)
  | following (leader : Nat)
  | answered (v : Verdict) (time : Nat)
  | raised
  deriving DecidableEq, Repr

def CheckStage.leads : CheckStage → Bool
  | leading _ | storing _ => true
  | _ => false

def CheckStage.follows : CheckStage → Bool
  | following _ => true
  | _ => false

def CheckStage.reads : CheckStage → Bool
  | reading | read _ _ => true
  | _ => false

structure AvailabilityCheck where
  process : Nat
  stage : CheckStage
  deriving DecidableEq, Repr

/-- An entry of `_availability_inflight`. -/
structure SharedFuture where
  leader : Nat
  cancelled : Bool
  deriving DecidableEq, Repr

/-- `writes` are the `SET`s that are on their way to Redis. -/
structure Availability where
  now : Nat
  flag : Option CachedFlag
  writes : List Verdict
  verdicts : List Verdict
  looks : List S3Look
  futures : Nat → Option SharedFuture
  checks : Nat → Option AvailabilityCheck

inductive AvailabilityAction where
  | wait (time : Nat)
  | check (i process : Nat)
  /-- S3 has answered, or failed with an `OSError` or a `TimeoutError` -/
  | look (i : Nat) (found : Option Bool)
  /-- Redis finds the flag -/
  | get (i : Nat)
  | hit (i : Nat)
  /-- no flag, or an `OSError` or a `TimeoutError` -/
  | miss (i : Nat)
  | probed (i : Nat) (probeOk s3Ok : Bool)
  /-- a `SET` takes effect, also behind the end of its check -/
  | land (v : Verdict)
  | lost (v : Verdict)
  /-- the leader gets on behind its `SET` -/
  | stored (i : Nat)
  /-- another exception, or a cancellation -/
  | fail (i : Nat)
  | evict
  deriving DecidableEq, Repr

namespace Availability

def start : Availability := ⟨0, none, [], [], [], fun _ => none, fun _ => none⟩

def cached (ttl : Nat) (s : Availability) : Option CachedFlag :=
  s.flag.filter (s.now < ·.written + ttl)

def setCheck (s : Availability) (i : Nat) (c : AvailabilityCheck) : Availability :=
  { s with checks := Function.update s.checks i (some c) }

def setFuture (s : Availability) (p : Nat) (future : Option SharedFuture) : Availability :=
  { s with futures := Function.update s.futures p future }

def endFollower (p : Nat) (stage : CheckStage) (c : AvailabilityCheck) : AvailabilityCheck :=
  if c.process = p ∧ c.stage.follows then { c with stage } else c

def endFollowers (s : Availability) (p : Nat) (stage : CheckStage) : Availability :=
  { s with checks := fun i => (s.checks i).map (endFollower p stage) }

/-- The leader has set the future, which its followers end with, and takes it out of the table. -/
def leave (s : Availability) (i p : Nat) (stage : CheckStage) : Availability :=
  ((s.endFollowers p stage).setCheck i ⟨p, stage⟩).setFuture p none

/-- Behind a miss, or without Redis, there is no `await` before the table is looked up. -/
def lookUp (s : Availability) (i p : Nat) : Availability :=
  match s.futures p with
  | none => (s.setCheck i ⟨p, .leading s.now⟩).setFuture p (some ⟨i, false⟩)
  | some ⟨_, true⟩ => s.setCheck i ⟨p, .raised⟩
  | some ⟨leader, false⟩ => s.setCheck i ⟨p, .following leader⟩

def enter (c : AvailabilityConfig) (s : Availability) (i p : Nat) : Availability :=
  if c.onlineFallback then
    if c.redis then s.setCheck i ⟨p, .reading⟩ else s.lookUp i p
  else if c.s3 then s.setCheck i ⟨p, .looking s.now⟩
  else s.setCheck i ⟨p, .looked false s.now⟩

def look (s : Availability) (i p start : Nat) (found : Option Bool) : Availability :=
  { s.setCheck i ⟨p, .looked (found.getD false) s.now⟩ with
    looks := ⟨i, start, s.now, found⟩ :: s.looks }

def note (s : Availability) (v : Verdict) : Availability := { s with verdicts := v :: s.verdicts }

def store (s : Availability) (i p : Nat) (v : Verdict) : Availability :=
  { s.setCheck i ⟨p, .storing v⟩ with writes := v :: s.writes }

def record (c : AvailabilityConfig) (s : Availability) (i p : Nat) (v : Verdict) : Availability :=
  if c.redis then (s.note v).store i p v else (s.note v).leave i p (.answered v s.now)

/-- A task that is cancelled while it awaits the shared future cancels the future. -/
def failed (s : Availability) (i : Nat) (c : AvailabilityCheck) : Option Availability :=
  match c.stage with
  | .looking _ | .reading | .read _ _ => some (s.setCheck i ⟨c.process, .raised⟩)
  | .leading _ | .storing _ => some (s.leave i c.process .raised)
  | .following leader =>
    some ((s.endFollowers c.process .raised).setFuture c.process (some ⟨leader, true⟩))
  | .looked _ _ | .answered _ _ | .raised => none

variable (config : Nat → AvailabilityConfig) (ttl : Nat)

def step (s : Availability) : AvailabilityAction → Option Availability
  | .wait time => some { s with now := s.now + time }
  | .check i p => if s.checks i = none then some (s.enter (config p) i p) else none
  | .look i found =>
    match s.checks i with
    | some ⟨p, .looking start⟩ => some (s.look i p start found)
    | _ => none
  | .get i =>
    match s.checks i with
    | some ⟨p, .reading⟩ =>
      (s.cached ttl).map fun flag => s.setCheck i ⟨p, .read flag.verdict s.now⟩
    | _ => none
  | .hit i =>
    match s.checks i with
    | some ⟨p, .read v _⟩ => some (s.setCheck i ⟨p, .answered v s.now⟩)
    | _ => none
  | .miss i =>
    match s.checks i with
    | some ⟨p, stage⟩ => if stage.reads then some (s.lookUp i p) else none
    | none => none
  | .probed i probeOk s3Ok =>
    match s.checks i with
    | some ⟨p, .leading start⟩ => some (s.record (config p) i p ⟨start, s.now, probeOk, s3Ok⟩)
    | _ => none
  | .land v =>
    if v ∈ s.writes then some { s with flag := some ⟨v, s.now⟩, writes := s.writes.erase v }
    else none
  | .lost v => if v ∈ s.writes then some { s with writes := s.writes.erase v } else none
  | .stored i =>
    match s.checks i with
    | some ⟨p, .storing v⟩ => some (s.leave i p (.answered v s.now))
    | _ => none
  | .fail i => (s.checks i).bind (s.failed i)
  | .evict => some { s with flag := none }

/-- Redis answers a `GET`, and a `SET` takes effect and is waited for, within a while. -/
def Punctual (getDelay setDelay : Nat) (s : Availability) : AvailabilityAction → Prop
  | .hit i => ∀ p v time, s.checks i = some ⟨p, .read v time⟩ → s.now ≤ time + getDelay
  | .land v => s.now ≤ v.finish + setDelay
  | .stored i => ∀ p v, s.checks i = some ⟨p, .storing v⟩ → s.now ≤ v.finish + setDelay
  | _ => True

/-- What holds of a check that stands somewhere, when a flag is kept until `held` behind its
verdict. -/
def StageOk (getDelay held : Nat) (s : Availability) : CheckStage → Prop
  | .read v time => v ∈ s.verdicts ∧ time ≤ v.finish + held
  | .leading start => start ≤ s.now
  | .storing v => v ∈ s.verdicts
  | .answered v time => v ∈ s.verdicts ∧ v.finish ≤ time ∧ time ≤ v.finish + (held + getDelay)
  | _ => True

/-- What is handed out is the verdict of a probe, and not an old one. -/
structure Fresh (getDelay setDelay ttl : Nat) (s : Availability) : Prop where
  verdicts : ∀ v ∈ s.verdicts, v.start ≤ v.finish ∧ v.finish ≤ s.now
  writes : ∀ v ∈ s.writes, v ∈ s.verdicts
  flag : ∀ e, s.flag = some e → e.verdict ∈ s.verdicts ∧ e.written ≤ e.verdict.finish + setDelay
  checks : ∀ i c, s.checks i = some c → s.StageOk getDelay (setDelay + ttl) c.stage

/-- The stages of a process with the online fallback, and of one without. -/
def Fits (s : Availability) (i : Nat) (c : AvailabilityCheck) : Prop :=
  match c.stage with
  | .looking _ => (config c.process).onlineFallback = false
  | .looked available time => (config c.process).onlineFallback = false ∧
      ((config c.process).s3 = false ∧ available = false ∨
        ∃ look ∈ s.looks, look.check = i ∧ look.finish = time ∧ look.found.getD false = available)
  | .raised => True
  | _ => (config c.process).onlineFallback = true

def Configured (s : Availability) : Prop := ∀ i c, s.checks i = some c → s.Fits config i c

section Steps

variable {config : Nat → AvailabilityConfig} {getDelay setDelay ttl held : Nat}
variable {s t : Availability} {i j p : Nat} {c d : AvailabilityCheck}
variable {stage : CheckStage} {a : AvailabilityAction}

theorem setCheck_checks : (s.setCheck i c).checks j = if j = i then some c else s.checks j :=
  Function.update_apply ..

theorem setFuture_futures {q : Nat} {future : Option SharedFuture} :
    (s.setFuture p future).futures q = if q = p then future else s.futures q :=
  Function.update_apply ..

@[simp] theorem setCheck_futures : (s.setCheck i c).futures = s.futures := rfl

@[simp] theorem setFuture_checks {future : Option SharedFuture} :
    (s.setFuture p future).checks = s.checks := rfl

theorem setCheck_cases (hd : (s.setCheck i c).checks j = some d) :
    j = i ∧ d = c ∨ j ≠ i ∧ s.checks j = some d := by
  rcases ite_eq_iff.mp (setCheck_checks.symm.trans hd) with ⟨hj, hsome⟩ | ⟨hj, hsome⟩
  · exact .inl ⟨hj, (Option.some.inj hsome).symm⟩
  · exact .inr ⟨hj, hsome⟩

theorem endFollower_cases (p : Nat) (stage : CheckStage) (c : AvailabilityCheck) :
    endFollower p stage c = c ∧ (c.process = p → c.stage.follows = false) ∨
      c.process = p ∧ c.stage.follows = true ∧ endFollower p stage c = { c with stage } := by
  unfold endFollower
  split
  · next h => exact .inr ⟨h.1, h.2, rfl⟩
  · next h => exact .inl ⟨rfl, fun hp => by simpa [hp] using h⟩

theorem cached_some {e : CachedFlag} (h : s.cached ttl = some e) :
    s.flag = some e ∧ s.now < e.written + ttl := by
  obtain ⟨hflag, hlive⟩ := Option.filter_eq_some_iff.mp h
  exact ⟨hflag, by simpa using hlive⟩

theorem step_look {found : Option Bool} (ht : step config ttl s (.look i found) = some t) :
    ∃ p began, s.checks i = some ⟨p, .looking began⟩ ∧ t = s.look i p began found := by
  simp only [step] at ht
  split at ht
  · next p began hc => exact ⟨p, began, hc, (Option.some.inj ht).symm⟩
  · cases ht

theorem step_get (ht : step config ttl s (.get i) = some t) : ∃ p e,
    s.checks i = some ⟨p, .reading⟩ ∧ s.cached ttl = some e ∧
      t = s.setCheck i ⟨p, .read e.verdict s.now⟩ := by
  simp only [step] at ht
  split at ht
  · next p hc =>
    obtain ⟨e, he, rfl⟩ := Option.map_eq_some_iff.mp ht
    exact ⟨p, e, hc, he, rfl⟩
  · cases ht

theorem step_hit (ht : step config ttl s (.hit i) = some t) : ∃ p v time,
    s.checks i = some ⟨p, .read v time⟩ ∧ t = s.setCheck i ⟨p, .answered v s.now⟩ := by
  simp only [step] at ht
  split at ht
  · next p v time hc => exact ⟨p, v, time, hc, (Option.some.inj ht).symm⟩
  · cases ht

theorem step_miss (ht : step config ttl s (.miss i) = some t) : ∃ p stage,
    s.checks i = some ⟨p, stage⟩ ∧ stage.reads = true ∧ t = s.lookUp i p := by
  simp only [step] at ht
  split at ht
  · next p stage hc =>
    obtain ⟨hreads, hsome⟩ := Option.ite_none_right_eq_some.mp ht
    exact ⟨p, stage, hc, hreads, (Option.some.inj hsome).symm⟩
  · cases ht

theorem step_probed {probeOk s3Ok : Bool}
    (ht : step config ttl s (.probed i probeOk s3Ok) = some t) : ∃ p began,
    s.checks i = some ⟨p, .leading began⟩ ∧
      t = s.record (config p) i p ⟨began, s.now, probeOk, s3Ok⟩ := by
  simp only [step] at ht
  split at ht
  · next p began hc => exact ⟨p, began, hc, (Option.some.inj ht).symm⟩
  · cases ht

theorem step_stored (ht : step config ttl s (.stored i) = some t) : ∃ p v,
    s.checks i = some ⟨p, .storing v⟩ ∧ t = s.leave i p (.answered v s.now) := by
  simp only [step] at ht
  split at ht
  · next p v hc => exact ⟨p, v, hc, (Option.some.inj ht).symm⟩
  · cases ht

theorem Fresh.setCheck (h : s.Fresh getDelay setDelay ttl)
    (hstage : s.StageOk getDelay (setDelay + ttl) c.stage) :
    (s.setCheck i c).Fresh getDelay setDelay ttl := by
  refine ⟨h.verdicts, h.writes, h.flag, fun j d hd => ?_⟩
  obtain ⟨-, rfl⟩ | ⟨-, hd⟩ := setCheck_cases hd
  · exact hstage
  · exact h.checks j d hd

theorem Fresh.setFuture (h : s.Fresh getDelay setDelay ttl) (p : Nat)
    (future : Option SharedFuture) : (s.setFuture p future).Fresh getDelay setDelay ttl :=
  ⟨h.verdicts, h.writes, h.flag, h.checks⟩

theorem Fresh.endFollowers (h : s.Fresh getDelay setDelay ttl)
    (hstage : s.StageOk getDelay (setDelay + ttl) stage) (p : Nat) :
    (s.endFollowers p stage).Fresh getDelay setDelay ttl := by
  refine ⟨h.verdicts, h.writes, h.flag, fun j d hd => ?_⟩
  obtain ⟨c, hc, rfl⟩ := Option.map_eq_some_iff.mp hd
  rcases endFollower_cases p stage c with ⟨hsame, -⟩ | ⟨-, -, hended⟩
  · rw [hsame]
    exact h.checks j c hc
  · rw [hended]
    exact hstage

theorem Fresh.leave (h : s.Fresh getDelay setDelay ttl)
    (hstage : s.StageOk getDelay (setDelay + ttl) stage) :
    (s.leave i p stage).Fresh getDelay setDelay ttl :=
  ((h.endFollowers hstage p).setCheck (c := ⟨p, stage⟩) hstage).setFuture p none

theorem StageOk.mono (h : s.StageOk getDelay held stage) (hnow : s.now ≤ t.now)
    (hverdicts : s.verdicts ⊆ t.verdicts) : t.StageOk getDelay held stage := by
  cases stage with
  | read v time => exact ⟨hverdicts h.1, h.2⟩
  | leading start => exact Nat.le_trans h hnow
  | storing v => exact hverdicts h
  | answered v time => exact ⟨hverdicts h.1, h.2⟩
  | looking | looked | reading | following | raised => trivial

theorem Fresh.wait (h : s.Fresh getDelay setDelay ttl) (time : Nat) :
    ({ s with now := s.now + time } : Availability).Fresh getDelay setDelay ttl := by
  have hnow : s.now ≤ s.now + time := Nat.le_add_right s.now time
  refine ⟨fun v hv => ?_, h.writes, h.flag, fun i c hc => ?_⟩
  · obtain ⟨hspan, hpast⟩ := h.verdicts v hv
    exact ⟨hspan, Nat.le_trans hpast hnow⟩
  · exact (h.checks i c hc).mono hnow (List.Subset.refl _)

theorem Fresh.note (h : s.Fresh getDelay setDelay ttl) {v : Verdict} (hspan : v.start ≤ v.finish)
    (hpast : v.finish ≤ s.now) : (s.note v).Fresh getDelay setDelay ttl := by
  have hlater : s.verdicts ⊆ (s.note v).verdicts := List.subset_cons_self v s.verdicts
  refine ⟨fun w hw => ?_, fun w hw => hlater (h.writes w hw), fun e he => ?_, fun j d hd => ?_⟩
  · rcases List.mem_cons.mp hw with rfl | hw
    · exact ⟨hspan, hpast⟩
    · exact h.verdicts w hw
  · exact ⟨hlater (h.flag e he).1, (h.flag e he).2⟩
  · exact (h.checks j d hd).mono (Nat.le_refl s.now) hlater

theorem Fresh.store (h : s.Fresh getDelay setDelay ttl) {v : Verdict} (hv : v ∈ s.verdicts) :
    (s.store i p v).Fresh getDelay setDelay ttl := by
  have hset := h.setCheck (i := i) (c := ⟨p, .storing v⟩) hv
  refine ⟨hset.verdicts, fun w hw => ?_, hset.flag, hset.checks⟩
  rcases List.mem_cons.mp hw with rfl | hw
  · exact hv
  · exact h.writes w hw

theorem Fresh.record (h : s.Fresh getDelay setDelay ttl) {began : Nat} {probeOk s3Ok : Bool}
    (hc : s.checks i = some ⟨p, .leading began⟩) {k : AvailabilityConfig} :
    (s.record k i p ⟨began, s.now, probeOk, s3Ok⟩).Fresh getDelay setDelay ttl := by
  have hbegan : began ≤ s.now := h.checks i _ hc
  have hnote := h.note (v := ⟨began, s.now, probeOk, s3Ok⟩) hbegan (Nat.le_refl s.now)
  unfold Availability.record
  split
  · exact hnote.store List.mem_cons_self
  · refine hnote.leave ⟨List.mem_cons_self, Nat.le_refl s.now, ?_⟩
    exact Nat.le_add_right s.now _

theorem Fresh.lookUp (h : s.Fresh getDelay setDelay ttl) :
    (s.lookUp i p).Fresh getDelay setDelay ttl := by
  unfold Availability.lookUp
  split
  · exact (h.setCheck (c := ⟨p, .leading s.now⟩) (Nat.le_refl s.now)).setFuture p _
  · exact h.setCheck (c := ⟨p, .raised⟩) trivial
  · exact h.setCheck (c := ⟨p, .following _⟩) trivial

theorem Fresh.enter (h : s.Fresh getDelay setDelay ttl) (k : AvailabilityConfig) :
    (s.enter k i p).Fresh getDelay setDelay ttl := by
  unfold Availability.enter
  split
  · split
    · exact h.setCheck (c := ⟨p, .reading⟩) trivial
    · exact h.lookUp
  · split
    · exact h.setCheck (c := ⟨p, .looking s.now⟩) trivial
    · exact h.setCheck (c := ⟨p, .looked false s.now⟩) trivial

theorem Fresh.failed (h : s.Fresh getDelay setDelay ttl) (ht : s.failed i c = some t) :
    t.Fresh getDelay setDelay ttl := by
  have hraised : s.StageOk getDelay (setDelay + ttl) .raised := trivial
  obtain ⟨q, stage⟩ := c
  cases stage with
  | looking | reading | read =>
    obtain rfl := Option.some.inj ht
    exact h.setCheck (c := ⟨q, .raised⟩) hraised
  | leading | storing =>
    obtain rfl := Option.some.inj ht
    exact h.leave hraised
  | following leader =>
    obtain rfl := Option.some.inj ht
    exact (h.endFollowers hraised q).setFuture q _
  | looked | answered | raised => cases ht

theorem fresh_step (h : s.Fresh getDelay setDelay ttl) (hpunctual : s.Punctual getDelay setDelay a)
    (ht : step config ttl s a = some t) : t.Fresh getDelay setDelay ttl := by
  cases a with
  | wait time =>
    obtain rfl := Option.some.inj ht
    exact h.wait time
  | check i p =>
    obtain ⟨-, hsome⟩ := Option.ite_none_right_eq_some.mp ht
    obtain rfl := Option.some.inj hsome
    exact h.enter (config p)
  | look i found =>
    obtain ⟨p, began, -, rfl⟩ := step_look ht
    have hset := h.setCheck (i := i) (c := ⟨p, .looked (found.getD false) s.now⟩) trivial
    exact ⟨hset.verdicts, hset.writes, hset.flag, hset.checks⟩
  | get i =>
    obtain ⟨p, e, -, he, rfl⟩ := step_get ht
    obtain ⟨hflag, hlive⟩ := cached_some he
    obtain ⟨hmem, hwritten⟩ := h.flag e hflag
    have hheld : s.now ≤ e.verdict.finish + (setDelay + ttl) := by omega
    exact h.setCheck ⟨hmem, hheld⟩
  | hit i =>
    obtain ⟨p, v, time, hc, rfl⟩ := step_hit ht
    obtain ⟨hmem, hheld⟩ : v ∈ s.verdicts ∧ time ≤ v.finish + (setDelay + ttl) := h.checks i _ hc
    have hlate : s.now ≤ time + getDelay := hpunctual p v time hc
    refine h.setCheck ⟨hmem, (h.verdicts v hmem).2, ?_⟩
    omega
  | miss i =>
    obtain ⟨p, stage, -, -, rfl⟩ := step_miss ht
    exact h.lookUp
  | probed i probeOk s3Ok =>
    obtain ⟨p, began, hc, rfl⟩ := step_probed ht
    exact h.record hc
  | land v =>
    obtain ⟨hv, hsome⟩ := Option.ite_none_right_eq_some.mp ht
    obtain rfl := Option.some.inj hsome
    refine ⟨h.verdicts, fun w hw => h.writes w (List.mem_of_mem_erase hw), fun e he => ?_, h.checks⟩
    obtain rfl := Option.some.inj he
    exact ⟨h.writes v hv, hpunctual⟩
  | lost v =>
    obtain ⟨-, hsome⟩ := Option.ite_none_right_eq_some.mp ht
    obtain rfl := Option.some.inj hsome
    exact ⟨h.verdicts, fun w hw => h.writes w (List.mem_of_mem_erase hw), h.flag, h.checks⟩
  | stored i =>
    obtain ⟨p, v, hc, rfl⟩ := step_stored ht
    have hmem : v ∈ s.verdicts := h.checks i _ hc
    have hlate : s.now ≤ v.finish + setDelay := hpunctual p v hc
    refine h.leave ⟨hmem, (h.verdicts v hmem).2, ?_⟩
    omega
  | fail i =>
    obtain ⟨c, -, hfailed⟩ := Option.bind_eq_some_iff.mp ht
    exact h.failed hfailed
  | evict =>
    obtain rfl := Option.some.inj ht
    exact ⟨h.verdicts, h.writes, fun _ he => by simp at he, h.checks⟩

theorem Fits.online (h : s.Fits config i c) (hworks : c.stage.reads ∨ c.stage.leads ∨ c.stage.follows) :
    (config c.process).onlineFallback = true := by
  obtain ⟨q, stage⟩ := c
  cases stage with
  | reading | read | leading | storing | following => exact h
  | looking | looked | answered | raised =>
    simp [CheckStage.reads, CheckStage.leads, CheckStage.follows] at hworks

theorem Fits.mono (h : s.Fits config i c) (hlooks : s.looks ⊆ t.looks) : t.Fits config i c := by
  obtain ⟨q, stage⟩ := c
  cases stage with
  | looked available time =>
    obtain ⟨hoffline, hnone | ⟨look, hlook, hfound⟩⟩ := h
    · exact ⟨hoffline, .inl hnone⟩
    · exact ⟨hoffline, .inr ⟨look, hlooks hlook, hfound⟩⟩
  | looking | reading | read | leading | storing | following | answered => exact h
  | raised => trivial

theorem Configured.setCheck (h : s.Configured config) (hc : s.Fits config i c) :
    (s.setCheck i c).Configured config := by
  intro j d hd
  obtain ⟨rfl, rfl⟩ | ⟨-, hd⟩ := setCheck_cases hd
  · exact hc.mono (List.Subset.refl _)
  · exact (h j d hd).mono (List.Subset.refl _)

theorem Configured.of_eq (h : s.Configured config) (hchecks : t.checks = s.checks)
    (hlooks : s.looks ⊆ t.looks) : t.Configured config :=
  fun j d hd => (h j d (hchecks ▸ hd)).mono hlooks

/-- Only a process with the online fallback has followers. -/
theorem Configured.endFollowers (h : s.Configured config)
    (hstage : ∀ j, (config p).onlineFallback = true → s.Fits config j ⟨p, stage⟩) :
    (s.endFollowers p stage).Configured config := by
  intro j d hd
  obtain ⟨c, hc, rfl⟩ := Option.map_eq_some_iff.mp hd
  have hfits := h j c hc
  rcases endFollower_cases p stage c with ⟨hsame, -⟩ | ⟨rfl, hfollows, hended⟩
  · rw [hsame]
    exact hfits.mono (List.Subset.refl _)
  · rw [hended]
    exact (hstage j (hfits.online (.inr (.inr hfollows)))).mono (List.Subset.refl _)

theorem Configured.leave (h : s.Configured config) (honline : (config p).onlineFallback = true)
    (hstage : ∀ j, (config p).onlineFallback = true → s.Fits config j ⟨p, stage⟩) :
    (s.leave i p stage).Configured config := by
  have hended := h.endFollowers hstage
  exact (hended.setCheck ((hstage i honline).mono (List.Subset.refl _))).of_eq rfl
    (List.Subset.refl _)

theorem Configured.lookUp (h : s.Configured config) (honline : (config p).onlineFallback = true) :
    (s.lookUp i p).Configured config := by
  unfold Availability.lookUp
  split
  · exact (h.setCheck (c := ⟨p, .leading s.now⟩) honline).of_eq rfl (List.Subset.refl _)
  · exact h.setCheck (c := ⟨p, .raised⟩) trivial
  · exact h.setCheck (c := ⟨p, .following _⟩) honline

theorem Configured.enter (h : s.Configured config) : (s.enter (config p) i p).Configured config := by
  unfold Availability.enter
  split
  · next honline =>
    split
    · exact h.setCheck (c := ⟨p, .reading⟩) honline
    · exact h.lookUp honline
  · next hoffline =>
    have hoffline : (config p).onlineFallback = false := by simpa using hoffline
    split
    · exact h.setCheck (c := ⟨p, .looking s.now⟩) hoffline
    · next hnone =>
      exact h.setCheck (c := ⟨p, .looked false s.now⟩)
        ⟨hoffline, .inl ⟨by simpa using hnone, rfl⟩⟩

theorem Configured.record (h : s.Configured config) (honline : (config p).onlineFallback = true)
    (v : Verdict) : (s.record (config p) i p v).Configured config := by
  have hnote : (s.note v).Configured config := h.of_eq rfl (List.Subset.refl _)
  unfold Availability.record
  split
  · exact (hnote.setCheck (c := ⟨p, .storing v⟩) honline).of_eq rfl (List.Subset.refl _)
  · exact hnote.leave honline fun _ => id

theorem Configured.failed (h : s.Configured config) (hc : s.checks i = some c)
    (ht : s.failed i c = some t) : t.Configured config := by
  have hfits := h i c hc
  have hraised : ∀ j q, s.Fits config j ⟨q, .raised⟩ := fun _ _ => trivial
  obtain ⟨q, stage⟩ := c
  cases stage with
  | looking | reading | read =>
    obtain rfl := Option.some.inj ht
    exact h.setCheck (hraised i q)
  | leading | storing =>
    obtain rfl := Option.some.inj ht
    exact h.leave hfits fun j _ => hraised j q
  | following leader =>
    obtain rfl := Option.some.inj ht
    exact (h.endFollowers fun j _ => hraised j q).of_eq rfl (List.Subset.refl _)
  | looked | answered | raised => cases ht

theorem configured_step (h : s.Configured config) (ht : step config ttl s a = some t) :
    t.Configured config := by
  cases a with
  | wait time =>
    obtain rfl := Option.some.inj ht
    exact h.of_eq rfl (List.Subset.refl _)
  | check i p =>
    obtain ⟨-, hsome⟩ := Option.ite_none_right_eq_some.mp ht
    obtain rfl := Option.some.inj hsome
    exact h.enter
  | look i found =>
    obtain ⟨p, began, hc, rfl⟩ := step_look ht
    let u : Availability := { s with looks := ⟨i, began, s.now, found⟩ :: s.looks }
    have hu : u.Configured config := h.of_eq rfl (List.subset_cons_self _ _)
    have hoffline : (config p).onlineFallback = false := h i _ hc
    have hlooked : u.Fits config i ⟨p, .looked (found.getD false) s.now⟩ :=
      ⟨hoffline, .inr ⟨_, List.mem_cons_self, rfl, rfl, rfl⟩⟩
    exact hu.setCheck hlooked
  | get i =>
    obtain ⟨p, e, hc, -, rfl⟩ := step_get ht
    have honline : (config p).onlineFallback = true := h i _ hc
    exact h.setCheck (c := ⟨p, .read e.verdict s.now⟩) honline
  | hit i =>
    obtain ⟨p, v, time, hc, rfl⟩ := step_hit ht
    have honline : (config p).onlineFallback = true := h i _ hc
    exact h.setCheck (c := ⟨p, .answered v s.now⟩) honline
  | miss i =>
    obtain ⟨p, stage, hc, hreads, rfl⟩ := step_miss ht
    exact h.lookUp ((h i _ hc).online (.inl hreads))
  | probed i probeOk s3Ok =>
    obtain ⟨p, began, hc, rfl⟩ := step_probed ht
    exact h.record (h i _ hc) _
  | land v =>
    obtain ⟨-, hsome⟩ := Option.ite_none_right_eq_some.mp ht
    obtain rfl := Option.some.inj hsome
    exact h.of_eq rfl (List.Subset.refl _)
  | lost v =>
    obtain ⟨-, hsome⟩ := Option.ite_none_right_eq_some.mp ht
    obtain rfl := Option.some.inj hsome
    exact h.of_eq rfl (List.Subset.refl _)
  | stored i =>
    obtain ⟨p, v, hc, rfl⟩ := step_stored ht
    have honline : (config p).onlineFallback = true := h i _ hc
    exact h.leave honline fun _ => id
  | fail i =>
    obtain ⟨c, hc, hfailed⟩ := Option.bind_eq_some_iff.mp ht
    exact h.failed hc hfailed
  | evict =>
    obtain rfl := Option.some.inj ht
    exact h.of_eq rfl (List.Subset.refl _)

theorem configured_start : start.Configured config := by
  intro i c hc
  simp [start] at hc

theorem fresh_start : start.Fresh getDelay setDelay ttl := by
  constructor <;> simp [start]

end Steps

end Availability

end DataService
