import Mathlib.Algebra.Order.Field.Rat
import Mathlib.Algebra.Order.Ring.Pow
import Mathlib.Algebra.Ring.Nat
import Mathlib.Logic.Function.Basic
import Mathlib.Tactic.Linarith
import Mathlib.Tactic.Ring

/-! The throttle of a log line that repeats while S3 is down: the line is written at once, and then
at gaps that grow up to a bound. What was not written is counted for the next line. -/

namespace DataService

/-- `_KeyState` -/
structure KeyState where
  nextAt : ℚ
  interval : ℚ
  suppressed : Nat
  deriving DecidableEq

structure BackoffLogThrottle where
  base : ℚ
  max : ℚ
  factor : ℚ
  states : String → Option KeyState

namespace BackoffLogThrottle

def new (base max factor : ℚ) : BackoffLogThrottle := ⟨base, max, factor, fun _ => none⟩

def setState (t : BackoffLogThrottle) (key : String) (state : Option KeyState) :
    BackoffLogThrottle :=
  { t with states := Function.update t.states key state }

/-- The occurrences that were suppressed, if this one is to be written. -/
def check (t : BackoffLogThrottle) (now : ℚ) (key : String) : Option Nat × BackoffLogThrottle :=
  match t.states key with
  | none => (some 0, t.setState key (some ⟨now + t.base, t.base, 0⟩))
  | some state =>
    if now < state.nextAt then
      (none, t.setState key (some { state with suppressed := state.suppressed + 1 }))
    else
      let interval := min (state.interval * t.factor) t.max
      (some state.suppressed, t.setState key (some ⟨now + interval, interval, 0⟩))

def reset (t : BackoffLogThrottle) (key : String) : BackoffLogThrottle := t.setState key none

/-- The gap behind the `k`-th line. -/
def gap (t : BackoffLogThrottle) (k : Nat) : ℚ := min (t.base * t.factor ^ k) t.max

end BackoffLogThrottle

inductive ThrottleEvent where
  | check (now : ℚ) (key : String)
  | reset (key : String)
  deriving DecidableEq

/-- What becomes of the occurrences of each key since its last reset: how many there were, and the
lines that were written with their time and count, the newest first. -/
structure ThrottleLog where
  throttle : BackoffLogThrottle
  occurrences : String → Nat
  lines : String → List (ℚ × Nat)

namespace ThrottleLog

def new (base max factor : ℚ) : ThrottleLog := ⟨.new base max factor, fun _ => 0, fun _ => []⟩

def written (lines : String → List (ℚ × Nat)) (key : String) (now : ℚ) :
    Option Nat → String → List (ℚ × Nat)
  | some suppressed => Function.update lines key ((now, suppressed) :: lines key)
  | none => lines

def step (s : ThrottleLog) : ThrottleEvent → ThrottleLog
  | .check now key =>
    { throttle := (s.throttle.check now key).2
      occurrences := Function.update s.occurrences key (s.occurrences key + 1)
      lines := written s.lines key now (s.throttle.check now key).1 }
  | .reset key =>
    { throttle := s.throttle.reset key
      occurrences := Function.update s.occurrences key 0
      lines := Function.update s.lines key [] }

end ThrottleLog

namespace BackoffLogThrottle

variable {t : BackoffLogThrottle} {key key' : String} {now : ℚ}

theorem states_setState (state : Option KeyState) :
    (t.setState key state).states key' = if key' = key then state else t.states key' := by
  simp [setState, Function.update_apply]

theorem gap_check (k : Nat) : (t.check now key).2.gap k = t.gap k := by
  unfold check
  split
  · rfl
  · split_ifs <;> rfl

theorem gap_zero (h : t.base ≤ t.max) : t.gap 0 = t.base := by simp [gap, h]

theorem gap_succ (hbase : 0 ≤ t.base) (hmax : t.base ≤ t.max) (hfactor : 1 ≤ t.factor) (k : Nat) :
    min (t.gap k * t.factor) t.max = t.gap (k + 1) := by
  have hpos : (0 : ℚ) ≤ t.factor := le_trans zero_le_one hfactor
  have hbound : t.max ≤ t.max * t.factor := le_mul_of_one_le_right (hbase.trans hmax) hfactor
  unfold gap
  rw [min_mul_of_nonneg _ _ hpos, min_assoc, min_eq_right hbound, pow_succ, mul_assoc]

end BackoffLogThrottle

namespace ThrottleLog

variable {s : ThrottleLog} {key key' : String} {now : ℚ} {event : ThrottleEvent}

/-- Each line comes a gap or more behind the one before it. -/
def Paced (gap : Nat → ℚ) : List (ℚ × Nat) → Prop
  | line :: previous :: rest =>
    previous.1 + gap rest.length ≤ line.1 ∧ Paced gap (previous :: rest)
  | _ => True

/-- The occurrences that the lines account for, each with itself. -/
def accounted (lines : List (ℚ × Nat)) : Nat := (lines.map fun line => line.2 + 1).sum

/-- What the state of a key says of its lines. -/
def Agrees (t : BackoffLogThrottle) (occurrences : Nat) (lines : List (ℚ × Nat)) :
    Option KeyState → Prop
  | none => lines = [] ∧ occurrences = 0
  | some state => ∃ line rest, lines = line :: rest ∧ state.interval = t.gap rest.length ∧
    state.nextAt = line.1 + t.gap rest.length ∧ accounted lines + state.suppressed = occurrences

theorem written_ne (lines : String → List (ℚ × Nat)) (outcome : Option Nat) (h : key' ≠ key) :
    written lines key now outcome key' = lines key' := by
  cases outcome with
  | none => rfl
  | some suppressed => simp [written, Function.update_of_ne h]

structure Settled (s : ThrottleLog) : Prop where
  base : 0 ≤ s.throttle.base
  max : s.throttle.base ≤ s.throttle.max
  factor : 1 ≤ s.throttle.factor
  agrees : ∀ key, Agrees s.throttle (s.occurrences key) (s.lines key) (s.throttle.states key)
  paced : ∀ key, Paced s.throttle.gap (s.lines key)

theorem settled_new {base max factor : ℚ} (hbase : 0 ≤ base) (hmax : base ≤ max)
    (hfactor : 1 ≤ factor) : (new base max factor).Settled :=
  ⟨hbase, hmax, hfactor, fun _ => ⟨rfl, rfl⟩, fun _ => trivial⟩

theorem agrees_check (now : ℚ) {t : BackoffLogThrottle} {occurrences : Nat} {lines : List (ℚ × Nat)}
    (hbase : 0 ≤ t.base) (hmax : t.base ≤ t.max) (hfactor : 1 ≤ t.factor)
    (h : Agrees t occurrences lines (t.states key)) :
    ((t.check now key).1 = none ∧ (∃ line rest, lines = line :: rest ∧
        now < line.1 + t.gap rest.length) ∧
      Agrees t (occurrences + 1) lines ((t.check now key).2.states key)) ∨
    ∃ n, (t.check now key).1 = some n ∧ accounted lines + n = occurrences ∧
      (∀ line rest, lines = line :: rest → line.1 + t.gap rest.length ≤ now) ∧
      Agrees t (occurrences + 1) ((now, n) :: lines) ((t.check now key).2.states key) := by
  cases hstate : t.states key with
  | none =>
    rw [hstate] at h
    obtain ⟨rfl, rfl⟩ := h
    refine .inr ⟨0, by simp [BackoffLogThrottle.check, hstate], rfl, by simp, ?_⟩
    simp [BackoffLogThrottle.check, hstate, BackoffLogThrottle.states_setState, Agrees, accounted,
      BackoffLogThrottle.gap_zero hmax]
  | some state =>
    rw [hstate] at h
    obtain ⟨line, rest, rfl, hinterval, hnext, hcount⟩ := h
    by_cases hearly : now < state.nextAt
    · refine .inl ⟨by simp [BackoffLogThrottle.check, hstate, hearly], ⟨line, rest, rfl, ?_⟩, ?_⟩
      · rwa [hnext] at hearly
      · simp only [BackoffLogThrottle.check, hstate, hearly, if_true,
          BackoffLogThrottle.states_setState, Agrees]
        exact ⟨line, rest, rfl, hinterval, hnext, by omega⟩
    · refine .inr ⟨state.suppressed, by simp [BackoffLogThrottle.check, hstate, hearly], hcount,
        ?_, ?_⟩
      · intro line' rest' heq
        obtain ⟨rfl, rfl⟩ := List.cons.inj heq
        rw [← hnext]
        exact not_lt.mp hearly
      · have hgap : min (state.interval * t.factor) t.max = t.gap (rest.length + 1) := by
          rw [hinterval]
          exact BackoffLogThrottle.gap_succ hbase hmax hfactor _
        simp only [BackoffLogThrottle.check, hstate, hearly, if_false,
          BackoffLogThrottle.states_setState, if_true, Agrees, hgap]
        refine ⟨(now, state.suppressed), line :: rest, rfl, rfl, rfl, ?_⟩
        simp only [accounted, List.map_cons, List.sum_cons] at hcount ⊢
        omega

theorem states_check_ne {t : BackoffLogThrottle} (h : key' ≠ key) :
    (t.check now key).2.states key' = t.states key' := by
  unfold BackoffLogThrottle.check
  split
  · simp [BackoffLogThrottle.states_setState, h]
  · split_ifs <;> simp [BackoffLogThrottle.states_setState, h]

theorem settings_check (t : BackoffLogThrottle) (now : ℚ) (key : String) :
    (t.check now key).2.base = t.base ∧ (t.check now key).2.max = t.max ∧ (t.check now key).2.factor = t.factor := by
  unfold BackoffLogThrottle.check
  split
  · exact ⟨rfl, rfl, rfl⟩
  · split_ifs <;> exact ⟨rfl, rfl, rfl⟩

/-- Only the settings of a throttle matter for what a state says of its lines. -/
theorem Agrees.of_settings {t u : BackoffLogThrottle} {occurrences : Nat}
    {lines : List (ℚ × Nat)} {state : Option KeyState} (h : Agrees t occurrences lines state)
    (hgap : u.gap = t.gap) : Agrees u occurrences lines state := by
  cases state with
  | none => exact h
  | some state => simpa [Agrees, hgap] using h

theorem settled_step (h : s.Settled) : (s.step event).Settled := by
  cases event with
  | check now key =>
    obtain ⟨hbase, hmax, hfactor⟩ := settings_check s.throttle now key
    have hgap : (s.throttle.check now key).2.gap = s.throttle.gap :=
      funext fun k => BackoffLogThrottle.gap_check k
    have hkey := agrees_check now h.base h.max h.factor (h.agrees key)
    refine ⟨by simpa [step, hbase] using h.base, by simpa [step, hbase, hmax] using h.max,
      by simpa [step, hfactor] using h.factor, fun key' => ?_, fun key' => ?_⟩
    · refine Agrees.of_settings (t := s.throttle) ?_ hgap
      by_cases hk : key' = key
      · subst hk
        rcases hkey with ⟨hnone, -, hagrees⟩ | ⟨n, hsome, -, -, hagrees⟩
        · simpa [step, hnone, written] using hagrees
        · simpa [step, hsome, written] using hagrees
      · simp only [step, states_check_ne hk, Function.update_of_ne hk, written_ne _ _ hk]
        exact h.agrees key'
    · have hpaced : (s.step (.check now key)).throttle.gap = s.throttle.gap := hgap
      rw [hpaced]
      simp only [step]
      by_cases hk : key' = key
      · subst hk
        rcases hkey with ⟨hnone, -, -⟩ | ⟨n, hsome, -, hgaps, -⟩
        · simpa [hnone, written] using h.paced key'
        · simp only [hsome, written, Function.update_self]
          have hold := h.paced key'
          cases hlines : s.lines key' with
          | nil => trivial
          | cons line rest =>
            rw [hlines] at hold
            exact ⟨hgaps line rest hlines, hold⟩
      · rw [written_ne _ _ hk]
        exact h.paced key'
  | reset key =>
    refine ⟨h.base, h.max, h.factor, fun key' => ?_, fun key' => ?_⟩
    · refine Agrees.of_settings (t := s.throttle) ?_ rfl
      by_cases hk : key' = key
      · subst hk
        simp [step, BackoffLogThrottle.reset, BackoffLogThrottle.states_setState, Agrees]
      · have hother := h.agrees key'
        simpa [step, BackoffLogThrottle.reset, BackoffLogThrottle.states_setState, hk,
          Function.update_of_ne hk] using hother
    · by_cases hk : key' = key
      · subst hk
        simp [step, Paced]
      · have hgap : (s.throttle.reset key).gap = s.throttle.gap := rfl
        simpa [step, Function.update_of_ne hk, hgap] using h.paced key'

theorem settled_run (events : List ThrottleEvent) (h : s.Settled) :
    (events.foldl step s).Settled := by
  induction events generalizing s with
  | nil => exact h
  | cons event events ih => exact ih (settled_step h)

theorem settings_run (events : List ThrottleEvent) (s : ThrottleLog) :
    (events.foldl step s).throttle.gap = s.throttle.gap := by
  induction events generalizing s with
  | nil => rfl
  | cons event events ih =>
    refine (ih (s.step event)).trans ?_
    cases event with
    | check now key => exact funext fun k => BackoffLogThrottle.gap_check k
    | reset key => rfl

/-- Whatever keys are checked and reset, and when: the lines of a key come at growing gaps, the
first occurrence behind a gap is written, and each line counts what was left out before it. -/
theorem throttled_lines (base max factor : ℚ) (hbase : 0 ≤ base) (hmax : base ≤ max)
    (hfactor : 1 ≤ factor) (events : List ThrottleEvent) (key : String) :
    let s := events.foldl step (new base max factor)
    let gap := fun k => min (base * factor ^ k) max
    Paced gap (s.lines key) ∧ ∀ now,
      ((s.throttle.check now key).1 = none ↔
        ∃ line rest, s.lines key = line :: rest ∧ now < line.1 + gap rest.length) ∧
      ∀ n, (s.throttle.check now key).1 = some n →
        accounted ((now, n) :: s.lines key) = s.occurrences key + 1 := by
  intro s gap
  have hs : s.Settled := settled_run events (settled_new hbase hmax hfactor)
  have hgap : s.throttle.gap = gap := settings_run events _
  refine ⟨hgap ▸ hs.paced key, fun now => ?_⟩
  rcases agrees_check now hs.base hs.max hs.factor (hs.agrees key) with
    ⟨hnone, ⟨line, rest, hlines, hearly⟩, -⟩ | ⟨n, hsome, hcount, hgaps, -⟩
  · rw [hgap] at hearly
    exact ⟨iff_of_true hnone ⟨line, rest, hlines, hearly⟩, by simp [hnone]⟩
  · rw [hgap] at hgaps
    constructor
    · refine iff_of_false (by simp [hsome]) ?_
      rintro ⟨line, rest, hlines, hearly⟩
      exact absurd (hgaps line rest hlines) (not_le.mpr hearly)
    · intro n' hn'
      obtain rfl : n = n' := by simpa [hsome] using hn'
      simp only [accounted, List.map_cons, List.sum_cons] at hcount ⊢
      omega

/-- The settings of `_LISTING_LOG_THROTTLE`. -/
theorem throttled_lines_default :
    let s := [ThrottleEvent.check 500 "EndpointConnectionError",
      .check 500 "EndpointConnectionError"].foldl step (new 1 30 2)
    accounted ((501, 1) :: s.lines "EndpointConnectionError") =
      s.occurrences "EndpointConnectionError" + 1 :=
  ((throttled_lines 1 30 2 (by norm_num) (by norm_num) (by norm_num) _ _).2 501).2 1
    (by decide +kernel)

end ThrottleLog

end DataService
