import Mathlib.Algebra.Ring.Nat
import DataService.Lib.StepSystem
import DataService.Basemap.StorageCircuit

/-! The backoff schedule of one storage circuit, read off the reports of its callers: which
edges they are answered with, how far apart these are, and what they count. -/

namespace DataService

open StepSystem

inductive CircuitCall where
  | allowsWrite
  | recordSuccess
  | recordFailure
  deriving DecidableEq, Repr

/-- A report of a write, and what the circuit returned. -/
structure WriteReport where
  time : Nat
  failed : Bool
  edge : Option CircuitTransition
  deriving DecidableEq, Repr

/-- A circuit and its clock. The reports so far, newest first, are no part of the circuit. -/
structure CircuitRun where
  circuit : StorageCircuit
  clock : Nat
  reports : List WriteReport

namespace CircuitRun

def start (settings : CircuitSettings) (clock : Nat) : CircuitRun := ⟨.new settings, clock, []⟩

def report (s : CircuitRun) (now : Nat) (failed : Bool)
    (out : StorageCircuit × Option CircuitTransition) : CircuitRun :=
  ⟨out.1, now, ⟨now, failed, out.2⟩ :: s.reports⟩

end CircuitRun

/-- A call at a time of the clock, which does not go back. -/
def circuitStep (s : CircuitRun) (call : CircuitCall × Nat) : Option CircuitRun :=
  if s.clock ≤ call.2 then
    match call.1 with
    | .allowsWrite => some { s with clock := call.2 }
    | .recordSuccess => some (s.report call.2 false (s.circuit.recordSuccess call.2))
    | .recordFailure => some (s.report call.2 true (s.circuit.recordFailure call.2))
  else none

/-- What a report does to a circuit. -/
inductive Recorded (c : StorageCircuit) (now : Nat) :
    Bool → StorageCircuit × Option CircuitTransition → Prop where
  | observed (failed : Bool) (counted : Nat) : c.isOpen = false →
      Recorded c now failed ({ c.observe failed with failuresWhileOpen := counted }, none)
  | opened (counted : Nat) : c.isOpen = false →
      Recorded c now true
        (({ c.observe true with failuresWhileOpen := counted }.trip now).1,
          some ({ c.observe true with failuresWhileOpen := counted }.trip now).2)
  | straggler (failed : Bool) : c.isOpen = true → now < c.openUntil →
      Recorded c now failed
        ({ c with failuresWhileOpen := c.failuresWhileOpen + failed.toNat }, none)
  | rearmed : c.isOpen = true → c.openUntil ≤ now →
      Recorded c now true
        (({ c with failuresWhileOpen := c.failuresWhileOpen + 1 }.rearm now).1,
          some ({ c with failuresWhileOpen := c.failuresWhileOpen + 1 }.rearm now).2)
  | recovered : c.isOpen = true → c.openUntil ≤ now →
      Recorded c now false ((c.close now).1, some (c.close now).2)

theorem recordSuccess_recorded (c : StorageCircuit) (now : Nat) :
    Recorded c now false (c.recordSuccess now) := by
  unfold StorageCircuit.recordSuccess
  by_cases hopen : c.isOpen = true
  · rw [if_pos hopen]
    by_cases hwindow : c.openUntil ≤ now
    · rw [if_pos (by simp [StorageCircuit.inProbeWindow, hopen, hwindow])]
      exact .recovered hopen hwindow
    · rw [if_neg (by simp [StorageCircuit.inProbeWindow, hwindow])]
      exact .straggler false hopen (by omega)
  · rw [if_neg hopen]
    exact .observed false c.failuresWhileOpen (by simpa using hopen)

theorem recordFailure_recorded (c : StorageCircuit) (now : Nat) :
    Recorded c now true (c.recordFailure now) := by
  let d : StorageCircuit := { c with failuresWhileOpen := c.failuresWhileOpen + 1 }
  change Recorded c now true
    (if c.isOpen then
      if d.inProbeWindow now then ((d.rearm now).1, some (d.rearm now).2) else (d, none)
    else if (d.observe true).shouldOpen then
      (((d.observe true).trip now).1, some ((d.observe true).trip now).2)
    else (d.observe true, none))
  by_cases hopen : c.isOpen = true
  · have hin : d.inProbeWindow now = decide (c.openUntil ≤ now) := by
      change (c.isOpen && decide (c.openUntil ≤ now)) = _
      rw [hopen, Bool.true_and]
    rw [if_pos hopen, hin]
    by_cases hwindow : c.openUntil ≤ now
    · rw [if_pos (by simpa using hwindow)]
      exact .rearmed hopen hwindow
    · rw [if_neg (by simpa using hwindow)]
      exact .straggler true hopen (by omega)
  · have hclosed : c.isOpen = false := by simpa using hopen
    rw [if_neg hopen]
    split_ifs with hshould
    · exact .opened (c.failuresWhileOpen + 1) hclosed
    · exact .observed true (c.failuresWhileOpen + 1) hclosed

theorem circuitStep_report {s t : CircuitRun} {now : Nat} (failed : Bool)
    (h : circuitStep s (if failed then .recordFailure else .recordSuccess, now) = some t) :
    s.clock ≤ now ∧ ∃ out, Recorded s.circuit now failed out ∧ t = s.report now failed out := by
  by_cases hclock : s.clock ≤ now
  · rw [circuitStep, if_pos hclock] at h
    refine ⟨hclock, ?_⟩
    cases failed with
    | false => exact ⟨_, recordSuccess_recorded s.circuit now, (Option.some.inj h).symm⟩
    | true => exact ⟨_, recordFailure_recorded s.circuit now, (Option.some.inj h).symm⟩
  · rw [circuitStep, if_neg hclock] at h
    cases h

theorem circuitStep_cases {s t : CircuitRun} {call : CircuitCall × Nat}
    (h : circuitStep s call = some t) : s.clock ≤ call.2 ∧
      (t = { s with clock := call.2 } ∨ ∃ failed out, Recorded s.circuit call.2 failed out ∧
        t = s.report call.2 failed out) := by
  obtain ⟨op, now⟩ := call
  cases op with
  | allowsWrite =>
    simp only [circuitStep, Option.ite_none_right_eq_some, Option.some.injEq] at h
    exact ⟨h.1, .inl h.2.symm⟩
  | recordSuccess =>
    obtain ⟨hclock, out, hrec, ht⟩ := circuitStep_report false h
    exact ⟨hclock, .inr ⟨false, out, hrec, ht⟩⟩
  | recordFailure =>
    obtain ⟨hclock, out, hrec, ht⟩ := circuitStep_report true h
    exact ⟨hclock, .inr ⟨true, out, hrec, ht⟩⟩

/-- An outage, as the reports tell it: when it opened or was last re-armed, how often it was
re-armed, and its failures. -/
structure Outage where
  edgeAt : Nat
  rearms : Nat
  atOpening : Nat
  sinceOpening : Nat
  deriving DecidableEq, Repr

/-- The pause behind the last edge. -/
def Outage.pause (settings : CircuitSettings) (o : Outage) : Nat :=
  min (settings.baseCooldown * 2 ^ o.rearms) settings.maxCooldown

/-- The outcomes since the circuit was last open, newest first. -/
def outcomesClosed (reports : List WriteReport) : List Bool :=
  (reports.takeWhile (·.edge.isNone)).map (·.failed)

/-- The failures in the window when this report arrives at a closed circuit. -/
def windowFailures (window : Nat) (r : WriteReport) (reports : List WriteReport) : Nat :=
  ((r.failed :: outcomesClosed reports).take window).count true

/-- The outage that is going on after these reports. -/
def ongoing (window : Nat) : List WriteReport → Option Outage
  | [] => none
  | r :: rs =>
    match r.edge with
    | some (.opened _ _) => some ⟨r.time, 0, windowFailures window r rs, 0⟩
    | some (.probeFailed _ _) =>
      (ongoing window rs).map fun o =>
        { o with edgeAt := r.time, rearms := o.rearms + 1, sinceOpening := o.sinceOpening + 1 }
    | some (.recovered _ _) => none
    | none =>
      (ongoing window rs).map fun o => { o with sinceOpening := o.sinceOpening + r.failed.toNat }

inductive EdgeKind where
  | opened
  | probeFailed
  | recovered
  deriving DecidableEq, Repr

def CircuitTransition.kind : CircuitTransition → EdgeKind
  | opened _ _ => .opened
  | probeFailed _ _ => .probeFailed
  | recovered _ _ => .recovered

/-- The edges so far, oldest first. -/
def CircuitRun.kinds (s : CircuitRun) : List EdgeKind :=
  (s.reports.reverse.filterMap (·.edge)).map (·.kind)

/-- `opened probe_failed*` -/
def outageKinds (rearms : Nat) : List EdgeKind :=
  .opened :: List.replicate rearms .probeFailed

/-- An edge comes when the pause of the outage is over, and a recovery counts its failures. -/
def EdgeFits (settings : CircuitSettings) (r : WriteReport) (before : List WriteReport) : Prop :=
  ∀ o, ongoing settings.window before = some o → ∀ e, r.edge = some e →
    o.edgeAt + o.pause settings ≤ r.time ∧
      ∀ failures downtime, e = .recovered failures downtime →
        failures = o.atOpening + o.sinceOpening

namespace StorageCircuit

/-- Closed, with these outcomes since the last recovery, newest first. -/
structure Idle (c : StorageCircuit) (outcomes : List Bool) : Prop where
  openUntil_eq : c.openUntil = 0
  trips_eq : c.consecutiveTrips = 0
  recent_eq : c.recent = (outcomes.take c.settings.window).reverse

/-- Open, in the middle of this outage. -/
structure Suffers (c : StorageCircuit) (o : Outage) : Prop where
  openUntil_pos : 0 < c.openUntil
  openUntil_eq : c.openUntil = o.edgeAt + o.pause c.settings
  cooldown_eq : c.cooldown = o.pause c.settings
  trips_eq : c.consecutiveTrips = o.rearms
  failures_eq : c.failuresWhileOpen = o.atOpening + o.sinceOpening

end StorageCircuit

/-- The circuit is where the reports say it is, and every edge came when it should. -/
structure OnSchedule (settings : CircuitSettings) (s : CircuitRun) : Prop where
  settings_eq : s.circuit.settings = settings
  idle : ongoing settings.window s.reports = none → s.circuit.Idle (outcomesClosed s.reports)
  suffers : ∀ o, ongoing settings.window s.reports = some o → s.circuit.Suffers o
  kinds : ∃ past : List Nat, s.kinds = past.flatMap (fun k => outageKinds k ++ [.recovered]) ++
    ((ongoing settings.window s.reports).map fun o => outageKinds o.rearms).getD []
  fits : ∀ r before, r :: before <:+ s.reports → EdgeFits settings r before

theorem onSchedule_start (settings : CircuitSettings) (clock : Nat) :
    OnSchedule settings (.start settings clock) where
  settings_eq := rfl
  idle _ := ⟨rfl, rfl, by simp [CircuitRun.start, outcomesClosed, StorageCircuit.new]⟩
  suffers o ho := by simp [CircuitRun.start, ongoing] at ho
  kinds := ⟨[], rfl⟩
  fits r before hsuffix := by simp [CircuitRun.start] at hsuffix

section Step

variable {settings : CircuitSettings} {s t : CircuitRun}

theorem OnSchedule.closed_iff (h : OnSchedule settings s) :
    s.circuit.isOpen = false ↔ ongoing settings.window s.reports = none := by
  cases ho : ongoing settings.window s.reports with
  | none =>
    have hzero := (h.idle ho).openUntil_eq
    simp [StorageCircuit.isOpen, hzero]
  | some o =>
    have hpos := (h.suffers o ho).openUntil_pos
    simp [StorageCircuit.isOpen, hpos]

theorem OnSchedule.open_iff (h : OnSchedule settings s) :
    s.circuit.isOpen = true ↔ ∃ o, ongoing settings.window s.reports = some o := by
  rw [← Option.ne_none_iff_exists', ← Bool.not_eq_false]
  exact not_congr h.closed_iff

/-- Observing keeps the newest outcomes of the window. -/
theorem observe_recent {c : StorageCircuit} {l : List Bool} (failed : Bool)
    (h : c.recent = (l.take c.settings.window).reverse) :
    (c.observe failed).recent = ((failed :: l).take c.settings.window).reverse := by
  have happend : c.recent ++ [failed] = (failed :: l.take c.settings.window).reverse := by
    rw [h, List.reverse_cons]
  simp only [StorageCircuit.observe, happend, List.length_reverse, List.length_cons,
    List.length_take]
  cases hw : c.settings.window with
  | zero => simp
  | succ w =>
    by_cases hfull : w + 1 ≤ l.length
    · have hlength : (failed :: l.take (w + 1)).length - 1 = w + 1 := by
        simp only [List.length_cons, List.length_take]
        omega
      rw [if_pos (by omega), List.drop_one, List.tail_reverse, List.dropLast_eq_take, hlength,
        List.take_succ_cons, List.take_succ_cons, List.take_take, Nat.min_eq_left (by omega)]
    · rw [if_neg (by omega), List.take_of_length_le (by omega), List.take_succ_cons,
        List.take_of_length_le (by omega)]

theorem kinds_report (s : CircuitRun) (now : Nat) (failed : Bool)
    (out : StorageCircuit × Option CircuitTransition) :
    (s.report now failed out).kinds = s.kinds ++ (out.2.map (·.kind)).toList := by
  obtain ⟨c, edge⟩ := out
  cases edge <;> simp [CircuitRun.kinds, CircuitRun.report]

theorem OnSchedule.fits_cons {r : WriteReport} (h : OnSchedule settings s)
    (hr : EdgeFits settings r s.reports) (r' : WriteReport) (before : List WriteReport)
    (hsuffix : r' :: before <:+ r :: s.reports) : EdgeFits settings r' before := by
  rcases List.suffix_cons_iff.mp hsuffix with heq | hsuffix
  · obtain ⟨rfl, rfl⟩ := List.cons.inj heq
    exact hr
  · exact h.fits r' before hsuffix

/-- A report that the circuit answers with no edge only counts. -/
theorem OnSchedule.quiet (h : OnSchedule settings s) {now : Nat} {failed : Bool}
    {c : StorageCircuit} (hsettings : c.settings = settings)
    (hidle : ongoing settings.window s.reports = none →
      c.Idle (failed :: outcomesClosed s.reports))
    (hsuffers : ∀ o, ongoing settings.window s.reports = some o →
      c.Suffers { o with sinceOpening := o.sinceOpening + failed.toNat }) :
    OnSchedule settings (s.report now failed (c, none)) := by
  have hongoing : ongoing settings.window (s.report now failed (c, none)).reports =
      (ongoing settings.window s.reports).map fun o =>
        { o with sinceOpening := o.sinceOpening + failed.toNat } := rfl
  refine ⟨hsettings, ?_, ?_, ?_, ?_⟩
  · intro hnone
    rw [hongoing, Option.map_eq_none_iff] at hnone
    exact hidle hnone
  · intro o ho
    rw [hongoing, Option.map_eq_some_iff] at ho
    obtain ⟨o, ho, rfl⟩ := ho
    exact hsuffers o ho
  · obtain ⟨past, hpast⟩ := h.kinds
    refine ⟨past, ?_⟩
    rw [kinds_report, hpast, hongoing, Option.map_map]
    simp
    rfl
  · refine h.fits_cons ?_
    intro o _ e he
    cases he

theorem OnSchedule.recorded (h : OnSchedule settings s) (hbase : 0 < settings.baseCooldown)
    (hmax : settings.baseCooldown ≤ settings.maxCooldown) {now : Nat} {failed : Bool}
    {out : StorageCircuit × Option CircuitTransition} (hrec : Recorded s.circuit now failed out) :
    OnSchedule settings (s.report now failed out) := by
  have hsettings := h.settings_eq
  cases hrec with
  | observed _ counted hclosed =>
    have hnone := h.closed_iff.mp hclosed
    have hidle := h.idle hnone
    refine h.quiet hsettings (fun _ => ⟨hidle.openUntil_eq, hidle.trips_eq, ?_⟩) ?_
    · exact observe_recent failed hidle.recent_eq
    · simp [hnone]
  | opened counted hclosed =>
    have hnone := h.closed_iff.mp hclosed
    have hidle := h.idle hnone
    have hrecent := observe_recent true hidle.recent_eq
    let r : WriteReport := ⟨now, true, some (.opened s.circuit.settings.baseCooldown
      ((s.circuit.observe true).recent.count true))⟩
    let o : Outage := ⟨now, 0, windowFailures settings.window r s.reports, 0⟩
    have hongoing : ongoing settings.window (r :: s.reports) = some o := rfl
    have hpause : o.pause settings = settings.baseCooldown := by simp [o, Outage.pause, hmax]
    have hcount : (s.circuit.observe true).recent.count true = o.atOpening := by
      rw [hrecent, List.count_reverse, hsettings]
      rfl
    refine ⟨hsettings, ?_, ?_, ?_, h.fits_cons ?_⟩
    · intro hno
      exact absurd (hongoing.symm.trans hno) (by simp)
    · intro o' ho'
      obtain rfl : o = o' := Option.some.inj (hongoing.symm.trans ho')
      have huntil : now + s.circuit.settings.baseCooldown = o.edgeAt + o.pause settings := by
        rw [hpause, hsettings]
      refine ⟨?_, ?_, ?_, rfl, ?_⟩
      · change 0 < now + s.circuit.settings.baseCooldown
        rw [hsettings]
        omega
      · change now + s.circuit.settings.baseCooldown = o.edgeAt + o.pause s.circuit.settings
        rw [hsettings, hpause]
      · change s.circuit.settings.baseCooldown = o.pause s.circuit.settings
        rw [hsettings, hpause]
      · exact hcount
    · obtain ⟨past, hpast⟩ := h.kinds
      refine ⟨past, ?_⟩
      rw [kinds_report, hpast, hnone]
      change _ = _ ++ (Option.map _ (ongoing settings.window (r :: s.reports))).getD []
      rw [hongoing]
      simp [outageKinds, o]
      rfl
    · intro o' ho'
      simp [hnone] at ho'
  | straggler _ hopen hlate =>
    obtain ⟨o, ho⟩ := h.open_iff.mp hopen
    have hsuf := h.suffers o ho
    refine h.quiet hsettings (by simp [ho]) ?_
    intro o' ho'
    obtain rfl : o = o' := Option.some.inj (ho.symm.trans ho')
    have hfailures := hsuf.failures_eq
    refine ⟨hsuf.openUntil_pos, hsuf.openUntil_eq, hsuf.cooldown_eq, hsuf.trips_eq, ?_⟩
    simp only [hfailures]
    omega
  | rearmed hopen hwindow =>
    obtain ⟨o, ho⟩ := h.open_iff.mp hopen
    have hsuf := h.suffers o ho
    let cooldown := min (s.circuit.cooldown * 2) s.circuit.settings.maxCooldown
    let r : WriteReport := ⟨now, true, some (.probeFailed cooldown (s.circuit.failuresWhileOpen + 1))⟩
    let o' : Outage := ⟨now, o.rearms + 1, o.atOpening, o.sinceOpening + 1⟩
    have hongoing : ongoing settings.window (r :: s.reports) = some o' := by
      simp [ongoing, ho, r, o']
    have hpause : cooldown = o'.pause s.circuit.settings := by
      have hdouble (n : Nat) : n * 2 ^ (o.rearms + 1) = n * 2 ^ o.rearms * 2 := by
        rw [Nat.pow_succ, Nat.mul_assoc]
      simp only [cooldown, hsuf.cooldown_eq, Outage.pause, o', hdouble]
      omega
    have hcooldown : 0 < cooldown := by
      rw [hpause, hsettings]
      have hpow : 0 < settings.baseCooldown * 2 ^ (o.rearms + 1) := 
        Nat.mul_pos hbase (Nat.two_pow_pos _)
      exact lt_min hpow (by omega)
    have huntil := hsuf.openUntil_eq
    refine ⟨hsettings, ?_, ?_, ?_, h.fits_cons ?_⟩
    · intro hno
      exact absurd (hongoing.symm.trans hno) (by simp)
    · intro o'' ho''
      obtain rfl : o' = o'' := Option.some.inj (hongoing.symm.trans ho'')
      have hfailures := hsuf.failures_eq
      refine ⟨?_, ?_, hpause, ?_, ?_⟩
      · change 0 < now + cooldown
        omega
      · change now + cooldown = now + o'.pause s.circuit.settings
        rw [hpause]
      · change s.circuit.consecutiveTrips + 1 = o.rearms + 1
        rw [hsuf.trips_eq]
      · change s.circuit.failuresWhileOpen + 1 = o.atOpening + (o.sinceOpening + 1)
        omega
    · obtain ⟨past, hpast⟩ := h.kinds
      refine ⟨past, ?_⟩
      rw [kinds_report, hpast, ho]
      change _ = _ ++ (Option.map _ (ongoing settings.window (r :: s.reports))).getD []
      rw [hongoing]
      simp [outageKinds, o', List.replicate_succ']
      rfl
    · intro o'' ho'' e he
      obtain rfl : o = o'' := Option.some.inj (ho.symm.trans ho'')
      refine ⟨?_, ?_⟩
      · rw [← hsettings, ← huntil]
        exact hwindow
      · rintro failures downtime rfl
        cases he
  | recovered hopen hwindow =>
    obtain ⟨o, ho⟩ := h.open_iff.mp hopen
    have hsuf := h.suffers o ho
    have huntil := hsuf.openUntil_eq
    let r : WriteReport := ⟨now, false, some (s.circuit.close now).2⟩
    have hongoing : ongoing settings.window (r :: s.reports) = none := rfl
    refine ⟨hsettings, ?_, ?_, ?_, h.fits_cons ?_⟩
    · intro _
      exact ⟨rfl, rfl, by simp [CircuitRun.report, StorageCircuit.close, outcomesClosed,
        StorageCircuit.new]⟩
    · intro o' ho'
      exact absurd (hongoing.symm.trans ho') (by simp)
    · obtain ⟨past, hpast⟩ := h.kinds
      refine ⟨past ++ [o.rearms], ?_⟩
      rw [kinds_report, hpast, ho]
      change _ = _ ++ (Option.map _ (ongoing settings.window (r :: s.reports))).getD []
      rw [hongoing]
      simp
      rfl
    · intro o' ho' e he
      obtain rfl : o = o' := Option.some.inj (ho.symm.trans ho')
      refine ⟨?_, ?_⟩
      · rw [← hsettings, ← huntil]
        exact hwindow
      · rintro failures downtime rfl
        cases he
        exact hsuf.failures_eq

theorem OnSchedule.step (h : OnSchedule settings s) (hbase : 0 < settings.baseCooldown)
    (hmax : settings.baseCooldown ≤ settings.maxCooldown) {call : CircuitCall × Nat}
    (hstep : circuitStep s call = some t) : OnSchedule settings t := by
  obtain ⟨-, rfl | ⟨failed, out, hrec, rfl⟩⟩ := circuitStep_cases hstep
  · exact ⟨h.settings_eq, h.idle, h.suffers, h.kinds, h.fits⟩
  · exact h.recorded hbase hmax hrec

theorem onSchedule_run (hbase : 0 < settings.baseCooldown)
    (hmax : settings.baseCooldown ≤ settings.maxCooldown) {clock : Nat}
    {calls : List (CircuitCall × Nat)}
    (hrun : run circuitStep (.start settings clock) calls = some s) : OnSchedule settings s :=
  run_invariant (fun _ _ _ h hstep => h.step hbase hmax hstep) (onSchedule_start settings clock) hrun

theorem OnSchedule.shut (h : OnSchedule settings s) {o : Outage}
    (ho : ongoing settings.window s.reports = some o) {now : Nat}
    (hnow : now < o.edgeAt + o.pause settings) : s.circuit.allowsWrite now = false := by
  have hopen := h.open_iff.mpr ⟨o, ho⟩
  have huntil := (h.suffers o ho).openUntil_eq
  rw [h.settings_eq] at huntil
  have hearly : ¬ s.circuit.openUntil ≤ now := by omega
  simp [StorageCircuit.allowsWrite, StorageCircuit.inProbeWindow, hopen, hearly]

theorem OnSchedule.exhausted_iff (h : OnSchedule settings s) :
    s.circuit.exhausted = true ↔ settings.maxConsecutiveTrips = 0 ∨
      ∃ o, ongoing settings.window s.reports = some o ∧ settings.maxConsecutiveTrips ≤ o.rearms := by
  have hsettings := h.settings_eq
  rw [StorageCircuit.exhausted, decide_eq_true_iff, hsettings]
  cases ho : ongoing settings.window s.reports with
  | none =>
    have htrips := (h.idle ho).trips_eq
    simp [htrips]
  | some o =>
    have htrips := (h.suffers o ho).trips_eq
    simp only [htrips, Option.some.injEq, exists_eq_left']
    omega

end Step

/-- The backoff law of a storage circuit, over every run. -/
theorem circuit_backoff (settings : CircuitSettings) (clock : Nat)
    (calls : List (CircuitCall × Nat)) {s : CircuitRun}
    (hbase : 0 < settings.baseCooldown) (hmax : settings.baseCooldown ≤ settings.maxCooldown)
    (hrun : run circuitStep (.start settings clock) calls = some s) :
    (∃ past : List Nat, s.kinds = past.flatMap (fun k => outageKinds k ++ [.recovered]) ++
      ((ongoing settings.window s.reports).map fun o => outageKinds o.rearms).getD []) ∧
    (∀ o, ongoing settings.window s.reports = some o →
      ∀ now < o.edgeAt + o.pause settings, s.circuit.allowsWrite now = false) ∧
    (s.circuit.exhausted = true ↔ settings.maxConsecutiveTrips = 0 ∨
      ∃ o, ongoing settings.window s.reports = some o ∧
        settings.maxConsecutiveTrips ≤ o.rearms) ∧
    ∀ r before, r :: before <:+ s.reports → EdgeFits settings r before := by
  have h := onSchedule_run hbase hmax hrun
  exact ⟨h.kinds, fun o ho now hnow => h.shut ho hnow, h.exhausted_iff, h.fits⟩

def quickCircuit (maxConsecutiveTrips : Nat) : CircuitSettings :=
  { window := 1, minSamples := 1, threshold := ⟨8, 10, tenths_pos⟩, baseCooldown := 1,
    maxCooldown := 4, maxConsecutiveTrips := maxConsecutiveTrips }

def quickCalls : List (CircuitCall × Nat) :=
  [(.recordFailure, 1), (.recordFailure, 2), (.recordSuccess, 3), (.recordSuccess, 4)]

theorem circuit_backoff_quick :
    ∃ s, run circuitStep (.start (quickCircuit 1) 1) quickCalls = some s ∧
    s.kinds = [.opened, .probeFailed, .recovered] ∧
    ∀ r before, r :: before <:+ s.reports → EdgeFits (quickCircuit 1) r before :=
  ⟨_, rfl, rfl, (circuit_backoff (quickCircuit 1) 1 quickCalls (by decide) (by decide) rfl).2.2.2⟩

/-- With a limit of no trips at all, a circuit that has recovered is exhausted. -/
theorem exhausted_when_recovered : ¬ ∀ s, run circuitStep (.start (quickCircuit 0) 1)
      [(.recordFailure, 1), (.recordSuccess, 2)] = some s →
    (s.circuit.exhausted = true ↔ ∃ o, ongoing (quickCircuit 0).window s.reports = some o ∧
      (quickCircuit 0).maxConsecutiveTrips ≤ o.rearms) := by
  intro h
  obtain ⟨o, ho, -⟩ := (h _ rfl).mp rfl
  cases ho

end DataService
