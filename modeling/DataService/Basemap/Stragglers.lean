import DataService.Basemap.CircuitSchedule

/-! Writes that a storage circuit has admitted and that are reported later. Admission is
judged on the clock, and so is a report: a straggler moves the circuit only if its write was
under way for as long as the circuit paused. -/

namespace DataService

open StepSystem

/-- A write under way: when it was admitted, after how many edges. -/
structure AdmittedWrite where
  admittedAt : Nat
  edges : Nat
  deriving DecidableEq, Repr

structure WriteTraffic where
  run : CircuitRun
  inFlight : List AdmittedWrite

inductive TrafficAction where
  /-- a writer asks `allows_write`, and begins if it may -/
  | ask
  /-- the write at this index is reported -/
  | report (i : Nat) (failed : Bool)
  deriving DecidableEq, Repr

def WriteTraffic.start (settings : CircuitSettings) (clock : Nat) : WriteTraffic :=
  ⟨.start settings clock, []⟩

def trafficStep (s : WriteTraffic) (a : TrafficAction × Nat) : Option WriteTraffic :=
  match a.1 with
  | .ask =>
    (circuitStep s.run (.allowsWrite, a.2)).map fun run =>
      if s.run.circuit.allowsWrite a.2 then
        ⟨run, s.inFlight ++ [⟨a.2, s.run.kinds.length⟩]⟩
      else ⟨run, s.inFlight⟩
  | .report i failed =>
    s.inFlight[i]?.bind fun _ =>
      (circuitStep s.run (if failed then .recordFailure else .recordSuccess, a.2)).map fun run =>
        ⟨run, s.inFlight.eraseIdx i⟩

/-- The write was admitted before the last edge, or in the probe window behind it. -/
def AdmittedWrite.Placed (edges : Nat) (c : StorageCircuit) (w : AdmittedWrite) : Prop :=
  (w.edges < edges ∧ w.admittedAt + c.cooldown ≤ c.openUntil) ∨
    (w.edges = edges ∧ c.openUntil ≤ w.admittedAt)

structure TrafficOrder (s : WriteTraffic) : Prop where
  past : ∀ w ∈ s.inFlight, w.admittedAt ≤ s.run.clock ∧ w.edges ≤ s.run.kinds.length
  placed : s.run.circuit.isOpen = true →
    ∀ w ∈ s.inFlight, w.Placed s.run.kinds.length s.run.circuit

variable {s t : WriteTraffic}

/-- Behind an edge that opens the circuit or re-arms it, every write is from before. -/
theorem TrafficOrder.of_edge {c : StorageCircuit} {edges now : Nat} {ws : List AdmittedWrite}
    (hpast : ∀ w ∈ ws, w.admittedAt ≤ now ∧ w.edges ≤ edges)
    (huntil : c.openUntil = now + c.cooldown) : ∀ w ∈ ws, w.Placed (edges + 1) c := by
  intro w hw
  obtain ⟨hadmitted, hedges⟩ := hpast w hw
  exact .inl ⟨by omega, by omega⟩

/-- A report, seen from the writes that are still under way. -/
theorem TrafficOrder.reported (h : TrafficOrder s) {now : Nat} {failed : Bool}
    {out : StorageCircuit × Option CircuitTransition}
    (hrec : Recorded s.run.circuit now failed out) (hclock : s.run.clock ≤ now)
    {inFlight : List AdmittedWrite} (hsub : ∀ w ∈ inFlight, w ∈ s.inFlight) :
    TrafficOrder ⟨s.run.report now failed out, inFlight⟩ := by
  have hpast : ∀ w ∈ inFlight, w.admittedAt ≤ now ∧ w.edges ≤ s.run.kinds.length := fun w hw =>
    ⟨(h.past w (hsub w hw)).1.trans hclock, (h.past w (hsub w hw)).2⟩
  have hlength : (s.run.report now failed out).kinds.length =
      s.run.kinds.length + (out.2.map (·.kind)).toList.length := by
    rw [kinds_report, List.length_append]
  refine ⟨fun w hw => ⟨(hpast w hw).1, ?_⟩, fun hopen w hw => ?_⟩
  · have hedges := (hpast w hw).2
    change w.edges ≤ (s.run.report now failed out).kinds.length
    omega
  · change w.Placed (s.run.report now failed out).kinds.length out.1
    rw [hlength]
    cases hrec with
    | observed _ _ hclosed => exact absurd (hclosed.symm.trans hopen) (by decide)
    | opened => exact of_edge hpast rfl w hw
    | straggler _ hwas => exact h.placed hwas w (hsub w hw)
    | rearmed => exact of_edge hpast rfl w hw
    | recovered => simp [CircuitRun.report, StorageCircuit.close, StorageCircuit.new,
        StorageCircuit.isOpen] at hopen

theorem TrafficOrder.step (h : TrafficOrder s) {a : TrafficAction × Nat}
    (hstep : trafficStep s a = some t) : TrafficOrder t := by
  obtain ⟨action, now⟩ := a
  cases action with
  | ask =>
    obtain ⟨run, hrun, rfl⟩ := Option.map_eq_some_iff.mp hstep
    simp only [circuitStep, Option.ite_none_right_eq_some] at hrun
    obtain ⟨hclock, hrun⟩ := hrun
    obtain rfl := Option.some.inj hrun
    have hpast : ∀ w ∈ s.inFlight, w.admittedAt ≤ now ∧ w.edges ≤ s.run.kinds.length := fun w hw =>
      ⟨(h.past w hw).1.trans hclock, (h.past w hw).2⟩
    split_ifs with hallowed
    · refine ⟨fun w hw => ?_, fun hopen w hw => ?_⟩
      · rcases List.mem_append.mp hw with hw | hw
        · exact hpast w hw
        · obtain rfl := List.mem_singleton.mp hw
          exact ⟨le_rfl, le_rfl⟩
      · rcases List.mem_append.mp hw with hw | hw
        · exact h.placed hopen w hw
        · obtain rfl := List.mem_singleton.mp hw
          have hopen' : s.run.circuit.isOpen = true := hopen
          have hwindow : s.run.circuit.openUntil ≤ now := by
            simpa [StorageCircuit.allowsWrite, StorageCircuit.inProbeWindow, hopen'] using hallowed
          exact .inr ⟨rfl, hwindow⟩
    · exact ⟨hpast, h.placed⟩
  | report i failed =>
    obtain ⟨w, hw, hreport⟩ := Option.bind_eq_some_iff.mp hstep
    obtain ⟨run, hrun, rfl⟩ := Option.map_eq_some_iff.mp hreport
    obtain ⟨hclock, out, hrec, rfl⟩ := circuitStep_report failed hrun
    exact h.reported hrec hclock fun w hw => List.mem_of_mem_eraseIdx hw

theorem trafficOrder_run {settings : CircuitSettings} {clock : Nat}
    {calls : List (TrafficAction × Nat)}
    (hrun : run trafficStep (.start settings clock) calls = some s) : TrafficOrder s := by
  have hstart : TrafficOrder (.start settings clock) := by
    constructor <;> simp [WriteTraffic.start]
  exact run_invariant (fun _ _ _ h hstep => h.step hstep) hstart hrun

/-- The step re-armed the cooldown of an open circuit, or closed it. -/
def Moved (s t : WriteTraffic) : Prop := t.run.kinds ≠ s.run.kinds

/-- A report to an open circuit is judged by its own time alone. -/
theorem Recorded.of_open {c : StorageCircuit} {now : Nat} {failed : Bool}
    {out : StorageCircuit × Option CircuitTransition} (h : Recorded c now failed out)
    (hopen : c.isOpen = true) :
    (out.2 ≠ none ↔ c.openUntil ≤ now) ∧
      (out.2 = none → out.1.openUntil = c.openUntil ∧ out.1.cooldown = c.cooldown ∧
        out.1.consecutiveTrips = c.consecutiveTrips) := by
  cases h with
  | observed _ _ hclosed => simp [hopen] at hclosed
  | opened _ hclosed => simp [hopen] at hclosed
  | straggler _ _ hlate => exact ⟨iff_of_false (by simp) (by omega), fun _ => ⟨rfl, rfl, rfl⟩⟩
  | rearmed _ hwindow => exact ⟨iff_of_true (by simp) hwindow, fun hno => by simp at hno⟩
  | recovered _ hwindow => exact ⟨iff_of_true (by simp) hwindow, fun hno => by simp at hno⟩

theorem kinds_report_ne {s : CircuitRun} {now : Nat} {failed : Bool}
    {out : StorageCircuit × Option CircuitTransition} :
    (s.report now failed out).kinds ≠ s.kinds ↔ out.2 ≠ none := by
  rw [kinds_report]
  simp

theorem moved_iff (hopen : s.run.circuit.isOpen = true) {i now : Nat} {failed : Bool}
    (hreport : trafficStep s (.report i failed, now) = some t) :
    (Moved s t ↔ s.run.circuit.openUntil ≤ now) ∧
      (¬ Moved s t → t.run.circuit.openUntil = s.run.circuit.openUntil ∧
        t.run.circuit.cooldown = s.run.circuit.cooldown ∧
        t.run.circuit.consecutiveTrips = s.run.circuit.consecutiveTrips) := by
  obtain ⟨w, -, hreport⟩ := Option.bind_eq_some_iff.mp hreport
  obtain ⟨run, hrun, rfl⟩ := Option.map_eq_some_iff.mp hreport
  obtain ⟨-, out, hrec, rfl⟩ := circuitStep_report failed hrun
  obtain ⟨hmoved, hstill⟩ := hrec.of_open hopen
  refine ⟨kinds_report_ne.trans hmoved, fun hno => hstill ?_⟩
  by_contra hedge
  exact hno (kinds_report_ne.mpr hedge)

/-- Whatever write is reported to an open circuit, it moves the circuit only inside the probe
window; one from before the last edge, only if it was under way for the whole pause. -/
theorem stragglers_on_the_clock (settings : CircuitSettings) (clock : Nat)
    (calls : List (TrafficAction × Nat)) {s t : WriteTraffic} {w : AdmittedWrite} {i now : Nat}
    {failed : Bool} (hrun : run trafficStep (.start settings clock) calls = some s)
    (hopen : s.run.circuit.isOpen = true) (hw : s.inFlight[i]? = some w)
    (hreport : trafficStep s (.report i failed, now) = some t) :
    (Moved s t ↔ s.run.circuit.openUntil ≤ now) ∧
    (¬ Moved s t → t.run.circuit.openUntil = s.run.circuit.openUntil ∧
      t.run.circuit.cooldown = s.run.circuit.cooldown ∧
      t.run.circuit.consecutiveTrips = s.run.circuit.consecutiveTrips) ∧
    (w.edges < s.run.kinds.length → Moved s t →
      w.admittedAt + s.run.circuit.cooldown ≤ now) ∧
    (Moved s t → now < w.admittedAt + s.run.circuit.cooldown →
      w.edges = s.run.kinds.length ∧ s.run.circuit.openUntil ≤ w.admittedAt) := by
  have hplaced := (trafficOrder_run hrun).placed hopen w (List.mem_of_getElem? hw)
  obtain ⟨hmoved, hstill⟩ := moved_iff hopen hreport
  refine ⟨hmoved, hstill, ?_, ?_⟩
  · intro hold hmove
    have hwindow := hmoved.mp hmove
    rcases hplaced with ⟨-, hadmitted⟩ | ⟨hedges, -⟩ <;> omega
  · intro hmove hquick
    have hwindow := hmoved.mp hmove
    rcases hplaced with ⟨-, hadmitted⟩ | hprobe
    · omega
    · exact hprobe

/-- Two writes began at one time; the first has failed and opened the circuit. -/
def halfReported : WriteTraffic :=
  { run := ⟨⟨quickCircuit 1, [], 2, 1, 0, 1, 1⟩, 1, [⟨1, true, some (.opened 1 1)⟩]⟩
    inFlight := [⟨1, 0⟩] }

theorem stragglers_on_the_clock_quick :
    run trafficStep (.start (quickCircuit 1) 1) [(.ask, 1), (.ask, 1), (.report 0 true, 1)] =
      some halfReported ∧
    ∀ t, trafficStep halfReported (.report 0 true, 1) = some t → ¬ Moved halfReported t := by
  have hrun : run trafficStep (.start (quickCircuit 1) 1)
      [(.ask, 1), (.ask, 1), (.report 0 true, 1)] = some halfReported := rfl
  refine ⟨hrun, fun t ht hmoved => ?_⟩
  have hlate := (stragglers_on_the_clock (quickCircuit 1) 1 _ hrun (by decide) rfl ht).1.mp hmoved
  exact absurd hlate (by decide)

/-- The second write, reported when the pause is over, arms the circuit again. -/
theorem straggler_rearms :
    run trafficStep (.start (quickCircuit 1) 1) [(.ask, 1), (.ask, 1), (.report 0 true, 1)] =
      some halfReported ∧
    halfReported.inFlight = [⟨1, 0⟩] ∧ halfReported.run.kinds = [.opened] ∧
    ∃ t, trafficStep halfReported (.report 0 true, 2) = some t ∧
      t.run.kinds = [.opened, .probeFailed] :=
  ⟨rfl, rfl, rfl, _, rfl, rfl⟩

end DataService
