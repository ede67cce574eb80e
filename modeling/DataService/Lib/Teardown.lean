import Mathlib.Data.List.Basic
import Mathlib.Data.List.Nodup

/-! Start-up that opens things one after another and may raise at any of them, and a teardown that
goes on behind a step that raises, but not behind one that is cancelled. -/

namespace Teardown

inductive CloseEnd where
  | done
  | raised
  | cancelled
  deriving DecidableEq, Repr

section Closing

variable {ρ : Type*}

/-- The steps that are taken. -/
def run (ends : ρ → CloseEnd) : List ρ → List ρ
  | [] => []
  | r :: rs => r :: if ends r = .cancelled then [] else run ends rs

variable {ends : ρ → CloseEnd} {r : ρ} {order : List ρ}

theorem run_sublist : (run ends order).Sublist order := by
  induction order with
  | nil => exact .slnil
  | cons r rs ih =>
    rw [run]
    split
    · exact .cons_cons r (List.nil_sublist rs)
    · exact .cons_cons r ih

theorem run_eq_of_no_cancel (h : ∀ r ∈ order.dropLast, ends r ≠ .cancelled) :
    run ends order = order := by
  induction order with
  | nil => rfl
  | cons r rs ih =>
    cases rs with
    | nil =>
      rw [run]
      split <;> rfl
    | cons r' rs =>
      rw [List.dropLast_cons_cons] at h
      rw [run, if_neg (h r List.mem_cons_self), ih fun x hx => h x (List.mem_cons_of_mem r hx)]

/-- The last step is taken if and only if none before it is cancelled. -/
theorem last_mem_run_iff (hnodup : (order ++ [r]).Nodup) :
    r ∈ run ends (order ++ [r]) ↔ ∀ x ∈ order, ends x ≠ .cancelled := by
  induction order with
  | nil => simp [run]
  | cons x xs ih =>
    rw [List.cons_append, List.nodup_cons] at hnodup
    have hne : r ≠ x := by
      rintro rfl
      exact hnodup.1 (List.mem_append_right xs List.mem_cons_self)
    rw [List.cons_append, run, List.mem_cons, List.forall_mem_cons]
    by_cases hx : ends x = .cancelled
    · simp [hx, hne]
    · simp only [hx, hne, if_false, false_or, ne_eq, not_false_eq_true, true_and]
      exact ih hnodup.2

end Closing

section Opening

/-- A computation that may raise at a step and notes what it opens and closes on its way. -/
def Startup (σ ω α : Type) := (σ → Bool) → List ω → Except σ α × List ω

namespace Startup

variable {σ ω α β : Type}

def pure (a : α) : Startup σ ω α := fun _ log => (.ok a, log)

def bind (x : Startup σ ω α) (f : α → Startup σ ω β) : Startup σ ω β := fun fails log =>
  match x fails log with
  | (.ok a, log') => f a fails log'
  | (.error e, log') => (.error e, log')

instance : Monad (Startup σ ω) where
  pure := pure
  bind := bind

def note (event : ω) : Startup σ ω Unit := fun _ log => (.ok (), log ++ [event])

def attempt (step : σ) : Startup σ ω Unit := fun fails log =>
  (if fails step then .error step else .ok (), log)

def raise (step : σ) : Startup σ ω α := fun _ log => (.error step, log)

/-- `try: body  finally: fin` -/
def tryFinally (body : Startup σ ω α) (fin : Startup σ ω Unit) : Startup σ ω α :=
  fun fails log =>
    match body fails log with
    | (.ok a, log') => (fin >>= fun _ => pure a) fails log'
    | (.error e, log') => (fin >>= fun _ => fun _ log => (.error e, log)) fails log'

/-- Unless it raises, the computation comes to `a` and notes `events`. -/
def Yields (x : Startup σ ω α) (a : α) (events : List ω) : Prop :=
  ∀ fails log b log', x fails log = (.ok b, log') → b = a ∧ log' = log ++ events

variable {x : Startup σ ω α} {f : α → Startup σ ω β} {a : α} {b : β} {es es' : List ω}

theorem yields_pure (a : α) : (Pure.pure a : Startup σ ω α).Yields a [] := by
  intro fails log b log' h
  obtain ⟨hb, rfl⟩ := Prod.mk.inj h
  exact ⟨(Except.ok.inj hb).symm, (List.append_nil log).symm⟩

theorem yields_note (event : ω) : (note event : Startup σ ω Unit).Yields () [event] := by
  intro fails log b log' h
  obtain ⟨-, rfl⟩ := Prod.mk.inj h
  exact ⟨rfl, rfl⟩

theorem yields_attempt (step : σ) : (attempt step : Startup σ ω Unit).Yields () [] := by
  intro fails log b log' h
  obtain ⟨-, rfl⟩ := Prod.mk.inj h
  exact ⟨rfl, (List.append_nil log).symm⟩

theorem yields_raise (step : σ) (a : α) : (raise step : Startup σ ω α).Yields a [] := by
  intro fails log b log' h
  simp [raise] at h

theorem Yields.bind (hx : x.Yields a es) (hf : (f a).Yields b es') :
    (x >>= f).Yields b (es ++ es') := by
  intro fails log c log' h
  change Startup.bind x f fails log = _ at h
  cases hrun : x fails log with
  | mk result log₁ =>
    cases result with
    | error e => simp [Startup.bind, hrun] at h
    | ok a' =>
      obtain ⟨rfl, rfl⟩ := hx fails log a' log₁ hrun
      simp only [Startup.bind, hrun] at h
      obtain ⟨rfl, rfl⟩ := hf fails _ c log' h
      exact ⟨rfl, List.append_assoc log es es'⟩

theorem Yields.tryFinally {fin : Startup σ ω Unit} (hx : x.Yields a es) (hfin : fin.Yields () es') :
    (x.tryFinally fin).Yields a (es ++ es') := by
  intro fails log c log' h
  cases hrun : x fails log with
  | mk result log₁ =>
    cases result with
    | error e =>
      simp only [Startup.tryFinally, hrun] at h
      change Startup.bind fin _ fails log₁ = _ at h
      cases hfinrun : fin fails log₁ with
      | mk result' log₂ => cases result' <;> simp [Startup.bind, hfinrun] at h
    | ok a' =>
      obtain ⟨rfl, rfl⟩ := hx fails log a' log₁ hrun
      simp only [Startup.tryFinally, hrun] at h
      obtain ⟨rfl, rfl⟩ := (hfin.bind (yields_pure a')) fails _ c log' h
      rw [List.append_nil, List.append_assoc]
      exact ⟨rfl, rfl⟩

/-- What the computation notes, whether it raises or not. -/
def Notes (x : Startup σ ω α) (S : List ω → Prop) : Prop :=
  ∀ fails log, ∃ es, (x fails log).2 = log ++ es ∧ S es

section Notes

variable {S T U : List ω → Prop}

theorem notes_pure (a : α) (hnil : S []) : (Pure.pure a : Startup σ ω α).Notes S :=
  fun _ log => ⟨[], (List.append_nil log).symm, hnil⟩

theorem notes_note (event : ω) (hevent : S [event]) :
    (note event : Startup σ ω Unit).Notes S :=
  fun _ _ => ⟨[event], rfl, hevent⟩

theorem notes_attempt (step : σ) (hnil : S []) : (attempt step : Startup σ ω Unit).Notes S :=
  fun _ log => ⟨[], (List.append_nil log).symm, hnil⟩

theorem notes_raise (step : σ) (hnil : S []) : (raise step : Startup σ ω α).Notes S :=
  fun _ log => ⟨[], (List.append_nil log).symm, hnil⟩

theorem Notes.bind (hx : x.Notes S) (hf : ∀ a, (f a).Notes S)
    (happend : ∀ es es', S es → S es' → S (es ++ es')) : (x >>= f).Notes S := by
  intro fails log
  obtain ⟨es, hlog, hes⟩ := hx fails log
  change ∃ _, (Startup.bind x f fails log).2 = _ ∧ _
  cases hrun : x fails log with
  | mk result log₁ =>
    have hlog₁ : log₁ = log ++ es := by rwa [hrun] at hlog
    cases result with
    | error e =>
      simp only [Startup.bind, hrun]
      exact ⟨es, hlog₁, hes⟩
    | ok a =>
      obtain ⟨es', hlog', hes'⟩ := hf a fails log₁
      simp only [Startup.bind, hrun, hlog']
      exact ⟨es ++ es', by rw [hlog₁, List.append_assoc], happend es es' hes hes'⟩

/-- The `finally` is run in any case. -/
theorem Notes.tryFinally {fin : Startup σ ω Unit} (hx : x.Notes S) (hfin : fin.Notes T)
    (happend : ∀ es es', S es → T es' → U (es ++ es')) : (x.tryFinally fin).Notes U := by
  intro fails log
  obtain ⟨es, hlog, hes⟩ := hx fails log
  cases hrun : x fails log with
  | mk result log₁ =>
    obtain ⟨es', hlog', hes'⟩ := hfin fails log₁
    have hafter : ((x.tryFinally fin) fails log).2 = (fin fails log₁).2 := by
      cases hfinrun : fin fails log₁ with
      | mk result' log₂ =>
        cases result with
        | error e =>
          simp only [Startup.tryFinally, hrun]
          change (Startup.bind fin _ fails log₁).2 = _
          cases result' <;> simp [Startup.bind, hfinrun]
        | ok a =>
          simp only [Startup.tryFinally, hrun]
          change (Startup.bind fin _ fails log₁).2 = _
          cases result' <;> simp [Startup.bind, hfinrun, pure]
    have hlog₁ : log₁ = log ++ es := by rwa [hrun] at hlog
    refine ⟨es ++ es', ?_, happend es es' hes hes'⟩
    rw [hafter, hlog', hlog₁, List.append_assoc]

end Notes

end Startup

end Opening

end Teardown
