import DataService.Lib.Annotation

/-! A coroutine that is run again and again over one memory. Others move at any time, and the
process may die between two awaits and start again. -/

namespace Coroutine

open Coro

/-- `task` is the run that is under way, at an await. -/
structure Worker (σ ρ ε : Type) where
  memory : σ
  task : Option (Coro σ ρ ε Unit)

inductive Shift (ρ μ : Type) where
  | begin
  | answer (r : ρ)
  | other (m : μ)
  /-- the process dies, and is started again -/
  | kill
  deriving DecidableEq

namespace Worker

variable {σ ρ ε γ μ : Type}

def arrive (p : Coro σ ρ ε Unit × σ) : Worker σ ρ ε :=
  match p.1 with
  | .ret _ | .raise _ => ⟨p.2, none⟩
  | c => ⟨p.2, some c⟩

def step (other : σ → μ → Option σ) (c : Coro σ ρ ε Unit) (w : Worker σ ρ ε) :
    Shift ρ μ → Option (Worker σ ρ ε)
  | .begin =>
    match w.task with
    | none => some (arrive (c.settle w.memory))
    | some _ => none
  | .answer r => w.task.bind fun d => (d.answer w.memory r).map arrive
  | .other m => (other w.memory m).map fun s => { w with memory := s }
  | .kill => some { w with task := none }

section Invariant

variable {R : σ → σ → Prop} {I : σ → Prop} {other : σ → μ → Option σ} {c : Coro σ ρ ε Unit}

/-- The invariant holds, and the run under way keeps it. -/
structure Stands (R : σ → σ → Prop) (I : σ → Prop) (w : Worker σ ρ ε) : Prop where
  memory : I w.memory
  task : ∀ d, w.task = some d → d.Pending ∧ d.Safe R I (fun _ => I) (fun _ => I) w.memory

theorem stands_arrive (hrefl : ∀ s, R s s) {d : Coro σ ρ ε Unit} {s : σ}
    (hsettled : (d.settle s).1.Settled)
    (h : (d.settle s).1.Safe R I (fun _ => I) (fun _ => I) (d.settle s).2) :
    Stands R I (arrive (d.settle s)) := by
  generalize d.settle s = p at hsettled h ⊢
  obtain ⟨d', t⟩ := p
  cases d' with
  | ret a => exact ⟨h, nofun⟩
  | raise e => exact ⟨h, nofun⟩
  | atom f next => exact hsettled.elim
  | await f next =>
    refine ⟨(h t (hrefl t)).1, ?_⟩
    rintro _ ⟨⟩
    exact ⟨trivial, h⟩

/-- One step, if a run begins where it may. -/
theorem stands_step {ok : σ → Prop} (hrefl : ∀ s, R s s)
    (htrans : ∀ s t u, R s t → R t u → R s u)
    (hother : ∀ s m t, other s m = some t → R s t ∧ (I s → I t))
    (hsafe : ∀ s, I s → ok s → c.Safe R I (fun _ => I) (fun _ => I) s) {w v : Worker σ ρ ε}
    {a : Shift ρ μ} (hw : Stands R I w) (hok : a = .begin → ok w.memory)
    (hstep : w.step other c a = some v) : Stands R I v := by
  obtain ⟨s, task⟩ := w
  cases a with
  | begin =>
    cases task with
    | none =>
      cases hstep
      exact stands_arrive hrefl (settled_settle c s) (safe_settle (hsafe s hw.memory (hok rfl)))
    | some d => cases hstep
  | answer r =>
    obtain ⟨d, htask, hanswer⟩ := Option.bind_eq_some_iff.mp hstep
    obtain ⟨p, hp, rfl⟩ := Option.map_eq_some_iff.mp hanswer
    obtain ⟨hpending, hd⟩ := hw.task d htask
    cases d with
    | await f next =>
      simp only [answer, Option.map_eq_some_iff] at hp
      obtain ⟨⟨b, u⟩, hf, rfl⟩ := hp
      exact stands_arrive hrefl (settled_settle _ u)
        (safe_settle ((hd s (hrefl s)).2 r b u hf))
    | ret a => exact hpending.elim
    | raise e => exact hpending.elim
    | atom f next => exact hpending.elim
  | other m =>
    obtain ⟨t, ht, rfl⟩ := Option.map_eq_some_iff.mp hstep
    obtain ⟨hR, hI⟩ := hother s m t ht
    refine ⟨hI hw.memory, fun d hd => ?_⟩
    obtain ⟨hpending, hsafe'⟩ := hw.task d hd
    exact ⟨hpending, safe_interfere hpending (fun u hu => htrans s t u hR hu) hsafe'⟩
  | kill =>
    cases hstep
    exact ⟨hw.memory, by simp⟩

/-- What every run keeps that begins where it may, holds however often it is run. -/
theorem invariant_along {ok : σ → Prop} (hrefl : ∀ s, R s s)
    (htrans : ∀ s t u, R s t → R t u → R s u)
    (hother : ∀ s m t, other s m = some t → R s t ∧ (I s → I t))
    (hsafe : ∀ s, I s → ok s → c.Safe R I (fun _ => I) (fun _ => I) s) {s : σ} (hs : I s)
    {as : List (Shift ρ μ)} {w : Worker σ ρ ε}
    (hbegin : StepSystem.Along (step other c) (fun w a => a = .begin → ok w.memory) ⟨s, none⟩ as)
    (hrun : StepSystem.run (step other c) ⟨s, none⟩ as = some w) : I w.memory := by
  have hstart : Stands R I (⟨s, none⟩ : Worker σ ρ ε) := ⟨hs, nofun⟩
  exact (StepSystem.run_invariant_along
    (fun w a v hw hok hstep => stands_step hrefl htrans hother hsafe hw hok hstep)
    hstart hbegin hrun).memory

end Invariant

section Erasure

variable {other : σ → μ → Option σ} {c' : Coro (σ × γ) ρ ε Unit} {c : Coro σ ρ ε Unit}

/-- One worker is the other with notes beside its memory. -/
structure Annotates (w' : Worker (σ × γ) ρ ε) (w : Worker σ ρ ε) : Prop where
  memory : w'.memory.1 = w.memory
  task : Option.Rel (fun d' d => d'.Settled ∧ Coro.Annotates d' d) w'.task w.task

theorem annotates_arrive {d' : Coro (σ × γ) ρ ε Unit} {d : Coro σ ρ ε Unit}
    (h : Coro.Annotates d' d) (s : σ) (g : γ) :
    Annotates (arrive (d'.settle (s, g))) (arrive (d.settle s)) := by
  have hsettled := settled_settle d' (s, g)
  obtain ⟨hcode, hmemory⟩ := annotates_settle h s g
  generalize d'.settle (s, g) = p' at hsettled hcode hmemory ⊢
  generalize d.settle s = p at hcode hmemory ⊢
  obtain ⟨e', t', g'⟩ := p'
  obtain ⟨e, t⟩ := p
  obtain rfl : t' = t := hmemory
  change Coro.Annotates e' e at hcode
  cases hcode with
  | ret a => exact ⟨rfl, .none⟩
  | raise e => exact ⟨rfl, .none⟩
  | atom hf hnext => exact hsettled.elim
  | jot hnext => exact hsettled.elim
  | await hf hnext => exact ⟨rfl, .some ⟨trivial, .await hf hnext⟩⟩

theorem annotates_step (hc : Coro.Annotates c' c) {w' : Worker (σ × γ) ρ ε} {w : Worker σ ρ ε}
    (h : Annotates w' w) (a : Shift ρ μ) :
    Option.Rel Annotates (w'.step (beside other) c' a) (w.step other c a) := by
  obtain ⟨⟨s', g⟩, task'⟩ := w'
  obtain ⟨s, task⟩ := w
  obtain ⟨hmemory, htask⟩ := h
  obtain rfl : s' = s := hmemory
  change Option.Rel _ task' task at htask
  cases a with
  | begin =>
    cases htask with
    | none => exact .some (annotates_arrive hc s' g)
    | some hd => exact .none
  | answer r =>
    cases htask with
    | none => exact .none
    | some hd =>
      obtain ⟨hsettled, hcode⟩ := hd
      have hanswer := annotates_answer hsettled hcode s' g r
      simp only [step, Option.bind_some]
      generalize Coro.answer _ (s', g) r = p' at hanswer
      generalize Coro.answer _ s' r = p at hanswer
      cases hanswer with
      | none => exact .none
      | some hnext =>
        obtain ⟨d', d, t, k, hd, rfl, rfl⟩ := hnext
        exact .some (annotates_arrive hd t k)
  | other m =>
    simp only [step, beside, Option.map_map]
    cases other s' m with
    | none => exact .none
    | some t => exact .some ⟨rfl, htask⟩
  | kill => exact .some ⟨rfl, .none⟩

/-- The same shifts take the code with its notes and the code without to the same place. -/
theorem noted_of_run (hc : Coro.Annotates c' c) {s : σ} (g : γ) {as : List (Shift ρ μ)}
    {w : Worker σ ρ ε} (hrun : StepSystem.run (step other c) ⟨s, none⟩ as = some w) :
    ∃ w', StepSystem.run (step (beside other) c') ⟨(s, g), none⟩ as = some w' ∧
      w'.memory.1 = w.memory := by
  have hstep : ∀ (w' : Worker (σ × γ) ρ ε) (w : Worker σ ρ ε) (a : Shift ρ μ), Annotates w' w →
      Option.Rel Annotates (w'.step (beside other) c' a) (w.step other c a) :=
    fun _ _ a h => annotates_step hc h a
  have hstart : Annotates (⟨(s, g), none⟩ : Worker (σ × γ) ρ ε) ⟨s, none⟩ := ⟨rfl, .none⟩
  obtain ⟨w', hnoted, h⟩ := StepSystem.run_mirrored hstep hstart hrun
  exact ⟨w', hnoted, h.memory⟩

end Erasure

end Worker

end Coroutine
