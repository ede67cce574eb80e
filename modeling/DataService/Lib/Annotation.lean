import DataService.Lib.Journal

/-! Coroutines that take notes as they go. The notes are read by nobody: with the notes taken
out of it, the code is the code it annotates, and the runs of one are the runs of the other. -/

namespace Coroutine

variable {σ ρ ε α β γ μ : Type}

namespace Coro

/-- Code that takes no notes. -/
def silent (c : Coro σ ρ ε α) : Coro (σ × γ) ρ ε α := c.journaled fun _ _ _ g => g

/-- Take a note. -/
def jot (f : γ → γ) : Coro (σ × γ) ρ ε Unit := act fun p => ((), p.1, f p.2)

/-- The second code is the first without its notes. -/
inductive Annotates : Coro (σ × γ) ρ ε α → Coro σ ρ ε α → Prop where
  | ret (a : α) : Annotates (ret a) (ret a)
  | raise (e : ε) : Annotates (raise e) (raise e)
  | atom {β : Type} {f' : σ × γ → β × σ × γ} {f : σ → β × σ} {next' : β → Coro (σ × γ) ρ ε α}
      {next : β → Coro σ ρ ε α} (hf : ∀ p, ((f' p).1, (f' p).2.1) = f p.1)
      (hnext : ∀ b, Annotates (next' b) (next b)) : Annotates (atom f' next') (atom f next)
  | await {β : Type} {f' : σ × γ → ρ → Option (β × σ × γ)} {f : σ → ρ → Option (β × σ)}
      {next' : β → Coro (σ × γ) ρ ε α} {next : β → Coro σ ρ ε α}
      (hf : ∀ p r, (f' p r).map (fun q => (q.1, q.2.1)) = f p.1 r)
      (hnext : ∀ b, Annotates (next' b) (next b)) : Annotates (await f' next') (await f next)
  | jot {f : γ → γ} {next' : Unit → Coro (σ × γ) ρ ε α} {c : Coro σ ρ ε α}
      (hnext : Annotates (next' ()) c) : Annotates (atom (fun p => ((), p.1, f p.2)) next') c

section Rules

variable {c' : Coro (σ × γ) ρ ε α} {c : Coro σ ρ ε α}

theorem annotates_silent (c : Coro σ ρ ε α) : Annotates (c.silent : Coro (σ × γ) ρ ε α) c := by
  induction c with
  | ret a => exact .ret a
  | raise e => exact .raise e
  | atom f next ih => exact .atom (fun p => rfl) ih
  | await f next ih =>
    refine .await (fun p r => ?_) ih
    rw [Option.map_map]
    exact Option.map_id'

theorem annotates_bind {k' : α → Coro (σ × γ) ρ ε β} {k : α → Coro σ ρ ε β}
    (h : Annotates c' c) (hk : ∀ a, Annotates (k' a) (k a)) : Annotates (c' >>= k') (c >>= k) := by
  change Annotates (c'.bind k') (c.bind k)
  induction h with
  | ret a => exact hk a
  | raise e => exact .raise e
  | atom hf _ ih => exact .atom hf ih
  | await hf _ ih => exact .await hf ih
  | jot _ ih => exact .jot ih

theorem annotates_jot {f : γ → γ} {k' : Unit → Coro (σ × γ) ρ ε α} (h : Annotates (k' ()) c) :
    Annotates (jot f >>= k') c :=
  .jot h

theorem annotates_tryCatch {h' : ε → Coro (σ × γ) ρ ε α} {h : ε → Coro σ ρ ε α}
    (hbody : Annotates c' c) (hhandler : ∀ e, Annotates (h' e) (h e)) :
    Annotates (c'.tryCatch h') (c.tryCatch h) := by
  induction hbody with
  | ret a => exact .ret a
  | raise e => exact hhandler e
  | atom hf _ ih => exact .atom hf ih
  | await hf _ ih => exact .await hf ih
  | jot _ ih => exact .jot ih

theorem annotates_settle (h : Annotates c' c) (s : σ) (g : γ) :
    Annotates (c'.settle (s, g)).1 (c.settle s).1 ∧ (c'.settle (s, g)).2.1 = (c.settle s).2 := by
  induction h generalizing s g with
  | ret a => exact ⟨.ret a, rfl⟩
  | raise e => exact ⟨.raise e, rfl⟩
  | @atom β f' f next' next hf _ ih =>
    obtain ⟨hvalue, hmemory⟩ := Prod.mk.inj (hf (s, g))
    have hnext := ih (f' (s, g)).1 (f' (s, g)).2.1 (f' (s, g)).2.2
    simp only [settle]
    rw [← hvalue, ← hmemory]
    exact hnext
  | await hf hnext _ => exact ⟨.await hf hnext, rfl⟩
  | jot _ ih => exact ih s _

/-- The answer to an await is an answer to it in the code without notes. -/
theorem annotates_answer (hsettled : c'.Settled) (h : Annotates c' c) (s : σ) (g : γ) (r : ρ) :
    Option.Rel (fun p' p => ∃ (d' : Coro (σ × γ) ρ ε α) (d : Coro σ ρ ε α) (t : σ) (k : γ),
      Annotates d' d ∧ p' = d'.settle (t, k) ∧ p = d.settle t)
      (c'.answer (s, g) r) (c.answer s r) := by
  cases h with
  | ret a => exact .none
  | raise e => exact .none
  | atom hf hnext => exact hsettled.elim
  | jot hnext => exact hsettled.elim
  | @await β f' f next' next hf hnext =>
    have hanswer := hf (s, g) r
    simp only [answer]
    cases hf' : f' (s, g) r with
    | none =>
      rw [hf'] at hanswer
      rw [← hanswer]
      exact .none
    | some x =>
      obtain ⟨b, t, k⟩ := x
      rw [hf'] at hanswer
      rw [← hanswer]
      exact .some ⟨next' b, next b, t, k, hnext b, rfl, rfl⟩

end Rules

section Safe

variable {R : σ → σ → Prop} {I : σ → Prop} {Q : α → σ → Prop} {E : ε → σ → Prop}

/-- The others do not write the notes. -/
def Beside (R : σ → σ → Prop) (p q : σ × γ) : Prop := R p.1 q.1 ∧ q.2 = p.2

theorem Beside.refl (hrefl : ∀ s, R s s) (p : σ × γ) : Beside R p p := ⟨hrefl p.1, rfl⟩

theorem Beside.trans (htrans : ∀ s t u, R s t → R t u → R s u) {p q r : σ × γ}
    (h : Beside R p q) (h' : Beside R q r) : Beside R p r :=
  ⟨htrans _ _ _ h.1 h'.1, h'.2.trans h.2⟩

theorem beside_of_other {other : σ → μ → Option σ} (hother : ∀ s m t, other s m = some t → R s t)
    {p q : σ × γ} {m : μ} (h : beside other p m = some q) : Beside R p q := by
  obtain ⟨t, ht, rfl⟩ := Option.map_eq_some_iff.mp h
  exact ⟨hother p.1 m t ht, rfl⟩

/-- Silent code leaves the notes as they are. -/
theorem safe_silent {c : Coro σ ρ ε α} {s : σ} {g : γ} (h : c.Safe R I Q E s) :
    (c.silent : Coro (σ × γ) ρ ε α).Safe (Beside R) (fun p => I p.1)
      (fun a p => Q a p.1 ∧ p.2 = g) (fun e p => E e p.1 ∧ p.2 = g) (s, g) := by
  induction c generalizing s with
  | ret a => exact ⟨h, rfl⟩
  | raise e => exact ⟨h, rfl⟩
  | atom f next ih => exact ih _ h
  | await f next ih =>
    rintro ⟨t, g'⟩ ⟨ht, hg⟩
    obtain rfl : g' = g := hg
    refine ⟨(h t ht).1, fun r b u hu => ?_⟩
    obtain ⟨⟨b', v⟩, hf, hp⟩ := Option.map_eq_some_iff.mp hu
    obtain ⟨rfl, rfl⟩ := Prod.mk.inj hp
    exact ih b' ((h t ht).2 r b' v hf)

theorem safe_jot {R : σ × γ → σ × γ → Prop} {I : σ × γ → Prop} {Q : Unit → σ × γ → Prop}
    {E : ε → σ × γ → Prop} {f : γ → γ} {p : σ × γ} (h : Q () (p.1, f p.2)) :
    (jot f : Coro (σ × γ) ρ ε Unit).Safe R I Q E p :=
  h

end Safe

end Coro

open Coro

/-- One process is the other with notes beside its memory. -/
structure Process.Annotates (p : Process (σ × γ) ρ ε α) (q : Process σ ρ ε α) : Prop where
  settled : p.code.Settled
  code : p.code.Annotates q.code
  memory : p.memory.1 = q.memory

section Runs

variable {other : σ → μ → Option σ}

theorem Process.annotates_start {c' : Coro (σ × γ) ρ ε α} {c : Coro σ ρ ε α}
    (h : c'.Annotates c) (s : σ) (g : γ) : (Process.start c' (s, g)).Annotates (.start c s) :=
  ⟨settled_settle c' (s, g), (annotates_settle h s g).1, (annotates_settle h s g).2⟩

theorem Process.annotates_step {p : Process (σ × γ) ρ ε α} {q : Process σ ρ ε α}
    (h : p.Annotates q) (turn : Turn ρ μ) :
    Option.Rel Process.Annotates (p.step (beside other) turn) (q.step other turn) := by
  obtain ⟨pcode, s, g⟩ := p
  obtain ⟨qcode, t⟩ := q
  obtain ⟨hsettled, hcode, hmemory⟩ := h
  obtain rfl : s = t := hmemory
  change pcode.Annotates qcode at hcode
  cases turn with
  | answer r =>
    have hanswer := annotates_answer hsettled hcode s g r
    simp only [Process.step]
    generalize pcode.answer (s, g) r = p' at hanswer
    generalize qcode.answer s r = q' at hanswer
    cases hanswer with
    | none => exact .none
    | some hnext =>
      obtain ⟨d', d, t, k, hd, rfl, rfl⟩ := hnext
      exact .some (Process.annotates_start hd t k)
  | other m =>
    cases hcode with
    | ret a => exact .none
    | raise e => exact .none
    | atom hf hnext => exact hsettled.elim
    | jot hnext => exact hsettled.elim
    | await hf hnext =>
      simp only [Process.step, beside, Option.map_map]
      cases other s m with
      | none => exact .none
      | some t => exact .some ⟨trivial, .await hf hnext, rfl⟩

theorem Process.Annotates.returned {p : Process (σ × γ) ρ ε α} {q : Process σ ρ ε α}
    (h : p.Annotates q) : p.returned = q.returned := by
  obtain ⟨pcode, s, g⟩ := p
  obtain ⟨qcode, t⟩ := q
  obtain ⟨hsettled, hcode, -⟩ := h
  change pcode.Annotates qcode at hcode
  cases hcode with
  | ret a => rfl
  | raise e => rfl
  | atom hf hnext => exact hsettled.elim
  | jot hnext => exact hsettled.elim
  | await hf hnext => rfl

/-- The same turns take the code with its notes and the code without to the same place. -/
theorem Process.noted_of_run {c' : Coro (σ × γ) ρ ε α} {c : Coro σ ρ ε α} (h : c'.Annotates c)
    {s : σ} (g : γ) {turns : List (Turn ρ μ)} {q : Process σ ρ ε α}
    (hrun : Process.run other c s turns = some q) :
    ∃ p, Process.run (beside other) c' (s, g) turns = some p ∧ p.memory.1 = q.memory ∧
      p.returned = q.returned := by
  have hstep : ∀ (p : Process (σ × γ) ρ ε α) (q : Process σ ρ ε α) (turn : Turn ρ μ),
      p.Annotates q →
      Option.Rel Process.Annotates (p.step (beside other) turn) (q.step other turn) :=
    fun _ _ turn hpq => Process.annotates_step hpq turn
  obtain ⟨p, hnoted, hpq⟩ := StepSystem.run_mirrored hstep (Process.annotates_start h s g) hrun
  exact ⟨p, hnoted, hpq.memory, hpq.returned⟩

end Runs

end Coroutine
