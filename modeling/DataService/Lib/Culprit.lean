import DataService.Lib.Journal

/-! Which answers make a coroutine end with a foul exception, and how many answers it takes. -/

namespace Coroutine

variable {σ ρ ε α β μ : Type}

namespace Coro

/-- A bad answer makes the coroutine raise a foul exception at once, and nothing else does. -/
def Blames (Bad : ρ → Prop) (Foul : ε → Prop) : Coro σ ρ ε α → Prop
  | ret _ => True
  | raise e => ¬ Foul e
  | atom _ next => ∀ b, (next b).Blames Bad Foul
  | await f next => ∀ s r b t, f s r = some (b, t) →
      (Bad r → ∃ e, next b = raise e ∧ Foul e) ∧ (¬ Bad r → (next b).Blames Bad Foul)

/-- The coroutine ends after at most `n` answers. -/
def Takes : Nat → Coro σ ρ ε α → Prop
  | _, ret _ | _, raise _ => True
  | n, atom _ next => ∀ b, (next b).Takes n
  | n, await _ next => 0 < n ∧ ∀ b, (next b).Takes (n - 1)

section Rules

variable {Bad : ρ → Prop} {Foul : ε → Prop} {c : Coro σ ρ ε α} {m n : Nat}

@[simp] theorem blames_pure (a : α) : (pure a : Coro σ ρ ε α).Blames Bad Foul := trivial

@[simp] theorem blames_raise (e : ε) : (raise e : Coro σ ρ ε α).Blames Bad Foul ↔ ¬ Foul e :=
  Iff.rfl

@[simp] theorem blames_act (f : σ → α × σ) : (act f : Coro σ ρ ε α).Blames Bad Foul :=
  fun _ => trivial

theorem blames_bind {k : α → Coro σ ρ ε β} (h : c.Blames Bad Foul)
    (hk : ∀ a, (k a).Blames Bad Foul) : (c >>= k).Blames Bad Foul := by
  change (c.bind k).Blames Bad Foul
  induction c with
  | ret a => exact hk a
  | raise e => exact h
  | atom f next ih => exact fun b => ih b (h b)
  | await f next ih =>
    intro s r b t hf
    constructor
    · intro hbad
      obtain ⟨e, hnext, hfoul⟩ := (h s r b t hf).1 hbad
      exact ⟨e, by simp only [hnext, bind], hfoul⟩
    · intro hgood
      exact ih b ((h s r b t hf).2 hgood)

/-- A handler may change what is foul, but not what the foul exceptions are blamed on. -/
theorem blames_tryCatch {Foul' : ε → Prop} {handler : ε → Coro σ ρ ε α}
    (h : c.Blames Bad Foul) (hfoul : ∀ e, Foul e → ∃ e', handler e = raise e' ∧ Foul' e')
    (hfair : ∀ e, ¬ Foul e → (handler e).Blames Bad Foul') :
    (c.tryCatch handler).Blames Bad Foul' := by
  induction c with
  | ret a => trivial
  | raise e => exact hfair e h
  | atom f next ih => exact fun b => ih b (h b)
  | await f next ih =>
    intro s r b t hf
    constructor
    · intro hbad
      obtain ⟨e, hnext, he⟩ := (h s r b t hf).1 hbad
      obtain ⟨e', hhandler, he'⟩ := hfoul e he
      exact ⟨e', by simp only [hnext, tryCatch, hhandler], he'⟩
    · intro hgood
      exact ih b ((h s r b t hf).2 hgood)

theorem blames_settle (h : c.Blames Bad Foul) (s : σ) : (c.settle s).1.Blames Bad Foul := by
  induction c generalizing s with
  | ret a => trivial
  | raise e => exact h
  | atom f next ih => exact ih _ (h _) _
  | await f next ih => exact h

@[simp] theorem takes_pure (a : α) : (pure a : Coro σ ρ ε α).Takes n := trivial

@[simp] theorem takes_raise (e : ε) : (raise e : Coro σ ρ ε α).Takes n := trivial

@[simp] theorem takes_act (f : σ → α × σ) : (act f : Coro σ ρ ε α).Takes n := fun _ => trivial

theorem takes_mono (hmn : m ≤ n) (h : c.Takes m) : c.Takes n := by
  induction c generalizing m n with
  | ret a => trivial
  | raise e => trivial
  | atom f next ih => exact fun b => ih b hmn (h b)
  | await f next ih =>
    exact ⟨Nat.lt_of_lt_of_le h.1 hmn, fun b => ih b (Nat.sub_le_sub_right hmn 1) (h.2 b)⟩

theorem takes_bind {k : α → Coro σ ρ ε β} (h : c.Takes m) (hk : ∀ a, (k a).Takes n) :
    (c >>= k).Takes (m + n) := by
  change (c.bind k).Takes (m + n)
  induction c generalizing m with
  | ret a => exact takes_mono (Nat.le_add_left n m) (hk a)
  | raise e => trivial
  | atom f next ih => exact fun b => ih b (h b)
  | await f next ih =>
    refine ⟨Nat.add_pos_left h.1 n, fun b => ?_⟩
    have hshift : m + n - 1 = m - 1 + n := Nat.sub_add_comm h.1
    rw [hshift]
    exact ih b (h.2 b)

theorem takes_tryCatch {handler : ε → Coro σ ρ ε α} (h : c.Takes m)
    (hhandler : ∀ e, (handler e).Takes n) : (c.tryCatch handler).Takes (m + n) := by
  induction c generalizing m with
  | ret a => trivial
  | raise e => exact takes_mono (Nat.le_add_left n m) (hhandler e)
  | atom f next ih => exact fun b => ih b (h b)
  | await f next ih =>
    refine ⟨Nat.add_pos_left h.1 n, fun b => ?_⟩
    have hshift : m + n - 1 = m - 1 + n := Nat.sub_add_comm h.1
    rw [hshift]
    exact ih b (h.2 b)

theorem takes_settle (h : c.Takes n) (s : σ) : (c.settle s).1.Takes n := by
  induction c generalizing s with
  | ret a => trivial
  | raise e => trivial
  | atom f next ih => exact ih _ (h _) _
  | await f next ih => exact h

end Rules

end Coro

section Runs

variable {Bad : ρ → Prop} {Foul : ε → Prop} {other : σ → μ → Option σ} {p q : Process σ ρ ε α}
  {turns : List (Turn ρ μ)} {n : Nat}

def Turn.isAnswer : Turn ρ μ → Bool
  | .answer _ => true
  | .other _ => false

theorem run_raised {e : ε} (hcode : p.code = .raise e)
    (h : StepSystem.run (Process.step other) p turns = some q) : turns = [] ∧ q = p := by
  cases turns with
  | nil => exact ⟨rfl, (Option.some.inj h).symm⟩
  | cons turn turns =>
    obtain ⟨u, hu, -⟩ := StepSystem.run_cons.mp h
    cases turn <;> simp [Process.step, hcode, Coro.answer] at hu

theorem foul_iff_of_blames (hp : p.code.Blames Bad Foul)
    (h : StepSystem.run (Process.step other) p turns = some q) :
    (∃ e, q.code.exception = some e ∧ Foul e) ↔ ∃ r, .answer r ∈ turns ∧ Bad r := by
  induction turns generalizing p with
  | nil =>
    obtain rfl := Option.some.inj h
    refine iff_of_false ?_ (by simp)
    rintro ⟨e, he, hfoul⟩
    obtain ⟨code, s⟩ := p
    cases code with
    | raise e' =>
      obtain rfl := Option.some.inj he
      exact hp hfoul
    | ret a => cases he
    | atom f next => cases he
    | await f next => cases he
  | cons turn turns ih =>
    obtain ⟨u, hu, hrest⟩ := StepSystem.run_cons.mp h
    obtain ⟨code, s⟩ := p
    cases code with
    | ret a => cases turn <;> cases hu
    | raise e => cases turn <;> cases hu
    | atom f next => cases turn <;> cases hu
    | await f next =>
      cases turn with
      | other m =>
        obtain ⟨t, -, rfl⟩ := Option.map_eq_some_iff.mp hu
        have hsame : (∃ e, q.code.exception = some e ∧ Foul e) ↔
            ∃ r, .answer r ∈ turns ∧ Bad r := ih (p := ⟨.await f next, t⟩) hp hrest
        simpa using hsame
      | answer r =>
        obtain ⟨_, hanswer, rfl⟩ := Option.map_eq_some_iff.mp hu
        obtain ⟨⟨b, t⟩, hf, rfl⟩ := Option.map_eq_some_iff.mp hanswer
        by_cases hbad : Bad r
        · obtain ⟨e, hnext, hfoul⟩ := (hp s r b t hf).1 hbad
          simp only [hnext] at hrest
          obtain ⟨-, rfl⟩ := run_raised rfl hrest
          exact iff_of_true ⟨e, rfl, hfoul⟩ ⟨r, List.mem_cons_self, hbad⟩
        · have hsame := ih (Coro.blames_settle ((hp s r b t hf).2 hbad) t) hrest
          rw [hsame]
          simp [hbad]

/-- A run ends with a foul exception exactly if one of its answers is bad. -/
theorem Process.foul_iff {c : Coro σ ρ ε α} {s : σ} (hc : c.Blames Bad Foul)
    (h : Process.run other c s turns = some p) :
    (∃ e, p.code.exception = some e ∧ Foul e) ↔ ∃ r, .answer r ∈ turns ∧ Bad r :=
  foul_iff_of_blames (Coro.blames_settle hc s) h

theorem answers_le_of_takes (hp : p.code.Takes n)
    (h : StepSystem.run (Process.step other) p turns = some q) :
    turns.countP Turn.isAnswer ≤ n := by
  induction turns generalizing p n with
  | nil => exact Nat.zero_le n
  | cons turn turns ih =>
    obtain ⟨u, hu, hrest⟩ := StepSystem.run_cons.mp h
    obtain ⟨code, s⟩ := p
    cases code with
    | ret a => cases turn <;> cases hu
    | raise e => cases turn <;> cases hu
    | atom f next => cases turn <;> cases hu
    | await f next =>
      cases turn with
      | other m =>
        obtain ⟨t, -, rfl⟩ := Option.map_eq_some_iff.mp hu
        rw [List.countP_cons_of_neg (by simp [Turn.isAnswer])]
        exact ih (p := ⟨.await f next, t⟩) hp hrest
      | answer r =>
        obtain ⟨_, hanswer, rfl⟩ := Option.map_eq_some_iff.mp hu
        obtain ⟨⟨b, t⟩, -, rfl⟩ := Option.map_eq_some_iff.mp hanswer
        have hrestLe := ih (Coro.takes_settle (hp.2 b) t) hrest
        have hpos := hp.1
        rw [List.countP_cons_of_pos (by simp [Turn.isAnswer])]
        omega

theorem Process.answers_le {c : Coro σ ρ ε α} {s : σ} (hc : c.Takes n)
    (h : Process.run other c s turns = some p) : turns.countP Turn.isAnswer ≤ n :=
  answers_le_of_takes (Coro.takes_settle hc s) h

end Runs

end Coroutine
