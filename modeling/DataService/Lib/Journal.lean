import DataService.Lib.Coroutine
import DataService.Lib.StepSystem

/-! A coroutine that keeps a journal of what it does to its memory. The journal is read by
nobody, so the runs with a journal are exactly the runs without, and `Safe` may speak of the
past of a run through it. -/

namespace Coroutine

open Coro

/-- What a move enters into the journal: the memory before it, the answer if the move was
one, and the memory after it. -/
abbrev Note (σ ρ γ : Type) := σ → Option ρ → σ → γ → γ

/-- Code on its way, and the memory it runs on. -/
structure Process (σ ρ ε α : Type) where
  code : Coro σ ρ ε α
  memory : σ

/-- The pending await is answered, or something else moves. -/
inductive Turn (ρ μ : Type) where
  | answer (r : ρ)
  | other (m : μ)

variable {σ ρ ε α β γ μ : Type}

def Process.start (c : Coro σ ρ ε α) (s : σ) : Process σ ρ ε α := ⟨(c.settle s).1, (c.settle s).2⟩

/-- Others move while the code waits; nothing is looked at after it has ended. -/
def Process.step (other : σ → μ → Option σ) (p : Process σ ρ ε α) :
    Turn ρ μ → Option (Process σ ρ ε α)
  | .answer r => (p.code.answer p.memory r).map fun q => ⟨q.1, q.2⟩
  | .other m =>
    match p.code with
    | .await _ _ => (other p.memory m).map fun s => { p with memory := s }
    | _ => none

abbrev Process.run (other : σ → μ → Option σ) (c : Coro σ ρ ε α) (s : σ)
    (turns : List (Turn ρ μ)) : Option (Process σ ρ ε α) :=
  StepSystem.run (Process.step other) (.start c s) turns

def Process.returned (p : Process σ ρ ε α) : Option α :=
  match p.code with
  | .ret a => some a
  | _ => none

/-- How the specification of a coroutine reads where a process stands. -/
def Process.Meets (I : σ → Prop) (Q : α → σ → Prop) (E : ε → σ → Prop)
    (p : Process σ ρ ε α) : Prop :=
  match p.code with
  | .ret a => Q a p.memory
  | .raise e => E e p.memory
  | .atom _ _ => False
  | .await _ _ => I p.memory

section Runs

variable {R : σ → σ → Prop} {I : σ → Prop} {Q : α → σ → Prop} {E : ε → σ → Prop}
  {other : σ → μ → Option σ}

theorem safe_step (hrefl : ∀ s, R s s) (htrans : ∀ s t u, R s t → R t u → R s u)
    (hother : ∀ s m t, other s m = some t → R s t) {p q : Process σ ρ ε α} {turn : Turn ρ μ}
    (hp : p.code.Settled ∧ p.code.Safe R I Q E p.memory) (h : p.step other turn = some q) :
    q.code.Settled ∧ q.code.Safe R I Q E q.memory := by
  cases turn with
  | answer r =>
    obtain ⟨⟨d, t⟩, hd, rfl⟩ := Option.map_eq_some_iff.mp h
    exact ⟨settled_answer hd, safe_answer hp.2 (hrefl _) hd⟩
  | other m =>
    obtain ⟨code, s⟩ := p
    cases code with
    | await f next =>
      obtain ⟨t, ht, rfl⟩ := Option.map_eq_some_iff.mp h
      exact ⟨trivial, fun u hu => hp.2 u (htrans _ _ _ (hother s m t ht) hu)⟩
    | ret a => cases h
    | raise e => cases h
    | atom f next => cases h

/-- A safe coroutine meets its specification wherever a run of it stands. -/
theorem Process.meets_of_run (hrefl : ∀ s, R s s) (htrans : ∀ s t u, R s t → R t u → R s u)
    (hother : ∀ s m t, other s m = some t → R s t) {c : Coro σ ρ ε α} {s : σ}
    (h : c.Safe R I Q E s) {turns : List (Turn ρ μ)} {p : Process σ ρ ε α}
    (hrun : Process.run other c s turns = some p) : p.Meets I Q E := by
  have hstart : (Process.start c s).code.Settled ∧
      (Process.start c s).code.Safe R I Q E (Process.start c s).memory :=
    ⟨settled_settle c s, safe_settle h⟩
  obtain ⟨hsettled, hsafe⟩ := StepSystem.run_invariant
    (fun p turn q hp hq => safe_step hrefl htrans hother hp hq) hstart hrun
  obtain ⟨code, t⟩ := p
  cases code with
  | ret a => exact hsafe
  | raise e => exact hsafe
  | atom f next => exact hsettled.elim
  | await f next => exact (hsafe t (hrefl t)).1

theorem Process.Meets.everywhere {J : σ → Prop} {p : Process σ ρ ε α} (h : p.Meets I Q E)
    (hI : ∀ s, I s → J s) (hQ : ∀ a s, Q a s → J s) (hE : ∀ e s, E e s → J s) : J p.memory := by
  obtain ⟨code, s⟩ := p
  cases code with
  | ret a => exact hQ a s h
  | raise e => exact hE e s h
  | atom f next => exact False.elim h
  | await f next => exact hI s h

theorem Process.Meets.of_returned {p : Process σ ρ ε α} (h : p.Meets I Q E) {a : α}
    (ha : p.returned = some a) : Q a p.memory := by
  obtain ⟨code, s⟩ := p
  cases code with
  | ret b =>
    cases ha
    exact h
  | raise e => cases ha
  | atom f next => cases ha
  | await f next => cases ha

end Runs

namespace Coro

/-- The coroutine on a memory that also holds a journal. -/
def journaled (note : Note σ ρ γ) : Coro σ ρ ε α → Coro (σ × γ) ρ ε α
  | ret a => ret a
  | raise e => raise e
  | atom f next =>
    atom (fun p => ((f p.1).1, (f p.1).2, note p.1 none (f p.1).2 p.2))
      fun b => (next b).journaled note
  | await f next =>
    await (fun p r => (f p.1 r).map fun q => (q.1, q.2, note p.1 (some r) q.2 p.2))
      fun b => (next b).journaled note

section Journaled

variable {note : Note σ ρ γ}

theorem journaled_bind (c : Coro σ ρ ε α) (k : α → Coro σ ρ ε β) :
    (c >>= k).journaled note = c.journaled note >>= fun a => (k a).journaled note := by
  change (c.bind k).journaled note = (c.journaled note).bind fun a => (k a).journaled note
  induction c with
  | ret a => rfl
  | raise e => rfl
  | atom f next ih => exact congrArg (atom _) (funext ih)
  | await f next ih => exact congrArg (await _) (funext ih)

theorem journaled_tryFinally (c : Coro σ ρ ε α) (fin : Coro σ ρ ε Unit) :
    (c.tryFinally fin).journaled note = (c.journaled note).tryFinally (fin.journaled note) := by
  induction c with
  | ret a => exact journaled_bind fin fun _ => ret a
  | raise e => exact journaled_bind fin fun _ => raise e
  | atom f next ih => exact congrArg (atom _) (funext ih)
  | await f next ih => exact congrArg (await _) (funext ih)

theorem journaled_settle (c : Coro σ ρ ε α) (s : σ) (g : γ) :
    ∃ g', (c.journaled note).settle (s, g) = ((c.settle s).1.journaled note, (c.settle s).2, g') := by
  induction c generalizing s g with
  | ret a => exact ⟨g, rfl⟩
  | raise e => exact ⟨g, rfl⟩
  | atom f next ih => exact ih _ _ _
  | await f next ih => exact ⟨g, rfl⟩

end Journaled

end Coro

/-- The others do not write the journal. -/
def beside (other : σ → μ → Option σ) (p : σ × γ) (m : μ) : Option (σ × γ) :=
  (other p.1 m).map fun s => (s, p.2)

section Entries

variable {note : Note σ ρ γ} {other : σ → μ → Option σ} {K : γ → Prop}

theorem journal_of_settle (hatom : ∀ s t g, K g → K (note s none t g)) (c : Coro σ ρ ε α) (s : σ)
    {g : γ} (hg : K g) : K ((c.journaled note).settle (s, g)).2.2 := by
  induction c generalizing s g with
  | ret a => exact hg
  | raise e => exact hg
  | atom f next ih => exact ih _ _ (hatom _ _ _ hg)
  | await f next ih => exact hg

theorem journal_of_step {allowed : ρ → Prop} (hatom : ∀ s t g, K g → K (note s none t g))
    (hanswer : ∀ s r t g, allowed r → K g → K (note s (some r) t g)) {c : Coro σ ρ ε α} {s : σ}
    {g : γ} (hg : K g) {turn : Turn ρ μ} (hturn : ∀ r, turn = .answer r → allowed r)
    {q : Process (σ × γ) ρ ε α}
    (h : Process.step (beside other) ⟨c.journaled note, (s, g)⟩ turn = some q) :
    (∃ d : Coro σ ρ ε α, q.code = d.journaled note) ∧ K q.memory.2 := by
  cases turn with
  | answer r =>
    cases c with
    | await f next =>
      obtain ⟨⟨d, u⟩, hd, rfl⟩ := Option.map_eq_some_iff.mp h
      simp only [journaled, answer, Option.map_eq_some_iff] at hd
      obtain ⟨-, ⟨⟨b, t⟩, -, rfl⟩, hsettle⟩ := hd
      have hkept : K (note s (some r) t g) := hanswer s r t g (hturn r rfl) hg
      obtain ⟨g', hg'⟩ := @journaled_settle σ ρ ε α γ note (next b) t (note s (some r) t g)
      have hjournal := journal_of_settle hatom (next b) t hkept
      rw [hsettle] at hg' hjournal
      exact ⟨⟨_, congrArg Prod.fst hg'⟩, hjournal⟩
    | ret a => cases h
    | raise e => cases h
    | atom f next => cases h
  | other m =>
    cases c with
    | await f next =>
      obtain ⟨u, hu, rfl⟩ := Option.map_eq_some_iff.mp h
      obtain ⟨t, -, rfl⟩ := Option.map_eq_some_iff.mp hu
      exact ⟨⟨.await f next, rfl⟩, hg⟩
    | ret a => cases h
    | raise e => cases h
    | atom f next => cases h

/-- What the entries of atoms and of these answers keep, holds of the journal of a run that is
given no other answers. -/
theorem journal_of_run {allowed : ρ → Prop} (hatom : ∀ s t g, K g → K (note s none t g))
    (hanswer : ∀ s r t g, allowed r → K g → K (note s (some r) t g)) (c : Coro σ ρ ε α) (s : σ)
    {g : γ} (hg : K g) {turns : List (Turn ρ μ)} (hturns : ∀ r, .answer r ∈ turns → allowed r)
    {p : Process (σ × γ) ρ ε α}
    (hrun : Process.run (beside other) (c.journaled note) (s, g) turns = some p) :
    K p.memory.2 := by
  have hstart : (∃ d : Coro σ ρ ε α,
      (Process.start (c.journaled note) (s, g)).code = d.journaled note) ∧
      K (Process.start (c.journaled note) (s, g)).memory.2 := by
    obtain ⟨g', hg'⟩ := @journaled_settle σ ρ ε α γ note c s g
    exact ⟨⟨_, congrArg Prod.fst hg'⟩, journal_of_settle hatom c s hg⟩
  have hall : ∀ turn ∈ turns, ∀ r, turn = .answer r → allowed r := by
    rintro turn hturn r rfl
    exact hturns r hturn
  have hkept := StepSystem.run_invariant_along
    (P := fun q : Process (σ × γ) ρ ε α =>
      (∃ d : Coro σ ρ ε α, q.code = d.journaled note) ∧ K q.memory.2)
    (fun q turn t hq hturn ht => ?_) hstart ((StepSystem.along_true _ _).restrict hall) hrun
  · exact hkept.2
  · obtain ⟨code, u, g⟩ := q
    obtain ⟨⟨d, rfl⟩, hg⟩ := hq
    exact journal_of_step hatom hanswer hg hturn.1 ht

end Entries

end Coroutine
