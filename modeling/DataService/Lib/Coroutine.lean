import Mathlib.Logic.Relation

/-! Coroutines of a single-threaded event loop. Between two awaits a coroutine
runs without interruption; at an await the rest of the world may move before the
answer arrives, and the process may die. `Safe` is the program logic for them: an
interference relation for what happens during an await, a crash condition that
holds at every await, and postconditions for the two ways to end. -/

namespace Coroutine

/-- `σ` is the memory, `ρ` what an await may be answered, `ε` the exceptions. An
answer that does not fit the await leaves it pending. -/
inductive Coro (σ ρ ε α : Type) : Type 1 where
  | ret (a : α)
  | raise (e : ε)
  | atom {β : Type} (f : σ → β × σ) (next : β → Coro σ ρ ε α)
  | await {β : Type} (f : σ → ρ → Option (β × σ)) (next : β → Coro σ ρ ε α)

namespace Coro

variable {σ ρ ε α β : Type}

def bind : Coro σ ρ ε α → (α → Coro σ ρ ε β) → Coro σ ρ ε β
  | ret a, k => k a
  | raise e, _ => raise e
  | atom f next, k => atom f fun b => (next b).bind k
  | await f next, k => await f fun b => (next b).bind k

instance : Monad (Coro σ ρ ε) where
  pure := ret
  bind := bind

/-- `try: body  finally: fin`, where an exception of `fin` replaces that of `body`. -/
def tryFinally : Coro σ ρ ε α → Coro σ ρ ε Unit → Coro σ ρ ε α
  | ret a, fin => fin.bind fun _ => ret a
  | raise e, fin => fin.bind fun _ => raise e
  | atom f next, fin => atom f fun b => (next b).tryFinally fin
  | await f next, fin => await f fun b => (next b).tryFinally fin

/-- `try: body  except: handler`; the handler may raise what it does not handle. -/
def tryCatch : Coro σ ρ ε α → (ε → Coro σ ρ ε α) → Coro σ ρ ε α
  | ret a, _ => ret a
  | raise e, handler => handler e
  | atom f next, handler => atom f fun b => (next b).tryCatch handler
  | await f next, handler => await f fun b => (next b).tryCatch handler

/-- An uninterrupted read or write of the memory. -/
def act (f : σ → α × σ) : Coro σ ρ ε α := atom f ret

/-- An await whose answer is a value or an exception. -/
def call (f : σ → ρ → Option (Except ε α × σ)) : Coro σ ρ ε α :=
  await f fun
    | .ok a => ret a
    | .error e => raise e

/-- Run to the next await. -/
def settle : Coro σ ρ ε α → σ → Coro σ ρ ε α × σ
  | atom f next, s => (next (f s).1).settle (f s).2
  | c, s => (c, s)

/-- Answer the pending await and run to the next one. -/
def answer : Coro σ ρ ε α → σ → ρ → Option (Coro σ ρ ε α × σ)
  | await f next, s, r => (f s r).map fun p => (next p.1).settle p.2
  | _, _, _ => none

/-- The exception with which the coroutine has ended. -/
def exception : Coro σ ρ ε α → Option ε
  | raise e => some e
  | _ => none

/-- From this memory the coroutine only does what the specification allows. -/
def Safe (R : σ → σ → Prop) (I : σ → Prop) (Q : α → σ → Prop) (E : ε → σ → Prop) :
    Coro σ ρ ε α → σ → Prop
  | ret a, s => Q a s
  | raise e, s => E e s
  | atom f next, s => (next (f s).1).Safe R I Q E (f s).2
  | await f next, s => ∀ t, R s t → I t ∧
      ∀ r b u, f t r = some (b, u) → (next b).Safe R I Q E u

section Rules

variable {R : σ → σ → Prop} {I : σ → Prop} {Q : α → σ → Prop} {E : ε → σ → Prop}

@[simp] theorem safe_pure (a : α) (s : σ) :
    Safe R I Q E (pure a : Coro σ ρ ε α) s ↔ Q a s := Iff.rfl

theorem safe_mono {Q' : α → σ → Prop} {E' : ε → σ → Prop} {c : Coro σ ρ ε α} {s : σ}
    (hQ : ∀ a t, Q a t → Q' a t) (hE : ∀ e t, E e t → E' e t)
    (h : c.Safe R I Q E s) : c.Safe R I Q' E' s := by
  induction c generalizing s with
  | ret a => exact hQ a s h
  | raise e => exact hE e s h
  | atom f next ih => exact ih _ h
  | await f next ih =>
    intro t ht
    exact ⟨(h t ht).1, fun r b u hu => ih b ((h t ht).2 r b u hu)⟩

theorem safe_mono_crash {I' : σ → Prop} {c : Coro σ ρ ε α} {s : σ} (hI : ∀ t, I t → I' t)
    (h : c.Safe R I Q E s) : c.Safe R I' Q E s := by
  induction c generalizing s with
  | ret a => exact h
  | raise e => exact h
  | atom f next ih => exact ih _ h
  | await f next ih =>
    intro t ht
    exact ⟨hI t (h t ht).1, fun r b u hu => ih b ((h t ht).2 r b u hu)⟩

theorem safe_bind {Q' : β → σ → Prop} {k : α → Coro σ ρ ε β} {c : Coro σ ρ ε α} {s : σ}
    (h : c.Safe R I (fun a t => (k a).Safe R I Q' E t) E s) : (c >>= k).Safe R I Q' E s := by
  change (c.bind k).Safe R I Q' E s
  induction c generalizing s with
  | ret a => exact h
  | raise e => exact h
  | atom f next ih => exact ih _ h
  | await f next ih =>
    intro t ht
    exact ⟨(h t ht).1, fun r b u hu => ih b ((h t ht).2 r b u hu)⟩

theorem safe_tryFinally {fin : Coro σ ρ ε Unit} {c : Coro σ ρ ε α} {s : σ}
    (h : c.Safe R I (fun a t => fin.Safe R I (fun _ u => Q a u) E t)
      (fun e t => fin.Safe R I (fun _ u => E e u) E t) s) :
    (c.tryFinally fin).Safe R I Q E s := by
  induction c generalizing s with
  | ret a => exact safe_bind (c := fin) h
  | raise e => exact safe_bind (c := fin) h
  | atom f next ih => exact ih _ h
  | await f next ih =>
    intro t ht
    exact ⟨(h t ht).1, fun r b u hu => ih b ((h t ht).2 r b u hu)⟩

theorem safe_tryCatch {E' : ε → σ → Prop} {handler : ε → Coro σ ρ ε α} {c : Coro σ ρ ε α} {s : σ}
    (h : c.Safe R I Q (fun e t => (handler e).Safe R I Q E' t) s) :
    (c.tryCatch handler).Safe R I Q E' s := by
  induction c generalizing s with
  | ret a => exact h
  | raise e => exact h
  | atom f next ih => exact ih _ h
  | await f next ih =>
    intro t ht
    exact ⟨(h t ht).1, fun r b u hu => ih b ((h t ht).2 r b u hu)⟩

theorem safe_call {f : σ → ρ → Option (Except ε α × σ)} {s : σ}
    (h : ∀ t, R s t → I t ∧
      (∀ r a u, f t r = some (.ok a, u) → Q a u) ∧
      (∀ r e u, f t r = some (.error e, u) → E e u)) :
    (call f).Safe R I Q E s := by
  intro t ht
  refine ⟨(h t ht).1, ?_⟩
  rintro r (e | a) u hu
  · exact (h t ht).2.2 r e u hu
  · exact (h t ht).2.1 r a u hu

/-- What the specification says at an await, it says wherever the coroutine stands. -/
def Pending : Coro σ ρ ε α → Prop
  | await _ _ => True
  | _ => False

theorem safe_settle {c : Coro σ ρ ε α} {s : σ} (h : c.Safe R I Q E s) :
    (c.settle s).1.Safe R I Q E (c.settle s).2 := by
  induction c generalizing s with
  | ret a => exact h
  | raise e => exact h
  | atom f next ih => exact ih _ h
  | await f next ih => exact h

theorem safe_answer {c : Coro σ ρ ε α} {s t : σ} {r : ρ} {p : Coro σ ρ ε α × σ}
    (h : c.Safe R I Q E s) (hR : R s t) (hp : c.answer t r = some p) :
    p.1.Safe R I Q E p.2 := by
  cases c with
  | await f next =>
    simp only [answer, Option.map_eq_some_iff] at hp
    obtain ⟨⟨b, u⟩, hf, rfl⟩ := hp
    exact safe_settle ((h t hR).2 r b u hf)
  | ret a => simp [answer] at hp
  | raise e => simp [answer] at hp
  | atom f next => simp [answer] at hp

/-- A settled coroutine has ended or waits. -/
theorem settle_ended_or_pending (c : Coro σ ρ ε α) (s : σ) :
    (∃ a, (c.settle s).1 = ret a) ∨ (∃ e, (c.settle s).1 = raise e) ∨ (c.settle s).1.Pending := by
  induction c generalizing s with
  | ret a => exact .inl ⟨a, rfl⟩
  | raise e => exact .inr (.inl ⟨e, rfl⟩)
  | atom f next ih => exact ih _ _
  | await f next ih => exact .inr (.inr trivial)

theorem answer_settled {c : Coro σ ρ ε α} {s : σ} {r : ρ} {p : Coro σ ρ ε α × σ}
    (h : c.answer s r = some p) : ∃ (d : Coro σ ρ ε α) (t : σ), p = d.settle t := by
  cases c with
  | await f next =>
    simp only [answer, Option.map_eq_some_iff] at h
    obtain ⟨⟨b, u⟩, _, rfl⟩ := h
    exact ⟨_, _, rfl⟩
  | ret a => simp [answer] at h
  | raise e => simp [answer] at h
  | atom f next => simp [answer] at h

theorem safe_interfere {c : Coro σ ρ ε α} {s t : σ} (hc : c.Pending)
    (htrans : ∀ u, R t u → R s u) (h : c.Safe R I Q E s) : c.Safe R I Q E t := by
  cases c with
  | await f next => exact fun u hu => h u (htrans u hu)
  | ret a => exact hc.elim
  | raise e => exact hc.elim
  | atom f next => exact hc.elim

/-- The coroutine has run to an await or to its end. -/
def Settled : Coro σ ρ ε α → Prop
  | atom _ _ => False
  | _ => True

theorem settled_settle (c : Coro σ ρ ε α) (s : σ) : (c.settle s).1.Settled := by
  induction c generalizing s with
  | ret a => trivial
  | raise e => trivial
  | atom f next ih => exact ih _ _
  | await f next ih => trivial

theorem settled_answer {c : Coro σ ρ ε α} {s : σ} {r : ρ} {p : Coro σ ρ ε α × σ}
    (h : c.answer s r = some p) : p.1.Settled := by
  obtain ⟨d, t, rfl⟩ := answer_settled h
  exact settled_settle d t

theorem safe_crash {c : Coro σ ρ ε α} {s t : σ} (hc : c.Pending)
    (h : c.Safe R I Q E s) (hR : R s t) : I t := by
  cases c with
  | await f next => exact (h t hR).1
  | ret a => exact hc.elim
  | raise e => exact hc.elim
  | atom f next => exact hc.elim

end Rules

/-- The coroutine neither reads nor writes what `π` hides of the memory. -/
def Blind (π : σ → σ) : Coro σ ρ ε α → Prop
  | ret _ | raise _ => True
  | atom f next => (∀ s, f (π s) = ((f s).1, π (f s).2)) ∧ ∀ b, (next b).Blind π
  | await f next =>
    (∀ s r, f (π s) r = (f s r).map fun p => (p.1, π p.2)) ∧ ∀ b, (next b).Blind π

section Blind

variable {π : σ → σ} {c : Coro σ ρ ε α} {s : σ} {r : ρ}

theorem blind_bind {k : α → Coro σ ρ ε β} (h : c.Blind π) (hk : ∀ a, (k a).Blind π) :
    (c >>= k).Blind π := by
  change (c.bind k).Blind π
  induction c with
  | ret a => exact hk a
  | raise e => trivial
  | atom f next ih => exact ⟨h.1, fun b => ih b (h.2 b)⟩
  | await f next ih => exact ⟨h.1, fun b => ih b (h.2 b)⟩

theorem blind_tryFinally {fin : Coro σ ρ ε Unit} (h : c.Blind π) (hfin : fin.Blind π) :
    (c.tryFinally fin).Blind π := by
  induction c with
  | ret a => exact blind_bind hfin fun _ => trivial
  | raise e => exact blind_bind hfin fun _ => trivial
  | atom f next ih => exact ⟨h.1, fun b => ih b (h.2 b)⟩
  | await f next ih => exact ⟨h.1, fun b => ih b (h.2 b)⟩

theorem blind_call {f : σ → ρ → Option (Except ε α × σ)}
    (h : ∀ s r, f (π s) r = (f s r).map fun p => (p.1, π p.2)) : (call f).Blind π := by
  refine ⟨h, fun b => ?_⟩
  cases b <;> trivial

theorem settle_blind (h : c.Blind π) : c.settle (π s) = ((c.settle s).1, π (c.settle s).2) := by
  induction c generalizing s with
  | ret a => rfl
  | raise e => rfl
  | atom f next ih =>
    simp only [settle, h.1]
    exact ih _ (h.2 _)
  | await f next ih => rfl

theorem Blind.settle (h : c.Blind π) : (c.settle s).1.Blind π := by
  induction c generalizing s with
  | ret a => trivial
  | raise e => trivial
  | atom f next ih => exact ih _ (h.2 _)
  | await f next ih => exact h

/-- A blind coroutine takes the same steps whether or not something is hidden. -/
theorem answer_blind (h : c.Blind π) :
    c.answer (π s) r = (c.answer s r).map fun p => (p.1, π p.2) := by
  cases c with
  | await f next =>
    simp only [answer, h.1, Option.map_map]
    congr 1
    funext p
    exact settle_blind (h.2 _)
  | ret a => rfl
  | raise e => rfl
  | atom f next => rfl

theorem Blind.answer {p : Coro σ ρ ε α × σ} (h : c.Blind π) (hp : c.answer s r = some p) :
    p.1.Blind π := by
  cases c with
  | await f next =>
    simp only [Coro.answer, Option.map_eq_some_iff] at hp
    obtain ⟨q, -, rfl⟩ := hp
    exact (h.2 q.1).settle
  | ret a => cases hp
  | raise e => cases hp
  | atom f next => cases hp

end Blind

end Coro

end Coroutine
