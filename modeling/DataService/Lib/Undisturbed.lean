import DataService.Lib.RelyGuarantee

/-! Coroutines that nothing disturbs. Every await is given the same answer at once, and
nobody else touches the memory meanwhile. -/

namespace Coroutine.Coro

variable {σ ρ ε α β : Type}

/-- How the coroutine ends, and the memory it leaves; none if an await does not take the
answer. -/
def answered (r : ρ) : Coro σ ρ ε α → σ → Option (Except ε α × σ)
  | ret a, s => some (.ok a, s)
  | raise e, s => some (.error e, s)
  | atom f next, s => (next (f s).1).answered r (f s).2
  | await f next, s => (f s r).bind fun p => (next p.1).answered r p.2

theorem coro_bind_assoc {γ : Type} (c : Coro σ ρ ε α) (k : α → Coro σ ρ ε β)
    (l : β → Coro σ ρ ε γ) : (c >>= k) >>= l = c >>= fun a => k a >>= l := by
  change (c.bind k).bind l = c.bind fun a => (k a).bind l
  induction c with
  | ret a => rfl
  | raise e => rfl
  | atom f next ih => simp [Coro.bind, ih]
  | await f next ih => simp [Coro.bind, ih]

variable {r : ρ} {s t : σ}

@[simp] theorem answered_pure (a : α) :
    (pure a : Coro σ ρ ε α).answered r s = some (.ok a, s) := rfl

theorem answered_call (f : σ → ρ → Option (Except ε α × σ)) :
    (call f).answered r s = f s r := by
  rw [call, answered]
  cases hf : f s r with
  | none => rfl
  | some p =>
    obtain ⟨o, t⟩ := p
    cases o <;> rfl

/-- What follows a coroutine that has ended. -/
def followedBy (r : ρ) (k : α → Coro σ ρ ε β) : Except ε α × σ → Option (Except ε β × σ)
  | (.ok a, s) => (k a).answered r s
  | (.error e, s) => some (.error e, s)

theorem answered_bind (c : Coro σ ρ ε α) (k : α → Coro σ ρ ε β) (s : σ) :
    (c >>= k).answered r s = (c.answered r s).bind (followedBy r k) := by
  change (c.bind k).answered r s = _
  induction c generalizing s with
  | ret a => rfl
  | raise e => rfl
  | atom f next ih => exact ih _ _
  | await f next ih =>
    simp only [Coro.bind, answered]
    cases hf : f s r with
    | none => rfl
    | some p => simp [ih]

theorem answered_bind_ok {c : Coro σ ρ ε α} {a : α} (k : α → Coro σ ρ ε β)
    (h : c.answered r s = some (.ok a, t)) : (c >>= k).answered r s = (k a).answered r t := by
  rw [answered_bind, h]
  rfl

/-- The coroutine ends, with a value in `Q` or with an exception in `E`. -/
def Ends (r : ρ) (Q : α → σ → Prop) (E : ε → σ → Prop) : Coro σ ρ ε α → σ → Prop
  | ret a, s => Q a s
  | raise e, s => E e s
  | atom f next, s => (next (f s).1).Ends r Q E (f s).2
  | await f next, s => ∃ b t, f s r = some (b, t) ∧ (next b).Ends r Q E t

section Ends

variable {Q : α → σ → Prop} {E : ε → σ → Prop} {c : Coro σ ρ ε α}

theorem ends_mono {Q' : α → σ → Prop} {E' : ε → σ → Prop} (hQ : ∀ a t, Q a t → Q' a t)
    (hE : ∀ e t, E e t → E' e t) (h : c.Ends r Q E s) : c.Ends r Q' E' s := by
  induction c generalizing s with
  | ret a => exact hQ a s h
  | raise e => exact hE e s h
  | atom f next ih => exact ih _ h
  | await f next ih =>
    obtain ⟨b, t, hf, hnext⟩ := h
    exact ⟨b, t, hf, ih b hnext⟩

theorem ends_bind {Q' : β → σ → Prop} {k : α → Coro σ ρ ε β}
    (h : c.Ends r (fun a t => (k a).Ends r Q' E t) E s) : (c >>= k).Ends r Q' E s := by
  change (c.bind k).Ends r Q' E s
  induction c generalizing s with
  | ret a => exact h
  | raise e => exact h
  | atom f next ih => exact ih _ h
  | await f next ih =>
    obtain ⟨b, t, hf, hnext⟩ := h
    exact ⟨b, t, hf, ih b hnext⟩

theorem ends_tryCatch {E' : ε → σ → Prop} {handler : ε → Coro σ ρ ε α}
    (h : c.Ends r Q (fun e t => (handler e).Ends r Q E' t) s) :
    (c.tryCatch handler).Ends r Q E' s := by
  induction c generalizing s with
  | ret a => exact h
  | raise e => exact h
  | atom f next ih => exact ih _ h
  | await f next ih =>
    obtain ⟨b, t, hf, hnext⟩ := h
    exact ⟨b, t, hf, ih b hnext⟩

theorem ends_call {f : σ → ρ → Option (Except ε α × σ)} {a : α} (hf : f s r = some (.ok a, t))
    (h : Q a t) : (call f).Ends r Q E s :=
  ⟨.ok a, t, hf, h⟩

/-- What is known of the end holds of the end that there is. -/
theorem Ends.answered (h : c.Ends r Q E s) : ∃ o t, c.answered r s = some (o, t) ∧
    (∀ a, o = .ok a → Q a t) ∧ ∀ e, o = .error e → E e t := by
  induction c generalizing s with
  | ret a =>
    refine ⟨.ok a, s, rfl, ?_, ?_⟩
    · rintro _ ⟨⟩
      exact h
    · rintro _ ⟨⟩
  | raise e =>
    refine ⟨.error e, s, rfl, ?_, ?_⟩
    · rintro _ ⟨⟩
    · rintro _ ⟨⟩
      exact h
  | atom f next ih => exact ih _ h
  | await f next ih =>
    obtain ⟨b, t, hf, hnext⟩ := h
    obtain ⟨o, u, ho, hends⟩ := ih b hnext
    refine ⟨o, u, ?_, hends⟩
    simp [Coro.answered, hf, ho]

end Ends

/-- What every move preserves, the whole coroutine preserves. -/
theorem Within.answered {F : σ → σ → Prop} {P : σ → Prop} {c : Coro σ ρ ε α} {o : Except ε α}
    (h : c.Within F) (hF : ∀ s t, F s t → P s → P t) (hs : P s)
    (hend : c.answered r s = some (o, t)) : P t := by
  induction c generalizing s with
  | ret a =>
    obtain ⟨-, rfl⟩ : _ ∧ s = t := by simpa [Coro.answered] using hend
    exact hs
  | raise e =>
    obtain ⟨-, rfl⟩ : _ ∧ s = t := by simpa [Coro.answered] using hend
    exact hs
  | atom f next ih => exact ih _ (h.2 _) (hF _ _ (h.1 s) hs) hend
  | await f next ih =>
    obtain ⟨⟨b, u⟩, hu, hnext⟩ := Option.bind_eq_some_iff.mp hend
    exact ih b (h.2 b) (hF _ _ (h.1 s r b u hu) hs) hnext

/-- An end that was evaluated, with what is seen of the memory it leaves. -/
theorem answered_of_view {β : Type} {c : Coro σ ρ ε α} {f : σ → β} {a : α} {b : β}
    (h : (c.answered r s).map (fun p => (p.1.toOption, f p.2)) = some (some a, b)) :
    ∃ t, c.answered r s = some (.ok a, t) ∧ f t = b := by
  obtain ⟨⟨o, t⟩, hend, hview⟩ := Option.map_eq_some_iff.mp h
  obtain ⟨ho, hb⟩ := Prod.mk.inj hview
  cases o with
  | error e => cases ho
  | ok a' =>
    obtain rfl := Option.some.inj ho
    exact ⟨t, hend, hb⟩

end Coroutine.Coro
