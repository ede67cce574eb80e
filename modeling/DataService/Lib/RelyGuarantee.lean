import DataService.Lib.Coroutine

/-! Rely and guarantee for coroutines: as long as the others move the memory within one
relation, the coroutine moves it within another. -/

namespace Coroutine.Coro

variable {σ ρ ε α β : Type} {R G : σ → σ → Prop} {Q : α → σ → Prop} {E : ε → σ → Prop}

/-- Under the rely `R` every move is within `G`, and the ends are in `Q` and `E`. -/
def Honours (R G : σ → σ → Prop) (Q : α → σ → Prop) (E : ε → σ → Prop) :
    Coro σ ρ ε α → σ → Prop
  | ret a, s => Q a s
  | raise e, s => E e s
  | atom f next, s => G s (f s).2 ∧ (next (f s).1).Honours R G Q E (f s).2
  | await f next, s => ∀ t, R s t → ∀ r b u, f t r = some (b, u) →
      G t u ∧ (next b).Honours R G Q E u

/-- Every move is within `F`, whatever the others do. -/
def Within (F : σ → σ → Prop) : Coro σ ρ ε α → Prop
  | ret _ | raise _ => True
  | atom f next => (∀ s, F s (f s).2) ∧ ∀ b, (next b).Within F
  | await f next => (∀ s r b t, f s r = some (b, t) → F s t) ∧ ∀ b, (next b).Within F

section Rules

variable {s t : σ}

theorem honours_mono {Q' : α → σ → Prop} {E' : ε → σ → Prop} {c : Coro σ ρ ε α}
    (hQ : ∀ a t, Q a t → Q' a t) (hE : ∀ e t, E e t → E' e t) (h : c.Honours R G Q E s) :
    c.Honours R G Q' E' s := by
  induction c generalizing s with
  | ret a => exact hQ a s h
  | raise e => exact hE e s h
  | atom f next ih => exact ⟨h.1, ih _ h.2⟩
  | await f next ih =>
    intro t ht r b u hu
    exact ⟨(h t ht r b u hu).1, ih b (h t ht r b u hu).2⟩

theorem honours_weaken {G' : σ → σ → Prop} (hG : ∀ s t, G s t → G' s t) {c : Coro σ ρ ε α}
    (h : c.Honours R G Q E s) : c.Honours R G' Q E s := by
  induction c generalizing s with
  | ret a => exact h
  | raise e => exact h
  | atom f next ih => exact ⟨hG _ _ h.1, ih _ h.2⟩
  | await f next ih =>
    intro t ht r b u hu
    exact ⟨hG _ _ (h t ht r b u hu).1, ih b (h t ht r b u hu).2⟩

/-- What both the others and the coroutine preserve holds to the end. -/
theorem honours_frame {P : σ → Prop} (hR : ∀ s t, R s t → P s → P t)
    (hG : ∀ s t, G s t → P s → P t) {c : Coro σ ρ ε α} (h : c.Honours R G Q E s) (hs : P s) :
    c.Honours R G (fun a t => Q a t ∧ P t) (fun e t => E e t ∧ P t) s := by
  induction c generalizing s with
  | ret a => exact ⟨h, hs⟩
  | raise e => exact ⟨h, hs⟩
  | atom f next ih => exact ⟨h.1, ih _ h.2 (hG _ _ h.1 hs)⟩
  | await f next ih =>
    intro t ht r b u hu
    obtain ⟨hmove, hnext⟩ := h t ht r b u hu
    exact ⟨hmove, ih b hnext (hG _ _ hmove (hR _ _ ht hs))⟩

theorem honours_bind {Q' : β → σ → Prop} {k : α → Coro σ ρ ε β} {c : Coro σ ρ ε α}
    (h : c.Honours R G (fun a t => (k a).Honours R G Q' E t) E s) :
    (c >>= k).Honours R G Q' E s := by
  change (c.bind k).Honours R G Q' E s
  induction c generalizing s with
  | ret a => exact h
  | raise e => exact h
  | atom f next ih => exact ⟨h.1, ih _ h.2⟩
  | await f next ih =>
    intro t ht r b u hu
    exact ⟨(h t ht r b u hu).1, ih b (h t ht r b u hu).2⟩

theorem honours_tryFinally {fin : Coro σ ρ ε Unit} {c : Coro σ ρ ε α}
    (h : c.Honours R G (fun a t => fin.Honours R G (fun _ u => Q a u) E t)
      (fun e t => fin.Honours R G (fun _ u => E e u) E t) s) :
    (c.tryFinally fin).Honours R G Q E s := by
  induction c generalizing s with
  | ret a => exact honours_bind (c := fin) h
  | raise e => exact honours_bind (c := fin) h
  | atom f next ih => exact ⟨h.1, ih _ h.2⟩
  | await f next ih =>
    intro t ht r b u hu
    exact ⟨(h t ht r b u hu).1, ih b (h t ht r b u hu).2⟩

theorem honours_tryCatch {E' : ε → σ → Prop} {handler : ε → Coro σ ρ ε α} {c : Coro σ ρ ε α}
    (h : c.Honours R G Q (fun e t => (handler e).Honours R G Q E' t) s) :
    (c.tryCatch handler).Honours R G Q E' s := by
  induction c generalizing s with
  | ret a => exact h
  | raise e => exact h
  | atom f next ih => exact ⟨h.1, ih _ h.2⟩
  | await f next ih =>
    intro t ht r b u hu
    exact ⟨(h t ht r b u hu).1, ih b (h t ht r b u hu).2⟩

theorem honours_call {f : σ → ρ → Option (Except ε α × σ)}
    (hok : ∀ t, R s t → ∀ r a u, f t r = some (.ok a, u) → G t u ∧ Q a u)
    (herror : ∀ t, R s t → ∀ r e u, f t r = some (.error e, u) → G t u ∧ E e u) :
    (call f).Honours R G Q E s := by
  intro t ht r x u hu
  cases x with
  | ok a => exact hok t ht r a u hu
  | error e => exact herror t ht r e u hu

theorem honours_settle (hrefl : ∀ s, G s s) (htrans : ∀ s t u, G s t → G t u → G s u)
    {c : Coro σ ρ ε α} (h : c.Honours R G Q E s) :
    G s (c.settle s).2 ∧ (c.settle s).1.Honours R G Q E (c.settle s).2 := by
  induction c generalizing s with
  | ret a => exact ⟨hrefl s, h⟩
  | raise e => exact ⟨hrefl s, h⟩
  | atom f next ih =>
    have hnext := ih _ h.2
    exact ⟨htrans _ _ _ h.1 hnext.1, hnext.2⟩
  | await f next ih => exact ⟨hrefl s, h⟩

theorem honours_answer (hrefl : ∀ s, G s s) (htrans : ∀ s t u, G s t → G t u → G s u)
    {c : Coro σ ρ ε α} {r : ρ} {p : Coro σ ρ ε α × σ} (h : c.Honours R G Q E s) (hR : R s t)
    (hp : c.answer t r = some p) : G t p.2 ∧ p.1.Honours R G Q E p.2 := by
  cases c with
  | await f next =>
    simp only [answer, Option.map_eq_some_iff] at hp
    obtain ⟨⟨b, u⟩, hf, rfl⟩ := hp
    obtain ⟨hG, hnext⟩ := h t hR r b u hf
    have hsettle := honours_settle hrefl htrans hnext
    exact ⟨htrans _ _ _ hG hsettle.1, hsettle.2⟩
  | ret a => cases hp
  | raise e => cases hp
  | atom f next => cases hp

/-- A coroutine that does not run keeps its specification while the rest moves. -/
theorem honours_rely (htrans : ∀ s t u, R s t → R t u → R s u) {c : Coro σ ρ ε α}
    (hc : c.Settled) (h : c.Honours R G Q E s) (hR : R s t) (hQ : ∀ a, Q a s → Q a t)
    (hE : ∀ e, E e s → E e t) : c.Honours R G Q E t := by
  cases c with
  | ret a => exact hQ a h
  | raise e => exact hE e h
  | await f next => exact fun u hu => h u (htrans s t u hR hu)
  | atom f next => exact hc.elim

end Rules

section Within

variable {F : σ → σ → Prop}

theorem within_mono {F' : σ → σ → Prop} (hF : ∀ s t, F s t → F' s t) {c : Coro σ ρ ε α}
    (h : c.Within F) : c.Within F' := by
  induction c with
  | ret a => trivial
  | raise e => trivial
  | atom f next ih => exact ⟨fun s => hF _ _ (h.1 s), fun b => ih b (h.2 b)⟩
  | await f next ih => exact ⟨fun s r b t ht => hF _ _ (h.1 s r b t ht), fun b => ih b (h.2 b)⟩

theorem within_bind {c : Coro σ ρ ε α} {k : α → Coro σ ρ ε β} (h : c.Within F)
    (hk : ∀ a, (k a).Within F) : (c >>= k).Within F := by
  change (c.bind k).Within F
  induction c with
  | ret a => exact hk a
  | raise e => trivial
  | atom f next ih => exact ⟨h.1, fun b => ih b (h.2 b)⟩
  | await f next ih => exact ⟨h.1, fun b => ih b (h.2 b)⟩

theorem within_tryFinally {c : Coro σ ρ ε α} {fin : Coro σ ρ ε Unit} (h : c.Within F)
    (hfin : fin.Within F) : (c.tryFinally fin).Within F := by
  induction c with
  | ret a => exact within_bind hfin fun _ => trivial
  | raise e => exact within_bind hfin fun _ => trivial
  | atom f next ih => exact ⟨h.1, fun b => ih b (h.2 b)⟩
  | await f next ih => exact ⟨h.1, fun b => ih b (h.2 b)⟩

theorem within_tryCatch {c : Coro σ ρ ε α} {handler : ε → Coro σ ρ ε α} (h : c.Within F)
    (hhandler : ∀ e, (handler e).Within F) : (c.tryCatch handler).Within F := by
  induction c with
  | ret a => trivial
  | raise e => exact hhandler e
  | atom f next ih => exact ⟨h.1, fun b => ih b (h.2 b)⟩
  | await f next ih => exact ⟨h.1, fun b => ih b (h.2 b)⟩

theorem within_act {f : σ → α × σ} (h : ∀ s, F s (f s).2) :
    (act f : Coro σ ρ ε α).Within F :=
  ⟨h, fun _ => trivial⟩

theorem within_call {f : σ → ρ → Option (Except ε α × σ)}
    (h : ∀ s r x t, f s r = some (x, t) → F s t) : (call f).Within F := by
  refine ⟨h, fun x => ?_⟩
  cases x <;> trivial

theorem Within.honours {c : Coro σ ρ ε α} (h : c.Within F) (s : σ) :
    c.Honours R F (fun _ _ => True) (fun _ _ => True) s := by
  induction c generalizing s with
  | ret a => trivial
  | raise e => trivial
  | atom f next ih => exact ⟨h.1 s, ih _ (h.2 _) _⟩
  | await f next ih => exact fun t ht r b u hu => ⟨h.1 t r b u hu, ih b (h.2 b) u⟩

/-- The moves up to an await make one move, and the rest moves alike. -/
theorem within_settle (hrefl : ∀ s, F s s) (htrans : ∀ s t u, F s t → F t u → F s u)
    {c : Coro σ ρ ε α} (h : c.Within F) (s : σ) :
    F s (c.settle s).2 ∧ (c.settle s).1.Within F := by
  induction c generalizing s with
  | ret a => exact ⟨hrefl s, h⟩
  | raise e => exact ⟨hrefl s, h⟩
  | atom f next ih =>
    have hnext := ih (f s).1 (h.2 (f s).1) (f s).2
    exact ⟨htrans _ _ _ (h.1 s) hnext.1, hnext.2⟩
  | await f next ih => exact ⟨hrefl s, h⟩

theorem within_answer (hrefl : ∀ s, F s s) (htrans : ∀ s t u, F s t → F t u → F s u)
    {c : Coro σ ρ ε α} {s : σ} {r : ρ} {p : Coro σ ρ ε α × σ} (h : c.Within F)
    (hp : c.answer s r = some p) : F s p.2 ∧ p.1.Within F := by
  cases c with
  | await f next =>
    simp only [answer, Option.map_eq_some_iff] at hp
    obtain ⟨⟨b, u⟩, hf, rfl⟩ := hp
    have hnext := within_settle hrefl htrans (h.2 b) u
    exact ⟨htrans _ _ _ (h.1 s r b u hf) hnext.1, hnext.2⟩
  | ret a => cases hp
  | raise e => cases hp
  | atom f next => cases hp

/-- What the others and each move of the coroutine preserve, it keeps from await to await. -/
theorem Within.safe {P : σ → Prop} (hR : ∀ s t, R s t → P s → P t)
    (hF : ∀ s t, F s t → P s → P t) {c : Coro σ ρ ε α} (h : c.Within F) {s : σ} (hs : P s) :
    c.Safe R P (fun _ t => P t) (fun _ t => P t) s := by
  induction c generalizing s with
  | ret a => exact hs
  | raise e => exact hs
  | atom f next ih => exact ih _ (h.2 _) (hF _ _ (h.1 s) hs)
  | await f next ih =>
    intro t ht
    have hPt := hR _ _ ht hs
    exact ⟨hPt, fun r b u hu => ih b (h.2 b) (hF _ _ (h.1 t r b u hu) hPt)⟩

end Within

end Coroutine.Coro
