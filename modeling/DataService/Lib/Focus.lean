import DataService.Lib.RelyGuarantee
import DataService.Lib.Undisturbed

/-! Coroutines that work on a part of the memory. -/

namespace Coroutine

/-- A part of a memory, read and replaced. -/
structure Part (τ σ : Type) where
  get : τ → σ
  set : τ → σ → τ
  get_set : ∀ t s, get (set t s) = s
  set_get : ∀ t, set t (get t) = t
  set_set : ∀ t s s', set (set t s) s' = set t s'

namespace Coro

variable {τ σ ρ ε α β : Type} (part : Part τ σ)

/-- The coroutine works on the part, and leaves the rest as it is. -/
def onPart : Coro σ ρ ε α → Coro τ ρ ε α
  | ret a => ret a
  | raise e => raise e
  | atom f next => atom (fun t => ((f (part.get t)).1, part.set t (f (part.get t)).2))
      fun b => (next b).onPart
  | await f next => await (fun t r => (f (part.get t) r).map fun p => (p.1, part.set t p.2))
      fun b => (next b).onPart

variable {r : ρ} {c : Coro σ ρ ε α} {t : τ}

theorem safe_onPart {R : σ → σ → Prop} {I : σ → Prop} {Q : α → σ → Prop} {E : ε → σ → Prop}
    {R' : τ → τ → Prop} (hR : ∀ t t', R' t t' → R (part.get t) (part.get t'))
    (h : c.Safe R I Q E (part.get t)) :
    (c.onPart part).Safe R' (fun t => I (part.get t)) (fun a t => Q a (part.get t))
      (fun e t => E e (part.get t)) t := by
  induction c generalizing t with
  | ret a => exact h
  | raise e => exact h
  | atom f next ih =>
    refine ih _ ?_
    rw [part.get_set]
    exact h
  | await f next ih =>
    intro t' ht'
    obtain ⟨hI, hnext⟩ := h (part.get t') (hR t t' ht')
    refine ⟨hI, fun r b u hu => ih b ?_⟩
    obtain ⟨⟨b', s⟩, hf, hp⟩ := Option.map_eq_some_iff.mp hu
    obtain ⟨rfl, rfl⟩ := Prod.mk.inj hp
    rw [part.get_set]
    exact hnext r b' s hf

/-- The part moves, and nothing else does. -/
theorem within_onPart {F : σ → σ → Prop} (h : c.Within F) :
    (c.onPart part).Within fun t t' => ∃ s, F (part.get t) s ∧ t' = part.set t s := by
  induction c with
  | ret a => trivial
  | raise e => trivial
  | atom f next ih => exact ⟨fun t => ⟨_, h.1 _, rfl⟩, fun b => ih b (h.2 b)⟩
  | await f next ih =>
    refine ⟨fun t r b t' hp => ?_, fun b => ih b (h.2 b)⟩
    obtain ⟨⟨b', s⟩, hf, hp⟩ := Option.map_eq_some_iff.mp hp
    obtain ⟨rfl, rfl⟩ := Prod.mk.inj hp
    exact ⟨s, h.1 _ r b' s hf, rfl⟩

variable {part} in
theorem ends_onPart {Q : α → τ → Prop} {E : ε → τ → Prop}
    (h : c.Ends r (fun a s => Q a (part.set t s)) (fun e s => E e (part.set t s)) (part.get t)) :
    (c.onPart part).Ends r Q E t := by
  induction c generalizing t with
  | ret a => simpa [Ends, onPart, part.set_get] using h
  | raise e => simpa [Ends, onPart, part.set_get] using h
  | atom f next ih =>
    refine ih _ ?_
    simpa [Ends, part.get_set, part.set_set] using h
  | await f next ih =>
    obtain ⟨b, s, hf, hnext⟩ := h
    refine ⟨b, part.set t s, by simp [hf], ih b ?_⟩
    simpa [part.get_set, part.set_set] using hnext

end Coro

end Coroutine
