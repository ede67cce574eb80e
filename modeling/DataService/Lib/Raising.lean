import Mathlib.Data.List.Basic

/-! Computations that may raise: what a sequence of them returns, and when it raises. -/

namespace Raising

variable {ε α β : Type} {x : Except ε α} {f : α → Except ε β} {a : α} {b : β} {e : ε}

theorem bind_eq_ok : (x >>= f) = .ok b ↔ ∃ a, x = .ok a ∧ f a = .ok b := by
  cases x with
  | error e => simp [bind, Except.bind]
  | ok a => simp [bind, Except.bind]

theorem bind_eq_error :
    (x >>= f) = .error e ↔ x = .error e ∨ ∃ a, x = .ok a ∧ f a = .error e := by
  cases x with
  | error e' => simp [bind, Except.bind]
  | ok a => simp [bind, Except.bind]

theorem pure_ne_error : (pure a : Except ε α) ≠ .error e := nofun

theorem mapM_ok {f : α → Except ε β} {g : α → β} {l : List α} (h : ∀ a ∈ l, f a = .ok (g a)) :
    l.mapM f = .ok (l.map g) := by
  induction l with
  | nil => rfl
  | cons a l ih =>
    have htail := ih fun b hb => h b (List.mem_cons_of_mem a hb)
    rw [List.mapM_cons, h a List.mem_cons_self, htail]
    rfl

theorem mapM_raises_iff {f : α → Except ε β} {l : List α} :
    (∃ e, l.mapM f = .error e) ↔ ∃ a ∈ l, ∃ e, f a = .error e := by
  induction l with
  | nil => simp [pure_ne_error]
  | cons a l ih =>
    simp only [List.mapM_cons, bind_eq_error, List.exists_mem_cons_iff, ← ih]
    constructor
    · rintro ⟨e, he | ⟨b, -, he | ⟨bs, -, he⟩⟩⟩
      · exact .inl ⟨e, he⟩
      · exact .inr ⟨e, he⟩
      · exact absurd he pure_ne_error
    · rintro (⟨e, he⟩ | ⟨e, he⟩)
      · exact ⟨e, .inl he⟩
      · cases hfa : f a with
        | error e' => exact ⟨e', .inl rfl⟩
        | ok b => exact ⟨e, .inr ⟨b, rfl, .inl he⟩⟩

theorem mem_mapM_ok {f : α → Except ε β} {l : List α} {l' : List β} (h : l.mapM f = .ok l') :
    b ∈ l' ↔ ∃ a ∈ l, f a = .ok b := by
  induction l generalizing l' with
  | nil =>
    obtain rfl := Except.ok.inj h
    simp
  | cons a l ih =>
    rw [List.mapM_cons] at h
    obtain ⟨c, hc, h⟩ := bind_eq_ok.mp h
    obtain ⟨cs, hcs, h⟩ := bind_eq_ok.mp h
    obtain rfl := Except.ok.inj h
    rw [List.mem_cons, ih hcs, List.exists_mem_cons_iff, hc, Except.ok.injEq, eq_comm]

theorem foldlM_flatten (step : β → α → Except ε β) (b : β) (ls : List (List α)) :
    ls.flatten.foldlM step b = ls.foldlM (fun b l => l.foldlM step b) b := by
  induction ls generalizing b with
  | nil => rfl
  | cons l ls ih =>
    rw [List.flatten_cons, List.foldlM_append, List.foldlM_cons]
    congr 1
    funext b'
    exact ih b'

/-- Where an element raises or not whatever came before it, a fold raises exactly if one of
the elements does. -/
theorem foldlM_raises_iff {step : β → α → Except ε β} {Bad : α → Prop}
    (hstep : ∀ b a, (∃ e, step b a = .error e) ↔ Bad a) (b : β) (l : List α) :
    (∃ e, l.foldlM step b = .error e) ↔ ∃ a ∈ l, Bad a := by
  induction l generalizing b with
  | nil => simp [pure_ne_error]
  | cons a l ih =>
    simp only [List.foldlM_cons, bind_eq_error, List.exists_mem_cons_iff]
    constructor
    · rintro ⟨e, he | ⟨b', -, he⟩⟩
      · exact .inl ((hstep b a).mp ⟨e, he⟩)
      · exact .inr ((ih b').mp ⟨e, he⟩)
    · intro h
      by_cases hbad : Bad a
      · obtain ⟨e, he⟩ := (hstep b a).mpr hbad
        exact ⟨e, .inl he⟩
      · obtain ⟨b', hb'⟩ : ∃ b', step b a = .ok b' := by
          cases hs : step b a with
          | error e => exact absurd ((hstep b a).mp ⟨e, hs⟩) hbad
          | ok b' => exact ⟨b', rfl⟩
        obtain ⟨e, he⟩ := (ih b').mpr (h.resolve_left hbad)
        exact ⟨e, .inr ⟨b', hb', he⟩⟩

end Raising
