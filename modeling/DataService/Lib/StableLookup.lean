import Mathlib.Data.List.Forall2

/-! Lookups that write to caches on their way, in a store whose answers stay the same. -/

namespace StableLookup

variable {σ α β : Type} {R : σ → σ → Prop} {s : σ}

/-- In every store that agrees with `s` the lookup answers `x`, and leaves one that agrees. -/
def Gives (R : σ → σ → Prop) (s : σ) (c : StateM σ α) (x : α) : Prop :=
  ∀ t, R s t → (c t).1 = x ∧ R s (c t).2

theorem gives_pure (x : α) : Gives R s (pure x) x := fun _ ht => ⟨rfl, ht⟩

theorem gives_bind {c : StateM σ α} {k : α → StateM σ β} {x : α} {y : β} (hc : Gives R s c x)
    (hk : Gives R s (k x) y) : Gives R s (c >>= k) y := by
  intro t ht
  obtain ⟨hx, hr⟩ := hc t ht
  have hrun : (c >>= k) t = k (c t).1 (c t).2 := rfl
  rw [hrun, hx]
  exact hk _ hr

theorem gives_mapM {f : α → StateM σ β} {l : List α} {xs : List β}
    (h : List.Forall₂ (fun a x => Gives R s (f a) x) l xs) : Gives R s (l.mapM f) xs := by
  induction h with
  | nil => exact gives_pure []
  | cons ha _ ih =>
    rw [List.mapM_cons]
    exact gives_bind ha (gives_bind ih (gives_pure _))

theorem gives_mapM_map {f : α → StateM σ β} {g : α → β} (h : ∀ a, Gives R s (f a) (g a))
    (l : List α) : Gives R s (l.mapM f) (l.map g) :=
  gives_mapM (List.forall₂_map_right_iff.mpr (List.forall₂_same.mpr fun a _ => h a))

end StableLookup
