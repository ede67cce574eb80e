import Mathlib.Order.Basic

/-! Runs of a partial step function, properties that every step of a run meets,
and the induction principle for invariants. -/

namespace StepSystem

variable {σ : Type*} {α : Type*} {step : σ → α → Option σ}

/-- Take the steps of a list in order; a step that is not enabled ends in `none`. -/
def run (step : σ → α → Option σ) : σ → List α → Option σ
  | s, [] => some s
  | s, a :: as => (step s a).bind fun t => run step t as

/-- Every step the run takes starts in a state where `G` allows it. -/
def Along (step : σ → α → Option σ) (G : σ → α → Prop) : σ → List α → Prop
  | _, [] => True
  | s, a :: as => G s a ∧ ∀ t, step s a = some t → Along step G t as

/-- `P` holds in every state the run reaches. -/
def Always (step : σ → α → Option σ) (P : σ → Prop) : σ → List α → Prop
  | s, [] => P s
  | s, a :: as => P s ∧ ∀ t, step s a = some t → Always step P t as

theorem run_cons {s t : σ} {a : α} {as : List α} :
    run step s (a :: as) = some t ↔ ∃ u, step s a = some u ∧ run step u as = some t := by
  simp [run, Option.bind_eq_some_iff]

theorem run_append {s t : σ} {as : List α} (h : run step s as = some t) (bs : List α) :
    run step s (as ++ bs) = run step t bs := by
  induction as generalizing s with
  | nil =>
    obtain rfl : s = t := by simpa [run] using h
    rfl
  | cons a as ih =>
    obtain ⟨u, hu, ht⟩ := run_cons.mp h
    rw [List.cons_append, run, hu, Option.bind_some]
    exact ih ht

/-- Actions under other names. -/
theorem run_map {β : Type*} (f : β → α) (s : σ) (bs : List β) :
    run (fun s b => step s (f b)) s bs = run step s (bs.map f) := by
  induction bs generalizing s with
  | nil => rfl
  | cons b bs ih =>
    rw [List.map_cons, run, run]
    exact congrArg _ (funext ih)

/-- A predicate that every allowed step preserves holds wherever an allowed run ends. -/
theorem run_invariant_along {G : σ → α → Prop} {P : σ → Prop}
    (hstep : ∀ s a t, P s → G s a → step s a = some t → P t)
    {s t : σ} {as : List α} (hs : P s) (hG : Along step G s as)
    (h : run step s as = some t) : P t := by
  induction as generalizing s with
  | nil =>
    obtain rfl : s = t := by simpa [run] using h
    exact hs
  | cons a as ih =>
    obtain ⟨u, hu, ht⟩ := run_cons.mp h
    exact ih (hstep s a u hs hG.1 hu) (hG.2 u hu) ht

instance decidableAlong {G : σ → α → Prop} [∀ s a, Decidable (G s a)] :
    ∀ (as : List α) (s : σ), Decidable (Along step G s as)
  | [], _ => isTrue trivial
  | a :: as, s =>
    match h : step s a with
    | none => decidable_of_iff (G s a) (by simp [Along, h])
    | some t =>
      have : Decidable (Along step G t as) := decidableAlong as t
      decidable_of_iff (G s a ∧ Along step G t as) (by simp [Along, h])

theorem along_true (s : σ) (as : List α) : Along step (fun _ _ => True) s as := by
  induction as generalizing s with
  | nil => trivial
  | cons a as ih => exact ⟨trivial, fun t _ => ih t⟩

/-- What holds of every action of the list may be used at each step. -/
theorem Along.restrict {G : σ → α → Prop} {P : α → Prop} {s : σ} {as : List α}
    (h : Along step G s as) (hP : ∀ a ∈ as, P a) : Along step (fun s a => P a ∧ G s a) s as := by
  induction as generalizing s with
  | nil => trivial
  | cons a as ih =>
    refine ⟨⟨hP a List.mem_cons_self, h.1⟩, fun t ht => ih (h.2 t ht) fun b hb => ?_⟩
    exact hP b (List.mem_cons_of_mem a hb)

theorem run_invariant {P : σ → Prop} (hstep : ∀ s a t, P s → step s a = some t → P t)
    {s t : σ} {as : List α} (hs : P s) (h : run step s as = some t) : P t :=
  run_invariant_along (G := fun _ _ => True) (fun s a t hp _ hh => hstep s a t hp hh) hs
    (along_true s as) h

theorem Always.head {P : σ → Prop} {s : σ} {as : List α} (h : Always step P s as) : P s := by
  cases as with
  | nil => exact h
  | cons a as => exact h.1

theorem always_iff {P : σ → Prop} {s : σ} {as : List α} :
    Always step P s as ↔ ∀ bs t, bs <+: as → run step s bs = some t → P t := by
  induction as generalizing s with
  | nil =>
    constructor
    · intro h bs t hbs ht
      obtain rfl := List.prefix_nil.mp hbs
      obtain rfl : s = t := by simpa [run] using ht
      exact h
    · exact fun h => h [] s (List.prefix_refl _) rfl
  | cons a as ih =>
    constructor
    · intro h bs t hbs ht
      cases bs with
      | nil =>
        obtain rfl : s = t := by simpa [run] using ht
        exact h.1
      | cons b bs =>
        obtain ⟨rfl, htail⟩ := List.cons_prefix_cons.mp hbs
        obtain ⟨u, hu, ht⟩ := run_cons.mp ht
        exact ih.mp (h.2 u hu) bs t htail ht
    · intro h
      refine ⟨h [] s List.nil_prefix rfl, fun u hu => ih.mpr fun bs t hbs ht => ?_⟩
      exact h (a :: bs) t (List.cons_prefix_cons.mpr ⟨rfl, hbs⟩) (run_cons.mpr ⟨u, hu, ht⟩)

/-- Where a step keeps `P` iff `G` allows it, `P` holds throughout a run iff every step of
the run is allowed. -/
theorem always_iff_along {P I : σ → Prop} {G : σ → α → Prop}
    (hI : ∀ s a t, I s → step s a = some t → I t)
    (hstep : ∀ s a, I s → P s → (G s a ↔ ∀ t, step s a = some t → P t))
    {s : σ} {as : List α} (hs : I s) (hp : P s) : Always step P s as ↔ Along step G s as := by
  induction as generalizing s with
  | nil => exact iff_of_true hp trivial
  | cons a as ih =>
    constructor
    · intro h
      refine ⟨(hstep s a hs hp).mpr fun t ht => (h.2 t ht).head, fun t ht => ?_⟩
      exact (ih (hI s a t hs ht) (h.2 t ht).head).mp (h.2 t ht)
    · intro h
      refine ⟨hp, fun t ht => ?_⟩
      exact (ih (hI s a t hs ht) ((hstep s a hs hp).mp h.1 t ht)).mpr (h.2 t ht)

section Lockstep

variable {σ' : Type*} {step' : σ' → α → Option σ'} {alike : σ' → σ → Prop}

/-- Two systems whose steps correspond run alike. -/
theorem run_lockstep (hstep : ∀ s' s a, alike s' s → Option.Rel alike (step' s' a) (step s a))
    {s' : σ'} {s : σ} (h : alike s' s) (as : List α) :
    Option.Rel alike (run step' s' as) (run step s as) := by
  induction as generalizing s s' with
  | nil => exact .some h
  | cons a as ih =>
    have hnext := hstep s' s a h
    simp only [run]
    generalize step' s' a = t' at hnext
    generalize step s a = t at hnext
    cases hnext with
    | none => exact .none
    | some ht => exact ih ht

theorem run_mirrored (hstep : ∀ s' s a, alike s' s → Option.Rel alike (step' s' a) (step s a))
    {s' : σ'} {s t : σ} (h : alike s' s) {as : List α} (hrun : run step s as = some t) :
    ∃ t', run step' s' as = some t' ∧ alike t' t := by
  have hrel := run_lockstep hstep h as
  rw [hrun] at hrel
  generalize run step' s' as = r at hrel ⊢
  cases hrel with
  | some ht => exact ⟨_, rfl, ht⟩

end Lockstep

/-- From two states the same steps are taken, and what is left after each of them is alike. -/
def RunsAlike (step : σ → α → Option σ) (alike : σ → σ → Prop) : σ → σ → List α → Prop
  | s, s', [] => alike s s'
  | s, s', a :: as => alike s s' ∧ ∀ t, step s a = some t →
      ∃ t', step s' a = some t' ∧ RunsAlike step alike t t' as

theorem RunsAlike.run {alike : σ → σ → Prop} {s s' t : σ} {as : List α}
    (h : RunsAlike step alike s s' as) (hrun : StepSystem.run step s as = some t) :
    ∃ t', StepSystem.run step s' as = some t' ∧ alike t t' := by
  induction as generalizing s s' with
  | nil =>
    obtain rfl : s = t := by simpa [StepSystem.run] using hrun
    exact ⟨s', rfl, h⟩
  | cons a as ih =>
    obtain ⟨u, hu, ht⟩ := run_cons.mp hrun
    obtain ⟨u', hu', hal⟩ := h.2 u hu
    obtain ⟨t', ht', hr⟩ := ih hal ht
    exact ⟨t', run_cons.mpr ⟨u', hu', ht'⟩, hr⟩

/-- A view of the state commutes with the steps that `G` allows, and shows a difference
after the others: the run from a state and the run from its view are alike iff every
step is allowed. -/
theorem runsAlike_iff_along {alike : σ → σ → Prop} {G : σ → α → Prop} {P : σ → Prop} {π : σ → σ}
    (hP : ∀ s a t, P s → step s a = some t → P t) (hπ : ∀ s, alike s (π s))
    (hgood : ∀ s a, P s → G s a → step (π s) a = (step s a).map π)
    (hbad : ∀ s a, ¬ G s a → ∃ t, step s a = some t ∧
      ∀ t', step (π s) a = some t' → ¬ alike t t')
    (s : σ) (as : List α) (hs : P s) :
    RunsAlike step alike s (π s) as ↔ Along step G s as := by
  induction as generalizing s with
  | nil => exact iff_of_true (hπ s) trivial
  | cons a as ih =>
    constructor
    · rintro ⟨-, h⟩
      have hG : G s a := by
        by_contra hG
        obtain ⟨t, ht, hdiff⟩ := hbad s a hG
        obtain ⟨t', ht', hal⟩ := h t ht
        exact hdiff t' ht' (by cases as <;> first | exact hal | exact hal.1)
      refine ⟨hG, fun t ht => ?_⟩
      obtain ⟨t', ht', hal⟩ := h t ht
      rw [hgood s a hs hG, ht] at ht'
      obtain rfl : π t = t' := Option.some.inj ht'
      exact (ih t (hP s a t hs ht)).mp hal
    · rintro ⟨hG, h⟩
      refine ⟨hπ s, fun t ht => ⟨π t, ?_, (ih t (hP s a t hs ht)).mpr (h t ht)⟩⟩
      rw [hgood s a hs hG, ht]
      rfl

end StepSystem
