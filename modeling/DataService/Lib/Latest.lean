import Mathlib.Data.List.Induction
import Mathlib.Order.Lattice
import DataService.Lib.OrderedDict

/-! The first item with the greatest time, over a whole list and in every group of a list. -/

namespace Latest

variable {α β τ : Type*} [LinearOrder τ]

/-- Only a greater time replaces what is there. -/
def later (old : Option (τ × α)) (new : τ × α) : τ × α :=
  match old with
  | none => new
  | some o => if o.1 < new.1 then new else o

def latestStep (time : α → Option τ) (best : Option (τ × α)) (a : α) : Option (τ × α) :=
  match time a with
  | none => best
  | some t => some (later best (t, a))

/-- The latest of the items that have a time. -/
def latest (time : α → Option τ) (l : List α) : Option (τ × α) := l.foldl (latestStep time) none

theorem latest_append (time : α → Option τ) (l : List α) (a : α) :
    latest time (l ++ [a]) = latestStep time (latest time l) a := by
  simp [latest]

theorem latest_eq_none {time : α → Option τ} {l : List α} (h : latest time l = none) {a : α}
    (ha : a ∈ l) : time a = none := by
  induction l using List.reverseRecOn with
  | nil => cases ha
  | append_singleton l b ih =>
    rw [latest_append, latestStep] at h
    cases hb : time b with
    | none =>
      rw [hb] at h
      rcases List.mem_append.mp ha with ha | ha
      · exact ih h ha
      · exact List.mem_singleton.mp ha ▸ hb
    | some t =>
      rw [hb] at h
      cases h

theorem latest_eq_some {time : α → Option τ} {l : List α} {t : τ} {a : α}
    (h : latest time l = some (t, a)) :
    a ∈ l ∧ time a = some t ∧ ∀ b ∈ l, ∀ u, time b = some u → u ≤ t := by
  induction l using List.reverseRecOn generalizing t a with
  | nil => cases h
  | append_singleton l c ih =>
    rw [latest_append, latestStep] at h
    cases hc : time c with
    | none =>
      rw [hc] at h
      obtain ⟨hm, ht, hmax⟩ := ih h
      refine ⟨List.mem_append_left _ hm, ht, fun b hb u hu => ?_⟩
      rcases List.mem_append.mp hb with hb | hb
      · exact hmax b hb u hu
      · obtain rfl := List.mem_singleton.mp hb
        simp [hc] at hu
    | some v =>
      rw [hc] at h
      have hlater : later (latest time l) (v, c) = (t, a) := Option.some.inj h
      have hlast : c ∈ l ++ [c] := by simp
      cases hbest : latest time l with
      | none =>
        rw [hbest] at hlater
        obtain ⟨rfl, rfl⟩ := Prod.mk.inj hlater
        refine ⟨hlast, hc, fun b hb u hu => ?_⟩
        rcases List.mem_append.mp hb with hb | hb
        · simp [latest_eq_none hbest hb] at hu
        · obtain rfl := List.mem_singleton.mp hb
          exact le_of_eq (Option.some.inj (hu.symm.trans hc))
      | some o =>
        obtain ⟨w, x⟩ := o
        obtain ⟨hm, ht, hmax⟩ := ih hbest
        rw [hbest] at hlater
        by_cases hlt : w < v
        · have hnew : (v, c) = (t, a) := (if_pos hlt).symm.trans hlater
          obtain ⟨rfl, rfl⟩ := Prod.mk.inj hnew
          refine ⟨hlast, hc, fun b hb u hu => ?_⟩
          rcases List.mem_append.mp hb with hb | hb
          · exact (hmax b hb u hu).trans hlt.le
          · obtain rfl := List.mem_singleton.mp hb
            exact le_of_eq (Option.some.inj (hu.symm.trans hc))
        · have hold : (w, x) = (t, a) := (if_neg hlt).symm.trans hlater
          obtain ⟨rfl, rfl⟩ := Prod.mk.inj hold
          refine ⟨List.mem_append_left _ hm, ht, fun b hb u hu => ?_⟩
          rcases List.mem_append.mp hb with hb | hb
          · exact hmax b hb u hu
          · obtain rfl := List.mem_singleton.mp hb
            rw [Option.some.inj (hu.symm.trans hc)]
            exact not_lt.mp hlt

/-- Two scans that see the same items at the same times find the same one, if an item can
be told from its time. -/
theorem latest_congr {time time' : α → Option τ} {l l' : List α}
    (hsame : ∀ a t, (a ∈ l ∧ time a = some t) ↔ (a ∈ l' ∧ time' a = some t))
    (hinj : ∀ a b t, a ∈ l → b ∈ l → time a = some t → time b = some t → a = b) :
    latest time l = latest time' l' := by
  cases h : latest time l with
  | none =>
    cases h' : latest time' l' with
    | none => rfl
    | some r =>
      obtain ⟨t, a⟩ := r
      obtain ⟨hm, ht, -⟩ := latest_eq_some h'
      obtain ⟨hm', ht'⟩ := (hsame a t).mpr ⟨hm, ht⟩
      simp [latest_eq_none h hm'] at ht'
  | some r =>
    obtain ⟨t, a⟩ := r
    obtain ⟨hm, ht, hmax⟩ := latest_eq_some h
    obtain ⟨hm', ht'⟩ := (hsame a t).mp ⟨hm, ht⟩
    cases h' : latest time' l' with
    | none => simp [latest_eq_none h' hm'] at ht'
    | some r' =>
      obtain ⟨u, b⟩ := r'
      obtain ⟨hb, hu, hmax'⟩ := latest_eq_some h'
      obtain ⟨hb', hu'⟩ := (hsame b u).mpr ⟨hb, hu⟩
      obtain rfl : t = u := le_antisymm (hmax' a hm' t ht') (hmax b hb' u hu')
      rw [hinj a b t hm hb' ht hu']

section Groups

variable [DecidableEq β] {f : α → Option (β × τ)} {l : List α} {d : List (β × τ × α)} {b : β}

/-- The latest item of every group, in a dictionary. -/
def groupStep (f : α → Option (β × τ)) (d : List (β × τ × α)) (a : α) : List (β × τ × α) :=
  match f a with
  | none => d
  | some (b, t) => OrderedDict.upsert b (fun old => later old (t, a)) d

def groupLatest (f : α → Option (β × τ)) (l : List α) : List (β × τ × α) :=
  l.foldl (groupStep f) []

/-- The time of an item of this group. -/
def timeIn (f : α → Option (β × τ)) (b : β) (a : α) : Option τ :=
  (f a).bind fun p => if p.1 = b then some p.2 else none

theorem lookup_groupStep (d : List (β × τ × α)) (a : α) :
    (groupStep f d a).lookup b = latestStep (timeIn f b) (d.lookup b) a := by
  unfold groupStep latestStep timeIn
  cases hf : f a with
  | none => rfl
  | some p =>
    obtain ⟨c, t⟩ := p
    by_cases hc : c = b
    · subst hc
      simp [OrderedDict.lookup_upsert_self]
    · have hne : b ≠ c := Ne.symm hc
      simp [OrderedDict.lookup_upsert_ne hne, hc]

/-- The dictionary holds for each group what a scan for that group alone finds. -/
theorem lookup_groupLatest : (groupLatest f l).lookup b = latest (timeIn f b) l := by
  have hgen : ∀ (l : List α) (d : List (β × τ × α)), (l.foldl (groupStep f) d).lookup b =
      l.foldl (latestStep (timeIn f b)) (d.lookup b) := by
    intro l
    induction l with
    | nil => exact fun d => rfl
    | cons a l ih =>
      intro d
      rw [List.foldl_cons, List.foldl_cons, ih, lookup_groupStep]
  exact hgen l []

theorem nodup_groupLatest : ((groupLatest f l).map Prod.fst).Nodup := by
  have hgen : ∀ (l : List α) (d : List (β × τ × α)), (d.map Prod.fst).Nodup →
      ((l.foldl (groupStep f) d).map Prod.fst).Nodup := by
    intro l
    induction l with
    | nil => exact fun d hd => hd
    | cons a l ih =>
      intro d hd
      apply ih
      unfold groupStep
      cases f a with
      | none => exact hd
      | some p => exact OrderedDict.nodup_keys_upsert _ hd
  exact hgen l [] List.nodup_nil

theorem mem_groupLatest {r : τ × α} : (b, r) ∈ groupLatest f l ↔ latest (timeIn f b) l = some r := by
  rw [← lookup_groupLatest]
  constructor
  · exact OrderedDict.lookup_of_mem nodup_groupLatest
  · intro h
    obtain ⟨l₁, l₂, hl, -⟩ := List.lookup_eq_some_iff.mp h
    rw [hl]
    simp

end Groups

end Latest
