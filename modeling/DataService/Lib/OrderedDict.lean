import Mathlib.Data.List.Basic
import Mathlib.Data.List.Nodup

/-! Dictionaries that keep the order in which their keys were first set. -/

namespace OrderedDict

variable {α β : Type*} [DecidableEq α] {d : List (α × β)} {a b : α} {v : β}

/-- Replace the value of a key in its place, or append the key. -/
def upsert (a : α) (f : Option β → β) : List (α × β) → List (α × β)
  | [] => [(a, f none)]
  | (b, v) :: d => if a = b then (b, f (some v)) :: d else (b, v) :: upsert a f d

/-- Append a key that is not there yet. -/
def setDefault (a : α) (v : β) (d : List (α × β)) : List (α × β) :=
  if a ∈ d.map Prod.fst then d else d ++ [(a, v)]

theorem lookup_upsert_self (f : Option β → β) (d : List (α × β)) :
    (upsert a f d).lookup a = some (f (d.lookup a)) := by
  induction d with
  | nil => simp [upsert]
  | cons p d ih =>
    obtain ⟨b, v⟩ := p
    by_cases h : a = b
    · subst h
      simp [upsert]
    · have hb : (a == b) = false := by simpa using h
      simp [upsert, List.lookup_cons, h, hb, ih]

theorem lookup_upsert_ne (h : b ≠ a) (f : Option β → β) (d : List (α × β)) :
    (upsert a f d).lookup b = d.lookup b := by
  induction d with
  | nil =>
    have hb : (b == a) = false := by simpa using h
    simp [upsert, List.lookup_cons, hb]
  | cons p d ih =>
    obtain ⟨c, v⟩ := p
    by_cases hc : a = c
    · subst hc
      have hb : (b == a) = false := by simpa using h
      simp [upsert, List.lookup_cons, hb]
    · simp only [upsert, hc, if_false, List.lookup_cons, ih]

theorem upsert_eq_const (f : Option β → β) (d : List (α × β)) :
    upsert a f d = upsert a (fun _ => f (d.lookup a)) d := by
  induction d with
  | nil => rfl
  | cons p d ih =>
    obtain ⟨b, v⟩ := p
    by_cases h : a = b
    · subst h
      simp [upsert]
    · have hb : (a == b) = false := by simpa using h
      simp only [upsert, h, if_false, List.lookup_cons, hb]
      rw [ih]

theorem mem_keys_upsert (f : Option β → β) (d : List (α × β)) :
    b ∈ (upsert a f d).map Prod.fst ↔ b ∈ d.map Prod.fst ∨ b = a := by
  induction d with
  | nil => simp [upsert]
  | cons p d ih =>
    obtain ⟨c, v⟩ := p
    by_cases hc : a = c
    · subst hc
      simp only [upsert, if_true, List.map_cons, List.mem_cons]
      tauto
    · simp only [upsert, hc, if_false, List.map_cons, List.mem_cons, ih]
      tauto

theorem nodup_keys_upsert (f : Option β → β) (h : (d.map Prod.fst).Nodup) :
    ((upsert a f d).map Prod.fst).Nodup := by
  induction d with
  | nil => simp [upsert]
  | cons p d ih =>
    obtain ⟨c, v⟩ := p
    rw [List.map_cons, List.nodup_cons] at h
    by_cases hc : a = c
    · subst hc
      simpa [upsert] using h
    · have hnot : c ∉ (upsert a f d).map Prod.fst := by
        rw [mem_keys_upsert]
        exact fun hm => hm.elim h.1 fun he => hc he.symm
      simp only [upsert, hc, if_false, List.map_cons, List.nodup_cons]
      exact ⟨hnot, ih h.2⟩

/-- A property of every value that the update keeps. -/
theorem values_upsert {P : β → Prop} {f : Option β → β} (hd : ∀ p ∈ d, P p.2)
    (hnone : P (f none)) (hsome : ∀ v, P v → P (f (some v))) : ∀ p ∈ upsert a f d, P p.2 := by
  induction d with
  | nil =>
    intro p hp
    obtain rfl := List.mem_singleton.mp hp
    exact hnone
  | cons q d ih =>
    obtain ⟨c, v⟩ := q
    have hv : P v := hd (c, v) (by simp)
    have hrest : ∀ p ∈ d, P p.2 := fun p hp => hd p (by simp [hp])
    intro p hp
    by_cases hc : a = c
    · subst hc
      rcases List.mem_cons.mp (by simpa [upsert] using hp) with rfl | hp
      · exact hsome v hv
      · exact hrest p hp
    · rcases List.mem_cons.mp (by simpa [upsert, hc] using hp) with rfl | hp
      · exact hv
      · exact ih hrest p hp

theorem lookup_of_mem (h : (d.map Prod.fst).Nodup) (hm : (a, v) ∈ d) : d.lookup a = some v := by
  induction d with
  | nil => cases hm
  | cons p d ih =>
    obtain ⟨c, w⟩ := p
    rw [List.map_cons, List.nodup_cons] at h
    rcases List.mem_cons.mp hm with he | hd
    · obtain ⟨rfl, rfl⟩ := Prod.mk.inj he
      simp
    · have hk : a ∈ d.map Prod.fst := List.mem_map.mpr ⟨(a, v), hd, rfl⟩
      have hne : a ≠ c := by
        intro he
        exact h.1 (he ▸ hk)
      have hb : (a == c) = false := by simpa using hne
      simp [List.lookup_cons, hb, ih h.2 hd]

theorem mem_keys_setDefault :
    b ∈ (setDefault a v d).map Prod.fst ↔ b ∈ d.map Prod.fst ∨ b = a := by
  unfold setDefault
  by_cases h : a ∈ d.map Prod.fst
  · rw [if_pos h]
    constructor
    · exact Or.inl
    · intro hb
      rcases hb with hb | rfl
      · exact hb
      · exact h
  · rw [if_neg h]
    simp

theorem lookup_setDefault :
    (setDefault a v d).lookup b = (d.lookup b).or (if b = a then some v else none) := by
  unfold setDefault
  by_cases h : a ∈ d.map Prod.fst
  · rw [if_pos h]
    split
    · rename_i hb
      obtain ⟨p, hp, rfl⟩ := List.mem_map.mp h
      have hne : d.lookup b ≠ none := by
        intro hnone
        have hall := List.lookup_eq_none_iff.mp hnone p hp
        simp [hb] at hall
      obtain ⟨w, hw⟩ := Option.ne_none_iff_exists'.mp hne
      simp [hw]
    · simp
  · rw [if_neg h, List.lookup_append]
    congr 1
    by_cases hb : b = a
    · simp [hb]
    · have hne : (b == a) = false := by simpa using hb
      simp [List.lookup_cons, hb, hne]

theorem mem_of_lookup (h : d.lookup a = some v) : (a, v) ∈ d := by
  obtain ⟨l₁, l₂, rfl, -⟩ := List.lookup_eq_some_iff.mp h
  simp

theorem lookup_map_snd {γ : Type*} (f : β → γ) (a : α) (d : List (α × β)) :
    (d.map fun p => (p.1, f p.2)).lookup a = (d.lookup a).map f := by
  induction d with
  | nil => rfl
  | cons p d ih =>
    rw [List.map_cons, List.lookup_cons, List.lookup_cons, ih]
    cases a == p.1 <;> rfl

/-- Setting keys that may be there already only appends, and only new keys. -/
theorem setDefault_append (a : α) (v : β) (d : List (α × β)) :
    ∃ e, setDefault a v d = d ++ e ∧ ∀ p ∈ e, p.1 ∉ d.map Prod.fst := by
  unfold setDefault
  by_cases h : a ∈ d.map Prod.fst
  · exact ⟨[], by simp [h], by simp⟩
  · refine ⟨[(a, v)], by simp [h], ?_⟩
    intro p hp
    obtain rfl := List.mem_singleton.mp hp
    exact h

/-- Each key that a list sets is there once. -/
theorem nodup_eraseDups {γ : Type*} [BEq γ] [LawfulBEq γ] (l : List γ) :
    l.eraseDups.Nodup := by
  induction hn : l.length using Nat.strongRecOn generalizing l with
  | _ n ih =>
    cases l with
    | nil => simp
    | cons a l =>
      rw [List.eraseDups_cons, List.nodup_cons]
      have hlen : (l.filter fun b => !b == a).length < n := by
        have hfilter := List.length_filter_le (fun b => !b == a) l
        simp only [List.length_cons] at hn
        omega
      exact ⟨by simp [List.mem_eraseDups], ih _ hlen _ rfl⟩

end OrderedDict
