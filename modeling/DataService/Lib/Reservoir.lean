import Mathlib.Data.Fin.Tuple.Basic
import Mathlib.Data.Fintype.BigOperators
import Mathlib.Data.Fintype.Pi
import Mathlib.Algebra.BigOperators.Fin
import Mathlib.Data.Nat.Factorial.Basic
import Mathlib.Tactic.Ring

/-! A sample of bounded size of a stream, kept in one pass: an item beyond the bound takes the
slot that was drawn for it, or none if the draw is no slot. Over all draws every position of the
stream is kept equally often. -/

namespace Reservoir

open Finset

variable {κ : Type}

def observe (cap : Nat) (sample : List κ) (key : κ) (slot : Nat) : List κ :=
  if sample.length < cap then sample ++ [key]
  else if slot < cap then sample.set slot key
  else sample

/-- The sample of a stream; `slots` gives what is drawn for each position, counted from one. -/
def observeAll (cap : Nat) (slots : Nat → Nat) (keys : List κ) : List κ :=
  (keys.zipIdx 1).foldl (fun sample p => observe cap sample p.1 (slots p.2)) []

/-- The positions that are in the sample of a stream, counted from zero. -/
def positions (cap n : Nat) (slots : Nat → Nat) : List Nat := observeAll cap slots (List.range n)

section Sample

variable {cap n p slot : Nat} {slots : Nat → Nat}

theorem observeAll_concat (keys : List κ) (key : κ) : observeAll cap slots (keys ++ [key]) =
    observe cap (observeAll cap slots keys) key (slots (keys.length + 1)) := by
  simp only [observeAll, List.zipIdx_append, List.foldl_append]
  simp [Nat.add_comm]

theorem positions_succ : positions cap (n + 1) slots =
    observe cap (positions cap n slots) n (slots (n + 1)) := by
  rw [positions, List.range_succ, observeAll_concat, List.length_range, positions]

theorem observe_map {μ : Type} (f : κ → μ) (sample : List κ) (key : κ) :
    observe cap (sample.map f) (f key) slot = (observe cap sample key slot).map f := by
  simp only [observe, List.length_map]
  split_ifs
  · simp
  · rw [List.map_set]
  · rfl

/-- The sample of a stream is what stands at the sampled positions. -/
theorem observeAll_map {μ : Type} (f : κ → μ) (keys : List κ) :
    observeAll cap slots (keys.map f) = (observeAll cap slots keys).map f := by
  induction keys using List.reverseRecOn with
  | nil => rfl
  | append_singleton keys key ih =>
    rw [List.map_append, List.map_singleton, observeAll_concat, observeAll_concat, ih, observe_map,
      List.length_map]

theorem observeAll_eq_positions (keys : List κ) : (observeAll cap slots keys).map some =
    (positions cap keys.length slots).map (keys[·]?) := by
  have hkeys : keys.map some = (List.range keys.length).map (keys[·]?) := by
    apply List.ext_getElem
    · simp
    · intro i hi hi'
      simp only [List.length_map] at hi
      simp [hi]
  rw [← observeAll_map, hkeys, observeAll_map, positions]

theorem positions_congr {slots' : Nat → Nat} (h : ∀ seen ≤ n, slots seen = slots' seen) :
    positions cap n slots = positions cap n slots' := by
  induction n with
  | zero => rfl
  | succ n ih =>
    rw [positions_succ, positions_succ, ih fun seen hseen => h seen (by omega), h (n + 1) le_rfl]

theorem length_observe (sample : List κ) (key : κ) :
    (observe cap sample key slot).length =
      if sample.length < cap then sample.length + 1 else sample.length := by
  unfold observe
  split_ifs <;> simp

theorem length_positions : (positions cap n slots).length = min n cap := by
  induction n with
  | zero => simp [positions, observeAll]
  | succ n ih =>
    rw [positions_succ, length_observe, ih]
    split_ifs <;> omega

theorem positions_of_le (h : n ≤ cap) : positions cap n slots = List.range n := by
  induction n with
  | zero => rfl
  | succ n ih =>
    have hroom : (positions cap n slots).length < cap := by
      rw [length_positions]
      omega
    rw [positions_succ, observe, if_pos hroom, ih (by omega), List.range_succ]

theorem mem_observe {sample : List Nat} {key : Nat} (h : p ∈ observe cap sample key slot) :
    p ∈ sample ∨ p = key := by
  unfold observe at h
  split_ifs at h
  · simpa using h
  · exact List.mem_or_eq_of_mem_set h
  · exact .inl h

theorem lt_of_mem_positions (h : p ∈ positions cap n slots) : p < n := by
  induction n with
  | zero => simp [positions, observeAll] at h
  | succ n ih =>
    rw [positions_succ] at h
    rcases mem_observe h with hold | rfl
    · exact Nat.lt_succ_of_lt (ih hold)
    · exact Nat.lt_succ_self p

theorem nodup_positions : (positions cap n slots).Nodup := by
  induction n with
  | zero => simp [positions, observeAll]
  | succ n ih =>
    have hnew : n ∉ positions cap n slots := fun h => lt_irrefl n (lt_of_mem_positions h)
    rw [positions_succ]
    unfold observe
    split_ifs
    · rw [List.nodup_append]
      refine ⟨ih, List.nodup_singleton n, ?_⟩
      rintro a ha b hb rfl
      exact hnew (List.mem_singleton.mp hb ▸ ha)
    · exact ih.set hnew
    · exact ih

end Sample

section OneDraw

variable {cap n p : Nat} {sample : List Nat}

theorem mem_set_iff (hnodup : sample.Nodup) {a d : Nat} (hp : p ∈ sample) (hne : p ≠ a) :
    p ∈ sample.set d a ↔ d ≠ sample.idxOf p := by
  constructor
  · rintro hmem rfl
    obtain ⟨i, hi⟩ := List.mem_iff_getElem?.mp hmem
    by_cases hsame : sample.idxOf p = i
    · subst hsame
      rw [List.getElem?_set_self (List.idxOf_lt_length_iff.mpr hp)] at hi
      exact hne (Option.some.inj hi).symm
    · rw [List.getElem?_set_ne hsame] at hi
      obtain ⟨hlt, rfl⟩ := List.getElem?_eq_some_iff.mp hi
      exact hsame (hnodup.idxOf_getElem i hlt)
  · intro hd
    apply List.mem_iff_getElem?.mpr
    refine ⟨sample.idxOf p, ?_⟩
    rw [List.getElem?_set_ne hd, List.getElem?_idxOf hp]

/-- A position in a full sample is lost for exactly one draw. -/
theorem card_kept (hfull : sample.length = cap) (hnodup : sample.Nodup) (hcap : cap ≤ n)
    (hne : p ≠ n) : #{d : Fin (n + 1) | p ∈ observe cap sample n d} =
      if p ∈ sample then n else 0 := by
  split_ifs with hp
  · have hslot : sample.idxOf p < n + 1 := by
      have := List.idxOf_lt_length_iff.mpr hp
      omega
    have hkept : univ.filter (fun d : Fin (n + 1) => p ∈ observe cap sample n d) =
        univ.erase ⟨sample.idxOf p, hslot⟩ := by
      ext d
      simp only [mem_filter, mem_univ, true_and, mem_erase, and_true, Fin.ext_iff, ne_eq]
      unfold observe
      rw [if_neg (by omega)]
      split_ifs with hd
      · exact mem_set_iff hnodup hp hne
      · refine iff_of_true hp fun heq => hd ?_
        rw [heq, ← hfull]
        exact List.idxOf_lt_length_iff.mpr hp
    rw [hkept, card_erase_of_mem (mem_univ _), card_univ, Fintype.card_fin, Nat.add_sub_cancel]
  · rw [card_eq_zero, filter_eq_empty_iff]
    intro d _ hmem
    exact (mem_observe hmem).elim hp hne

/-- A new position is taken for the draws that are slots. -/
theorem card_taken (hfull : sample.length = cap) (hcap : cap ≤ n) (hnew : n ∉ sample) :
    #{d : Fin (n + 1) | n ∈ observe cap sample n d} = cap := by
  have htaken : univ.filter (fun d : Fin (n + 1) => n ∈ observe cap sample n d) =
      univ.filter fun d : Fin (n + 1) => (d : Nat) < cap := by
    apply filter_congr
    intro d _
    unfold observe
    rw [if_neg (by omega)]
    split_ifs with hd
    · exact iff_of_true (List.mem_set (by omega) n) hd
    · exact iff_of_false hnew hd
  rw [htaken, Fin.card_filter_val_lt]
  omega

end OneDraw

/-- What can be drawn for the positions behind the first `cap`. -/
abbrev Draws (cap extra : Nat) : Type := ∀ i : Fin extra, Fin (cap + i + 1)

section AllDraws

variable {cap extra p : Nat}

/-- The draws by position, counted from one. -/
def slotsOf (draws : Draws cap extra) (seen : Nat) : Nat :=
  if h : cap < seen ∧ seen ≤ cap + extra then draws ⟨seen - cap - 1, by omega⟩ else 0

variable (draws : Draws cap extra) (x : Fin (cap + extra + 1))

/-- The draws with one more. -/
def more : Draws cap (extra + 1) :=
  Fin.snoc (α := fun i : Fin (extra + 1) => Fin (cap + i + 1)) draws x

theorem slotsOf_more_old {seen : Nat} (h : seen ≤ cap + extra) :
    slotsOf (more draws x) seen = slotsOf draws seen := by
  by_cases hcap : cap < seen
  · have hi : seen - cap - 1 < extra := by omega
    have hsnoc := Fin.snoc_castSucc (α := fun i : Fin (extra + 1) => Fin (cap + i + 1)) x draws
      ⟨seen - cap - 1, hi⟩
    rw [slotsOf, slotsOf, dif_pos ⟨hcap, by omega⟩, dif_pos ⟨hcap, h⟩]
    exact congrArg Fin.val hsnoc
  · rw [slotsOf, slotsOf, dif_neg (fun hand => hcap hand.1), dif_neg (fun hand => hcap hand.1)]

theorem slotsOf_more_new : slotsOf (more draws x) (cap + extra + 1) = x := by
  have hlast : ∀ i : Fin (extra + 1), i = Fin.last extra → (more draws x i : Nat) = x := by
    rintro i rfl
    exact congrArg Fin.val (Fin.snoc_last (α := fun i : Fin (extra + 1) => Fin (cap + i + 1)) x draws)
  rw [slotsOf, dif_pos ⟨by omega, by omega⟩]
  apply hlast
  ext
  simp only [Fin.val_last]
  omega

theorem positions_more : positions cap (cap + (extra + 1)) (slotsOf (more draws x)) =
    observe cap (positions cap (cap + extra) (slotsOf draws)) (cap + extra) x := by
  have hcongr : positions cap (cap + extra) (slotsOf (more draws x)) =
      positions cap (cap + extra) (slotsOf draws) :=
    positions_congr fun seen h => slotsOf_more_old draws x h
  rw [← Nat.add_assoc, positions_succ, hcongr, slotsOf_more_new]

/-- How many draws keep a position. -/
def kept (cap extra p : Nat) : Nat :=
  #{draws : Draws cap extra | p ∈ positions cap (cap + extra) (slotsOf draws)}

theorem kept_succ : kept cap (extra + 1) p = ∑ draws : Draws cap extra,
    #{x : Fin (cap + extra + 1) |
      p ∈ observe cap (positions cap (cap + extra) (slotsOf draws)) (cap + extra) x} := by
  have hsplit := (Fin.snocEquiv fun i : Fin (extra + 1) => Fin (cap + i + 1)).sum_comp
    fun draws => if p ∈ positions cap (cap + (extra + 1)) (slotsOf draws) then 1 else 0
  rw [kept, card_filter, ← hsplit, Fintype.sum_prod_type, sum_comm]
  apply sum_congr rfl
  intro draws _
  rw [card_filter]
  apply sum_congr rfl
  intro x _
  have hmore := positions_more draws x
  exact if_congr (by rw [← hmore]; exact Iff.rfl) rfl rfl

theorem kept_succ_old (h : p < cap + extra) :
    kept cap (extra + 1) p = kept cap extra p * (cap + extra) := by
  rw [kept_succ, kept, card_filter, sum_mul]
  apply sum_congr rfl
  intro draws _
  rw [card_kept (by rw [length_positions]; omega) nodup_positions (by omega) (by omega)]
  split_ifs <;> simp

theorem kept_succ_new :
    kept cap (extra + 1) (cap + extra) = Fintype.card (Draws cap extra) * cap := by
  rw [kept_succ, Fintype.card, ← smul_eq_mul, ← sum_const]
  apply sum_congr rfl
  intro draws _
  exact card_taken (by rw [length_positions]; omega) (by omega)
    fun h => lt_irrefl _ (lt_of_mem_positions h)

theorem card_draws_succ : Fintype.card (Draws cap (extra + 1)) =
    Fintype.card (Draws cap extra) * (cap + extra + 1) := by
  simp only [Fintype.card_pi, Fintype.card_fin, Fin.prod_univ_castSucc, Fin.val_castSucc,
    Fin.val_last]

/-- There are as many draws as the claimed quotient of factorials. -/
theorem card_draws (cap extra : Nat) :
    Fintype.card (Draws cap extra) * cap.factorial = (cap + extra).factorial := by
  induction extra with
  | zero => simp
  | succ extra ih =>
    rw [card_draws_succ, ← Nat.add_assoc, Nat.factorial_succ, ← ih]
    ring

theorem kept_zero (h : p < cap) : kept cap 0 p = 1 := by
  have hall : univ.filter (fun draws : Draws cap 0 => p ∈ positions cap (cap + 0) (slotsOf draws)) =
      univ := by
    apply filter_true_of_mem
    intro draws _
    rw [positions_of_le (by omega)]
    exact List.mem_range.mpr h
  rw [kept, hall, card_univ, Fintype.card_unique]

/-- Every position is kept by `cap` in `cap + extra` of the draws. -/
theorem kept_uniform (h : p < cap + extra) :
    (cap + extra) * kept cap extra p = cap * Fintype.card (Draws cap extra) := by
  induction extra with
  | zero => simp [kept_zero (by omega : p < cap)]
  | succ extra ih =>
    rw [card_draws_succ]
    rcases Nat.lt_succ_iff_lt_or_eq.mp (show p < (cap + extra) + 1 by omega) with hold | rfl
    · rw [kept_succ_old hold, ← Nat.mul_assoc, Nat.mul_assoc, Nat.mul_comm (kept cap extra p),
        ih hold]
      ring
    · rw [kept_succ_new]
      ring

end AllDraws

section Means

variable {cap extra : Nat} (f : Nat → Nat)

theorem sum_positions (draws : Draws cap extra) :
    ((positions cap (cap + extra) (slotsOf draws)).map f).sum =
      ∑ p ∈ range (cap + extra),
        if p ∈ positions cap (cap + extra) (slotsOf draws) then f p else 0 := by
  rw [← List.sum_toFinset f nodup_positions, ← sum_filter]
  apply sum_congr _ fun _ _ => rfl
  ext p
  simp only [List.mem_toFinset, mem_filter, mem_range]
  exact ⟨fun h => ⟨lt_of_mem_positions h, h⟩, And.right⟩

/-- Over all draws a sample holds its share of the whole. -/
theorem sum_draws_positions :
    (cap + extra) * ∑ draws : Draws cap extra,
        ((positions cap (cap + extra) (slotsOf draws)).map f).sum =
      cap * Fintype.card (Draws cap extra) * ∑ p ∈ range (cap + extra), f p := by
  have hkept : ∀ p, ∑ draws : Draws cap extra,
      (if p ∈ positions cap (cap + extra) (slotsOf draws) then f p else 0) =
        kept cap extra p * f p := by
    intro p
    rw [kept, ← sum_filter, sum_const, smul_eq_mul]
  calc (cap + extra) * ∑ draws : Draws cap extra,
          ((positions cap (cap + extra) (slotsOf draws)).map f).sum
      = (cap + extra) * ∑ p ∈ range (cap + extra), kept cap extra p * f p := by
        rw [sum_congr rfl fun draws _ => sum_positions f draws, sum_comm,
          sum_congr rfl fun p _ => hkept p]
    _ = ∑ p ∈ range (cap + extra), cap * Fintype.card (Draws cap extra) * f p := by
        rw [mul_sum]
        apply sum_congr rfl
        intro p hp
        rw [← mul_assoc, kept_uniform (mem_range.mp hp)]
    _ = cap * Fintype.card (Draws cap extra) * ∑ p ∈ range (cap + extra), f p := by
        rw [mul_sum]

end Means

end Reservoir
