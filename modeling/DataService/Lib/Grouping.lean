import Mathlib.Algebra.BigOperators.Group.List.Basic
import Mathlib.Data.List.Dedup
import Mathlib.Data.List.Sort

/-! Rows grouped by a key, with the keys in their order. The groups part the rows: what is summed
over each of them is summed over all rows. -/

namespace Grouping

variable {ρ κ : Type*} [LinearOrder κ]

def keysOf (key : ρ → κ) (rows : List ρ) : List κ := (rows.map key).dedup.insertionSort (· ≤ ·)

/-- `GROUP BY key ORDER BY key` -/
def groupBy (key : ρ → κ) (rows : List ρ) : List (κ × List ρ) :=
  (keysOf key rows).map fun k => (k, rows.filter fun row => key row = k)

variable {key : ρ → κ} {rows : List ρ}

theorem mem_keysOf {k : κ} : k ∈ keysOf key rows ↔ ∃ row ∈ rows, key row = k := by
  rw [keysOf, List.mem_insertionSort, List.mem_dedup, List.mem_map]

theorem keysOf_increasing : (keysOf key rows).Pairwise (· < ·) := by
  have hsorted : (keysOf key rows).Pairwise (· ≤ ·) := List.pairwise_insertionSort _ _
  have hnodup : (keysOf key rows).Nodup :=
    (List.perm_insertionSort _ _).nodup_iff.mpr (List.nodup_dedup _)
  exact hsorted.imp₂ (fun _ _ hle hne => lt_of_le_of_ne hle hne) hnodup

theorem mem_groupBy {k : κ} {group : List ρ} : (k, group) ∈ groupBy key rows ↔
    (∃ row ∈ rows, key row = k) ∧ group = rows.filter fun row => key row = k := by
  simp only [groupBy, List.mem_map, mem_keysOf, Prod.mk.injEq]
  constructor
  · rintro ⟨_, hrow, rfl, rfl⟩
    exact ⟨hrow, rfl⟩
  · rintro ⟨hrow, rfl⟩
    exact ⟨k, hrow, rfl, rfl⟩

theorem groupBy_increasing : (groupBy key rows).Pairwise fun g h => g.1 < h.1 := by
  rw [groupBy, List.pairwise_map]
  exact keysOf_increasing

theorem groupBy_map {σ : Type*} (f : σ → ρ) (rows : List σ) :
    groupBy key (rows.map f) = (groupBy (key ∘ f) rows).map fun g => (g.1, g.2.map f) := by
  simp only [groupBy, keysOf, List.map_map, List.filter_map, Function.comp_def]

section Sums

variable {M : Type*} [AddCommMonoid M]

theorem sum_ite_eq {k : κ} {keys : List κ} (hnodup : keys.Nodup) (hmem : k ∈ keys) (x : M) :
    (keys.map fun k' => if k = k' then x else 0).sum = x := by
  induction keys with
  | nil => cases hmem
  | cons k' keys ih =>
    rw [List.nodup_cons] at hnodup
    rw [List.map_cons, List.sum_cons]
    by_cases heq : k = k'
    · subst heq
      have hrest : (keys.map fun k' => if k = k' then x else 0).sum = 0 := by
        refine List.sum_eq_zero fun y hy => ?_
        obtain ⟨k', hk', rfl⟩ := List.mem_map.mp hy
        exact if_neg (ne_of_mem_of_not_mem hk' hnodup.1).symm
      rw [if_pos rfl, hrest, add_zero]
    · have hlater : k ∈ keys := (List.mem_cons.mp hmem).resolve_left heq
      rw [if_neg heq, zero_add, ih hnodup.2 hlater]

theorem sum_filters {keys : List κ} (hnodup : keys.Nodup) (hkeys : ∀ row ∈ rows, key row ∈ keys)
    (weight : ρ → M) :
    (keys.map fun k => ((rows.filter fun row => key row = k).map weight).sum).sum =
      (rows.map weight).sum := by
  induction rows with
  | nil => simp
  | cons row rows ih =>
    have hsplit (k : κ) : (((row :: rows).filter fun row => key row = k).map weight).sum =
        (if key row = k then weight row else 0) +
          ((rows.filter fun row => key row = k).map weight).sum := by
      rw [List.filter_cons]
      by_cases h : key row = k <;> simp [h]
    rw [List.forall_mem_cons] at hkeys
    simp only [hsplit]
    rw [List.sum_map_add, ih hkeys.2, sum_ite_eq hnodup hkeys.1, List.map_cons, List.sum_cons]

theorem sum_groupBy (weight : ρ → M) :
    ((groupBy key rows).map fun g => (g.2.map weight).sum).sum = (rows.map weight).sum := by
  rw [groupBy, List.map_map]
  exact sum_filters (keysOf_increasing.imp ne_of_lt)
    (fun row hrow => mem_keysOf.mpr ⟨row, hrow, rfl⟩) weight

end Sums

end Grouping
