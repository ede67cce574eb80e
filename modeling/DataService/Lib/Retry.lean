import Mathlib.Data.Nat.Notation
import Mathlib.Order.Basic

/-! Bounded retries: attempts are made one after another until one of them ends the series
or the limit is reached. Attempts are numbered from 1. -/

namespace Retry

/-- The number of the last attempt of a series that stands at attempt `n` and may make that
many more. -/
def last (ends : Nat → Bool) : Nat → Nat → Nat
  | 0, n => n
  | more + 1, n => if ends n then n else last ends more (n + 1)

variable {ends : Nat → Bool} {more n k : Nat}

theorem le_last : n ≤ last ends more n := by
  induction more generalizing n with
  | zero => exact Nat.le_refl n
  | succ more ih =>
    unfold last
    split_ifs
    · exact Nat.le_refl n
    · exact Nat.le_of_succ_le ih

theorem last_le : last ends more n ≤ n + more := by
  induction more generalizing n with
  | zero => exact Nat.le_refl n
  | succ more ih =>
    unfold last
    split_ifs
    · omega
    · have hh := ih (n := n + 1)
      omega

/-- What comes before the last attempt did not end the series. -/
theorem not_ends_of_lt_last (hn : n ≤ k) (hk : k < last ends more n) : ends k = false := by
  induction more generalizing n with
  | zero => exact absurd hk (Nat.not_lt.mpr hn)
  | succ more ih =>
    unfold last at hk
    split_ifs at hk with he
    · exact absurd hk (Nat.not_lt.mpr hn)
    · rcases Nat.eq_or_lt_of_le hn with rfl | hlt
      · simpa using he
      · exact ih hlt hk

/-- The last attempt ends the series, or is the last that the limit allows. -/
theorem ends_last : ends (last ends more n) = true ∨ last ends more n = n + more := by
  induction more generalizing n with
  | zero => exact .inr rfl
  | succ more ih =>
    unfold last
    split_ifs with he
    · exact .inl he
    · refine (ih (n := n + 1)).imp_right fun hh => ?_
      omega

end Retry
