import Mathlib.Data.List.DropRight

/-! A bounded queue that drops its oldest entry when it is full, as a window over
everything that was put into it. -/

namespace SlidingWindow

variable {α : Type}

/-- Append, and drop the oldest entry of a window that has grown too long. -/
def push (size : Nat) (window : List α) (a : α) : List α :=
  if size < (window ++ [a]).length then (window ++ [a]).drop 1 else window ++ [a]

@[simp] theorem length_rtake (l : List α) (n : Nat) : (l.rtake n).length = min n l.length := by
  simp only [List.rtake, List.length_drop]
  omega

theorem push_rtake (size : Nat) (l : List α) (a : α) :
    push size (l.rtake size) a = (l ++ [a]).rtake size := by
  have hlen := length_rtake l size
  unfold push
  by_cases hfull : size ≤ l.length
  · have hlong : size < (l.rtake size ++ [a]).length := by simp [hfull]
    rw [if_pos hlong]
    have hdrop : l.rtake size ++ [a] = (l ++ [a]).drop (l.length - size) := by
      rw [List.rtake, List.drop_append_of_le_length (by omega)]
    rw [hdrop, List.drop_drop, List.rtake, List.length_append, List.length_singleton]
    congr 1
    omega
  · have hshort : ¬ size < (l.rtake size ++ [a]).length := by
      simp only [List.length_append, hlen, List.length_singleton]
      omega
    have hall : l.rtake size = l := by
      rw [List.rtake, Nat.sub_eq_zero_of_le (by omega), List.drop_zero]
    rw [if_neg hshort, hall, List.rtake, Nat.sub_eq_zero_of_le (by simp; omega), List.drop_zero]

end SlidingWindow
