import Mathlib.Data.List.Induction
import Mathlib.Logic.Function.Basic

/-! A dictionary after assignments in their order: the last one to a name decides. -/

namespace Assignments

variable {ν α : Type} [DecidableEq ν]

def assign (flat : ν → Option α) (write : ν × α) : ν → Option α :=
  Function.update flat write.1 (some write.2)

def assignAll (writes : List (ν × α)) : ν → Option α := writes.foldl assign fun _ => none

variable {writes writes' : List (ν × α)} {name : ν}

theorem foldl_eq (flat : ν → Option α) (writes : List (ν × α)) (name : ν) :
    writes.foldl assign flat name = (assignAll writes name).or (flat name) := by
  induction writes using List.reverseRecOn with
  | nil => rfl
  | append_singleton writes write ih =>
    simp only [assignAll, List.foldl_append, List.foldl_cons, List.foldl_nil] at ih ⊢
    by_cases h : name = write.1
    · subst h
      simp [assign]
    · rw [assign, assign, Function.update_of_ne h, Function.update_of_ne h, ih]

theorem assignAll_nil : assignAll ([] : List (ν × α)) name = none := rfl

theorem assignAll_append :
    assignAll (writes ++ writes') name = (assignAll writes' name).or (assignAll writes name) := by
  unfold assignAll
  rw [List.foldl_append, foldl_eq, assignAll]

theorem assignAll_cons (write : ν × α) : assignAll (write :: writes) name =
    (assignAll writes name).or (if name = write.1 then some write.2 else none) := by
  rw [assignAll, List.foldl_cons, foldl_eq, assign, Function.update_apply]

end Assignments
