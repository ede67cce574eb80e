import Mathlib.Data.List.AList

/-! A store behind a network. A request is answered or fails, and a write that fails
may still have reached the store. -/

namespace RemoteStore

inductive Outcome where
  | ok
  | failed (landed : Bool)
  deriving DecidableEq, Repr

/-- Whether the request took effect. -/
def Outcome.landed : Outcome → Bool
  | .ok => true
  | .failed landed => landed

variable {α : Type*} [DecidableEq α] {β : α → Type*}

theorem lookup_erase_eq_none {m : AList β} {a b : α} (h : m.lookup a = none) :
    (m.erase b).lookup a = none := by
  by_cases he : a = b
  · subst he
    exact AList.lookup_erase _ _
  · rw [AList.lookup_erase_ne he]
    exact h

end RemoteStore
