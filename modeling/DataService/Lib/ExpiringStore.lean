import Mathlib.Data.List.AList

/-! A key-value store whose keys may carry a time to live. A key is there as long as its
deadline lies ahead; a new deadline replaces the old one for the whole key. -/

namespace ExpiringStore

structure Slot (ν : Type*) where
  value : ν
  deadline : Option Nat
  deriving DecidableEq, Repr

variable {κ ν : Type*}

def Slot.live (now : Nat) (slot : Slot ν) : Bool := slot.deadline.all (now < ·)

/-- A store of values under keys, each with its deadline. -/
abbrev Store (κ ν : Type*) := AList fun _ : κ => Slot ν

namespace Store

variable [DecidableEq κ] {s : Store κ ν} {now ttl : Nat} {k k' : κ} {v : ν}

def get (s : Store κ ν) (now : Nat) (k : κ) : Option ν :=
  ((s.lookup k).filter (Slot.live now)).map (·.value)

def put (s : Store κ ν) (k : κ) (v : ν) (deadline : Option Nat) : Store κ ν :=
  s.insert k ⟨v, deadline⟩

/-- Replace the value under a key. A key that is there keeps its deadline, a new key has none. -/
def update (s : Store κ ν) (now : Nat) (k : κ) (v : ν) : Store κ ν :=
  match (s.lookup k).filter (Slot.live now) with
  | some slot => s.insert k ⟨v, slot.deadline⟩
  | none => s.insert k ⟨v, none⟩

/-- Give a key that is there a new deadline. -/
def expire (s : Store κ ν) (now : Nat) (k : κ) (ttl : Nat) : Store κ ν :=
  match (s.lookup k).filter (Slot.live now) with
  | some slot => s.insert k ⟨slot.value, some (now + ttl)⟩
  | none => s

def del (s : Store κ ν) (k : κ) : Store κ ν := s.erase k

theorem lookup_update_ne (h : k' ≠ k) : (s.update now k v).lookup k' = s.lookup k' := by
  unfold update
  split <;> exact AList.lookup_insert_ne h

theorem lookup_expire_ne (h : k' ≠ k) : (s.expire now k ttl).lookup k' = s.lookup k' := by
  unfold expire
  split
  · exact AList.lookup_insert_ne h
  · rfl

theorem get_put_ne (h : k' ≠ k) (deadline : Option Nat) :
    (s.put k v deadline).get now k' = s.get now k' := by
  simp [get, put, AList.lookup_insert_ne h]

theorem get_put_self (deadline : Option Nat) :
    (s.put k v deadline).get now k = if deadline.all (now < ·) then some v else none := by
  by_cases h : deadline.all (now < ·) <;> simp [get, put, Slot.live, Option.filter, h]

theorem get_update_ne (h : k' ≠ k) : (s.update now k v).get now k' = s.get now k' := by
  unfold update
  split <;> simp [get, AList.lookup_insert_ne h]

theorem get_update_self : (s.update now k v).get now k = some v := by
  unfold update
  split
  · rename_i slot h
    have hl : slot.live now = true := by
      obtain ⟨_, hl⟩ := Option.filter_eq_some_iff.mp h
      exact hl
    have hl' : slot.deadline.all (now < ·) = true := hl
    simp [get, Option.filter, Slot.live, hl']
  · simp [get, Option.filter, Slot.live]

theorem get_expire_ne (h : k' ≠ k) : (s.expire now k ttl).get now k' = s.get now k' := by
  unfold expire
  split
  · simp [get, AList.lookup_insert_ne h]
  · rfl

/-- A new deadline never brings a value that was not there. -/
theorem get_expire_self (h : (s.expire now k ttl).get now k = some v) : s.get now k = some v := by
  unfold expire at h
  split at h
  · rename_i slot hs
    have hv : slot.value = v := by
      by_cases ht : ttl = 0
      · simp [get, Option.filter, Slot.live, ht] at h
      · have hlt : now < now + ttl := by omega
        simpa [get, Option.filter, Slot.live, hlt] using h
    simp [get, hs, hv]
  · exact h

/-- A deadline that lies ahead changes nothing yet. -/
theorem get_expire_pos (h : 0 < ttl) : (s.expire now k ttl).get now k' = s.get now k' := by
  by_cases hk : k' = k
  · subst hk
    unfold expire
    split
    · rename_i slot hs
      have hlt : now < now + ttl := by omega
      have hget : s.get now k' = some slot.value := by simp only [get, hs, Option.map_some]
      rw [hget]
      simp [get, Option.filter, Slot.live, hlt]
    · rfl
  · exact get_expire_ne hk

theorem get_del_ne (h : k' ≠ k) : (s.del k).get now k' = s.get now k' := by
  simp [get, del, AList.lookup_erase_ne h]

theorem get_del_self : (s.del k).get now k = none := by simp [get, del]

theorem get_later {later : Nat} (hle : now ≤ later) (h : s.get later k = some v) :
    s.get now k = some v := by
  unfold get at h ⊢
  obtain ⟨slot, hs, rfl⟩ := Option.map_eq_some_iff.mp h
  obtain ⟨hl, hlive⟩ := Option.filter_eq_some_iff.mp hs
  have hnow : slot.live now = true := by
    cases hd : slot.deadline with
    | none => simp [Slot.live, hd]
    | some d =>
      have hlt : later < d := by simpa [Slot.live, hd] using hlive
      have hlt' : now < d := by omega
      simpa [Slot.live, hd] using hlt'
  simp [hl, hnow, Option.filter]

/-- With a new deadline, what is there now is there until then. -/
theorem get_expire_later {later : Nat} (hle : now ≤ later) :
    (s.expire now k ttl).get later k = if later < now + ttl then s.get now k else none := by
  unfold expire
  split
  · rename_i slot hslot
    have hget : s.get now k = some slot.value := by simp only [get, hslot, Option.map_some]
    rw [hget]
    by_cases hlt : later < now + ttl
    · simp [get, Option.filter, Slot.live, hlt]
    · simp [get, Option.filter, Slot.live, hlt]
  · rename_i hnone
    have hnow : s.get now k = none := by
      rw [get, hnone]
      rfl
    have hlater : s.get later k = none := by
      cases hv : s.get later k with
      | none => rfl
      | some v =>
        rw [get_later hle hv] at hnow
        cases hnow
    rw [hlater, hnow, ite_self]

end Store

end ExpiringStore
