import Mathlib.Data.List.Pairwise
import Mathlib.Data.List.Sort
import Mathlib.Order.OrderDual

/-! Sets whose members have scores, and their listings by rank: by the score, and by the
member where scores are equal. -/

namespace RankedSet

variable {α β : Type*} [LinearOrder α] [LinearOrder β]

/-- The members from the lowest rank up. -/
def ascending (l : List (α × β)) : List α :=
  (l.insertionSort fun p q => p.2 < q.2 ∨ (p.2 = q.2 ∧ p.1 ≤ q.1)).map Prod.fst

/-- The members from the highest rank down. -/
def descending (l : List (α × β)) : List α :=
  (l.insertionSort fun p q => q.2 < p.2 ∨ (p.2 = q.2 ∧ q.1 ≤ p.1)).map Prod.fst

section Rank

variable (α β)

def Rank (p q : α × β) : Prop := p.2 < q.2 ∨ (p.2 = q.2 ∧ p.1 ≤ q.1)

instance : DecidableRel (Rank α β) := fun p q =>
  inferInstanceAs (Decidable (p.2 < q.2 ∨ (p.2 = q.2 ∧ p.1 ≤ q.1)))

instance : Std.Total (Rank α β) where
  total p q := by
    unfold Rank
    rcases lt_trichotomy p.2 q.2 with h | h | h
    · exact .inl (.inl h)
    · rcases le_total p.1 q.1 with h' | h'
      · exact .inl (.inr ⟨h, h'⟩)
      · exact .inr (.inr ⟨h.symm, h'⟩)
    · exact .inr (.inl h)

instance : IsTrans (α × β) (Rank α β) where
  trans p q r := by
    rintro (h | ⟨h, hle⟩) (h' | ⟨h', hle'⟩)
    · exact .inl (h.trans h')
    · exact .inl (h.trans_eq h')
    · exact .inl (h.trans_lt h')
    · exact .inr ⟨h.trans h', hle.trans hle'⟩

variable {α β}

theorem rank_antisymm {p q : α × β} (h : Rank α β p q) (h' : Rank α β q p) : p = q := by
  rcases h with h | ⟨h, hle⟩
  · rcases h' with h' | ⟨h', -⟩
    · exact absurd h' h.asymm
    · exact absurd h' h.ne'
  · rcases h' with h' | ⟨-, hle'⟩
    · exact absurd h h'.ne'
    · exact Prod.ext (le_antisymm hle hle') h

end Rank

variable {l : List (α × β)} {L : List α} {score : α → β}

theorem mem_ascending {a : α} : a ∈ ascending l ↔ a ∈ l.map Prod.fst :=
  ((List.perm_insertionSort _ l).map Prod.fst).mem_iff

theorem mem_descending {a : α} : a ∈ descending l ↔ a ∈ l.map Prod.fst :=
  ((List.perm_insertionSort _ l).map Prod.fst).mem_iff

/-- A listing by rank is the listing in the order of the members exactly if it has the
same members and the scores are in that order too. -/
theorem ascending_eq_iff (hscore : ∀ p ∈ l, p.2 = score p.1) (hnodup : (l.map Prod.fst).Nodup)
    (hL : L.Pairwise (· < ·)) : ascending l = L ↔
      (∀ a, a ∈ L ↔ a ∈ l.map Prod.fst) ∧ ∀ a ∈ L, ∀ b ∈ L, a < b → score a ≤ score b := by
  have hperm := List.perm_insertionSort (Rank α β) l
  have hsorted := List.pairwise_insertionSort (Rank α β) l
  constructor
  · rintro rfl
    refine ⟨fun a => mem_ascending, ?_⟩
    have hscores : (ascending l).Pairwise fun a b => score a ≤ score b := by
      refine List.pairwise_map.mpr (hsorted.imp_of_mem fun {p q} hp hq hrank => ?_)
      rw [← hscore p (hperm.mem_iff.mp hp), ← hscore q (hperm.mem_iff.mp hq)]
      rcases hrank with h | h
      · exact h.le
      · exact h.1.le
    have hboth := hL.and hscores
    have hsymm : Std.Symm fun a b : α => (a < b → score a ≤ score b) ∧ (b < a → score b ≤ score a) :=
      ⟨fun _ _ h => ⟨h.2, h.1⟩⟩
    have hall : (ascending l).Pairwise fun a b =>
        (a < b → score a ≤ score b) ∧ (b < a → score b ≤ score a) :=
      hboth.imp fun h => ⟨fun _ => h.2, fun hlt => absurd hlt h.1.asymm⟩
    intro a ha b hb hlt
    exact (hall.forall ha hb hlt.ne).1 hlt
  · rintro ⟨hmem, horder⟩
    have hpairs : l = (l.map Prod.fst).map fun a => (a, score a) := by
      rw [List.map_map]
      refine (List.map_id l).symm.trans (List.map_congr_left fun p hp => ?_)
      exact Prod.ext rfl (hscore p hp)
    have hpermL : (l.map Prod.fst).Perm L :=
      (List.perm_ext_iff_of_nodup hnodup (hL.imp LT.lt.ne)).mpr fun a => (hmem a).symm
    have hranked : (L.map fun a => (a, score a)).Pairwise (Rank α β) := by
      refine List.pairwise_map.mpr (hL.imp_of_mem fun {a b} ha hb hlt => ?_)
      rcases (horder a ha b hb hlt).lt_or_eq with h | h
      · exact .inl h
      · exact .inr ⟨h, hlt.le⟩
    have hpermPairs : (l.insertionSort (Rank α β)).Perm (L.map fun a => (a, score a)) := by
      refine hperm.trans ?_
      have hmap := hpermL.map fun a => (a, score a)
      rwa [← hpairs] at hmap
    have heq := hpermPairs.eq_of_pairwise (fun _ _ _ _ => rank_antisymm) hsorted hranked
    have hfst : (L.map fun a => (a, score a)).map Prod.fst = L := by
      rw [List.map_map]
      exact List.map_id L
    rw [← hfst, ← heq]
    rfl

theorem descending_eq_iff (hscore : ∀ p ∈ l, p.2 = score p.1) (hnodup : (l.map Prod.fst).Nodup)
    (hL : L.Pairwise (· > ·)) : descending l = L ↔
      (∀ a, a ∈ L ↔ a ∈ l.map Prod.fst) ∧ ∀ a ∈ L, ∀ b ∈ L, b < a → score b ≤ score a := by
  have hdual := @ascending_eq_iff αᵒᵈ βᵒᵈ _ _ l L score hscore hnodup hL
  exact hdual

end RankedSet
