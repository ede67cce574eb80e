import Mathlib.Data.List.Basic

/-! Texts put together with a separator between their parts. What has no separator in it can be
told apart again. -/

namespace Segments

variable {α : Type} {sep : α} {a b rest rest' : List α} {parts parts' : List (List α)}

theorem intercalate_concat (hne : parts ≠ []) : List.intercalate [sep] (parts ++ [a]) =
    List.intercalate [sep] parts ++ sep :: a := by
  induction parts with
  | nil => exact absurd rfl hne
  | cons part parts ih =>
    cases parts with
    | nil => simp
    | cons part' parts =>
      have htail := ih (by simp)
      rw [List.cons_append] at htail
      rw [List.cons_append, List.cons_append, List.intercalate_cons_cons, htail,
        List.intercalate_cons_cons]
      simp

/-- A suffix without a separator stands in the last part. -/
theorem suffix_of_last (hsep : sep ∉ a) (h : a <:+ rest ++ sep :: b) : a <:+ b := by
  rcases List.suffix_or_suffix_of_suffix h (List.suffix_append rest (sep :: b)) with hs | hs
  · rcases List.suffix_cons_iff.mp hs with heq | hlast
    · exact absurd (heq ▸ List.mem_cons_self) hsep
    · exact hlast
  · exact absurd (hs.subset List.mem_cons_self) hsep

/-- Every element of a text put together comes from a part or separates two. -/
theorem mem_intercalate {x : α} (h : x ∈ List.intercalate [sep] parts) :
    x = sep ∨ ∃ part ∈ parts, x ∈ part := by
  induction parts with
  | nil => cases h
  | cons part parts ih =>
    cases parts with
    | nil => exact .inr ⟨part, List.mem_cons_self, by simpa using h⟩
    | cons part' parts =>
      rw [List.intercalate_cons_cons, List.append_assoc, List.mem_append] at h
      rcases h with h | h
      · exact .inr ⟨part, List.mem_cons_self, h⟩
      · rcases List.mem_cons.mp h with h | h
        · exact .inl h
        · rcases ih h with h | ⟨q, hq, hx⟩
          · exact .inl h
          · exact .inr ⟨q, List.mem_cons_of_mem part hq, hx⟩

variable [DecidableEq α]

/-- A part has no separator and nothing new. -/
theorem mem_splitOn {part : List α} (h : part ∈ rest.splitOn sep) : sep ∉ part ∧ part ⊆ rest := by
  induction rest generalizing part with
  | nil =>
    rw [List.splitOn_nil] at h
    obtain rfl := List.mem_singleton.mp h
    exact ⟨List.not_mem_nil, List.Subset.refl _⟩
  | cons x rest ih =>
    obtain ⟨first, parts, hparts⟩ := List.exists_cons_of_ne_nil (List.splitOn_ne_nil sep rest)
    have hlater : ∀ q ∈ rest.splitOn sep, sep ∉ q ∧ q ⊆ x :: rest := fun q hq =>
      ⟨(ih hq).1, List.Subset.trans (ih hq).2 (List.subset_cons_self x rest)⟩
    rw [List.splitOn_cons_eq_if_modifyHead] at h
    split at h
    · rcases List.mem_cons.mp h with rfl | h
      · exact ⟨List.not_mem_nil, List.nil_subset _⟩
      · exact hlater part h
    · rename_i hx
      rw [hparts] at h hlater
      rcases List.mem_cons.mp h with rfl | h
      · obtain ⟨hsep, hsub⟩ := hlater first List.mem_cons_self
        have hne : sep ≠ x := fun he => hx (by simp [he])
        exact ⟨List.not_mem_cons_of_ne_of_not_mem hne hsep,
          List.cons_subset.mpr ⟨List.mem_cons_self, hsub⟩⟩
      · exact hlater part (List.mem_cons_of_mem first h)

theorem first_eq (ha : sep ∉ a) (hb : sep ∉ b) (h : a ++ sep :: rest = b ++ sep :: rest') :
    a = b ∧ rest = rest' := by
  have hsplit := congrArg (List.splitOn sep) h
  rw [List.splitOn_append_cons_self_of_not_mem ha, List.splitOn_append_cons_self_of_not_mem hb,
    List.cons.injEq] at hsplit
  refine ⟨hsplit.1, ?_⟩
  have hrest := congrArg (List.intercalate [sep]) hsplit.2
  rwa [List.intercalate_splitOn, List.intercalate_splitOn] at hrest

theorem last_eq (ha : sep ∉ a) (hb : sep ∉ b) (h : rest ++ sep :: a = rest' ++ sep :: b) :
    rest = rest' ∧ a = b := by
  have hreverse : a.reverse ++ sep :: rest.reverse = b.reverse ++ sep :: rest'.reverse := by
    simpa using congrArg List.reverse h
  obtain ⟨hlast, hfront⟩ := first_eq (by simpa using ha) (by simpa using hb) hreverse
  exact ⟨List.reverse_injective hfront, List.reverse_injective hlast⟩

theorem intercalate_inj (h : ∀ part ∈ parts, sep ∉ part) (h' : ∀ part ∈ parts', sep ∉ part)
    (hne : parts ≠ []) (hne' : parts' ≠ [])
    (hsame : List.intercalate [sep] parts = List.intercalate [sep] parts') : parts = parts' := by
  have hsplit := congrArg (List.splitOn sep) hsame
  rwa [List.splitOn_intercalate sep h hne, List.splitOn_intercalate sep h' hne'] at hsplit

theorem suffix_of_splitOn (hsep : sep ∉ a) (h : a <:+ rest) {last : List α}
    (hparts : rest.splitOn sep = parts ++ [last]) : a <:+ last := by
  have hrest : rest = List.intercalate [sep] (parts ++ [last]) := by
    rw [← hparts, List.intercalate_splitOn]
  rw [hrest] at h
  by_cases hne : parts = []
  · simpa [hne] using h
  · rw [intercalate_concat hne] at h
    exact suffix_of_last hsep h

end Segments
