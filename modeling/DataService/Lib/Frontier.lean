import Mathlib.Data.List.Nodup

/-! The frontier of a job list whose jobs finish out of order: every index below
the mark is done, and so are finitely many above it. The mark moves over
consecutively finished jobs only, so it is where an interrupted scan may resume. -/

namespace Frontier

/-- Raise the mark while it is one of the indices done above it. The number of
these bounds the number of rounds. -/
def catchUp : Nat → Nat → List Nat → Nat × List Nat
  | 0, mark, above => (mark, above)
  | n + 1, mark, above =>
    if mark ∈ above then catchUp n (mark + 1) (above.erase mark) else (mark, above)

theorem catchUp_done (n mark i : Nat) (above : List Nat) (hnd : above.Nodup) :
    (i < (catchUp n mark above).1 ∨ i ∈ (catchUp n mark above).2) ↔
      (i < mark ∨ i ∈ above) := by
  induction n generalizing mark above with
  | zero => rfl
  | succ n ih =>
    by_cases h : mark ∈ above
    · simp only [catchUp, if_pos h, ih (mark + 1) (above.erase mark) (hnd.erase mark),
        hnd.mem_erase_iff]
      by_cases he : i = mark
      · simp [he, h]
      · have hlt : i < mark + 1 ↔ i < mark := by omega
        simp [he, hlt]
    · simp [catchUp, h]

theorem catchUp_nodup (n mark : Nat) (above : List Nat) (hnd : above.Nodup) :
    (catchUp n mark above).2.Nodup := by
  induction n generalizing mark above with
  | zero => exact hnd
  | succ n ih =>
    by_cases h : mark ∈ above
    · simpa only [catchUp, if_pos h] using ih (mark + 1) _ (hnd.erase mark)
    · simpa only [catchUp, if_neg h] using hnd

theorem catchUp_gt {n mark : Nat} {above : List Nat} (hnd : above.Nodup)
    (hle : ∀ i ∈ above, mark ≤ i) (hn : above.length ≤ n) :
    ∀ i ∈ (catchUp n mark above).2, (catchUp n mark above).1 < i := by
  induction n generalizing mark above with
  | zero =>
    have he : above = [] := List.length_eq_zero_iff.mp (by omega)
    simp [catchUp, he]
  | succ n ih =>
    by_cases h : mark ∈ above
    · simp only [catchUp, if_pos h]
      refine ih (hnd.erase mark) ?_ (by rw [List.length_erase_of_mem h]; omega)
      intro i hi
      have hh := hnd.mem_erase_iff.mp hi
      have := hle i hh.2
      omega
    · simp only [catchUp, if_neg h]
      intro i hi
      have hne : i ≠ mark := fun he => h (he ▸ hi)
      have := hle i hi
      omega

end Frontier

/-- A mark together with the finished indices above it. -/
structure Frontier where
  mark : Nat
  above : List Nat
  nodup : above.Nodup
  mark_lt : ∀ i ∈ above, mark < i

namespace Frontier

def start (mark : Nat) : Frontier := ⟨mark, [], List.nodup_nil, by simp⟩

def Done (f : Frontier) (i : Nat) : Prop := i < f.mark ∨ i ∈ f.above

/-- Mark one index as finished; an index below the mark was finished before. -/
def advance (f : Frontier) (idx : Nat) : Frontier :=
  if idx = f.mark then
    { mark := (catchUp f.above.length (f.mark + 1) f.above).1
      above := (catchUp f.above.length (f.mark + 1) f.above).2
      nodup := catchUp_nodup _ _ _ f.nodup
      mark_lt := catchUp_gt f.nodup (fun i hi => f.mark_lt i hi) (Nat.le_refl _) }
  else if h : f.mark < idx then
    { mark := f.mark
      above := f.above.insert idx
      nodup := f.nodup.insert
      mark_lt := fun i hi => by
        rcases List.mem_insert_iff.mp hi with he | hi
        · exact he ▸ h
        · exact f.mark_lt i hi }
  else f

@[simp] theorem start_done (mark i : Nat) : (start mark).Done i ↔ i < mark := by
  simp [Done, start]

@[simp] theorem advance_done (f : Frontier) (idx i : Nat) :
    (f.advance idx).Done i ↔ f.Done i ∨ i = idx := by
  unfold advance Done
  split_ifs with h h'
  · rw [catchUp_done _ _ _ _ f.nodup]
    constructor <;> (rintro (hi | hi) <;> grind)
  · simp only [List.mem_insert_iff]
    tauto
  · constructor
    · exact .inl
    · rintro (hi | he)
      · exact hi
      · exact .inl (by omega)

theorem done_of_lt_mark {f : Frontier} {i : Nat} (h : i < f.mark) : f.Done i := .inl h

theorem not_done_mark (f : Frontier) : ¬ f.Done f.mark := by
  rintro (h | h)
  · exact Nat.lt_irrefl _ h
  · exact Nat.lt_irrefl _ (f.mark_lt _ h)

/-- More is done, so the mark is no lower. -/
theorem mark_le_of_done {f g : Frontier} (h : ∀ i, f.Done i → g.Done i) : f.mark ≤ g.mark := by
  by_contra hlt
  exact g.not_done_mark (h _ (done_of_lt_mark (Nat.lt_of_not_le hlt)))

/-- Everything below `first` counts as done, and of the rest what the list holds. -/
def Tracks (first : Nat) (l : List Nat) (f : Frontier) : Prop :=
  ∀ i, f.Done i ↔ i < first ∨ i ∈ l

/-- The mark is where the run of list members from `first` on breaks off, and the list members
beyond it are above it. -/
structure MarksRun (first : Nat) (l : List Nat) (f : Frontier) : Prop where
  run : ∃ n, f.mark = first + n ∧ (∀ k < n, first + k ∈ l) ∧ first + n ∉ l
  above : ∀ i, i ∈ f.above ↔ i ∈ l ∧ f.mark < i

section Tracks

variable {first idx i : Nat} {l : List Nat} {f : Frontier}

theorem tracks_start (first : Nat) : Tracks first [] (start first) := by
  simp [Tracks]

theorem Tracks.advance (h : Tracks first l f) (idx : Nat) :
    Tracks first (l ++ [idx]) (f.advance idx) := by
  intro i
  rw [advance_done, h i, List.mem_append, List.mem_singleton]
  tauto

theorem Tracks.first_le (h : Tracks first l f) : first ≤ f.mark := by
  by_contra hlt
  exact f.not_done_mark ((h _).mpr (.inl (Nat.lt_of_not_le hlt)))

/-- What is missing from the list is not below the mark. -/
theorem Tracks.mark_le (h : Tracks first l f) (hi : first ≤ i) (hn : i ∉ l) : f.mark ≤ i := by
  by_contra hlt
  rcases (h i).mp (done_of_lt_mark (Nat.lt_of_not_le hlt)) with hlow | hmem
  · omega
  · exact hn hmem

theorem Tracks.marksRun (h : Tracks first l f) : MarksRun first l f := by
  have hfirst := h.first_le
  refine ⟨⟨f.mark - first, by omega, fun k hk => ?_, fun hmem => ?_⟩, fun i => ⟨fun hi => ?_, ?_⟩⟩
  · rcases (h (first + k)).mp (done_of_lt_mark (by omega)) with hlow | hmem
    · omega
    · exact hmem
  · rw [Nat.add_sub_cancel' hfirst] at hmem
    exact f.not_done_mark ((h _).mpr (.inr hmem))
  · have hlt := f.mark_lt i hi
    rcases (h i).mp (.inr hi) with hlow | hmem
    · omega
    · exact ⟨hmem, hlt⟩
  · rintro ⟨hmem, hlt⟩
    rcases (h i).mpr (.inr hmem) with hbelow | habove
    · omega
    · exact habove

theorem Tracks.advance_ne (h : Tracks first l f) (hi : first ≤ idx) (hn : idx ∉ l) :
    f.advance idx ≠ f := by
  intro heq
  have hdone : (f.advance idx).Done idx := (advance_done f idx idx).mpr (.inr rfl)
  rw [heq] at hdone
  rcases (h idx).mp hdone with hlow | hmem
  · omega
  · exact hn hmem

end Tracks

end Frontier
