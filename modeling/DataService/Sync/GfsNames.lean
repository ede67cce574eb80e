import DataService.Sync.GfsSync
import DataService.Sync.OnDemandListing

/-! The names of GFS cycles, steps and overlays: how they are read, and the order of their
scores. -/

namespace DataService.Sync

open DirectoryListing NumberText

/-- `YYYYMMDDTHHmmZ` -/
def IsCycleTag (name : String) : Prop :=
  name.toList.length = 14 ∧ name.toList[8]? = some 'T' ∧ name.toList[13]? = some 'Z' ∧
    ∀ c ∈ name.toList.take 8 ++ (name.toList.drop 9).take 4, IsAsciiDigit c

/-- `fNNN` -/
def IsGfsStepTag (name : String) : Prop :=
  name.toList.length = 4 ∧ name.toList.head? = some 'f' ∧
    ∀ c ∈ name.toList.drop 1, IsAsciiDigit c

instance (name : String) : Decidable (IsCycleTag name) :=
  inferInstanceAs (Decidable (_ ∧ _ ∧ _ ∧ _))

instance (name : String) : Decidable (IsGfsStepTag name) :=
  inferInstanceAs (Decidable (_ ∧ _ ∧ _))

/-- `build_gfs_cog_key` -/
def buildGfsCogKey (segment cycle fxxx : String) : S3Key :=
  gfsCogCyclePrefix segment ++ cycle.toList ++ '/' :: gfsStepId cycle fxxx ++ ".tif".toList

variable {reader : NumberReader} {name name' : String} {score score' : Int}

section Tags

theorem IsCycleTag.split (h : IsCycleTag name) : ∃ date time : List Char,
    name.toList = date ++ 'T' :: (time ++ ['Z']) ∧ date.length = 8 ∧ time.length = 4 ∧
      ∀ c ∈ date ++ time, IsAsciiDigit c := by
  obtain ⟨hlength, ht, hz, hdigits⟩ := h
  obtain ⟨hlt, heq⟩ := List.getElem?_eq_some_iff.mp ht
  have hlast : (name.toList.drop 9).drop 4 = ['Z'] := by
    obtain ⟨hlt', heq'⟩ := List.getElem?_eq_some_iff.mp hz
    rw [List.drop_drop, List.drop_eq_getElem_cons hlt', heq']
    simp [hlength]
  refine ⟨name.toList.take 8, (name.toList.drop 9).take 4, ?_, by simp [hlength], by simp [hlength],
    hdigits⟩
  rw [← hlast, List.take_append_drop, ← heq, ← List.drop_eq_getElem_cons hlt,
    List.take_append_drop]

theorem IsGfsStepTag.split (h : IsGfsStepTag name) : ∃ digits : List Char,
    name.toList = 'f' :: digits ∧ digits.length = 3 ∧ ∀ c ∈ digits, IsAsciiDigit c := by
  obtain ⟨hlength, hhead, hdigits⟩ := h
  cases hname : name.toList with
  | nil => simp [hname] at hhead
  | cons c digits =>
    obtain rfl : c = 'f' := by simpa [hname] using hhead
    rw [hname] at hlength hdigits
    exact ⟨digits, rfl, by simpa using hlength, hdigits⟩

theorem IsGfsStepTag.ne_empty (h : IsGfsStepTag name) : name ≠ "" := by
  rintro rfl
  cases h.1

/-- A tag is part of one name, and has no separator of the names of a step. -/
theorem IsGfsStepTag.plain (h : IsGfsStepTag name) : '_' ∉ name.toList ∧ '/' ∉ name.toList := by
  obtain ⟨digits, hname, -, hdigits⟩ := h.split
  have hnot : ∀ c : Char, ¬ IsAsciiDigit c → c ≠ 'f' → c ∉ name.toList := by
    intro c hc hne hmem
    rw [hname] at hmem
    rcases List.mem_cons.mp hmem with h | h
    · exact hne h
    · exact hc (hdigits c h)
  exact ⟨hnot '_' (by decide) (by decide), hnot '/' (by decide) (by decide)⟩

theorem IsCycleTag.slash_notMem (h : IsCycleTag name) : '/' ∉ name.toList := by
  obtain ⟨date, time, hname, -, -, hdigits⟩ := h.split
  have hslash : ¬ IsAsciiDigit '/' := by decide
  intro hmem
  rw [hname] at hmem
  rcases List.mem_append.mp hmem with h | h
  · exact hslash (hdigits '/' (List.mem_append_left _ h))
  · rcases List.mem_cons.mp h with h | h
    · cases h
    · rcases List.mem_append.mp h with h | h
      · exact hslash (hdigits '/' (List.mem_append_right _ h))
      · simp at h

theorem slash_notMem_stepId {cycle fxxx : String} (h : IsCycleTag cycle) (h' : IsGfsStepTag fxxx) :
    '/' ∉ gfsStepId cycle fxxx := by
  have hcycle := h.slash_notMem
  have hstep := h'.plain.2
  simp [gfsStepId, hcycle, hstep]

theorem isDigit_of_ascii {c : Char} (h : IsAsciiDigit c) : reader.isDigit c = true := by
  rw [reader.isDigit_ascii c (by have := h.2; omega)]
  exact decide_eq_true h

theorem cycleScore_tag {date time : List Char} (hname : name.toList = date ++ 'T' :: (time ++ ['Z']))
    (hdate : date.length = 8) (htime : time.length = 4) (h : ∀ c ∈ date ++ time, IsAsciiDigit c) :
    cycleScore reader name = some ((digitsValue (date ++ time) : Nat) : Int) := by
  have hall : ∀ l : List Char, (∀ c ∈ l, IsAsciiDigit c) → l.filter reader.isDigit = l :=
    fun l hl => List.filter_eq_self.mpr fun c hc => isDigit_of_ascii (hl c hc)
  have hT : reader.isDigit 'T' = false := by
    rw [reader.isDigit_ascii 'T' (by decide)]
    decide
  have hZ : reader.isDigit 'Z' = false := by
    rw [reader.isDigit_ascii 'Z' (by decide)]
    decide
  have hdigits : name.toList.filter reader.isDigit = date ++ time := by
    rw [hname, List.filter_append, List.filter_cons_of_neg (by simp [hT]), List.filter_append,
      hall date (fun c hc => h c (List.mem_append_left _ hc)),
      hall time (fun c hc => h c (List.mem_append_right _ hc))]
    simp [hZ]
  have hne : date ++ time ≠ [] := by
    intro hnil
    have hlength := congrArg List.length hnil
    simp [hdate] at hlength
  rw [cycleScore, hdigits, if_neg hne]
  exact reader.float_digits _ hne (by simp [hdate, htime]) h

theorem cycleTag_scores (h : IsCycleTag name) (h' : IsCycleTag name') (hlt : name' < name)
    (hscore : cycleScore reader name = some score)
    (hscore' : cycleScore reader name' = some score') : score' ≤ score := by
  obtain ⟨date, time, hname, hdate, htime, hdigits⟩ := h.split
  obtain ⟨date', time', hname', hdate', htime', hdigits'⟩ := h'.split
  rw [cycleScore_tag hname hdate htime hdigits, Option.some.injEq] at hscore
  rw [cycleScore_tag hname' hdate' htime' hdigits', Option.some.injEq] at hscore'
  have hlength : (date' ++ time').length = (date ++ time).length := by
    simp [hdate, hdate', htime, htime']
  have hchars := String.lt_iff_toList_lt.mp hlt
  rw [hname, hname', parted_lt_iff (hdate'.trans hdate.symm), ← List.append_assoc,
    ← List.append_assoc, parted_lt_iff hlength, List.append_nil, List.append_nil] at hchars
  have hvalue := (digitsValue_lt_iff hlength hdigits' hdigits).mpr hchars
  omega

theorem stepScore_tag {digits : List Char} (hname : name.toList = 'f' :: digits)
    (hlength : digits.length = 3) (h : ∀ c ∈ digits, IsAsciiDigit c) :
    stepScore reader name = some ((digitsValue digits : Nat) : Int) := by
  have hne : digits ≠ [] := by
    rintro rfl
    cases hlength
  have hall : digits.all reader.isDigit = true :=
    List.all_eq_true.mpr fun c hc => isDigit_of_ascii (h c hc)
  simp only [stepScore, hname, List.head?_cons, if_true, List.drop_succ_cons, List.drop_zero]
  rw [if_pos ⟨hne, hall⟩]
  exact reader.float_digits _ hne (by omega) h

theorem stepTag_scores (h : IsGfsStepTag name) (h' : IsGfsStepTag name') (hlt : name < name')
    (hscore : stepScore reader name = some score)
    (hscore' : stepScore reader name' = some score') : score ≤ score' := by
  obtain ⟨digits, hname, hlength, hdigits⟩ := h.split
  obtain ⟨digits', hname', hlength', hdigits'⟩ := h'.split
  rw [stepScore_tag hname hlength hdigits, Option.some.injEq] at hscore
  rw [stepScore_tag hname' hlength' hdigits', Option.some.injEq] at hscore'
  have hchars := String.lt_iff_toList_lt.mp hlt
  rw [hname, hname', List.cons_lt_cons_iff] at hchars
  have hdigits_lt : digits < digits' := by simpa using hchars
  have hvalue := (digitsValue_lt_iff (hlength.trans hlength'.symm) hdigits hdigits').mpr hdigits_lt
  omega

end Tags

section Basenames

variable {cycle step layer basename : List Char}

theorem stepFromBasename_eq_some :
    stepFromBasename basename cycle = some step ↔ basename = cycle ++ '_' :: step ∧ step ≠ [] := by
  unfold stepFromBasename
  dsimp only
  constructor
  · intro h
    split_ifs at h with hstart hne
    obtain ⟨rest, rfl⟩ := hstart
    rw [List.drop_left] at h hne
    obtain rfl := Option.some.inj h
    exact ⟨by simp, hne⟩
  · rintro ⟨rfl, hne⟩
    have hsplit : cycle ++ '_' :: step = (cycle ++ ['_']) ++ step := by simp
    rw [hsplit, if_pos (List.prefix_append _ _), List.drop_left]
    exact if_neg hne

theorem stepAndLayerFromBasename_eq_some :
    stepAndLayerFromBasename basename cycle = some (step, layer) ↔
      basename = cycle ++ '_' :: (step ++ '_' :: layer) ∧ '_' ∉ step ∧ step ≠ [] ∧ layer ≠ [] := by
  have htake : ∀ step layer : List Char, '_' ∉ step →
      (step ++ '_' :: layer).takeWhile (· ≠ '_') = step := by
    intro step layer hstep
    have hall : ∀ c ∈ step, decide (c ≠ '_') = true := fun c hc =>
      decide_eq_true (ne_of_mem_of_not_mem hc hstep)
    rw [List.takeWhile_append_of_pos hall]
    simp
  unfold stepAndLayerFromBasename
  dsimp only
  rw [Option.bind_eq_some_iff]
  constructor
  · rintro ⟨tail, htail, h⟩
    obtain ⟨rfl, -⟩ := stepFromBasename_eq_some.mp htail
    split_ifs at h with hunderscore hempty
    obtain ⟨front, back, rfl, hfront⟩ := List.eq_append_cons_of_mem hunderscore
    rw [htake front back hfront] at h hempty
    have hdrop : (front ++ '_' :: back).drop (front.length + 1) = back := by
      rw [← List.drop_drop, List.drop_left]
      rfl
    rw [hdrop] at h hempty
    obtain ⟨rfl, rfl⟩ := Prod.mk.inj (Option.some.inj h)
    push Not at hempty
    exact ⟨rfl, hfront, hempty⟩
  · rintro ⟨rfl, hstep, hne, hne'⟩
    refine ⟨step ++ '_' :: layer, stepFromBasename_eq_some.mpr ⟨rfl, by simp⟩, ?_⟩
    have hdrop : (step ++ '_' :: layer).drop (step.length + 1) = layer := by
      rw [← List.drop_drop, List.drop_left]
      rfl
    rw [if_pos (by simp), htake step layer hstep, hdrop, if_neg (by simp [hne, hne'])]

end Basenames

end DataService.Sync
