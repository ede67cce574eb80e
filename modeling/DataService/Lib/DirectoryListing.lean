import Mathlib.Data.List.Infix
import Mathlib.Data.List.TakeWhile
import DataService.Lib.OrderedDict

/-! Listings of flat keys with a slash as the delimiter: the directories right below a
path, and the last name of a path. -/

namespace DirectoryListing

def asDirectory (path : List Char) : List Char :=
  if path.getLast? = some '/' then path else path ++ ['/']

/-- The directory right below `directory` that holds the key. -/
def commonPrefix (directory key : List Char) : Option (List Char) :=
  if directory <+: key ∧ '/' ∈ key.drop directory.length then
    some (directory ++ (key.drop directory.length).takeWhile (· ≠ '/') ++ ['/'])
  else none

def subdirectories (objects : List (List Char)) (path : List Char) : List (List Char) :=
  (objects.filterMap (commonPrefix (asDirectory path))).eraseDups

/-- The names of the keys right below a directory that end in `suffix`, without it. -/
def basenames (objects : List (List Char)) (directory suffix : List Char) : List (List Char) :=
  objects.filterMap fun key =>
    if directory <+: key ∧ '/' ∉ key.drop directory.length ∧ suffix <:+ key then
      some ((key.drop directory.length).take (key.length - directory.length - suffix.length))
    else none

/-- What stands behind the last slash, slashes at the end apart. -/
def lastName (path : List Char) : List Char :=
  ((path.reverse.dropWhile (· = '/')).takeWhile (· ≠ '/')).reverse

/-- Some key lies below the path. -/
def HasDirectory (objects : List (List Char)) (path : List Char) : Prop :=
  ∃ key ∈ objects, path ++ ['/'] <+: key

/-- Some key lies below a directory below the path. -/
def HasSubdirectory (objects : List (List Char)) (path : List Char) : Prop :=
  ∃ key ∈ objects, ∃ rest, key = path ++ '/' :: rest ∧ '/' ∈ rest

/-- A name between two slashes. -/
def IsName (n : List Char) : Prop := n ≠ [] ∧ '/' ∉ n

instance (n : List Char) : Decidable (IsName n) := inferInstanceAs (Decidable (_ ∧ _))

variable {objects : List (List Char)} {path n m : List Char}

theorem takeWhile_name (h : '/' ∉ n) (l : List Char) :
    (n ++ '/' :: l).takeWhile (· ≠ '/') = n := by
  have hall : ∀ c ∈ n, decide (c ≠ '/') = true := fun c hc =>
    decide_eq_true (ne_of_mem_of_not_mem hc h)
  rw [List.takeWhile_append_of_pos hall]
  simp

theorem asDirectory_name (h : IsName n) : asDirectory (path ++ '/' :: n) = path ++ '/' :: n ++ ['/'] := by
  apply if_neg
  intro hlast
  have hn : n.getLast? = some '/' := by
    obtain ⟨c, l, rfl⟩ := List.exists_cons_of_ne_nil h.1
    simpa [List.getLast?_append, List.getLast?_cons_cons] using hlast
  exact h.2 (List.mem_of_getLast? hn)

theorem lastName_name (h : IsName n) : lastName (path ++ '/' :: n ++ ['/']) = n := by
  obtain ⟨l, c, rfl⟩ := (List.eq_nil_or_concat' n).resolve_left h.1
  have hc : c ≠ '/' := fun he => h.2 (by simp [he])
  have hl : '/' ∉ c :: l.reverse := by
    intro hm
    rcases List.mem_cons.mp hm with he | hm
    · exact hc he.symm
    · exact h.2 (List.mem_append_left _ (List.mem_reverse.mp hm))
  have hrev : (path ++ '/' :: (l ++ [c]) ++ ['/']).reverse =
      '/' :: (c :: l.reverse ++ '/' :: path.reverse) := by simp
  have hdrop : ('/' :: (c :: l.reverse ++ '/' :: path.reverse)).dropWhile (· = '/') =
      c :: l.reverse ++ '/' :: path.reverse := by simp [hc]
  rw [lastName, hrev, hdrop, takeWhile_name hl]
  simp

/-- A path of more than slashes has a last name. -/
theorem lastName_ne_nil {c : Char} (hc : c ∈ path) (hne : c ≠ '/') : lastName path ≠ [] := by
  have hdrop : path.reverse.dropWhile (· = '/') ≠ [] := by
    intro hnil
    have hall := List.dropWhile_eq_nil_iff.mp hnil c (List.mem_reverse.mpr hc)
    exact hne (of_decide_eq_true hall)
  obtain ⟨d, l, hd⟩ := List.exists_cons_of_ne_nil hdrop
  have hhead : d ≠ '/' := by
    have hnot := List.head?_dropWhile_not (· = '/') path.reverse
    simp only [hd, List.head?_cons] at hnot
    exact of_decide_eq_false hnot
  simp [lastName, hd, hhead]

theorem mem_names_of_hasDirectory (hm : IsName m) (hn : IsName n)
    (h : HasDirectory objects (path ++ '/' :: m ++ '/' :: n)) :
    n ∈ (subdirectories objects (path ++ '/' :: m)).map lastName := by
  obtain ⟨key, hk, rest, rfl⟩ := h
  have hdrop : (path ++ '/' :: m ++ '/' :: n ++ ['/'] ++ rest).drop
      (path ++ '/' :: m ++ ['/']).length = n ++ '/' :: rest := by
    have hsplit : path ++ '/' :: m ++ '/' :: n ++ ['/'] ++ rest =
        (path ++ '/' :: m ++ ['/']) ++ (n ++ '/' :: rest) := by simp
    rw [hsplit, List.drop_left]
  have hcommon : commonPrefix (asDirectory (path ++ '/' :: m))
      (path ++ '/' :: m ++ '/' :: n ++ ['/'] ++ rest) =
      some (path ++ '/' :: m ++ '/' :: n ++ ['/']) := by
    rw [asDirectory_name hm, commonPrefix, hdrop, takeWhile_name hn.2, if_pos]
    · simp
    · refine ⟨⟨n ++ '/' :: rest, ?_⟩, ?_⟩ <;> simp
  have hmem : path ++ '/' :: m ++ '/' :: n ++ ['/'] ∈ subdirectories objects (path ++ '/' :: m) :=
    List.mem_eraseDups.mpr (List.mem_filterMap.mpr ⟨_, hk, hcommon⟩)
  exact List.mem_map.mpr ⟨_, hmem, lastName_name hn⟩

theorem hasDirectory_parent (h : HasDirectory objects (path ++ '/' :: n)) :
    HasDirectory objects path := by
  obtain ⟨key, hk, rest, rfl⟩ := h
  exact ⟨_, hk, n ++ '/' :: rest, by simp⟩

theorem subdirectories_ne_nil (hm : IsName m) :
    subdirectories objects (path ++ '/' :: m) ≠ [] ↔ HasSubdirectory objects (path ++ '/' :: m) := by
  rw [subdirectories, asDirectory_name hm]
  constructor
  · intro hne
    obtain ⟨d, hd⟩ := List.exists_mem_of_ne_nil _ hne
    obtain ⟨key, hk, hcommon⟩ := List.mem_filterMap.mp (List.mem_eraseDups.mp hd)
    unfold commonPrefix at hcommon
    split_ifs at hcommon with h
    obtain ⟨⟨rest, rfl⟩, hslash⟩ := h
    rw [List.drop_left] at hslash
    exact ⟨_, hk, rest, by simp, hslash⟩
  · rintro ⟨key, hk, rest, rfl, hslash⟩
    have hsplit : path ++ '/' :: m ++ '/' :: rest = (path ++ '/' :: m ++ ['/']) ++ rest := by simp
    have hcommon : commonPrefix (path ++ '/' :: m ++ ['/']) (path ++ '/' :: m ++ '/' :: rest) =
        some (path ++ '/' :: m ++ ['/'] ++ rest.takeWhile (· ≠ '/') ++ ['/']) := by
      rw [hsplit, commonPrefix, List.drop_left, if_pos ⟨List.prefix_append _ _, hslash⟩]
    exact List.ne_nil_of_mem (List.mem_eraseDups.mpr (List.mem_filterMap.mpr ⟨_, hk, hcommon⟩))

theorem mem_of_mem_subdirectories {d : List Char} {c : Char} (hd : d ∈ subdirectories objects path)
    (hc : c ∈ path) : c ∈ d := by
  obtain ⟨key, hk, hcommon⟩ := List.mem_filterMap.mp (List.mem_eraseDups.mp hd)
  have hdir : c ∈ asDirectory path := by
    unfold asDirectory
    split_ifs
    · exact hc
    · exact List.mem_append_left _ hc
  unfold commonPrefix at hcommon
  split_ifs at hcommon with h
  obtain rfl := Option.some.inj hcommon
  simp [hdir]

section Basenames

variable {suffix : List Char}

/-- The part of a key that a listing of basenames shows. -/
theorem basename_key {key : List Char} (hsuffix : '/' ∉ suffix) (hstart : path ++ ['/'] <+: key)
    (hend : suffix <:+ key) :
    (key.drop (path ++ ['/']).length).take (key.length - (path ++ ['/']).length - suffix.length) ++
      suffix = key.drop (path ++ ['/']).length := by
  obtain ⟨rest, rfl⟩ := hstart
  rw [List.drop_left, List.length_append, Nat.add_sub_cancel_left]
  obtain ⟨front, hfront⟩ := hend
  -- the suffix lies behind the slash of the directory
  have hlength : suffix.length ≤ rest.length := by
    by_contra hlt
    have hsuffix' : '/' :: rest <:+ suffix := by
      have hboth : '/' :: rest <:+ path ++ ['/'] ++ rest := ⟨path, by simp⟩
      exact List.suffix_of_suffix_length_le hboth ⟨front, hfront⟩ (by simp; omega)
    exact hsuffix (hsuffix'.subset List.mem_cons_self)
  have hrest : suffix <:+ rest :=
    List.suffix_of_suffix_length_le ⟨front, hfront⟩ ⟨path ++ ['/'], rfl⟩ hlength
  obtain ⟨name, rfl⟩ := hrest
  simp

theorem mem_basenames (hsuffix : '/' ∉ suffix) :
    n ∈ basenames objects (path ++ ['/']) suffix ↔
      path ++ '/' :: n ++ suffix ∈ objects ∧ '/' ∉ n := by
  rw [basenames, List.mem_filterMap]
  constructor
  · rintro ⟨key, hk, hname⟩
    split_ifs at hname with h
    obtain ⟨hstart, hslash, hend⟩ := h
    have hkey := basename_key hsuffix hstart hend
    obtain ⟨rest, rfl⟩ := hstart
    rw [Option.some.inj hname, List.drop_left] at hkey
    rw [List.drop_left] at hslash
    subst hkey
    refine ⟨by simpa using hk, fun hn => hslash (List.mem_append_left _ hn)⟩
  · rintro ⟨hk, hslash⟩
    refine ⟨_, hk, ?_⟩
    have hsplit : path ++ '/' :: n ++ suffix = path ++ ['/'] ++ (n ++ suffix) := by simp
    rw [hsplit, List.drop_left, if_pos]
    · have hlength : (path ++ ['/'] ++ (n ++ suffix)).length - (path ++ ['/']).length -
          suffix.length = n.length := by
        rw [List.length_append, Nat.add_sub_cancel_left, List.length_append, Nat.add_sub_cancel]
      rw [hlength, List.take_left]
    · refine ⟨List.prefix_append _ _, ?_, ⟨path ++ ['/'] ++ n, by simp⟩⟩
      rw [List.mem_append]
      exact fun h => h.elim hslash hsuffix

theorem nodup_basenames (hsuffix : '/' ∉ suffix) (h : objects.Nodup) :
    (basenames objects (path ++ ['/']) suffix).Nodup := by
  refine List.Nodup.filterMap ?_ h
  intro key key' name hname hname'
  simp only [Option.mem_def] at hname hname'
  split_ifs at hname hname' with h h'
  have hkey := basename_key hsuffix h.1 h.2.2
  have hkey' := basename_key hsuffix h'.1 h'.2.2
  rw [Option.some.inj hname] at hkey
  rw [Option.some.inj hname'] at hkey'
  obtain ⟨rest, rfl⟩ := h.1
  obtain ⟨rest', rfl⟩ := h'.1
  rw [List.drop_left] at hkey hkey'
  rw [← hkey, ← hkey']

end Basenames

theorem mem_subdirectories_name {d : List Char} (hd : d ∈ subdirectories objects path) :
    ∃ name, d = asDirectory path ++ name ++ ['/'] ∧ '/' ∉ name := by
  obtain ⟨key, -, hcommon⟩ := List.mem_filterMap.mp (List.mem_eraseDups.mp hd)
  unfold commonPrefix at hcommon
  split_ifs at hcommon
  refine ⟨_, (Option.some.inj hcommon).symm, fun hslash => ?_⟩
  exact absurd (List.mem_takeWhile_imp hslash) (by simp)

/-- Names are told apart if none of them is empty: the last name of a path with two slashes
at its end is that of the path. -/
theorem nodup_lastNames (h : ∀ d ∈ subdirectories objects (path ++ ['/']),
    lastName d ≠ lastName path) :
    ((subdirectories objects (path ++ ['/'])).map lastName).Nodup := by
  have hdirectory : asDirectory (path ++ ['/']) = path ++ ['/'] := if_pos (by simp)
  have hname : ∀ d ∈ subdirectories objects (path ++ ['/']), ∃ name,
      d = path ++ '/' :: name ++ ['/'] ∧ lastName d = name := by
    intro d hd
    obtain ⟨name, rfl, hslash⟩ := mem_subdirectories_name hd
    rw [hdirectory] at hd ⊢
    refine ⟨name, by simp, ?_⟩
    have hne : name ≠ [] := by
      rintro rfl
      apply h _ hd
      simp [lastName]
    have hsplit : path ++ ['/'] ++ name ++ ['/'] = path ++ '/' :: name ++ ['/'] := by simp
    rw [hsplit, lastName_name ⟨hne, hslash⟩]
  refine List.Nodup.map_on (fun d hd d' hd' hsame => ?_) (OrderedDict.nodup_eraseDups _)
  obtain ⟨name, rfl, hlast⟩ := hname d hd
  obtain ⟨name', rfl, hlast'⟩ := hname d' hd'
  rw [hlast, hlast'] at hsame
  rw [hsame]

end DirectoryListing
