import Mathlib.Data.List.Basic
import DataService.Lib.Assignments

/-! The flattening of nested settings: the leaves of an object are assigned before its nested
objects are walked, in the order of their keys. Which of several leaves with one name is assigned
last can depend on that order. -/

namespace DataService.Settings

open Assignments

/-- The entries of an object in their order; a leaf is what is no object. -/
inductive SettingsObject (α : Type) where
  | nil
  | leaf (key : String) (value : α) (rest : SettingsObject α)
  | object (key : String) (inner rest : SettingsObject α)
  deriving DecidableEq, Repr

namespace SettingsObject

variable {α : Type}

def keys : SettingsObject α → List String
  | nil => []
  | leaf key _ rest | object key _ rest => key :: rest.keys

/-- No object has a key twice. -/
def Distinct : SettingsObject α → Prop
  | nil => True
  | leaf key _ rest => key ∉ rest.keys ∧ rest.Distinct
  | object key inner rest => key ∉ rest.keys ∧ inner.Distinct ∧ rest.Distinct

/-- The first loop of `_walk` -/
def leaves (pre : String) : SettingsObject α → List (String × α)
  | nil => []
  | leaf key value rest => (pre ++ key, value) :: rest.leaves pre
  | object _ _ rest => rest.leaves pre

/-- The second loop of `_walk` -/
def nested (pre : String) : SettingsObject α → List (String × α)
  | nil => []
  | leaf _ _ rest => rest.nested pre
  | object key inner rest =>
    (inner.leaves (pre ++ key ++ "_") ++ inner.nested (pre ++ key ++ "_")) ++ rest.nested pre

/-- The assignments of `_walk` -/
def walk (pre : String) (settings : SettingsObject α) : List (String × α) :=
  settings.leaves pre ++ settings.nested pre

/-- `_flatten` -/
def flatten (settings : SettingsObject α) : String → Option α := assignAll (settings.walk "")

/-- The leaf or object at a key. -/
def get (key : String) : SettingsObject α → Option (α ⊕ SettingsObject α)
  | nil => none
  | leaf k value rest => if k = key then some (.inl value) else rest.get key
  | object k inner rest => if k = key then some (.inr inner) else rest.get key

/-- What stands at a path: a leaf with its value, or an object. -/
def entryAt : List String → SettingsObject α → Option (Option α)
  | [], _ => some none
  | key :: path, settings =>
    match settings.get key with
    | none => none
    | some (.inl value) => if path = [] then some (some value) else none
    | some (.inr inner) => entryAt path inner

/-- Equal as JSON values: the same stands at every path. -/
def Same (s t : SettingsObject α) : Prop := ∀ path, entryAt path s = entryAt path t

def IsLeaf (settings : SettingsObject α) (path : List String) (value : α) : Prop :=
  entryAt path settings = some (some value)

/-- The flat name of a leaf. -/
def nameOf (pre : String) : List String → String
  | [] => pre
  | [key] => pre ++ key
  | key :: path => nameOf (pre ++ key ++ "_") path

/-- No object beside the leaf holds a leaf of the same name. -/
def Unshadowed (pre : String) (settings : SettingsObject α) (path : List String) : Prop :=
  ∀ parent key below value, path = parent ++ [key] → 2 ≤ below.length →
    settings.IsLeaf (parent ++ below) value → nameOf pre (parent ++ below) ≠ nameOf pre path

/-- Leaves of one name that are not shadowed are alike. -/
def Settled (settings : SettingsObject α) : Prop :=
  ∀ path path' value value', settings.IsLeaf path value → settings.IsLeaf path' value' →
    nameOf "" path = nameOf "" path' → settings.Unshadowed "" path →
    settings.Unshadowed "" path' → value = value'

section Lookup

variable {s t inner : SettingsObject α} {key pre name : String} {path : List String} {value : α}
  {entry : α ⊕ SettingsObject α}

theorem mem_keys_of_get (h : s.get key = some entry) :
    key ∈ s.keys := by
  induction s with
  | nil => cases h
  | leaf k v rest ih | object k inner rest _ ih =>
    rw [get] at h
    split_ifs at h with hk
    · exact hk ▸ List.mem_cons_self
    · exact List.mem_cons_of_mem k (ih h)

theorem isLeaf_cons : s.IsLeaf (key :: path) value ↔
    path = [] ∧ s.get key = some (.inl value) ∨
      ∃ inner, s.get key = some (.inr inner) ∧ inner.IsLeaf path value := by
  unfold IsLeaf
  rw [entryAt]
  split
  · simp_all
  · rename_i v hget
    by_cases hpath : path = [] <;> simp [hget, hpath]
  · rename_i inner hget
    simp [hget]

theorem not_isLeaf_nil : ¬ s.IsLeaf [] value := by
  intro h
  cases Option.some.inj h

theorem IsLeaf.ne_nil (h : s.IsLeaf path value) : path ≠ [] := by
  rintro rfl
  exact not_isLeaf_nil h

theorem nameOf_cons (h : path ≠ []) : nameOf pre (key :: path) = nameOf (pre ++ key ++ "_") path := by
  cases path with
  | nil => exact absurd rfl h
  | cons k path => rfl

theorem name_inj {k : String} (h : pre ++ key = pre ++ k) : key = k := by
  apply String.toList_injective
  simpa using congrArg String.toList h

theorem get_of_notMem {k : String} (h : key ∉ s.keys) (hget : s.get k = some entry) : k ≠ key := by
  rintro rfl
  exact h (mem_keys_of_get hget)

theorem leaves_eq_some (hs : s.Distinct) : assignAll (s.leaves pre) name = some value ↔
    ∃ key, s.get key = some (.inl value) ∧ pre ++ key = name := by
  induction s generalizing value with
  | nil =>
    rw [leaves, assignAll_nil]
    simp [get]
  | leaf k v rest ih =>
    obtain ⟨hk, hrest⟩ := hs
    rw [leaves, assignAll_cons, Option.or_eq_some_iff]
    constructor
    · rintro (h | ⟨-, h⟩)
      · obtain ⟨key, hget, rfl⟩ := (ih hrest).mp h
        exact ⟨key, by rw [get, if_neg (Ne.symm (get_of_notMem hk hget)), hget], rfl⟩
      · split_ifs at h with hname
        obtain rfl := Option.some.inj h
        exact ⟨k, by rw [get, if_pos rfl], hname.symm⟩
    · rintro ⟨key, hget, rfl⟩
      rw [get] at hget
      split_ifs at hget with hkey
      · subst hkey
        obtain rfl := Sum.inl.inj (Option.some.inj hget)
        refine .inr ⟨?_, if_pos rfl⟩
        by_contra hne
        obtain ⟨w, hw⟩ := Option.ne_none_iff_exists'.mp hne
        obtain ⟨key', hget', hname⟩ := (ih hrest).mp hw
        exact get_of_notMem hk hget' (name_inj hname)
      · exact .inl ((ih hrest).mpr ⟨key, hget, rfl⟩)
  | object k inner rest _ ih =>
    rw [leaves, ih hs.2.2]
    constructor
    · rintro ⟨key, hget, hname⟩
      exact ⟨key, by rw [get, if_neg (Ne.symm (get_of_notMem hs.1 hget)), hget], hname⟩
    · rintro ⟨key, hget, hname⟩
      rw [get] at hget
      split_ifs at hget with hkey
      · cases hget
      · exact ⟨key, hget, hname⟩

/-- Of the nested objects that have a leaf of a name, one decides. -/
theorem nested_eq_some (hs : s.Distinct) (h : assignAll (s.nested pre) name = some value) :
    ∃ key inner, s.get key = some (.inr inner) ∧
      assignAll (inner.walk (pre ++ key ++ "_")) name = some value := by
  induction s with
  | nil => cases h
  | leaf k v rest ih =>
    obtain ⟨key, inner, hget, hinner⟩ := ih hs.2 h
    exact ⟨key, inner, by rw [get, if_neg (Ne.symm (get_of_notMem hs.1 hget)), hget], hinner⟩
  | object k inner rest _ ih =>
    rw [nested, assignAll_append, Option.or_eq_some_iff] at h
    rcases h with h | ⟨-, h⟩
    · obtain ⟨key, inner', hget, hinner⟩ := ih hs.2.2 h
      exact ⟨key, inner', by rw [get, if_neg (Ne.symm (get_of_notMem hs.1 hget)), hget], hinner⟩
    · exact ⟨k, inner, by rw [get, if_pos rfl], h⟩

theorem nested_eq_none (h : assignAll (s.nested pre) name = none)
    (hget : s.get key = some (.inr inner)) :
    assignAll (inner.walk (pre ++ key ++ "_")) name = none := by
  induction s with
  | nil => cases hget
  | leaf k v rest ih =>
    rw [get] at hget
    split_ifs at hget
    · cases hget
    · exact ih h hget
  | object k inner' rest _ ih =>
    rw [nested, assignAll_append, Option.or_eq_none_iff] at h
    rw [get] at hget
    split_ifs at hget with hk
    · subst hk
      obtain rfl := Sum.inr.inj (Option.some.inj hget)
      exact h.2
    · exact ih h.1 hget

theorem distinct_of_get (hs : s.Distinct) (hget : s.get key = some (.inr inner)) :
    inner.Distinct ∧ sizeOf inner < sizeOf s := by
  induction s with
  | nil => cases hget
  | leaf k v rest ih =>
    rw [get] at hget
    split_ifs at hget
    · cases hget
    · obtain ⟨hinner, hsize⟩ := ih hs.2 hget
      exact ⟨hinner, by simp only [leaf.sizeOf_spec]; omega⟩
  | object k inner' rest _ ih =>
    rw [get] at hget
    split_ifs at hget
    · obtain rfl := Sum.inr.inj (Option.some.inj hget)
      exact ⟨hs.2.1, by simp only [object.sizeOf_spec]; omega⟩
    · obtain ⟨hinner, hsize⟩ := ih hs.2.2 hget
      exact ⟨hinner, by simp only [object.sizeOf_spec]; omega⟩

/-- A leaf is shadowed below a key as it is there. -/
theorem unshadowed_cons (hget : s.get key = some (.inr inner)) (hne : path ≠ []) :
    s.Unshadowed pre (key :: path) ↔ inner.Unshadowed (pre ++ key ++ "_") path := by
  constructor
  · intro h parent k below v hpath hlength hleaf
    have hbelow : parent ++ below ≠ [] := by
      rintro hnil
      simp [(List.append_eq_nil_iff.mp hnil).2] at hlength
    have hshadow := h (key :: parent) k below v (by rw [hpath, List.cons_append]) hlength
      (isLeaf_cons.mpr (.inr ⟨inner, hget, hleaf⟩))
    rwa [List.cons_append, nameOf_cons hbelow, nameOf_cons hne] at hshadow
  · intro h parent k below v hpath hlength hleaf
    cases parent with
    | nil => exact absurd (List.cons.inj hpath).2 hne
    | cons key' parent =>
      obtain ⟨rfl, htail⟩ := List.cons.inj hpath
      have hbelow : parent ++ below ≠ [] := by
        rintro hnil
        simp [(List.append_eq_nil_iff.mp hnil).2] at hlength
      rcases isLeaf_cons.mp hleaf with ⟨hnil, -⟩ | ⟨inner', hget', hleaf'⟩
      · exact absurd hnil hbelow
      · obtain rfl := Sum.inr.inj (Option.some.inj (hget.symm.trans hget'))
        rw [List.cons_append, nameOf_cons hbelow, nameOf_cons hne]
        exact h parent k below v htail hlength hleaf'

/-- The value of a name is that of a leaf that is not shadowed; a name without a value has no
leaf. -/
def Decided (pre name : String) (s : SettingsObject α) : Prop :=
  (∀ value, assignAll (s.walk pre) name = some value →
    ∃ path, s.IsLeaf path value ∧ nameOf pre path = name ∧ s.Unshadowed pre path) ∧
  (assignAll (s.walk pre) name = none → ∀ path value, s.IsLeaf path value → nameOf pre path ≠ name)

/-- A leaf of the level itself is not shadowed if the nested objects do not have its name. -/
theorem unshadowed_leaf (hnone : assignAll (s.nested pre) (pre ++ key) = none)
    (hinner : ∀ k inner, s.get k = some (.inr inner) →
      Decided (pre ++ k ++ "_") (pre ++ key) inner) : s.Unshadowed pre [key] := by
  intro parent k below v hpath hlength hleaf hsame
  obtain rfl : parent = [] := by
    cases parent with
    | nil => rfl
    | cons k' parent => simp at hpath
  cases below with
  | nil => simp at hlength
  | cons k' below =>
    have hne : below ≠ [] := by
      rintro rfl
      simp at hlength
    rcases isLeaf_cons.mp hleaf with ⟨hnil, -⟩ | ⟨inner, hget, hleaf'⟩
    · exact hne hnil
    · rw [List.nil_append, nameOf_cons hne] at hsame
      exact (hinner k' inner hget).2 (nested_eq_none hnone hget) below v hleaf' hsame

theorem decided (hs : s.Distinct) : Decided pre name s := by
  induction hsize : sizeOf s using Nat.strongRecOn generalizing s pre with
  | ind size ih =>
    subst hsize
    have hinner : ∀ k inner, s.get k = some (.inr inner) → Decided (pre ++ k ++ "_") name inner :=
      fun k inner hget => ih _ (distinct_of_get hs hget).2 (distinct_of_get hs hget).1 rfl
    rw [Decided, walk, assignAll_append]
    constructor
    · intro value h
      rcases Option.or_eq_some_iff.mp h with h | ⟨hnone, h⟩
      · obtain ⟨key, inner, hget, hvalue⟩ := nested_eq_some hs h
        obtain ⟨path, hleaf, hname, hclear⟩ := (hinner key inner hget).1 value hvalue
        have hne := hleaf.ne_nil
        exact ⟨key :: path, isLeaf_cons.mpr (.inr ⟨inner, hget, hleaf⟩),
          (nameOf_cons hne).trans hname, (unshadowed_cons hget hne).mpr hclear⟩
      · obtain ⟨key, hget, rfl⟩ := (leaves_eq_some hs).mp h
        exact ⟨[key], isLeaf_cons.mpr (.inl ⟨rfl, hget⟩), rfl, unshadowed_leaf hnone hinner⟩
    · intro h path value hleaf hname
      obtain ⟨hnested, hleaves⟩ := Option.or_eq_none_iff.mp h
      cases path with
      | nil => exact not_isLeaf_nil hleaf
      | cons key path =>
        rcases isLeaf_cons.mp hleaf with ⟨rfl, hget⟩ | ⟨inner, hget, hleaf'⟩
        · rw [(leaves_eq_some hs).mpr ⟨key, hget, hname⟩] at hleaves
          cases hleaves
        · rw [nameOf_cons hleaf'.ne_nil] at hname
          exact (hinner key inner hget).2 (nested_eq_none hnested hget) path value hleaf' hname

end Lookup

section Reordering

variable {s t inner : SettingsObject α} {key pre name : String} {path : List String} {value : α}

/-- The object at the key, brought to the end. -/
def toEnd (key : String) (inner : SettingsObject α) : SettingsObject α → SettingsObject α
  | nil => object key inner nil
  | leaf k value rest => if k = key then toEnd key inner rest else leaf k value (toEnd key inner rest)
  | object k inner' rest =>
    if k = key then toEnd key inner rest else object k inner' (toEnd key inner rest)

theorem get_toEnd (k : String) :
    (toEnd key inner s).get k = if k = key then some (.inr inner) else s.get k := by
  induction s with
  | nil => simp [toEnd, get, eq_comm]
  | leaf k' v rest ih | object k' inner' rest _ ih =>
    rw [toEnd]
    by_cases hkey : k' = key
    · rw [if_pos hkey, ih, get]
      split_ifs with hk hk'
      · rfl
      · exact absurd (hk'.symm.trans hkey) hk
      · rfl
    · rw [if_neg hkey, get, get, ih]
      split_ifs with hk hk' <;> simp_all

theorem mem_keys_toEnd {k : String} (h : k ∈ (toEnd key inner s).keys) : k = key ∨ k ∈ s.keys := by
  induction s with
  | nil => simpa [toEnd, keys] using h
  | leaf k' v rest ih | object k' inner' rest _ ih =>
    rw [toEnd] at h
    split_ifs at h with hkey
    · exact (ih h).imp_right (List.mem_cons_of_mem k')
    · rcases List.mem_cons.mp h with rfl | h
      · exact .inr List.mem_cons_self
      · exact (ih h).imp_right (List.mem_cons_of_mem k')

theorem distinct_toEnd (hs : s.Distinct) (hinner : inner.Distinct) :
    (toEnd key inner s).Distinct := by
  induction s with
  | nil => exact ⟨List.not_mem_nil, hinner, trivial⟩
  | leaf k' v rest ih =>
    rw [toEnd]
    split_ifs with hkey
    · exact ih hs.2
    · exact ⟨fun h => (mem_keys_toEnd h).elim hkey hs.1, ih hs.2⟩
  | object k' inner' rest _ ih =>
    rw [toEnd]
    split_ifs with hkey
    · exact ih hs.2.2
    · exact ⟨fun h => (mem_keys_toEnd h).elim hkey hs.1, hs.2.1, ih hs.2.2⟩

theorem nested_toEnd (h : assignAll (inner.walk (pre ++ key ++ "_")) name = some value) :
    assignAll ((toEnd key inner s).nested pre) name = some value := by
  induction s with
  | nil => rwa [toEnd, nested, nested, List.append_nil]
  | leaf k' v rest ih =>
    rw [toEnd]
    split_ifs
    · exact ih
    · exact ih
  | object k' inner' rest _ ih =>
    rw [toEnd]
    split_ifs
    · exact ih
    · rw [nested, assignAll_append, ih, Option.some_or]

theorem same_toEnd (hget : s.get key = some (.inr t)) (hsame : t.Same inner) :
    s.Same (toEnd key inner s) := by
  intro path
  cases path with
  | nil => rfl
  | cons k path =>
    rw [entryAt, entryAt, get_toEnd]
    by_cases hk : k = key
    · subst hk
      simpa [hget] using hsame path
    · rw [if_neg hk]

/-- A leaf that is not shadowed decides its name in some order of the keys. -/
theorem exists_order (hs : s.Distinct) (hleaf : s.IsLeaf path value)
    (hclear : s.Unshadowed pre path) :
    ∃ t : SettingsObject α, t.Distinct ∧ s.Same t ∧
      assignAll (t.walk pre) (nameOf pre path) = some value := by
  induction path generalizing s pre with
  | nil => exact absurd hleaf not_isLeaf_nil
  | cons key path ih =>
    rcases isLeaf_cons.mp hleaf with ⟨rfl, hget⟩ | ⟨inner, hget, hleaf'⟩
    · refine ⟨s, hs, fun _ => rfl, ?_⟩
      have hleaves : assignAll (s.leaves pre) (pre ++ key) = some value :=
        (leaves_eq_some hs).mpr ⟨key, hget, rfl⟩
      have hnested : assignAll (s.nested pre) (pre ++ key) = none := by
        by_contra hne
        obtain ⟨w, hw⟩ := Option.ne_none_iff_exists'.mp hne
        obtain ⟨k, inner, hget', hw'⟩ := nested_eq_some hs hw
        obtain ⟨below, hbelow, hname, -⟩ := (decided (distinct_of_get hs hget').1).1 w hw'
        have hlength : 2 ≤ (k :: below).length := by
          have hpos := List.length_pos_iff.mpr hbelow.ne_nil
          simp only [List.length_cons]
          omega
        refine hclear [] key (k :: below) w rfl hlength
          (isLeaf_cons.mpr (.inr ⟨inner, hget', hbelow⟩)) ?_
        rw [List.nil_append, nameOf_cons hbelow.ne_nil, hname]
        rfl
      change assignAll (s.walk pre) (pre ++ key) = some value
      rw [walk, assignAll_append, hnested, hleaves, Option.none_or]
    · have hne := hleaf'.ne_nil
      obtain ⟨t, ht, hsame, hvalue⟩ := ih (distinct_of_get hs hget).1 hleaf'
        ((unshadowed_cons hget hne).mp hclear)
      refine ⟨toEnd key t s, distinct_toEnd hs ht, same_toEnd hget hsame, ?_⟩
      rw [nameOf_cons hne, walk, assignAll_append, nested_toEnd hvalue, Option.some_or]

theorem Same.isLeaf (h : s.Same t) : s.IsLeaf path value ↔ t.IsLeaf path value := by
  rw [IsLeaf, IsLeaf, h]

theorem Same.unshadowed (h : s.Same t) (hclear : s.Unshadowed pre path) : t.Unshadowed pre path :=
  fun parent key below v hpath hlength hleaf =>
    hclear parent key below v hpath hlength (h.isLeaf.mpr hleaf)

theorem Same.symm (h : s.Same t) : t.Same s := fun path => (h path).symm

theorem Same.settled (h : s.Same t) (hs : s.Settled) : t.Settled :=
  fun path path' v v' hleaf hleaf' hname hclear hclear' =>
    hs path path' v v' (h.isLeaf.mpr hleaf) (h.isLeaf.mpr hleaf') hname
      (h.symm.unshadowed hclear) (h.symm.unshadowed hclear')

theorem unshadowed_of_deepest (h : ∀ path' value', s.IsLeaf path' value' →
    nameOf pre path' = nameOf pre path → path'.length ≤ path.length) : s.Unshadowed pre path := by
  intro parent key below v hpath hlength hleaf hname
  have hle := h _ v hleaf hname
  rw [hpath] at hle
  simp only [List.length_append, List.length_cons, List.length_nil] at hle
  omega

theorem flatten_of_unshadowed (hs : s.Distinct) (hsettled : s.Settled) (hleaf : s.IsLeaf path value)
    (hclear : s.Unshadowed "" path) : s.flatten (nameOf "" path) = some value := by
  obtain ⟨hsome, hnone⟩ : Decided "" (nameOf "" path) s := decided hs
  cases hvalue : s.flatten (nameOf "" path) with
  | none => exact absurd rfl (hnone hvalue path value hleaf)
  | some w =>
    obtain ⟨path', hleaf', hname, hclear'⟩ := hsome w hvalue
    rw [hsettled path' path w value hleaf' hleaf hname hclear' hclear]

theorem flatten_eq_of_same (hs : s.Distinct) (ht : t.Distinct) (h : s.Same t) (hsettled : s.Settled) :
    t.flatten = s.flatten := by
  funext name
  cases hvalue : s.flatten name with
  | none =>
    cases hvalue' : t.flatten name with
    | none => rfl
    | some w =>
      obtain ⟨path, hleaf, hname, -⟩ := (decided ht).1 w hvalue'
      exact absurd hname ((decided hs).2 hvalue path w (h.isLeaf.mpr hleaf))
  | some w =>
    obtain ⟨path, hleaf, rfl, hclear⟩ := (decided hs).1 w hvalue
    exact flatten_of_unshadowed ht (h.settled hsettled) (h.isLeaf.mp hleaf) (h.unshadowed hclear)

end Reordering

end SettingsObject

open SettingsObject

/-- Nested settings as they are read from JSON. -/
structure NestedSettings (α : Type) where
  object : SettingsObject α
  distinct : object.Distinct

/-- The order of the keys does not matter, and a deepest leaf decides its name, exactly if the
leaves of a name that are not shadowed are alike. -/
theorem flatten_settled_iff {α : Type} (s : NestedSettings α) :
    (∀ t : NestedSettings α, s.object.Same t.object →
      t.object.flatten = s.object.flatten ∧
      ∀ path value, t.object.IsLeaf path value →
        (∀ path' value', t.object.IsLeaf path' value' → nameOf "" path' = nameOf "" path →
          path'.length ≤ path.length) →
        t.object.flatten (nameOf "" path) = some value) ↔ s.object.Settled := by
  constructor
  · intro h path path' value value' hleaf hleaf' hname hclear hclear'
    obtain ⟨t, ht, hsame, hvalue⟩ := exists_order s.distinct hleaf hclear
    obtain ⟨t', ht', hsame', hvalue'⟩ := exists_order s.distinct hleaf' hclear'
    have hflat : t.flatten = t'.flatten :=
      (h ⟨t, ht⟩ hsame).1.trans (h ⟨t', ht'⟩ hsame').1.symm
    have hsome : t.flatten (nameOf "" path) = some value := hvalue
    have hsome' : t'.flatten (nameOf "" path') = some value' := hvalue'
    rw [← hname, ← hflat, hsome] at hsome'
    exact Option.some.inj hsome'
  · intro hsettled t hsame
    refine ⟨flatten_eq_of_same s.distinct t.distinct hsame hsettled, ?_⟩
    intro path value hleaf hdeepest
    exact flatten_of_unshadowed t.distinct (hsame.settled hsettled) hleaf
      (unshadowed_of_deepest hdeepest)

/-- `{"a": {"b": {"c": 1}}, "a_b": {"c": 2}}` -/
def deepFirst : NestedSettings Nat where
  object := .object "a" (.object "b" (.leaf "c" 1 .nil) .nil) (.object "a_b" (.leaf "c" 2 .nil) .nil)
  distinct := by simp [Distinct, keys]

/-- The same with the keys in the other order. -/
def deepLast : NestedSettings Nat where
  object := .object "a_b" (.leaf "c" 2 .nil) (.object "a" (.object "b" (.leaf "c" 1 .nil) .nil) .nil)
  distinct := by simp [Distinct, keys]

/-- One JSON value, flattened in two ways; the shallower leaf can win. -/
theorem flatten_by_order : deepFirst.object.Same deepLast.object ∧
    deepFirst.object.flatten "a_b_c" = some 2 ∧ deepLast.object.flatten "a_b_c" = some 1 := by
  refine ⟨?_, by decide, by decide⟩
  intro path
  cases path with
  | nil => rfl
  | cons key path =>
    have hget : deepFirst.object.get key = deepLast.object.get key := by
      by_cases ha : "a" = key
      · subst ha
        rfl
      · simp [deepFirst, deepLast, SettingsObject.get, ha]
    rw [entryAt, entryAt, hget]

end DataService.Settings
