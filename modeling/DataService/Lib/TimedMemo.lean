import Mathlib.Data.List.Basic
import Mathlib.Logic.Function.Basic
import DataService.Lib.StepSystem

/-! A memo that is filled under one lock and looked up before and behind it. A value is handed out
for a while after its load has ended; a call that finds none loads it, and a load that fails leaves
the memo as it is. -/

namespace TimedMemo

structure Load (κ ν : Type*) where
  key : κ
  start : Nat
  finish : Nat
  value : ν
  deriving DecidableEq, Repr

/-- `queued` before the lock, `loading` behind it. -/
inductive Stage where
  | queued
  | loading (start : Nat)
  | ended
  deriving DecidableEq, Repr

def Stage.isLoading : Stage → Bool
  | .loading _ => true
  | _ => false

structure Call (κ : Type*) where
  key : κ
  stage : Stage
  deriving DecidableEq, Repr

structure Answer (κ ν : Type*) where
  load : Load κ ν
  time : Nat
  deriving DecidableEq, Repr

/-- The loads that have succeeded and the answers that were given, the newest first. -/
structure Memo (κ ν : Type*) where
  now : Nat
  entries : κ → Option (Load κ ν)
  calls : List (Call κ)
  loads : List (Load κ ν)
  answers : List (Answer κ ν)

inductive Action (κ ν : Type*) where
  | wait (time : Nat)
  | call (key : κ)
  | acquire (call : Nat)
  | loaded (call : Nat) (value : ν)
  | failed (call : Nat)
  deriving DecidableEq, Repr

namespace Memo

variable {κ ν : Type*}

def new : Memo κ ν := ⟨0, fun _ => none, [], [], []⟩

def fresh (ttl : Nat) (s : Memo κ ν) (k : κ) : Option (Load κ ν) :=
  (s.entries k).filter (s.now < ·.finish + ttl)

def busy (s : Memo κ ν) : Bool := s.calls.any (Stage.isLoading ·.stage)

def addCall (s : Memo κ ν) (k : κ) (stage : Stage) : Memo κ ν :=
  { s with calls := s.calls ++ [⟨k, stage⟩] }

def setStage (s : Memo κ ν) (i : Nat) (c : Call κ) (stage : Stage) : Memo κ ν :=
  { s with calls := s.calls.set i { c with stage } }

def answer (s : Memo κ ν) (l : Load κ ν) : Memo κ ν :=
  { s with answers := ⟨l, s.now⟩ :: s.answers }

def store [DecidableEq κ] (s : Memo κ ν) (l : Load κ ν) : Memo κ ν :=
  { s with entries := Function.update s.entries l.key (some l), loads := l :: s.loads }

def step [DecidableEq κ] (ttl : Nat) (s : Memo κ ν) : Action κ ν → Option (Memo κ ν)
  | .wait time => some { s with now := s.now + time }
  | .call k =>
    match s.fresh ttl k with
    | some l => some ((s.addCall k .ended).answer l)
    | none => some (s.addCall k .queued)
  | .acquire i =>
    match s.calls[i]? with
    | some c =>
      if c.stage = .queued ∧ s.busy = false then
        match s.fresh ttl c.key with
        | some l => some ((s.setStage i c .ended).answer l)
        | none => some (s.setStage i c (.loading s.now))
      else none
    | none => none
  | .loaded i v =>
    match s.calls[i]? with
    | some c =>
      match c.stage with
      | .loading start =>
        let l : Load κ ν := ⟨c.key, start, s.now, v⟩
        some (((s.setStage i c .ended).store l).answer l)
      | _ => none
    | none => none
  | .failed i =>
    match s.calls[i]? with
    | some c => if c.stage = .ended then none else some (s.setStage i c .ended)
    | none => none

variable {ttl : Nat} {s t : Memo κ ν} {k : κ} {l : Load κ ν} {c : Call κ} {i : Nat} {stage : Stage}

/-- What is handed out is a load of the key that has ended a short while ago, and newer than what
was handed out for the key before. -/
structure Sound (ttl : Nat) (s : Memo κ ν) : Prop where
  entry : ∀ k l, s.entries k = some l → l ∈ s.loads ∧ l.key = k ∧ l.finish ≤ s.now
  newest : ∀ l ∈ s.loads, ∃ e, s.entries l.key = some e ∧ l.finish ≤ e.finish
  waited : ∀ c ∈ s.calls, ∀ start, c.stage = .loading start → start ≤ s.now ∧
    ∀ l, s.entries c.key = some l → l.finish + ttl ≤ start
  spans : ∀ l ∈ s.loads, l.start ≤ l.finish
  apart : s.loads.Pairwise fun l l' => l.key = l'.key → l'.finish + ttl ≤ l.start
  answered : ∀ a ∈ s.answers, a.load ∈ s.loads ∧ a.load.finish ≤ a.time ∧ a.time ≤ s.now ∧
    (a.time < a.load.finish + ttl ∨ a.time = a.load.finish)
  monotone : s.answers.Pairwise fun a a' => a.time ≥ a'.time ∧
    (a.load.key = a'.load.key → a'.load.finish ≤ a.load.finish)

/-- One call at most is behind the lock. -/
def Exclusive (s : Memo κ ν) : Prop :=
  ∀ (i j : Nat) (c d : Call κ), s.calls[i]? = some c → s.calls[j]? = some d →
    c.stage.isLoading = true → d.stage.isLoading = true → i = j

theorem sound_new : (new : Memo κ ν).Sound ttl := by
  constructor <;> simp [new]

theorem exclusive_new : (new : Memo κ ν).Exclusive := by
  intro i j c d hc
  cases hc

theorem fresh_some (h : s.fresh ttl k = some l) :
    s.entries k = some l ∧ s.now < l.finish + ttl := by
  obtain ⟨hentry, hlive⟩ := Option.filter_eq_some_iff.mp h
  exact ⟨hentry, by simpa using hlive⟩

theorem fresh_none (h : s.fresh ttl k = none) (hentry : s.entries k = some l) :
    l.finish + ttl ≤ s.now := by
  simpa [fresh, hentry, Option.filter] using h

theorem busy_false (h : s.busy = false) (hc : c ∈ s.calls) : c.stage.isLoading = false := by
  have hall := List.any_eq_false.mp h c hc
  simpa using hall

theorem getElem?_setStage {j : Nat} {d : Call κ} (h : (s.setStage i c stage).calls[j]? = some d) :
    j = i ∧ d = { c with stage } ∨ s.calls[j]? = some d := by
  simp only [setStage, List.getElem?_set] at h
  split_ifs at h with hij hlt
  · exact .inl ⟨hij.symm, (Option.some.inj h).symm⟩
  · exact .inr h

theorem getElem?_addCall {j : Nat} {d : Call κ} (h : (s.addCall k stage).calls[j]? = some d) :
    d = ⟨k, stage⟩ ∨ s.calls[j]? = some d := by
  rcases Nat.lt_or_ge j s.calls.length with hlt | hge
  · rw [addCall, List.getElem?_append_left hlt] at h
    exact .inr h
  · rw [addCall, List.getElem?_append_right hge] at h
    obtain ⟨hzero, rfl⟩ : j - s.calls.length = 0 ∧ (⟨k, stage⟩ : Call κ) = d := by
      simpa [List.getElem?_singleton] using h
    exact .inl rfl

theorem Exclusive.setStage (h : s.Exclusive) (hstage : stage.isLoading = false) :
    (s.setStage i c stage).Exclusive := by
  intro j j' d d' hd hd' hl hl'
  rcases getElem?_setStage hd with ⟨-, rfl⟩ | hd
  · simp [hstage] at hl
  · rcases getElem?_setStage hd' with ⟨-, rfl⟩ | hd'
    · simp [hstage] at hl'
    · exact h j j' d d' hd hd' hl hl'

theorem Exclusive.acquire (hfree : s.busy = false) : (s.setStage i c stage).Exclusive := by
  have hidle : ∀ (j : Nat) d, (s.setStage i c stage).calls[j]? = some d →
      d.stage.isLoading = true → j = i := by
    intro j d hd hl
    rcases getElem?_setStage hd with ⟨hj, -⟩ | hd
    · exact hj
    · simp [busy_false hfree (List.mem_of_getElem? hd)] at hl
  intro j j' d d' hd hd' hl hl'
  rw [hidle j d hd hl, hidle j' d' hd' hl']

theorem Exclusive.addCall (h : s.Exclusive) (hstage : stage.isLoading = false) :
    (s.addCall k stage).Exclusive := by
  intro j j' d d' hd hd' hl hl'
  rcases getElem?_addCall hd with rfl | hd
  · simp [hstage] at hl
  · rcases getElem?_addCall hd' with rfl | hd'
    · simp [hstage] at hl'
    · exact h j j' d d' hd hd' hl hl'

/-- Calls may end, come, or pass the lock when they have found nothing. -/
theorem Sound.of_calls (h : s.Sound ttl) {calls : List (Call κ)}
    (hcalls : ∀ c ∈ calls, ∀ start, c.stage = .loading start →
      c ∈ s.calls ∨ start = s.now ∧ s.fresh ttl c.key = none) :
    ({ s with calls } : Memo κ ν).Sound ttl := by
  refine ⟨h.entry, h.newest, fun c hc start hstage => ?_, h.spans, h.apart, h.answered, h.monotone⟩
  rcases hcalls c hc start hstage with hold | ⟨rfl, hnone⟩
  · exact h.waited c hold start hstage
  · exact ⟨Nat.le_refl _, fun l hl => fresh_none hnone hl⟩

theorem Sound.answer (h : s.Sound ttl) (hl : s.entries l.key = some l)
    (hlive : s.now < l.finish + ttl ∨ s.now = l.finish) : (s.answer l).Sound ttl := by
  obtain ⟨hmem, -, hfinish⟩ := h.entry l.key l hl
  refine ⟨h.entry, h.newest, h.waited, h.spans, h.apart, ?_, ?_⟩
  · intro a ha
    rcases List.mem_cons.mp ha with rfl | hold
    · exact ⟨hmem, hfinish, Nat.le_refl _, hlive⟩
    · exact h.answered a hold
  · refine List.pairwise_cons.mpr ⟨fun a ha => ?_, h.monotone⟩
    obtain ⟨hload, -, htime, -⟩ := h.answered a ha
    refine ⟨htime, fun hkey => ?_⟩
    obtain ⟨e, he, hle⟩ := h.newest a.load hload
    rw [← hkey, hl] at he
    obtain rfl := Option.some.inj he
    exact hle

theorem Sound.store [DecidableEq κ] (h : s.Sound ttl) (hidle : s.busy = false)
    (hnow : l.finish = s.now) (hspan : l.start ≤ l.finish)
    (hwait : ∀ e, s.entries l.key = some e → e.finish + ttl ≤ l.start) : (s.store l).Sound ttl := by
  have hbefore : ∀ l' ∈ s.loads, l'.key = l.key → l'.finish + ttl ≤ l.start := by
    intro l' hl' hkey
    obtain ⟨e, he, hle⟩ := h.newest l' hl'
    rw [hkey] at he
    have := hwait e he
    omega
  refine ⟨fun k e he => ?_, fun l' hl' => ?_, fun c hc start hstage => ?_, fun l' hl' => ?_, ?_,
    fun a ha => ?_, h.monotone⟩
  · by_cases hk : k = l.key
    · subst hk
      obtain rfl : l = e := by simpa [Memo.store] using he
      exact ⟨List.mem_cons_self, rfl, Nat.le_of_eq hnow⟩
    · obtain ⟨hmem, hrest⟩ := h.entry k e (by simpa [Memo.store, Function.update_of_ne hk] using he)
      exact ⟨List.mem_cons_of_mem _ hmem, hrest⟩
  · by_cases hkey : l'.key = l.key
    · refine ⟨l, by simp [Memo.store, hkey], ?_⟩
      rcases List.mem_cons.mp hl' with rfl | hold
      · exact Nat.le_refl _
      · have := hbefore l' hold hkey
        omega
    · rcases List.mem_cons.mp hl' with rfl | hold
      · exact absurd rfl hkey
      · obtain ⟨e, he, hle⟩ := h.newest l' hold
        exact ⟨e, by simpa [Memo.store, Function.update_of_ne hkey] using he, hle⟩
  · have hno := busy_false hidle hc
    simp [hstage, Stage.isLoading] at hno
  · rcases List.mem_cons.mp hl' with rfl | hold
    · exact hspan
    · exact h.spans l' hold
  · exact List.pairwise_cons.mpr ⟨fun l' hl' hkey => hbefore l' hl' hkey.symm, h.apart⟩
  · obtain ⟨hload, hrest⟩ := h.answered a ha
    exact ⟨List.mem_cons_of_mem _ hload, hrest⟩

theorem mem_setStage {d : Call κ} (h : d ∈ (s.setStage i c stage).calls) :
    d = { c with stage } ∨ d ∈ s.calls :=
  (List.mem_or_eq_of_mem_set h).symm

theorem sound_step [DecidableEq κ] {a : Action κ ν} (h : s.Sound ttl) (hex : s.Exclusive)
    (hs : step ttl s a = some t) : t.Sound ttl ∧ t.Exclusive := by
  have hended : ∀ (i : Nat) c, s.calls[i]? = some c → (s.setStage i c .ended).Sound ttl := by
    intro i c hc
    refine h.of_calls fun d hd start hstage => ?_
    rcases mem_setStage hd with rfl | hold
    · cases hstage
    · exact .inl hold
  cases a with
  | wait time =>
    cases hs
    refine ⟨⟨fun k l hl => ?_, h.newest, fun c hc start hstage => ?_, h.spans, h.apart,
      fun a ha => ?_, h.monotone⟩, hex⟩
    · obtain ⟨hmem, hkey, hle⟩ := h.entry k l hl
      exact ⟨hmem, hkey, Nat.le_trans hle (Nat.le_add_right _ _)⟩
    · obtain ⟨hle, hwait⟩ := h.waited c hc start hstage
      exact ⟨Nat.le_trans hle (Nat.le_add_right _ _), hwait⟩
    · obtain ⟨hload, hfinish, hle, hlive⟩ := h.answered a ha
      exact ⟨hload, hfinish, Nat.le_trans hle (Nat.le_add_right _ _), hlive⟩
  | call k =>
    have hadded : ∀ stage : Stage, stage.isLoading = false → (s.addCall k stage).Sound ttl := by
      intro stage hidle
      refine h.of_calls fun d hd start hstage => ?_
      rcases List.mem_append.mp hd with hold | hnew
      · exact .inl hold
      · obtain rfl := List.mem_singleton.mp hnew
        have hloading : stage = .loading start := hstage
        simp [hloading, Stage.isLoading] at hidle
    simp only [step] at hs
    split at hs
    · rename_i l hfresh
      cases hs
      obtain ⟨hentry, hlive⟩ := fresh_some hfresh
      obtain ⟨-, rfl, -⟩ := h.entry k l hentry
      exact ⟨(hadded .ended rfl).answer hentry (.inl hlive), hex.addCall rfl⟩
    · cases hs
      exact ⟨hadded .queued rfl, hex.addCall rfl⟩
  | acquire i =>
    simp only [step] at hs
    split at hs
    · rename_i c hc
      split at hs
      · rename_i hfree
        split at hs
        · rename_i l hfresh
          cases hs
          obtain ⟨hentry, hlive⟩ := fresh_some hfresh
          obtain ⟨-, hkey, -⟩ := h.entry c.key l hentry
          rw [← hkey] at hentry
          exact ⟨(hended i c hc).answer hentry (.inl hlive), Exclusive.setStage hex rfl⟩
        · rename_i hfresh
          cases hs
          refine ⟨h.of_calls fun d hd start hstage => ?_, Exclusive.acquire hfree.2⟩
          rcases mem_setStage hd with rfl | hold
          · cases hstage
            exact .inr ⟨rfl, hfresh⟩
          · exact .inl hold
      · cases hs
    · cases hs
  | loaded i v =>
    simp only [step] at hs
    split at hs
    · rename_i c hc
      split at hs
      · rename_i start hstage
        cases hs
        obtain ⟨hle, hwait⟩ := h.waited c (List.mem_of_getElem? hc) start hstage
        have hidle : (s.setStage i c .ended).busy = false := by
          refine List.any_eq_false.mpr fun d hd => ?_
          obtain ⟨j, hj⟩ := List.mem_iff_getElem?.mp hd
          rcases getElem?_setStage hj with ⟨-, rfl⟩ | hold
          · simp [Stage.isLoading]
          · intro hloading
            obtain rfl := hex j i d c hold hc hloading (by simp [hstage, Stage.isLoading])
            have hlt := (List.getElem?_eq_some_iff.mp hold).1
            obtain rfl : { c with stage := Stage.ended } = d := by
              simpa [setStage, hlt] using hj
            cases hloading
        have hstored := (hended i c hc).store hidle (l := ⟨c.key, start, s.now, v⟩) rfl hle hwait
        exact ⟨hstored.answer (by simp [Memo.store]) (.inr rfl), Exclusive.setStage hex rfl⟩
      · cases hs
    · cases hs
  | failed i =>
    simp only [step] at hs
    split at hs
    · rename_i c hc
      split_ifs at hs
      cases hs
      exact ⟨hended i c hc, hex.setStage rfl⟩
    · cases hs

theorem sound_run [DecidableEq κ] {as : List (Action κ ν)}
    (hrun : StepSystem.run (step ttl) (new : Memo κ ν) as = some t) : t.Sound ttl := by
  have hboth : t.Sound ttl ∧ t.Exclusive :=
    StepSystem.run_invariant (fun s a t hs => sound_step hs.1 hs.2)
      ⟨sound_new, exclusive_new⟩ hrun
  exact hboth.1

/-- What has been loaded is what some load has answered. -/
theorem mem_loads [DecidableEq κ] {as : List (Action κ ν)}
    (hrun : StepSystem.run (step ttl) s as = some t) (hl : l ∈ t.loads) :
    l ∈ s.loads ∨ ∃ i, Action.loaded i l.value ∈ as := by
  induction as generalizing s with
  | nil =>
    obtain rfl : s = t := by simpa [StepSystem.run] using hrun
    exact .inl hl
  | cons a as ih =>
    obtain ⟨u, hu, ht⟩ := StepSystem.run_cons.mp hrun
    rcases ih ht with hu' | ⟨i, hi⟩
    · cases a with
      | loaded i v =>
        simp only [step] at hu
        split at hu
        · split at hu
          · cases hu
            rcases List.mem_cons.mp hu' with rfl | hold
            · exact .inr ⟨i, List.mem_cons_self⟩
            · exact .inl hold
          · cases hu
        · cases hu
      | wait time =>
        cases hu
        exact .inl hu'
      | call k =>
        simp only [step] at hu
        split at hu <;> cases hu <;> exact .inl hu'
      | acquire i =>
        simp only [step] at hu
        split at hu
        · split_ifs at hu
          split at hu <;> cases hu <;> exact .inl hu'
        · cases hu
      | failed i =>
        simp only [step] at hu
        split at hu
        · split_ifs at hu
          cases hu
          exact .inl hu'
        · cases hu
    · exact .inr ⟨i, List.mem_cons_of_mem _ hi⟩

theorem spaced {starts : List Nat} {first last : Nat}
    (h : starts.Pairwise fun n n' => n' + ttl ≤ n) (hfirst : ∀ n ∈ starts, first ≤ n)
    (hlast : ∀ n ∈ starts, n ≤ last) : (starts.length - 1) * ttl ≤ last - first := by
  have hreach : ∀ n (rest : List Nat), (n :: rest).Pairwise (fun n n' => n' + ttl ≤ n) →
      (∀ m ∈ n :: rest, first ≤ m) → rest.length * ttl + first ≤ n := by
    intro n rest
    induction rest generalizing n with
    | nil => intro _ hge; simpa using hge
    | cons m rest ih =>
      intro hpair hge
      obtain ⟨hhead, htail⟩ := List.pairwise_cons.mp hpair
      have hm := ih m htail fun x hx => hge x (List.mem_cons_of_mem _ hx)
      have hn := hhead m List.mem_cons_self
      rw [List.length_cons, Nat.succ_mul]
      omega
  cases starts with
  | nil => simp
  | cons n rest =>
    have hn := hreach n rest h hfirst
    have hle := hlast n List.mem_cons_self
    simp only [List.length_cons, Nat.add_sub_cancel]
    omega

/-- The loads of one key that start in a stretch of time are at most one more than the times to
live that fit in it. -/
theorem Sound.loads_in_stretch [DecidableEq κ] (h : s.Sound ttl) (k : κ) (first last : Nat) :
    ((s.loads.filter fun l => l.key = k ∧ first ≤ l.start ∧ l.start ≤ last).length - 1) * ttl ≤
      last - first := by
  have hmem : ∀ l ∈ s.loads.filter (fun l => l.key = k ∧ first ≤ l.start ∧ l.start ≤ last),
      l ∈ s.loads ∧ l.key = k ∧ first ≤ l.start ∧ l.start ≤ last := by
    intro l hl
    simpa using List.mem_filter.mp hl
  rw [← List.length_map (Load.start (κ := κ) (ν := ν))]
  refine spaced ?_ ?_ ?_
  · refine List.pairwise_map.mpr ((h.apart.filter _).imp_of_mem fun {l l'} hl hl' hapart => ?_)
    have hkey := (hmem l hl).2.1.trans (hmem l' hl').2.1.symm
    have hspan := h.spans l' (hmem l' hl').1
    have := hapart hkey
    omega
  · simp only [List.mem_map, forall_exists_index, and_imp, forall_apply_eq_imp_iff₂]
    exact fun l hl => (hmem l hl).2.2.1
  · simp only [List.mem_map, forall_exists_index, and_imp, forall_apply_eq_imp_iff₂]
    exact fun l hl => (hmem l hl).2.2.2

end Memo

end TimedMemo
