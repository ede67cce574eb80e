import Mathlib.Data.List.Basic
import Mathlib.Logic.Function.Basic
import DataService.Lib.StepSystem

/-! A cache that revalidates what it holds with the server it came from. A stored answer is shown
while it is fresh; then the cache sends its tag, and the server answers in full or says that nothing
has changed. Several requests may be under way for one key, and their answers may arrive in any
order or never. -/

namespace Revalidation

inductive Answer (τ β : Type*) where
  | full (tag : τ) (body : β) (lifetime : Nat)
  /-- with the lifetime it restates, if it does -/
  | notModified (lifetime : Option Nat)
  | error (status : Nat)
  deriving DecidableEq, Repr

/-- Fresh until its lifetime has passed since the server's date. -/
structure Entry (τ β : Type*) where
  tag : τ
  body : β
  lifetime : Nat
  date : Nat
  deriving DecidableEq, Repr

inductive Stage (τ β : Type*) where
  | sent
  | answered (date : Nat) (answer : Answer τ β)
  | ended
  deriving DecidableEq, Repr

def Stage.isSent {τ β : Type*} : Stage τ β → Bool
  | .sent => true
  | _ => false

structure Request (κ τ β : Type*) where
  key : κ
  launched : Nat
  stored : Option (Entry τ β)
  stage : Stage τ β
  deriving DecidableEq, Repr

/-- A `304` is about the entry that the request was sent for. -/
def Request.freshened {κ τ β : Type*} (r : Request κ τ β) (date : Nat) (lifetime : Option Nat) :
    Option (Entry τ β) :=
  r.stored.map fun e => { e with lifetime := lifetime.getD e.lifetime, date }

/-- What the server found when it answered. -/
structure Exchange (κ δ : Type*) where
  key : κ
  time : Nat
  found : δ
  deriving DecidableEq, Repr

structure Shown (κ τ β : Type*) where
  key : κ
  launched : Nat
  time : Nat
  outcome : Except Nat (τ × β)

structure Cache (κ τ β δ : Type*) where
  now : Nat
  entries : κ → Option (Entry τ β)
  requests : List (Request κ τ β)
  exchanges : List (Exchange κ δ)
  shown : List (Shown κ τ β)

inductive Action (κ δ : Type*) where
  | wait (time : Nat)
  | view (key : κ)
  | serve (request : Nat) (found : δ)
  | deliver (request : Nat)
  deriving DecidableEq, Repr

/-- What the server does with a tag, for each thing it may find. -/
abbrev Handler (κ τ β δ : Type*) := κ → Option τ → δ → Answer τ β

/-- `Right` says which answers fit what the server finds. A tag that is `Lasting` may be confirmed
whatever the server finds; any other only where what it stands for is still right. -/
structure Validates {κ τ β δ : Type*} (handle : Handler κ τ β δ) (Right : κ → δ → τ → β → Prop)
    (Lasting : κ → τ → Prop) (lifetimeOf : κ → τ → Nat) : Prop where
  full : ∀ {k sent d tag body lifetime}, handle k sent d = .full tag body lifetime →
    Right k d tag body ∧ lifetime = lifetimeOf k tag
  kept : ∀ {k tag d lifetime}, handle k (some tag) d = .notModified lifetime →
    Lasting k tag ∨ ∀ d' body, Right k d' tag body → Right k d tag body
  restated : ∀ {k tag d lifetime}, handle k (some tag) d = .notModified (some lifetime) →
    lifetime = lifetimeOf k tag

namespace Cache

variable {κ τ β δ : Type*}

def new : Cache κ τ β δ := ⟨0, fun _ => none, [], [], []⟩

def fresh (s : Cache κ τ β δ) (k : κ) : Option (Entry τ β) :=
  (s.entries k).filter fun e => s.now < e.date + e.lifetime

def display (s : Cache κ τ β δ) (k : κ) (launched : Nat) (outcome : Except Nat (τ × β)) :
    Cache κ τ β δ :=
  { s with shown := ⟨k, launched, s.now, outcome⟩ :: s.shown }

def setStage (s : Cache κ τ β δ) (i : Nat) (r : Request κ τ β) (stage : Stage τ β) :
    Cache κ τ β δ :=
  { s with requests := s.requests.set i { r with stage } }

def store [DecidableEq κ] (s : Cache κ τ β δ) (k : κ) (e : Entry τ β) : Cache κ τ β δ :=
  { s with entries := Function.update s.entries k (some e) }

def onAnswer [DecidableEq κ] (s : Cache κ τ β δ) (r : Request κ τ β) (date : Nat) :
    Answer τ β → Option (Cache κ τ β δ)
  | .full tag body lifetime =>
    some ((s.store r.key ⟨tag, body, lifetime, date⟩).display r.key r.launched (.ok (tag, body)))
  | .notModified lifetime =>
    (r.freshened date lifetime).map fun e =>
      (s.store r.key e).display r.key r.launched (.ok (e.tag, e.body))
  | .error status => some (s.display r.key r.launched (.error status))

def step [DecidableEq κ] (handle : Handler κ τ β δ) (s : Cache κ τ β δ) :
    Action κ δ → Option (Cache κ τ β δ)
  | .wait time => some { s with now := s.now + time }
  | .view k =>
    match s.fresh k with
    | some e => some (s.display k s.now (.ok (e.tag, e.body)))
    | none => some { s with requests := s.requests ++ [⟨k, s.now, s.entries k, .sent⟩] }
  | .serve i found =>
    match s.requests[i]? with
    | some r =>
      if r.stage.isSent then
        let answer := handle r.key (r.stored.map (·.tag)) found
        let t := s.setStage i r (.answered s.now answer)
        some { t with exchanges := ⟨r.key, s.now, found⟩ :: s.exchanges }
      else none
    | none => none
  | .deliver i =>
    match s.requests[i]? with
    | some r =>
      match r.stage with
      | .answered date answer => (s.setStage i r .ended).onAnswer r date answer
      | _ => none
    | none => none

section Soundness

variable (handle : Handler κ τ β δ) (Right : κ → δ → τ → β → Prop) (Lasting : κ → τ → Prop)
  (lifetimeOf : κ → τ → Nat)

/-- The server has once found what the entry says, and it was at its date unless the tag lasts. -/
structure EntryOk (now : Nat) (exchanges : List (Exchange κ δ)) (k : κ) (e : Entry τ β) : Prop where
  found : ∃ x ∈ exchanges, x.key = k ∧ Right k x.found e.tag e.body ∧ x.time ≤ now ∧
    (Lasting k e.tag ∨ x.time = e.date)
  lifetime : e.lifetime = lifetimeOf k e.tag
  past : e.date ≤ now

/-- What is shown fits what the server found at some moment. Unless the tag lasts, that moment is
less than the tag's lifetime ago, or the server was asked for this very view. -/
def Justified (exchanges : List (Exchange κ δ)) (v : Shown κ τ β) : Prop :=
  match v.outcome with
  | .ok (tag, body) => ∃ x ∈ exchanges, x.key = v.key ∧ Right v.key x.found tag body ∧
      x.time ≤ v.time ∧
        (Lasting v.key tag ∨ v.time < x.time + lifetimeOf v.key tag ∨ v.launched ≤ x.time)
  | .error status => ∃ x ∈ exchanges, x.key = v.key ∧ v.launched ≤ x.time ∧ x.time ≤ v.time ∧
      ∃ sent, handle v.key sent x.found = .error status

structure Backed (s : Cache κ τ β δ) : Prop where
  entry : ∀ k e, s.entries k = some e → EntryOk Right Lasting lifetimeOf s.now s.exchanges k e
  stored : ∀ r ∈ s.requests, ∀ e, r.stored = some e →
    EntryOk Right Lasting lifetimeOf s.now s.exchanges r.key e
  launched : ∀ r ∈ s.requests, r.launched ≤ s.now
  answered : ∀ r ∈ s.requests, ∀ date a, r.stage = .answered date a →
    r.launched ≤ date ∧ date ≤ s.now ∧
      ∃ x ∈ s.exchanges, x.key = r.key ∧ x.time = date ∧
        a = handle r.key (r.stored.map (·.tag)) x.found
  shown : ∀ v ∈ s.shown, Justified handle Right Lasting lifetimeOf s.exchanges v

variable {handle Right Lasting lifetimeOf} {s t : Cache κ τ β δ} {k : κ} {e : Entry τ β}
  {r : Request κ τ β} {i : Nat}

theorem backed_new : (new : Cache κ τ β δ).Backed handle Right Lasting lifetimeOf := by
  constructor <;> simp [new]

theorem fresh_some (h : s.fresh k = some e) :
    s.entries k = some e ∧ s.now < e.date + e.lifetime := by
  obtain ⟨hentry, hlive⟩ := Option.filter_eq_some_iff.mp h
  exact ⟨hentry, by simpa using hlive⟩

theorem EntryOk.mono {now now' : Nat} {xs ys : List (Exchange κ δ)}
    (h : EntryOk Right Lasting lifetimeOf now xs k e) (hnow : now ≤ now') (hsub : xs ⊆ ys) :
    EntryOk Right Lasting lifetimeOf now' ys k e := by
  obtain ⟨⟨x, hx, hkey, hright, htime, hlast⟩, hlifetime, hpast⟩ := h
  exact ⟨⟨x, hsub hx, hkey, hright, Nat.le_trans htime hnow, hlast⟩, hlifetime,
    Nat.le_trans hpast hnow⟩

theorem Justified.mono {xs ys : List (Exchange κ δ)} {v : Shown κ τ β}
    (h : Justified handle Right Lasting lifetimeOf xs v) (hsub : xs ⊆ ys) :
    Justified handle Right Lasting lifetimeOf ys v := by
  cases hv : v.outcome with
  | ok shown =>
    simp only [Justified, hv] at h ⊢
    obtain ⟨x, hx, hrest⟩ := h
    exact ⟨x, hsub hx, hrest⟩
  | error status =>
    simp only [Justified, hv] at h ⊢
    obtain ⟨x, hx, hrest⟩ := h
    exact ⟨x, hsub hx, hrest⟩

/-- Time passes and the server is asked: nothing that was backed stops being so. -/
theorem Backed.later (h : s.Backed handle Right Lasting lifetimeOf)
    (hnow : s.now ≤ t.now) (hexchanges : s.exchanges ⊆ t.exchanges)
    (hentries : t.entries = s.entries) (hrequests : t.requests = s.requests)
    (hshown : t.shown = s.shown) : t.Backed handle Right Lasting lifetimeOf where
  entry k e he := (h.entry k e (hentries ▸ he)).mono hnow hexchanges
  stored r hr e he := (h.stored r (hrequests ▸ hr) e he).mono hnow hexchanges
  launched r hr := Nat.le_trans (h.launched r (hrequests ▸ hr)) hnow
  answered r hr date a ha := by
    obtain ⟨hlaunched, hdate, x, hx, hrest⟩ := h.answered r (hrequests ▸ hr) date a ha
    exact ⟨hlaunched, Nat.le_trans hdate hnow, x, hexchanges hx, hrest⟩
  shown v hv := (h.shown v (hshown ▸ hv)).mono hexchanges

theorem Backed.display (h : s.Backed handle Right Lasting lifetimeOf) {launched : Nat}
    {outcome : Except Nat (τ × β)}
    (hv : Justified handle Right Lasting lifetimeOf s.exchanges ⟨k, launched, s.now, outcome⟩) :
    (s.display k launched outcome).Backed handle Right Lasting lifetimeOf where
  entry := h.entry
  stored := h.stored
  launched := h.launched
  answered := h.answered
  shown v hmem := by
    obtain rfl | hmem := List.mem_cons.mp hmem
    · exact hv
    · exact h.shown v hmem

theorem Backed.store [DecidableEq κ] (h : s.Backed handle Right Lasting lifetimeOf)
    (he : EntryOk Right Lasting lifetimeOf s.now s.exchanges k e) :
    (s.store k e).Backed handle Right Lasting lifetimeOf where
  entry k' e' he' := by
    by_cases hk : k' = k
    · obtain rfl := hk
      obtain rfl : e = e' := by simpa [Cache.store] using he'
      exact he
    · exact h.entry k' e' (by simpa [Cache.store, hk] using he')
  stored := h.stored
  launched := h.launched
  answered := h.answered
  shown := h.shown

/-- A request is added or gets on. -/
theorem Backed.requests {requests : List (Request κ τ β)}
    (h : s.Backed handle Right Lasting lifetimeOf)
    (hrequests : ∀ r ∈ requests, r.launched ≤ s.now ∧
      (∀ e, r.stored = some e → EntryOk Right Lasting lifetimeOf s.now s.exchanges r.key e) ∧
      ∀ date a, r.stage = .answered date a → r.launched ≤ date ∧ date ≤ s.now ∧
        ∃ x ∈ s.exchanges, x.key = r.key ∧ x.time = date ∧
          a = handle r.key (r.stored.map (·.tag)) x.found) :
    ({ s with requests } : Cache κ τ β δ).Backed handle Right Lasting lifetimeOf where
  entry := h.entry
  stored r hr := (hrequests r hr).2.1
  launched r hr := (hrequests r hr).1
  answered r hr := (hrequests r hr).2.2
  shown := h.shown

theorem Backed.setStage (h : s.Backed handle Right Lasting lifetimeOf) (hr : r ∈ s.requests)
    {stage : Stage τ β}
    (hstage : ∀ date a, stage = .answered date a → r.launched ≤ date ∧ date ≤ s.now ∧
      ∃ x ∈ s.exchanges, x.key = r.key ∧ x.time = date ∧
        a = handle r.key (r.stored.map (·.tag)) x.found) :
    (s.setStage i r stage).Backed handle Right Lasting lifetimeOf := by
  refine h.requests fun r' hr' => ?_
  obtain hr' | rfl := List.mem_or_eq_of_mem_set hr'
  · exact ⟨h.launched r' hr', h.stored r' hr', h.answered r' hr'⟩
  · exact ⟨h.launched r hr, h.stored r hr, hstage⟩

/-- An answer that arrives is backed by the exchange in which it was given. -/
theorem Backed.onAnswer [DecidableEq κ] (hvalid : Validates handle Right Lasting lifetimeOf)
    (h : s.Backed handle Right Lasting lifetimeOf) {date : Nat} {a : Answer τ β}
    (hstored : ∀ e, r.stored = some e → EntryOk Right Lasting lifetimeOf s.now s.exchanges r.key e)
    (hlaunched : r.launched ≤ date) (hdate : date ≤ s.now)
    (hx : ∃ x ∈ s.exchanges, x.key = r.key ∧ x.time = date ∧
      a = handle r.key (r.stored.map (·.tag)) x.found)
    (ht : s.onAnswer r date a = some t) : t.Backed handle Right Lasting lifetimeOf := by
  obtain ⟨x, hmem, hkey, rfl, ha⟩ := hx
  have shows : ∀ e : Entry τ β, e.date = x.time →
      EntryOk Right Lasting lifetimeOf s.now s.exchanges r.key e →
      ((s.store r.key e).display r.key r.launched (.ok (e.tag, e.body))).Backed handle Right
        Lasting lifetimeOf := by
    intro e hedate he
    refine (h.store he).display ?_
    obtain ⟨y, hy, hykey, hright, htime, hlast⟩ := he.found
    refine ⟨y, hy, hykey, hright, htime, ?_⟩
    refine hlast.imp_right fun heq => .inr ?_
    have hle : r.launched ≤ y.time := by omega
    exact hle
  cases a with
  | full tag body lifetime =>
    obtain ⟨hright, hlifetime⟩ := hvalid.full ha.symm
    cases ht
    exact shows ⟨tag, body, lifetime, x.time⟩ rfl
      ⟨⟨x, hmem, hkey, hright, hdate, .inr rfl⟩, hlifetime, hdate⟩
  | notModified lifetime =>
    obtain ⟨e', he', rfl⟩ := Option.map_eq_some_iff.mp ht
    obtain ⟨e, hstoredEq, rfl⟩ := Option.map_eq_some_iff.mp he'
    have hok := hstored e hstoredEq
    rw [hstoredEq, Option.map_some] at ha
    refine shows _ rfl ⟨?_, ?_, hdate⟩
    · obtain ⟨y, hy, hykey, hright, htime, -⟩ := hok.found
      obtain hlasts | hcarries := hvalid.kept ha.symm
      · exact ⟨y, hy, hykey, hright, htime, .inl hlasts⟩
      · exact ⟨x, hmem, hkey, hcarries _ _ hright, hdate, .inr rfl⟩
    · cases lifetime with
      | none => exact hok.lifetime
      | some l => exact hvalid.restated ha.symm
  | error status =>
    cases ht
    exact h.display ⟨x, hmem, hkey, hlaunched, hdate, _, ha.symm⟩

theorem Backed.view (h : s.Backed handle Right Lasting lifetimeOf) (hfresh : s.fresh k = some e) :
    (s.display k s.now (.ok (e.tag, e.body))).Backed handle Right Lasting lifetimeOf := by
  obtain ⟨hentry, hlive⟩ := fresh_some hfresh
  have hok := h.entry k e hentry
  obtain ⟨y, hy, hykey, hright, htime, hlast⟩ := hok.found
  refine h.display ⟨y, hy, hykey, hright, htime, hlast.imp_right fun heq => .inl ?_⟩
  have hlifetime := hok.lifetime
  have hlt : s.now < y.time + lifetimeOf k e.tag := by omega
  exact hlt

theorem backed_step [DecidableEq κ] (hvalid : Validates handle Right Lasting lifetimeOf)
    (h : s.Backed handle Right Lasting lifetimeOf) {a : Action κ δ}
    (ht : step handle s a = some t) : t.Backed handle Right Lasting lifetimeOf := by
  cases a with
  | wait time =>
    cases ht
    exact h.later (Nat.le_add_right _ _) (List.Subset.refl _) rfl rfl rfl
  | view k =>
    simp only [step] at ht
    split at ht
    · next e hfresh =>
      cases ht
      exact h.view hfresh
    · cases ht
      refine h.requests fun r hr => ?_
      obtain hr | hr := List.mem_append.mp hr
      · exact ⟨h.launched r hr, h.stored r hr, h.answered r hr⟩
      · obtain rfl := List.mem_singleton.mp hr
        exact ⟨Nat.le_refl _, fun e he => h.entry k e he, fun date a ha => by cases ha⟩
  | serve i found =>
    simp only [step] at ht
    split at ht
    · next r hi =>
      split at ht
      · cases ht
        have hr := List.mem_of_getElem? hi
        let u : Cache κ τ β δ := { s with exchanges := ⟨r.key, s.now, found⟩ :: s.exchanges }
        have hu : u.Backed handle Right Lasting lifetimeOf :=
          h.later (Nat.le_refl _) (List.subset_cons_self _ _) rfl rfl rfl
        refine hu.setStage (i := i) (r := r) hr fun date a ha => ?_
        cases ha
        exact ⟨h.launched r hr, Nat.le_refl _, _, List.mem_cons_self, rfl, rfl, rfl⟩
      · cases ht
    · cases ht
  | deliver i =>
    simp only [step] at ht
    split at ht
    · next r hi =>
      split at ht
      · next date a hstage =>
        have hr := List.mem_of_getElem? hi
        obtain ⟨hlaunched, hdate, hx⟩ := h.answered r hr date a hstage
        have hended : (s.setStage i r .ended).Backed handle Right Lasting lifetimeOf :=
          h.setStage hr fun date a ha => by cases ha
        exact hended.onAnswer hvalid (h.stored r hr) hlaunched hdate hx ht
      · cases ht
    · cases ht

/-- Whatever a cache shows is backed by what the server found. -/
theorem shown_justified [DecidableEq κ] (hvalid : Validates handle Right Lasting lifetimeOf)
    {as : List (Action κ δ)} (ht : StepSystem.run (step handle) new as = some t)
    {v : Shown κ τ β} (hv : v ∈ t.shown) :
    Justified handle Right Lasting lifetimeOf t.exchanges v :=
  (StepSystem.run_invariant (fun _ _ _ hs hstep => backed_step hvalid hs hstep) backed_new
    ht).shown v hv

end Soundness

end Cache

end Revalidation
