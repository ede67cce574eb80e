import Mathlib.Logic.Function.Basic
import DataService.Lib.StepSystem

/-! `BasemapTileReader.get_tile` for the callers of one tile key. The first caller runs the
chain under the deadline and owns a future; those who come while it runs await that very
future. `_check_provider_available` shares its probe in the same way. -/

namespace DataService

variable {V E : Type}

/-- How a call ends: with the tile or None, with an exception, or with a CancelledError. -/
inductive CallEnd (V E : Type) where
  | returned (v : Option V)
  | raised (e : E)
  | cancelled
  deriving DecidableEq, Repr

/-- How a run of the provider, Redis and S3 chain ends. -/
inductive ChainEnd (V E : Type) where
  | returned (v : Option V)
  | deadline
  | raised (e : E)
  deriving DecidableEq, Repr

def ChainEnd.callEnd : ChainEnd V E → CallEnd V E
  | .returned v => .returned v
  | .deadline => .returned none
  | .raised e => .raised e

/-- `leader` is the call whose future this one awaits, itself if it owns the future.
`cancelRequested` when somebody has cancelled its task. -/
structure TileCall (V E : Type) where
  leader : Nat
  ended : Option (CallEnd V E)
  cancelRequested : Bool
  deriving DecidableEq, Repr

/-- The future of a leader, pending if it has no result, and how its chain has ended. -/
structure Flight (V E : Type) where
  future : Option (CallEnd V E)
  chain : Option (ChainEnd V E)
  deriving DecidableEq, Repr

/-- The entry of the key in the in-flight table, and all calls for the key so far. -/
structure SingleFlight (V E : Type) where
  inflight : Option Nat
  flights : Nat → Option (Flight V E)
  calls : Nat → Option (TileCall V E)

inductive FlightAction (V E : Type) where
  | arrive (i : Nat)
  /-- the chain of the leader ends -/
  | chain (i : Nat) (e : ChainEnd V E)
  /-- the cancellation of the leader gets out of its chain -/
  | unwind (i : Nat)
  | cancel (i : Nat)
  /-- a follower whose future is done goes on -/
  | resume (i : Nat)
  deriving DecidableEq, Repr

namespace SingleFlight

def empty : SingleFlight V E := ⟨none, fun _ => none, fun _ => none⟩

def setCall (s : SingleFlight V E) (i : Nat) (c : TileCall V E) : SingleFlight V E :=
  { s with calls := Function.update s.calls i (some c) }

def setFlight (s : SingleFlight V E) (i : Nat) (fl : Flight V E) : SingleFlight V E :=
  { s with flights := Function.update s.flights i (some fl) }

/-- The first caller enters its future into the table. -/
def lead (s : SingleFlight V E) (i : Nat) : SingleFlight V E :=
  { (s.setFlight i ⟨none, none⟩).setCall i ⟨i, none, false⟩ with inflight := some i }

/-- Another caller finds a future there; an await of a future that is done does not wait. -/
def follow (s : SingleFlight V E) (i l : Nat) : SingleFlight V E :=
  s.setCall i ⟨l, (s.flights l).bind (·.future), false⟩

/-- `if not fut.done()`: the first result stays. -/
def settle (fl : Flight V E) (r : CallEnd V E) : Flight V E :=
  { fl with future := fl.future.or (some r) }

/-- The leader leaves `get_tile`, and with it the table. -/
def leave (s : SingleFlight V E) (i : Nat) (c : TileCall V E) (fl : Flight V E) (r : CallEnd V E) :
    SingleFlight V E :=
  { (s.setFlight i (settle fl r)).setCall i { c with ended := some r } with inflight := none }

end SingleFlight

open SingleFlight in
/-- A task that is cancelled while it awaits the shared future cancels the future. -/
def flightStep (s : SingleFlight V E) : FlightAction V E → Option (SingleFlight V E)
  | .arrive i =>
    match s.calls i, s.inflight with
    | none, none => some (s.lead i)
    | none, some l => some (s.follow i l)
    | some _, _ => none
  | .chain i e =>
    match s.calls i, s.flights i with
    | some ⟨l, none, cancelled⟩, some fl =>
      if l = i then some (s.leave i ⟨l, none, cancelled⟩ { fl with chain := some e } e.callEnd)
      else none
    | _, _ => none
  | .unwind i =>
    match s.calls i, s.flights i with
    | some ⟨l, none, true⟩, some fl =>
      if l = i then some (s.leave i ⟨l, none, true⟩ fl .cancelled) else none
    | _, _ => none
  | .cancel i =>
    match s.calls i with
    | some ⟨l, none, _⟩ =>
      if l = i then some (s.setCall i ⟨l, none, true⟩)
      else
        (s.flights l).map fun fl =>
          (s.setFlight l (settle fl .cancelled)).setCall i ⟨l, none, true⟩
    | _ => none
  | .resume i =>
    match s.calls i with
    | some ⟨l, none, cancelled⟩ =>
      if l = i then none
      else
        ((s.flights l).bind (·.future)).map fun r =>
          s.setCall i ⟨l, some (if cancelled then .cancelled else r), cancelled⟩
    | _ => none

namespace SingleFlight

/-- The call ended as a chain run of its flight did, the deadline counting as None. -/
def Explained (s : SingleFlight V E) (l : Nat) (r : CallEnd V E) : Prop :=
  ∃ fl e, s.flights l = some fl ∧ fl.chain = some e ∧ r = e.callEnd

/-- Some call of the flight was cancelled. -/
def Disturbed (s : SingleFlight V E) (l : Nat) : Prop :=
  ∃ j c, s.calls j = some c ∧ c.leader = l ∧ c.cancelRequested = true

structure Sound (s : SingleFlight V E) : Prop where
  leading : ∀ i c, s.calls i = some c → c.leader = i → c.ended = none → s.inflight = some i
  inflight : ∀ l, s.inflight = some l → ∃ c fl, s.calls l = some c ∧ c.leader = l ∧
    c.ended = none ∧ s.flights l = some fl ∧ fl.chain = none
  flight : ∀ i c, s.calls i = some c → ∃ cl fl, s.calls c.leader = some cl ∧
    cl.leader = c.leader ∧ s.flights c.leader = some fl ∧
    (cl.ended.isSome = true → fl.future.isSome = true)
  owner : ∀ l fl, s.flights l = some fl → (s.calls l).isSome = true
  future : ∀ l fl r, s.flights l = some fl → fl.future = some r → s.Explained l r ∨ s.Disturbed l
  ended : ∀ i c r, s.calls i = some c → c.ended = some r → c.cancelRequested = false →
    s.Explained c.leader r ∨ (c.leader ≠ i ∧ s.Disturbed c.leader)

section Steps

variable {s t : SingleFlight V E} {i j l : Nat} {c c' : TileCall V E} {fl : Flight V E}
  {r : CallEnd V E}

theorem setCall_calls : (s.setCall i c).calls j = if j = i then some c else s.calls j :=
  Function.update_apply ..

theorem setFlight_flights :
    (s.setFlight i fl).flights j = if j = i then some fl else s.flights j :=
  Function.update_apply ..

theorem isSome_settle (fl : Flight V E) (r : CallEnd V E) : (settle fl r).future.isSome = true := by
  unfold settle
  cases fl.future <;> rfl

theorem settle_future {r' : CallEnd V E} (h : (settle fl r).future = some r') :
    fl.future = some r' ∨ r' = r := by
  unfold settle at h
  cases hf : fl.future with
  | none =>
    simp only [hf, Option.none_or, Option.some.injEq] at h
    exact .inr h.symm
  | some r'' =>
    simp only [hf, Option.some_or, Option.some.injEq] at h
    exact .inl (congrArg some h)

/-- What has happened to a flight stays so: its chain has ended as it has, and a cancelled
call of it was cancelled. -/
theorem kept (hfl : ∀ l fl e, s.flights l = some fl → fl.chain = some e →
      ∃ fl', t.flights l = some fl' ∧ fl'.chain = some e)
    (hc : ∀ j c, s.calls j = some c → ∃ c', t.calls j = some c' ∧ c'.leader = c.leader ∧
      (c.cancelRequested = true → c'.cancelRequested = true)) (l : Nat) :
    (∀ r, s.Explained l r → t.Explained l r) ∧ (s.Disturbed l → t.Disturbed l) := by
  constructor
  · intro r h
    obtain ⟨fl, e, h, he, hr⟩ := h
    obtain ⟨fl', h', he'⟩ := hfl l fl e h he
    exact ⟨fl', e, h', he', hr⟩
  · intro h
    obtain ⟨j, c, h, hl, hr⟩ := h
    obtain ⟨c', h', hl', hr'⟩ := hc j c h
    exact ⟨j, c', h', hl'.trans hl, hr' hr⟩

theorem Sound.setCall (h : s.Sound) (hc : s.calls i = some c) (hleader : c'.leader = c.leader)
    (hcancel : c.cancelRequested = true → c'.cancelRequested = true)
    (hended : c'.ended = c.ended ∨ c.leader ≠ i ∧ ∃ r, c'.ended = some r ∧
      (c'.cancelRequested = false → s.Explained c.leader r ∨ s.Disturbed c.leader))
    (hopen : c.ended = none) : (s.setCall i c').Sound := by
  have howner : ∀ j, (s.calls j).isSome = true → ((s.setCall i c').calls j).isSome = true := by
    intro j hj
    rw [setCall_calls]
    split
    · rfl
    · exact hj
  have hkept := kept (s := s) (t := s.setCall i c') (fun l fl e hfl he => ⟨fl, hfl, he⟩) (by
    intro j x hx
    rw [setCall_calls]
    split
    · next hj =>
      obtain rfl : x = c := Option.some.inj (hx.symm.trans (hj ▸ hc))
      exact ⟨c', rfl, hleader, hcancel⟩
    · exact ⟨x, hx, rfl, id⟩)
  refine ⟨?_, ?_, ?_, fun l fl hfl => howner l (h.owner l fl hfl), ?_, ?_⟩
  · intro j x hx hl hn
    rw [setCall_calls] at hx
    split at hx
    · next hj =>
      obtain rfl : c' = x := Option.some.inj hx
      have hli : c.leader = i := by rw [← hleader, hl, hj]
      rw [hj]
      exact h.leading i c hc hli hopen
    · exact h.leading j x hx hl hn
  · intro l hl
    obtain ⟨x, fl, hx, hxl, hn, hfl, hch⟩ := h.inflight l hl
    by_cases hj : l = i
    · subst hj
      obtain rfl : x = c := Option.some.inj (hx.symm.trans hc)
      refine ⟨c', fl, by simp [setCall_calls], hleader.trans hxl, ?_, hfl, hch⟩
      rcases hended with he | ⟨hne, -⟩
      · exact he.trans hn
      · exact absurd hxl hne
    · exact ⟨x, fl, by simp [setCall_calls, hj, hx], hxl, hn, hfl, hch⟩
  · intro j x hx
    have hfl : ∃ cl fl, s.calls x.leader = some cl ∧ cl.leader = x.leader ∧
        s.flights x.leader = some fl ∧ (cl.ended.isSome = true → fl.future.isSome = true) := by
      rw [setCall_calls] at hx
      split at hx
      · obtain rfl : c' = x := Option.some.inj hx
        rw [hleader]
        exact h.flight i c hc
      · exact h.flight j x hx
    obtain ⟨cl, fl, hcl, hll, hfl, hdone⟩ := hfl
    by_cases hj : x.leader = i
    · rw [hj] at hcl hll
      obtain rfl : cl = c := Option.some.inj (hcl.symm.trans hc)
      refine ⟨c', fl, by simp [setCall_calls, hj], hleader.trans (hll.trans hj.symm), hfl, ?_⟩
      intro hsome
      rcases hended with he | ⟨hne, -⟩
      · rw [he, hopen] at hsome
        cases hsome
      · exact absurd hll hne
    · exact ⟨cl, fl, by simp [setCall_calls, hj, hcl], hll, hfl, hdone⟩
  · intro l fl r hfl hr
    exact (h.future l fl r hfl hr).imp ((hkept l).1 r) (hkept l).2
  · intro j x r hx hr hcalm
    rw [setCall_calls] at hx
    split at hx
    · next hj =>
      obtain rfl : c' = x := Option.some.inj hx
      rw [hleader, hj]
      rcases hended with he | ⟨hne, r', he, hgood⟩
      · rw [he, hopen] at hr
        cases hr
      · obtain rfl : r' = r := Option.some.inj (he.symm.trans hr)
        exact (hgood hcalm).imp ((hkept _).1 r') fun hd => ⟨hne, (hkept _).2 hd⟩
    · exact (h.ended j x r hx hr hcalm).imp ((hkept _).1 r) fun hd => ⟨hd.1, (hkept _).2 hd.2⟩

theorem Sound.settle (h : s.Sound) (hfl : s.flights l = some fl)
    (hr : s.Explained l r ∨ s.Disturbed l) : (s.setFlight l (settle fl r)).Sound := by
  have hkept := kept (s := s) (t := s.setFlight l (SingleFlight.settle fl r)) (by
    intro l' fl' e hl' he
    rw [setFlight_flights]
    split
    · next hj =>
      obtain rfl : fl' = fl := Option.some.inj (hl'.symm.trans (hj ▸ hfl))
      exact ⟨_, rfl, he⟩
    · exact ⟨fl', hl', he⟩) (fun j x hx => ⟨x, hx, rfl, id⟩)
  refine ⟨h.leading, ?_, ?_, ?_, ?_, ?_⟩
  · intro l' hl'
    obtain ⟨x, fl', hx, hxl, hn, hfl', hch⟩ := h.inflight l' hl'
    by_cases hj : l' = l
    · subst hj
      obtain rfl : fl' = fl := Option.some.inj (hfl'.symm.trans hfl)
      exact ⟨x, SingleFlight.settle fl' r, hx, hxl, hn, by simp [setFlight_flights], hch⟩
    · exact ⟨x, fl', hx, hxl, hn, by simp [setFlight_flights, hj, hfl'], hch⟩
  · intro j x hx
    obtain ⟨cl, fl', hcl, hll, hfl', hdone⟩ := h.flight j x hx
    by_cases hj : x.leader = l
    · exact ⟨cl, SingleFlight.settle fl r, hcl, hll, by simp [setFlight_flights, hj],
        fun _ => isSome_settle fl r⟩
    · exact ⟨cl, fl', hcl, hll, by simp [setFlight_flights, hj, hfl'], hdone⟩
  · intro l' fl' hfl'
    rw [setFlight_flights] at hfl'
    split at hfl'
    · next hj =>
      rw [hj]
      exact h.owner l fl hfl
    · exact h.owner l' fl' hfl'
  · intro l' fl' r' hfl' hr'
    rw [setFlight_flights] at hfl'
    split at hfl'
    · next hj =>
      obtain rfl : SingleFlight.settle fl r = fl' := Option.some.inj hfl'
      rw [hj]
      rcases settle_future hr' with hold | rfl
      · exact (h.future l fl r' hfl hold).imp ((hkept l).1 r') (hkept l).2
      · exact hr.imp ((hkept l).1 r') (hkept l).2
    · exact (h.future l' fl' r' hfl' hr').imp ((hkept l').1 r') (hkept l').2
  · intro j x r' hx hr' hcalm
    exact (h.ended j x r' hx hr' hcalm).imp ((hkept _).1 r') fun hd => ⟨hd.1, (hkept _).2 hd.2⟩

theorem Sound.leave {fl' : Flight V E} (h : s.Sound) (hc : s.calls i = some c)
    (hleader : c.leader = i) (hopen : c.ended = none) (hfl : s.flights i = some fl)
    (hfuture : fl'.future = fl.future)
    (hgood : (∃ e, fl'.chain = some e ∧ r = e.callEnd) ∨ c.cancelRequested = true) :
    (s.leave i c fl' r).Sound := by
  have hin : s.inflight = some i := h.leading i c hc hleader hopen
  have hchain : fl.chain = none := by
    obtain ⟨x, fl₀, -, -, -, hfl₀, hch⟩ := h.inflight i hin
    obtain rfl : fl₀ = fl := Option.some.inj (hfl₀.symm.trans hfl)
    exact hch
  have hcalls : ∀ j, (s.leave i c fl' r).calls j =
      if j = i then some { c with ended := some r } else s.calls j := fun j => setCall_calls
  have hflights : ∀ l, (s.leave i c fl' r).flights l =
      if l = i then some (SingleFlight.settle fl' r) else s.flights l := fun l => setFlight_flights
  have hkept := kept (s := s) (t := s.leave i c fl' r) (by
    intro l fl₀ e hl he
    rw [hflights]
    split
    · next hj =>
      obtain rfl : fl₀ = fl := Option.some.inj (hl.symm.trans (hj ▸ hfl))
      simp [hchain] at he
    · exact ⟨fl₀, hl, he⟩) (by
    intro j x hx
    rw [hcalls]
    split
    · next hj =>
      obtain rfl : x = c := Option.some.inj (hx.symm.trans (hj ▸ hc))
      exact ⟨_, rfl, rfl, id⟩
    · exact ⟨x, hx, rfl, id⟩)
  have hend : (s.leave i c fl' r).Explained i r ∨ (s.leave i c fl' r).Disturbed i := by
    rcases hgood with ⟨e, he, hr⟩ | hcancel
    · exact .inl ⟨SingleFlight.settle fl' r, e, by simp [hflights], he, hr⟩
    · exact .inr ⟨i, { c with ended := some r }, by simp [hcalls], hleader, hcancel⟩
  refine ⟨?_, ?_, ?_, ?_, ?_, ?_⟩
  · intro j x hx hl hn
    rw [hcalls] at hx
    split at hx
    · cases hx
      cases hn
    · next hj =>
      exact absurd (Option.some.inj ((h.leading j x hx hl hn).symm.trans hin)) hj
  · intro l hl
    cases hl
  · intro j x hx
    have hold : ∃ cl fl₀, s.calls x.leader = some cl ∧ cl.leader = x.leader ∧
        s.flights x.leader = some fl₀ ∧ (cl.ended.isSome = true → fl₀.future.isSome = true) := by
      rw [hcalls] at hx
      split at hx
      · cases hx
        exact h.flight i c hc
      · exact h.flight j x hx
    obtain ⟨cl, fl₀, hcl, hll, hfl₀, hdone⟩ := hold
    by_cases hj : x.leader = i
    · exact ⟨{ c with ended := some r }, SingleFlight.settle fl' r, by simp [hcalls, hj],
        hleader.trans hj.symm, by simp [hflights, hj], fun _ => isSome_settle fl' r⟩
    · exact ⟨cl, fl₀, by simp [hcalls, hj, hcl], hll, by simp [hflights, hj, hfl₀], hdone⟩
  · intro l fl₀ hfl₀
    rw [hcalls]
    split
    · rfl
    · next hj =>
      rw [hflights, if_neg hj] at hfl₀
      exact h.owner l fl₀ hfl₀
  · intro l fl₀ r' hfl₀ hr'
    rw [hflights] at hfl₀
    split at hfl₀
    · next hj =>
      obtain rfl : SingleFlight.settle fl' r = fl₀ := Option.some.inj hfl₀
      rw [hj]
      rcases settle_future hr' with hold | rfl
      · exact (h.future i fl r' hfl (hfuture ▸ hold)).imp ((hkept i).1 r') (hkept i).2
      · exact hend
    · exact (h.future l fl₀ r' hfl₀ hr').imp ((hkept l).1 r') (hkept l).2
  · intro j x r' hx hr' hcalm
    rw [hcalls] at hx
    split at hx
    · cases hx
      obtain rfl : r = r' := Option.some.inj hr'
      rcases hgood with ⟨e, he, hr⟩ | hcancel
      · left
        rw [hleader]
        exact ⟨SingleFlight.settle fl' r, e, by simp [hflights], he, hr⟩
      · exact absurd (hcancel.symm.trans hcalm) (by decide)
    · exact (h.ended j x r' hx hr' hcalm).imp ((hkept _).1 r') fun hd => ⟨hd.1, (hkept _).2 hd.2⟩

theorem Sound.lead (h : s.Sound) (hc : s.calls i = none) (hin : s.inflight = none) :
    (s.lead i).Sound := by
  have hnofl : s.flights i = none := by
    cases hfl : s.flights i with
    | none => rfl
    | some fl => simpa [hc] using h.owner i fl hfl
  have hcalls : ∀ j, (s.lead i).calls j = if j = i then some ⟨i, none, false⟩ else s.calls j :=
    fun j => setCall_calls
  have hflights : ∀ l, (s.lead i).flights l = if l = i then some ⟨none, none⟩ else s.flights l :=
    fun l => setFlight_flights
  have hold : ∀ j x, s.calls j = some x → (s.lead i).calls j = some x := by
    intro j x hx
    have hne : j ≠ i := fun hj => by simp [hj, hc] at hx
    rw [hcalls, if_neg hne, hx]
  have hkept := kept (s := s) (t := s.lead i) (by
    intro l fl e hl he
    have hne : l ≠ i := fun hj => by simp [hj, hnofl] at hl
    exact ⟨fl, by rw [hflights, if_neg hne, hl], he⟩)
    (fun j x hx => ⟨x, hold j x hx, rfl, id⟩)
  refine ⟨?_, ?_, ?_, ?_, ?_, ?_⟩
  · intro j x hx hl hn
    by_cases hj : j = i
    · exact congrArg some hj.symm
    · rw [hcalls, if_neg hj] at hx
      exact absurd (hin.symm.trans (h.leading j x hx hl hn)) (by simp)
  · intro l hl
    obtain rfl : i = l := Option.some.inj hl
    exact ⟨⟨i, none, false⟩, ⟨none, none⟩, by simp [hcalls], rfl, rfl, by simp [hflights], rfl⟩
  · intro j x hx
    by_cases hj : j = i
    · rw [hcalls, if_pos hj] at hx
      cases hx
      exact ⟨⟨i, none, false⟩, ⟨none, none⟩, by simp [hcalls], rfl, by simp [hflights],
        fun hsome => by cases hsome⟩
    · rw [hcalls, if_neg hj] at hx
      obtain ⟨cl, fl, hcl, hll, hfl, hdone⟩ := h.flight j x hx
      have hne : x.leader ≠ i := fun hl => by simp [hl, hc] at hcl
      exact ⟨cl, fl, hold _ cl hcl, hll, by rw [hflights, if_neg hne, hfl], hdone⟩
  · intro l fl hfl
    rw [hcalls]
    split
    · rfl
    · next hj =>
      rw [hflights, if_neg hj] at hfl
      exact h.owner l fl hfl
  · intro l fl r hfl hr
    rw [hflights] at hfl
    split at hfl
    · cases hfl
      cases hr
    · exact (h.future l fl r hfl hr).imp ((hkept l).1 r) (hkept l).2
  · intro j x r hx hr hcalm
    rw [hcalls] at hx
    split at hx
    · cases hx
      cases hr
    · exact (h.ended j x r hx hr hcalm).imp ((hkept _).1 r) fun hd => ⟨hd.1, (hkept _).2 hd.2⟩

theorem Sound.follow (h : s.Sound) (hc : s.calls i = none) (hin : s.inflight = some l) :
    (s.follow i l).Sound := by
  obtain ⟨cl, fl, hcl, hll, hopen, hfl, hchain⟩ := h.inflight l hin
  have hne : l ≠ i := fun hj => by simp [hj, hc] at hcl
  have hcalls : ∀ j, (s.follow i l).calls j =
      if j = i then some ⟨l, fl.future, false⟩ else s.calls j := by
    intro j
    have hfuture : (s.flights l).bind (·.future) = fl.future := by rw [hfl]; rfl
    rw [← hfuture]
    exact setCall_calls
  have hold : ∀ j x, s.calls j = some x → (s.follow i l).calls j = some x := by
    intro j x hx
    have hji : j ≠ i := fun hj => by simp [hj, hc] at hx
    rw [hcalls, if_neg hji, hx]
  have hkept := kept (s := s) (t := s.follow i l) (fun l fl e hfl he => ⟨fl, hfl, he⟩)
    (fun j x hx => ⟨x, hold j x hx, rfl, id⟩)
  refine ⟨?_, ?_, ?_, ?_, ?_, ?_⟩
  · intro j x hx hl hn
    rw [hcalls] at hx
    split at hx
    · next hj =>
      cases hx
      exact absurd (hl.trans hj) hne
    · exact h.leading j x hx hl hn
  · intro l' hl'
    obtain ⟨x, fl', hx, hrest⟩ := h.inflight l' hl'
    exact ⟨x, fl', hold l' x hx, hrest⟩
  · intro j x hx
    rw [hcalls] at hx
    split at hx
    · cases hx
      refine ⟨cl, fl, hold l cl hcl, hll, hfl, fun hsome => ?_⟩
      simp [hopen] at hsome
    · obtain ⟨cl', fl', hcl', hrest⟩ := h.flight j x hx
      exact ⟨cl', fl', hold _ cl' hcl', hrest⟩
  · intro l' fl' hfl'
    obtain ⟨x, hx⟩ := Option.isSome_iff_exists.mp (h.owner l' fl' hfl')
    rw [hold l' x hx]
    rfl
  · intro l' fl' r hfl' hr
    exact (h.future l' fl' r hfl' hr).imp ((hkept l').1 r) (hkept l').2
  · intro j x r hx hr hcalm
    rw [hcalls] at hx
    split at hx
    · next hj =>
      cases hx
      rw [hj]
      exact (h.future l fl r hfl hr).imp ((hkept l).1 r) fun hd => ⟨hne, (hkept l).2 hd⟩
    · exact (h.ended j x r hx hr hcalm).imp ((hkept _).1 r) fun hd => ⟨hd.1, (hkept _).2 hd.2⟩

theorem sound_step {a : FlightAction V E} (h : s.Sound) (hs : flightStep s a = some t) :
    t.Sound := by
  cases a with
  | arrive i =>
    cases hc : s.calls i with
    | some c => simp [flightStep, hc] at hs
    | none =>
      cases hin : s.inflight with
      | none =>
        obtain rfl : s.lead i = t := by simpa [flightStep, hc, hin] using hs
        exact h.lead hc hin
      | some l =>
        obtain rfl : s.follow i l = t := by simpa [flightStep, hc, hin] using hs
        exact h.follow hc hin
  | chain i e =>
    simp only [flightStep] at hs
    split at hs
    · next l cancelled fl hc hfl =>
      split_ifs at hs with hl
      cases hs
      exact h.leave hc hl rfl hfl rfl (.inl ⟨e, rfl, rfl⟩)
    · cases hs
  | unwind i =>
    simp only [flightStep] at hs
    split at hs
    · next l fl hc hfl =>
      split_ifs at hs with hl
      cases hs
      exact h.leave hc hl rfl hfl rfl (.inr rfl)
    · cases hs
  | cancel i =>
    simp only [flightStep] at hs
    split at hs
    · next l cancelled hc =>
      have hcall : (s.setCall i ⟨l, none, true⟩).Sound :=
        h.setCall hc rfl (fun _ => rfl) (.inl rfl) rfl
      split_ifs at hs with hl
      · cases hs
        exact hcall
      · obtain ⟨fl, hfl, rfl⟩ := Option.map_eq_some_iff.mp hs
        exact hcall.settle hfl (.inr ⟨i, ⟨l, none, true⟩, by simp [setCall_calls], rfl, rfl⟩)
    · cases hs
  | resume i =>
    simp only [flightStep] at hs
    split at hs
    · next l cancelled hc =>
      by_cases hl : l = i
      · rw [if_pos hl] at hs
        cases hs
      rw [if_neg hl] at hs
      obtain ⟨r, hr, rfl⟩ := Option.map_eq_some_iff.mp hs
      obtain ⟨fl, hfl, hr⟩ := Option.bind_eq_some_iff.mp hr
      refine h.setCall hc rfl id (.inr ⟨hl, if cancelled then .cancelled else r, rfl, ?_⟩) rfl
      intro hcalm
      have hr' : (if cancelled then .cancelled else r) = r := if_neg (by simpa using hcalm)
      rw [hr']
      exact h.future l fl r hfl hr
    · cases hs

end Steps

theorem sound_empty : (empty : SingleFlight V E).Sound := by
  refine ⟨?_, ?_, ?_, ?_, ?_, ?_⟩ <;> simp [empty]

/-- For all calls, orders and cancellations: a call that is not cancelled ends as a chain
run of its flight did (the deadline counting as None), unless it awaits another's future
and a call of that flight was cancelled; whoever waits is behind a running leader or can go
on; and when all calls have ended, the table is empty. -/
theorem flight_ends_as_its_chain (as : List (FlightAction V E)) (s : SingleFlight V E)
    (h : StepSystem.run flightStep empty as = some s) :
    (∀ i c r, s.calls i = some c → c.ended = some r → c.cancelRequested = false →
      s.Explained c.leader r ∨ (c.leader ≠ i ∧ s.Disturbed c.leader)) ∧
    (∀ i c, s.calls i = some c → c.ended = none →
      s.inflight = some c.leader ∨ (flightStep s (.resume i)).isSome = true) ∧
    ((∀ i c, s.calls i = some c → c.ended.isSome = true) → s.inflight = none) := by
  have hs : s.Sound := StepSystem.run_invariant (fun s a t => sound_step) sound_empty h
  refine ⟨hs.ended, ?_, ?_⟩
  · intro i c hc hopen
    obtain ⟨cl, fl, hcl, hll, hfl, hdone⟩ := hs.flight i c hc
    cases hended : cl.ended with
    | none => exact .inl (hs.leading c.leader cl hcl hll hended)
    | some r =>
      right
      obtain ⟨l, ended, cancelled⟩ := c
      obtain rfl : ended = none := hopen
      have hne : l ≠ i := by
        intro hj
        have hsame : s.calls l = some ⟨l, none, cancelled⟩ := hj ▸ hc
        obtain rfl := Option.some.inj (hcl.symm.trans hsame)
        cases hended
      obtain ⟨r', hr'⟩ := Option.isSome_iff_exists.mp (hdone (by rw [hended]; rfl))
      simp [flightStep, hc, hne, hfl, hr']
  · intro hall
    cases hin : s.inflight with
    | none => rfl
    | some l =>
      obtain ⟨c, fl, hc, -, hopen, -, -⟩ := hs.inflight l hin
      have hsome := hall l c hc
      simp [hopen] at hsome

/-- The call returned what a chain run returned, or None on the deadline. -/
def ReturnsResult (s : SingleFlight V E) (l : Nat) (r : CallEnd V E) : Prop :=
  ∃ fl v, s.flights l = some fl ∧ r = .returned v ∧
    (fl.chain = some (.returned v) ∨ (fl.chain = some .deadline ∧ v = none))

theorem flight_run_any (as : List (FlightAction Nat Nat)) (P : SingleFlight Nat Nat → Prop)
    [DecidablePred P] (h : (StepSystem.run flightStep empty as).any (fun s => P s) = true) :
    ∃ s, StepSystem.run flightStep empty as = some s ∧ P s := by
  obtain ⟨s, hs, hp⟩ := (Option.any_eq_true _ _).mp h
  exact ⟨s, hs, of_decide_eq_true hp⟩

theorem flight_ends_as_its_chain_shared : ∃ s : SingleFlight Nat Nat,
    StepSystem.run flightStep empty
      [.arrive 0, .arrive 1, .chain 0 (.returned (some 7)), .resume 1] = some s ∧
    s.calls 1 = some ⟨0, some (.returned (some 7)), false⟩ ∧
    (s.Explained 0 (.returned (some 7)) ∨ (0 ≠ 1 ∧ s.Disturbed 0)) := by
  obtain ⟨s, hs, hp⟩ := flight_run_any
    [.arrive 0, .arrive 1, .chain 0 (.returned (some 7)), .resume 1]
    (fun s => s.calls 1 = some ⟨0, some (.returned (some 7)), false⟩) (by decide)
  exact ⟨s, hs, hp, (flight_ends_as_its_chain _ s hs).1 1 _ _ hp rfl rfl⟩

/-- A waiter gets the exception of the leader's chain, although nobody was cancelled. -/
theorem chain_exception_reaches_waiter : ¬ ∀ (as : List (FlightAction Nat Nat)) s,
    StepSystem.run flightStep empty as = some s →
    (∀ i c r, s.calls i = some c → c.ended = some r → c.cancelRequested = false →
      s.ReturnsResult c.leader r) ∧
    ((∀ i c, s.calls i = some c → c.ended.isSome = true) → s.inflight = none) := by
  intro h
  obtain ⟨s, hs, hp⟩ := flight_run_any
    [.arrive 0, .arrive 1, .chain 0 (.raised 5), .resume 1]
    (fun s => s.calls 1 = some ⟨0, some (.raised 5), false⟩) (by decide)
  obtain ⟨fl, v, -, hv, -⟩ := (h _ s hs).1 1 _ (.raised 5) hp rfl rfl
  cases hv

/-- The waiters of a cancelled leader, and those who come to a future that one of them
has cancelled, end with a CancelledError. -/
example : (StepSystem.run flightStep (empty : SingleFlight Nat Nat)
    [.arrive 0, .arrive 1, .cancel 0, .unwind 0, .resume 1]).any
      (fun s => s.calls 1 = some ⟨0, some .cancelled, false⟩) = true := by decide

example : (StepSystem.run flightStep (empty : SingleFlight Nat Nat)
    [.arrive 0, .arrive 1, .cancel 1, .arrive 2]).any
      (fun s => s.calls 2 = some ⟨0, some .cancelled, false⟩) = true := by decide

end SingleFlight

end DataService
