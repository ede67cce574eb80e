import Mathlib.Algebra.Order.Field.Rat
import DataService.Lib.StepSystem

/-! The client of the SMN API: a cached token that calls read without a lock, and a refresh
under a lock that mints a token, publishes it and then pauses. Any number of calls interleave
at their awaits, and any waiting call may get a free lock. -/

namespace DataService.SmnApiClient

structure Settings where
  maxRetries : Nat
  tokenCacheTtl : ℚ
  settlingDelay : ℚ

/-- A token that lives an hour and settles in five seconds. -/
def hourly : Settings := ⟨3, 3600, 5⟩

variable {τ : Type}

/-- Where a call of `fetch_current_weather_stations` stands. `posting` and `settling` are
inside the lock. -/
inductive Pc (τ : Type) where
  | getting (token : τ) (attempt : Nat)
  | backingOff (token : τ) (attempt : Nat) (wakeAt : ℚ)
  | waiting
  | posting
  | settling (token : τ) (wakeAt : ℚ)
  | ended
  deriving DecidableEq, Repr

/-- A call. `rejected` is the token of its first 401, which it passes as `invalidate`; `sent`
is ghost: the tokens of its requests since then, or since its start. -/
structure Call (τ : Type) where
  rejected : Option τ
  sent : List τ
  pc : Pc τ
  deriving DecidableEq, Repr

/-- Requests and answers: a POST with what it invalidates, a token that arrives, a GET. -/
inductive Event (τ : Type) where
  | post (invalidate : Option τ)
  | mint (token : τ) (time : ℚ)
  | get (token : τ) (time : ℚ)
  deriving DecidableEq, Repr

/-- The fields of the client, its calls, the clock, and the history, newest first. -/
structure Client (τ : Type) where
  token : Option τ
  tokenMintedAt : ℚ
  calls : List (Call τ)
  now : ℚ
  log : List (Event τ)
  deriving DecidableEq, Repr

/-- A new client. -/
def Client.boot (now : ℚ) : Client τ := ⟨none, 0, [], now, []⟩

def Pc.holdsLock : Pc τ → Bool
  | .posting | .settling _ _ => true
  | _ => false

namespace Client

def locked (s : Client τ) : Bool := s.calls.any fun c => c.pc.holdsLock

def setCall (s : Client τ) (i : Nat) (p : Call τ × List (Event τ)) : Client τ :=
  { s with calls := s.calls.set i p.1, log := p.2 ++ s.log }

def addCall (s : Client τ) (p : Call τ × List (Event τ)) : Client τ :=
  { s with calls := s.calls ++ [p.1], log := p.2 ++ s.log }

/-- A new token is published. -/
def publish (s : Client τ) (token : τ) : Client τ :=
  { s with token := some token, tokenMintedAt := s.now, log := .mint token s.now :: s.log }

end Client

def Call.goTo (c : Call τ) (pc : Pc τ) : Call τ := { c with pc := pc }

@[simp] theorem Call.pc_goTo (c : Call τ) (pc : Pc τ) : (c.goTo pc).pc = pc := rfl

/-- A 401 on the first token of a call. -/
def Call.rejectedWith (token : τ) : Call τ := ⟨some token, [], .waiting⟩

@[simp] theorem Call.pc_rejectedWith (token : τ) : (Call.rejectedWith token).pc = .waiting := rfl

/-- The pause before the next attempt. -/
def backoff (attempt : Nat) : ℚ := min (2 ^ (attempt - 1)) 10

/-- How a GET is answered. `unavailable` is a network error or a status from 500 on, `refused`
any other failure. -/
inductive GetAnswer where
  | stations
  | unauthorized
  | unavailable
  | refused
  deriving DecidableEq, Repr

/-- What happens next: the clock moves, a call begins, an answer arrives, a pause is over, or
a waiting call gets the lock. -/
inductive Action (τ : Type) where
  | clock (now : ℚ)
  | fetch
  | answer (i : Nat) (answer : GetAnswer)
  | retry (i : Nat)
  | acquire (i : Nat)
  | minted (i : Nat) (token : Option τ)
  | settled (i : Nat)
  deriving DecidableEq, Repr

variable (cfg : Settings)

/-- The cached token, if it is not too old. -/
def fresh (s : Client τ) : Option τ :=
  if s.now - s.tokenMintedAt < cfg.tokenCacheTtl then s.token else none

/-- One round of the loop of `_get_stations`: a request, or the error after the last one. -/
def getStations (now : ℚ) (c : Call τ) (token : τ) (attempt : Nat) : Call τ × List (Event τ) :=
  if attempt ≤ cfg.maxRetries then
    (⟨c.rejected, token :: c.sent, .getting token attempt⟩, [.get token now])
  else (c.goTo .ended, [])

/-- A call begins: `_get_token` up to its first await. -/
def fetchStations (s : Client τ) : Client τ :=
  match fresh cfg s with
  | some token => s.addCall (getStations cfg s.now ⟨none, [], .waiting⟩ token 1)
  | none => s.addCall (⟨none, [], .waiting⟩, [])

/-- A call takes the answer to its GET. -/
def takeAnswer (s : Client τ) (i : Nat) (c : Call τ) (token : τ) (attempt : Nat) :
    GetAnswer → Client τ
  | .stations | .refused => s.setCall i (c.goTo .ended, [])
  | .unavailable => s.setCall i (c.goTo (.backingOff token attempt (s.now + backoff attempt)), [])
  | .unauthorized =>
    match c.rejected with
    | none => s.setCall i (.rejectedWith token, [])
    | some _ => s.setCall i (c.goTo .ended, [])

section Refresh

variable [DecidableEq τ]

/-- The double check under the lock, then a GET or a POST. -/
def enterLock (s : Client τ) (i : Nat) (c : Call τ) : Client τ :=
  match (fresh cfg s).filter fun token => c.rejected ≠ some token with
  | some token => s.setCall i (getStations cfg s.now c token 1)
  | none => s.setCall i (c.goTo .posting, [.post c.rejected])

/-- The answer to the POST: an error, or a token that is published before the pause. -/
def takeToken (s : Client τ) (i : Nat) (c : Call τ) : Option τ → Client τ
  | none => s.setCall i (c.goTo .ended, [])
  | some token =>
    if 0 < cfg.settlingDelay then
      (s.publish token).setCall i (c.goTo (.settling token (s.now + cfg.settlingDelay)), [])
    else (s.publish token).setCall i (getStations cfg s.now c token 1)

def clientStep (s : Client τ) : Action τ → Option (Client τ)
  | .clock now => if s.now ≤ now then some { s with now := now } else none
  | .fetch => some (fetchStations cfg s)
  | .answer i answer =>
    s.calls[i]?.bind fun c =>
      match c.pc with
      | .getting token attempt => some (takeAnswer s i c token attempt answer)
      | _ => none
  | .retry i =>
    s.calls[i]?.bind fun c =>
      match c.pc with
      | .backingOff token attempt wakeAt =>
        if wakeAt ≤ s.now then some (s.setCall i (getStations cfg s.now c token (attempt + 1)))
        else none
      | _ => none
  | .acquire i =>
    s.calls[i]?.bind fun c =>
      if c.pc = .waiting ∧ s.locked = false then some (enterLock cfg s i c) else none
  | .minted i token =>
    s.calls[i]?.bind fun c =>
      if c.pc = .posting then some (takeToken cfg s i c token) else none
  | .settled i =>
    s.calls[i]?.bind fun c =>
      match c.pc with
      | .settling token wakeAt =>
        if wakeAt ≤ s.now then some (s.setCall i (getStations cfg s.now c token 1)) else none
      | _ => none

variable {cfg} {s t : Client τ} {a : Action τ}

/-- What a step can do. -/
theorem clientStep_cases (h : clientStep cfg s a = some t) :
    (∃ now, a = .clock now ∧ s.now ≤ now ∧ t = { s with now := now }) ∨
    (a = .fetch ∧ t = fetchStations cfg s) ∨
    (∃ i c token attempt answer, a = .answer i answer ∧ s.calls[i]? = some c ∧
      c.pc = .getting token attempt ∧ t = takeAnswer s i c token attempt answer) ∨
    (∃ i c token attempt wakeAt, a = .retry i ∧ s.calls[i]? = some c ∧
      c.pc = .backingOff token attempt wakeAt ∧ wakeAt ≤ s.now ∧
      t = s.setCall i (getStations cfg s.now c token (attempt + 1))) ∨
    (∃ i c, a = .acquire i ∧ s.calls[i]? = some c ∧ c.pc = .waiting ∧ s.locked = false ∧
      t = enterLock cfg s i c) ∨
    (∃ i c token, a = .minted i token ∧ s.calls[i]? = some c ∧ c.pc = .posting ∧
      t = takeToken cfg s i c token) ∨
    (∃ i c token wakeAt, a = .settled i ∧ s.calls[i]? = some c ∧ c.pc = .settling token wakeAt ∧
      wakeAt ≤ s.now ∧ t = s.setCall i (getStations cfg s.now c token 1)) := by
  cases a with
  | clock now =>
    simp only [clientStep] at h
    split at h
    · rename_i hnow
      exact .inl ⟨now, rfl, hnow, (Option.some.inj h).symm⟩
    · cases h
  | fetch => exact .inr (.inl ⟨rfl, (Option.some.inj h).symm⟩)
  | answer i answer =>
    obtain ⟨c, hc, h⟩ := Option.bind_eq_some_iff.mp h
    split at h
    · rename_i token attempt hpc
      exact .inr (.inr (.inl ⟨i, c, token, attempt, answer, rfl, hc, hpc, (Option.some.inj h).symm⟩))
    · cases h
  | retry i =>
    obtain ⟨c, hc, h⟩ := Option.bind_eq_some_iff.mp h
    split at h
    · rename_i token attempt wakeAt hpc
      split at h
      · rename_i hwake
        exact .inr (.inr (.inr (.inl ⟨i, c, token, attempt, wakeAt, rfl, hc, hpc, hwake,
          (Option.some.inj h).symm⟩)))
      · cases h
    · cases h
  | acquire i =>
    obtain ⟨c, hc, h⟩ := Option.bind_eq_some_iff.mp h
    split at h
    · rename_i hfree
      exact .inr (.inr (.inr (.inr (.inl ⟨i, c, rfl, hc, hfree.1, hfree.2,
        (Option.some.inj h).symm⟩))))
    · cases h
  | minted i token =>
    obtain ⟨c, hc, h⟩ := Option.bind_eq_some_iff.mp h
    split at h
    · rename_i hpc
      exact .inr (.inr (.inr (.inr (.inr (.inl ⟨i, c, token, rfl, hc, hpc,
        (Option.some.inj h).symm⟩)))))
    · cases h
  | settled i =>
    obtain ⟨c, hc, h⟩ := Option.bind_eq_some_iff.mp h
    split at h
    · rename_i token wakeAt hpc
      split at h
      · rename_i hwake
        exact .inr (.inr (.inr (.inr (.inr (.inr ⟨i, c, token, wakeAt, rfl, hc, hpc, hwake,
          (Option.some.inj h).symm⟩)))))
      · cases h
    · cases h

end Refresh

section Calls

variable {cfg} {s : Client τ} {c d : Call τ} {p : Call τ × List (Event τ)} {i : Nat}

theorem mem_calls_setCall (h : d ∈ (s.setCall i p).calls) : d ∈ s.calls ∨ d = p.1 :=
  List.mem_or_eq_of_mem_set h

theorem mem_calls_or_eq (hc : s.calls[i]? = some c) (h : d ∈ s.calls) :
    d ∈ (s.setCall i p).calls ∨ d = c := by
  obtain ⟨j, hj⟩ := List.mem_iff_getElem?.mp h
  by_cases hij : i = j
  · subst hij
    exact .inr (Option.some.inj (hj.symm.trans hc))
  · left
    rw [Client.setCall]
    exact List.mem_iff_getElem?.mpr ⟨j, by rw [List.getElem?_set_ne hij, hj]⟩

theorem mem_calls_addCall : d ∈ (s.addCall p).calls ↔ d ∈ s.calls ∨ d = p.1 := by
  simp [Client.addCall]

theorem mem_setCall_self (hc : s.calls[i]? = some c) : p.1 ∈ (s.setCall i p).calls := by
  have hlt : i < s.calls.length := (List.getElem?_eq_some_iff.mp hc).1
  exact List.mem_iff_getElem?.mpr ⟨i, by simp [Client.setCall, hlt]⟩

variable (cfg) in
/-- A call inside a round of requests is outside the lock. -/
theorem pc_getStations (now : ℚ) (c : Call τ) (token : τ) (attempt : Nat) :
    (getStations cfg now c token attempt).1.pc = .getting token attempt ∨
      (getStations cfg now c token attempt).1.pc = .ended := by
  rw [getStations]
  split
  · exact .inl rfl
  · exact .inr rfl

theorem log_getStations (now : ℚ) (c : Call τ) (token : τ) (attempt : Nat) :
    (getStations cfg now c token attempt).2 =
      if attempt ≤ cfg.maxRetries then [.get token now] else [] := by
  rw [getStations]
  split <;> rfl

theorem holdsLock_getStations (now : ℚ) (c : Call τ) (token : τ) (attempt : Nat) :
    (getStations cfg now c token attempt).1.pc.holdsLock = false := by
  rcases pc_getStations cfg now c token attempt with h | h <;> simp [h, Pc.holdsLock]

theorem not_holdsLock_of_free (hfree : s.locked = false) (hd : d ∈ s.calls) :
    d.pc.holdsLock = false := by
  by_contra hholds
  have hlocked : s.locked = true := List.any_eq_true.mpr ⟨d, hd, by simpa using hholds⟩
  rw [hfree] at hlocked
  cases hlocked

end Calls

section Exclusion

variable {cfg} {s t : Client τ} {c d : Call τ} {p : Call τ × List (Event τ)} {i : Nat}

/-- At most one call is inside the lock. -/
def Exclusive (s : Client τ) : Prop :=
  ∀ (i j : Nat) (c d : Call τ), s.calls[i]? = some c → s.calls[j]? = some d →
    c.pc.holdsLock → d.pc.holdsLock → i = j

theorem Exclusive.setCall (h : Exclusive s) (hc : s.calls[i]? = some c)
    (hp : p.1.pc.holdsLock → c.pc.holdsLock ∨ s.locked = false) : Exclusive (s.setCall i p) := by
  have hlt : i < s.calls.length := (List.getElem?_eq_some_iff.mp hc).1
  have hother : ∀ (k : Nat) (d : Call τ), k ≠ i → s.calls[k]? = some d → d.pc.holdsLock →
    ¬ p.1.pc.holdsLock := by
    intro k d hk hd hholds hpholds
    rcases hp hpholds with hcholds | hfree
    · exact hk (h k i d c hd hc hholds hcholds)
    · rw [not_holdsLock_of_free hfree (List.mem_of_getElem? hd)] at hholds
      cases hholds
  intro j k x y hx hy hxholds hyholds
  simp only [Client.setCall, List.getElem?_set, hlt, if_true] at hx hy
  by_cases hij : i = j
  · by_cases hik : i = k
    · exact hij.symm.trans hik
    · rw [if_pos hij] at hx
      rw [if_neg hik] at hy
      obtain rfl := Option.some.inj hx
      exact absurd hxholds (hother k y (Ne.symm hik) hy hyholds)
  · rw [if_neg hij] at hx
    by_cases hik : i = k
    · rw [if_pos hik] at hy
      obtain rfl := Option.some.inj hy
      exact absurd hyholds (hother j x (Ne.symm hij) hx hxholds)
    · rw [if_neg hik] at hy
      exact h j k x y hx hy hxholds hyholds

theorem Exclusive.addCall (h : Exclusive s) (hp : p.1.pc.holdsLock = false) :
    Exclusive (s.addCall p) := by
  have hold : ∀ (k : Nat) (x : Call τ), (s.addCall p).calls[k]? = some x → x.pc.holdsLock →
      s.calls[k]? = some x := by
    intro k x hx hholds
    rw [Client.addCall, List.getElem?_append] at hx
    split at hx
    · exact hx
    · have hmem := List.mem_of_getElem? hx
      obtain rfl := List.mem_singleton.mp hmem
      rw [hp] at hholds
      cases hholds
  intro j k x y hx hy hxholds hyholds
  exact h j k x y (hold j x hx hxholds) (hold k y hy hyholds) hxholds hyholds

theorem exclusive_boot (now : ℚ) : Exclusive (Client.boot now : Client τ) := by
  intro i j c d hc
  simp [Client.boot] at hc

variable [DecidableEq τ] {a : Action τ}

theorem Exclusive.step (h : Exclusive s) (hstep : clientStep cfg s a = some t) : Exclusive t := by
  rcases clientStep_cases hstep with ⟨now, -, -, rfl⟩ | ⟨-, rfl⟩ |
    ⟨i, c, token, attempt, answer, -, hc, hpc, rfl⟩ | ⟨i, c, token, attempt, wakeAt, -, hc, hpc, -, rfl⟩ |
    ⟨i, c, -, hc, hpc, hfree, rfl⟩ | ⟨i, c, token, -, hc, hpc, rfl⟩ |
    ⟨i, c, token, wakeAt, -, hc, hpc, -, rfl⟩
  · exact h
  · rw [fetchStations]
    split
    · exact h.addCall (holdsLock_getStations _ _ _ _)
    · exact h.addCall rfl
  · cases answer with
    | unauthorized =>
      simp only [takeAnswer]
      split <;> exact h.setCall hc nofun
    | stations => exact h.setCall hc nofun
    | unavailable => exact h.setCall hc nofun
    | refused => exact h.setCall hc nofun
  · refine h.setCall hc fun hholds => ?_
    rw [holdsLock_getStations] at hholds
    cases hholds
  · rw [enterLock]
    split <;> exact h.setCall hc fun _ => .inr hfree
  · have hcholds : c.pc.holdsLock = true := by rw [hpc]; rfl
    cases token with
    | none => exact h.setCall hc nofun
    | some token =>
      have hpublish : Exclusive (s.publish token) := h
      simp only [takeToken]
      split <;> exact hpublish.setCall hc fun _ => .inl hcholds
  · refine h.setCall hc fun hholds => ?_
    rw [holdsLock_getStations] at hholds
    cases hholds

end Exclusion

end DataService.SmnApiClient
