import DataService.WeatherStations.SmnApiClient

/-! When a token is used before it has settled. The pause after a mint holds back the calls at
the lock, but not those that read the published token, nor those that already carry it. -/

namespace DataService.SmnApiClient

open StepSystem

variable {τ : Type} {cfg : Settings} {s t : Client τ} {c : Call τ}
  {p : Call τ × List (Event τ)} {i : Nat}

/-- No GET of the history, newest first, carries a token within `delay` of a mint of it. -/
def SettledBefore (delay : ℚ) : List (Event τ) → Prop
  | [] => True
  | .get token time :: older =>
    (∀ minted, .mint token minted ∈ older → minted + delay ≤ time) ∧ SettledBefore delay older
  | _ :: older => SettledBefore delay older

/-- The pause after a mint of this token is not over. -/
def Settling (s : Client τ) (token : τ) : Prop :=
  ∃ c ∈ s.calls, ∃ wakeAt, c.pc = .settling token wakeAt ∧ s.now < wakeAt

variable (cfg) in
/-- No call reads the published token past the lock, or tries again with one it carries, while
the pause after its mint lasts. -/
def HeldBack (s : Client τ) : Action τ → Prop
  | .fetch => ∀ token, fresh cfg s = some token → 1 ≤ cfg.maxRetries → ¬ Settling s token
  | .retry i => ∀ c token attempt wakeAt, s.calls[i]? = some c →
      c.pc = .backingOff token attempt wakeAt → wakeAt ≤ s.now → attempt + 1 ≤ cfg.maxRetries →
      ¬ Settling s token
  | _ => True

variable (cfg) in
/-- Each mint is old enough, or the pause after it lasts; and each pause follows a mint. -/
structure Paced (s : Client τ) : Prop where
  aged : ∀ token time, .mint token time ∈ s.log → time + cfg.settlingDelay ≤ s.now ∨
    ∃ c ∈ s.calls, c.pc = .settling token (time + cfg.settlingDelay)
  paused : ∀ c ∈ s.calls, ∀ token wakeAt, c.pc = .settling token wakeAt →
    ∃ time, wakeAt = time + cfg.settlingDelay ∧ .mint token time ∈ s.log

theorem paced_boot (now : ℚ) : Paced cfg (Client.boot now : Client τ) := by
  constructor <;> simp [Client.boot]

/-- A call that is past its pause may turn to anything but a pause. -/
theorem Paced.setCall (h : Paced cfg s) (hc : s.calls[i]? = some c)
    (hdone : ∀ token wakeAt, c.pc = .settling token wakeAt → wakeAt ≤ s.now)
    (hpc : ∀ token wakeAt, p.1.pc ≠ .settling token wakeAt)
    (hlog : ∀ token time, .mint token time ∉ p.2) : Paced cfg (s.setCall i p) where
  aged token time hmint := by
    have hold := (List.mem_append.mp hmint).resolve_left (hlog token time)
    rcases h.aged token time hold with hage | ⟨d, hd, hdpc⟩
    · exact .inl hage
    · rcases mem_calls_or_eq (p := p) hc hd with hd | rfl
      · exact .inr ⟨d, hd, hdpc⟩
      · exact .inl (hdone token _ hdpc)
  paused d hd token wakeAt hdpc := by
    rcases mem_calls_setCall hd with hd | rfl
    · obtain ⟨time, hwake, hmint⟩ := h.paused d hd token wakeAt hdpc
      exact ⟨time, hwake, List.mem_append_right _ hmint⟩
    · exact absurd hdpc (hpc token wakeAt)

theorem Paced.addCall (h : Paced cfg s) (hpc : ∀ token wakeAt, p.1.pc ≠ .settling token wakeAt)
    (hlog : ∀ token time, .mint token time ∉ p.2) : Paced cfg (s.addCall p) where
  aged token time hmint := by
    have hold := (List.mem_append.mp hmint).resolve_left (hlog token time)
    rcases h.aged token time hold with hage | ⟨d, hd, hdpc⟩
    · exact .inl hage
    · exact .inr ⟨d, mem_calls_addCall.mpr (.inl hd), hdpc⟩
  paused d hd token wakeAt hdpc := by
    rcases mem_calls_addCall.mp hd with hd | rfl
    · obtain ⟨time, hwake, hmint⟩ := h.paused d hd token wakeAt hdpc
      exact ⟨time, hwake, List.mem_append_right _ hmint⟩
    · exact absurd hdpc (hpc token wakeAt)

theorem getStations_ne_settling (now : ℚ) (c : Call τ) (token : τ) (attempt : Nat) (token' : τ)
    (wakeAt : ℚ) : (getStations cfg now c token attempt).1.pc ≠ .settling token' wakeAt := by
  rcases pc_getStations cfg now c token attempt with h | h <;> simp [h]

theorem mint_notMem_getStations (now : ℚ) (c : Call τ) (token : τ) (attempt : Nat) (token' : τ)
    (time : ℚ) : .mint token' time ∉ (getStations cfg now c token attempt).2 := by
  rw [log_getStations]
  split <;> simp

theorem Paced.setCall_getStations (h : Paced cfg s) (hc : s.calls[i]? = some c)
    (hdone : ∀ token wakeAt, c.pc = .settling token wakeAt → wakeAt ≤ s.now) (token : τ)
    (attempt : Nat) : Paced cfg (s.setCall i (getStations cfg s.now c token attempt)) :=
  h.setCall hc hdone (getStations_ne_settling _ _ _ _) (mint_notMem_getStations _ _ _ _)

/-- A token is published, and its pause begins if there is one. -/
theorem Paced.publish (h : Paced cfg s) (hc : s.calls[i]? = some c) (hpc : c.pc = .posting)
    {token : τ} (hnew : cfg.settlingDelay ≤ 0 ∨ p.1.pc = .settling token (s.now + cfg.settlingDelay))
    (hpause : ∀ token' wakeAt, p.1.pc = .settling token' wakeAt →
      token' = token ∧ wakeAt = s.now + cfg.settlingDelay)
    (hlog : ∀ token time, .mint token time ∉ p.2) : Paced cfg ((s.publish token).setCall i p) where
  aged token' time hmint := by
    have hmint' := (List.mem_append.mp hmint).resolve_left (hlog token' time)
    rcases List.mem_cons.mp hmint' with hnow | hold
    · obtain ⟨rfl, rfl⟩ := Event.mint.inj hnow
      rcases hnew with hzero | hpc'
      · left
        exact add_le_of_nonpos_right hzero
      · exact .inr ⟨_, mem_setCall_self (s := s.publish token') hc, hpc'⟩
    · rcases h.aged token' time hold with hage | ⟨d, hd, hdpc⟩
      · exact .inl hage
      · rcases mem_calls_or_eq (s := s.publish token) hc hd with hd | rfl
        · exact .inr ⟨d, hd, hdpc⟩
        · rw [hpc] at hdpc
          cases hdpc
  paused d hd token' wakeAt hdpc := by
    rcases mem_calls_setCall hd with hd | rfl
    · obtain ⟨time, hwake, hmint⟩ := h.paused d hd token' wakeAt hdpc
      exact ⟨time, hwake, List.mem_append_right _ (List.mem_cons_of_mem _ hmint)⟩
    · obtain ⟨rfl, rfl⟩ := hpause token' wakeAt hdpc
      exact ⟨s.now, rfl, List.mem_append_right _ List.mem_cons_self⟩

theorem not_settling_iff (h : Paced cfg s) {token : τ} : ¬ Settling s token ↔
    ∀ time, .mint token time ∈ s.log → time + cfg.settlingDelay ≤ s.now := by
  constructor
  · intro hno time hmint
    rcases h.aged token time hmint with hage | ⟨c, hc, hpc⟩
    · exact hage
    · by_contra hlate
      exact hno ⟨c, hc, _, hpc, not_le.mp hlate⟩
  · rintro hall ⟨c, hc, wakeAt, hpc, hlate⟩
    obtain ⟨time, rfl, hmint⟩ := h.paused c hc token wakeAt hpc
    exact not_le.mpr hlate (hall time hmint)

theorem settledBefore_getStations {now : ℚ} {c : Call τ} {token : τ} {attempt : Nat}
    {delay : ℚ} {log : List (Event τ)} (h : SettledBefore delay log) :
    SettledBefore delay ((getStations cfg now c token attempt).2 ++ log) ↔
      (attempt ≤ cfg.maxRetries → ∀ minted, .mint token minted ∈ log → minted + delay ≤ now) := by
  rw [log_getStations]
  by_cases hattempt : attempt ≤ cfg.maxRetries
  · simp [hattempt, SettledBefore, h]
  · simp [hattempt, h]

/-- While a call is inside the lock but not in its pause, or the lock is free, no pause lasts. -/
theorem not_settling_of_posting (hex : Exclusive s) (hc : s.calls[i]? = some c)
    (hpc : c.pc = .posting) (token : τ) : ¬ Settling s token := by
  rintro ⟨d, hd, wakeAt, hdpc, -⟩
  obtain ⟨j, hj⟩ := List.mem_iff_getElem?.mp hd
  obtain rfl := hex i j c d hc hj (by rw [hpc]; rfl) (by rw [hdpc]; rfl)
  obtain rfl := Option.some.inj (hc.symm.trans hj)
  rw [hpc] at hdpc
  cases hdpc

theorem not_settling_of_free (hfree : s.locked = false) (token : τ) : ¬ Settling s token := by
  rintro ⟨d, hd, wakeAt, hdpc, -⟩
  have hholds := not_holdsLock_of_free hfree hd
  rw [hdpc] at hholds
  cases hholds

/-- The one call in its pause has slept enough. -/
theorem not_settling_of_slept (hex : Exclusive s) (hc : s.calls[i]? = some c) {token : τ} {wakeAt : ℚ}
    (hpc : c.pc = .settling token wakeAt) (hwake : wakeAt ≤ s.now) (token' : τ) :
    ¬ Settling s token' := by
  rintro ⟨d, hd, wakeAt', hdpc, hlate⟩
  obtain ⟨j, hj⟩ := List.mem_iff_getElem?.mp hd
  obtain rfl := hex i j c d hc hj (by rw [hpc]; rfl) (by rw [hdpc]; rfl)
  obtain rfl := Option.some.inj (hc.symm.trans hj)
  obtain ⟨rfl, rfl⟩ := Pc.settling.inj (hpc.symm.trans hdpc)
  exact not_le.mpr hlate hwake

variable [DecidableEq τ] {a : Action τ}

theorem Paced.step (h : Paced cfg s) (hstep : clientStep cfg s a = some t) : Paced cfg t := by
  rcases clientStep_cases hstep with ⟨now, -, hnow, rfl⟩ | ⟨-, rfl⟩ |
    ⟨i, c, token, attempt, answer, -, hc, hpc, rfl⟩ | ⟨i, c, token, attempt, wakeAt, -, hc, hpc, -, rfl⟩ |
    ⟨i, c, -, hc, hpc, hfree, rfl⟩ | ⟨i, c, token, -, hc, hpc, rfl⟩ |
    ⟨i, c, token, wakeAt, -, hc, hpc, hwake, rfl⟩
  · refine ⟨fun token time hmint => ?_, h.paused⟩
    exact (h.aged token time hmint).imp (fun hage => hage.trans hnow) id
  · rw [fetchStations]
    split
    · exact h.addCall (getStations_ne_settling _ _ _ _) (mint_notMem_getStations _ _ _ _)
    · exact h.addCall (by simp) (by simp)
  · have hdone : ∀ token wakeAt, c.pc = .settling token wakeAt → wakeAt ≤ s.now := by simp [hpc]
    cases answer with
    | unauthorized =>
      simp only [takeAnswer]
      split <;> exact h.setCall hc hdone (by simp) (by simp)
    | stations => exact h.setCall hc hdone (by simp) (by simp)
    | unavailable => exact h.setCall hc hdone (by simp) (by simp)
    | refused => exact h.setCall hc hdone (by simp) (by simp)
  · exact h.setCall_getStations hc (by simp [hpc]) token (attempt + 1)
  · have hdone : ∀ token wakeAt, c.pc = .settling token wakeAt → wakeAt ≤ s.now := by simp [hpc]
    rw [enterLock]
    split
    · exact h.setCall_getStations hc hdone _ 1
    · exact h.setCall hc hdone (by simp) (by simp)
  · cases token with
    | none => exact h.setCall hc (by simp [hpc]) (by simp) (by simp)
    | some token =>
      simp only [takeToken]
      split
      · refine h.publish hc hpc (.inr rfl) (fun token' wakeAt hpause => ?_) (by simp)
        obtain ⟨rfl, rfl⟩ := Pc.settling.inj hpause
        exact ⟨rfl, rfl⟩
      · rename_i hzero
        exact h.publish hc hpc (.inl (not_lt.mp hzero))
          (fun token' wakeAt hpause => absurd hpause (getStations_ne_settling _ _ _ _ _ _))
          (mint_notMem_getStations _ _ _ _)
  · refine h.setCall_getStations hc (fun token' wakeAt' hpc' => ?_) token 1
    obtain ⟨rfl, rfl⟩ := Pc.settling.inj (hpc.symm.trans hpc')
    exact hwake

/-- A step sends no token too early exactly if it holds back. -/
theorem heldBack_iff (hpaced : Paced cfg s) (hex : Exclusive s)
    (h : SettledBefore cfg.settlingDelay s.log) : HeldBack cfg s a ↔
      ∀ t, clientStep cfg s a = some t → SettledBefore cfg.settlingDelay t.log := by
  have hsend : ∀ (c : Call τ) token attempt, ¬ Settling s token →
      SettledBefore cfg.settlingDelay ((getStations cfg s.now c token attempt).2 ++ s.log) :=
    fun c token attempt hno =>
      (settledBefore_getStations h).mpr fun _ => (not_settling_iff hpaced).mp hno
  cases a with
  | clock now =>
    refine iff_of_true trivial fun t ht => ?_
    simp only [clientStep] at ht
    split at ht <;> cases ht
    exact h
  | fetch =>
    simp only [HeldBack, clientStep, Option.some.injEq, forall_eq']
    rw [fetchStations]
    cases hfresh : fresh cfg s with
    | none => simpa [Client.addCall] using h
    | some token =>
      simp only [Option.some.injEq, forall_eq', Client.addCall, not_settling_iff hpaced]
      exact (settledBefore_getStations h).symm
  | retry i =>
    constructor
    · intro hheld t ht
      obtain ⟨c, hc, ht⟩ := Option.bind_eq_some_iff.mp ht
      split at ht
      · rename_i token attempt wakeAt hpc
        split at ht
        · rename_i hwake
          cases ht
          refine (settledBefore_getStations h).mpr fun hattempt => ?_
          exact (not_settling_iff hpaced).mp (hheld c token attempt wakeAt hc hpc hwake hattempt)
        · cases ht
      · cases ht
    · intro hall c token attempt wakeAt hc hpc hwake hattempt
      have hstep : clientStep cfg s (.retry i) =
          some (s.setCall i (getStations cfg s.now c token (attempt + 1))) := by
        simp [clientStep, hc, hpc, hwake]
      exact (not_settling_iff hpaced).mpr ((settledBefore_getStations h).mp (hall _ hstep) hattempt)
  | answer i answer =>
    refine iff_of_true trivial fun t ht => ?_
    obtain ⟨c, hc, ht⟩ := Option.bind_eq_some_iff.mp ht
    split at ht
    · cases ht
      cases answer with
      | unauthorized =>
        simp only [takeAnswer]
        split <;> exact h
      | stations => exact h
      | unavailable => exact h
      | refused => exact h
    · cases ht
  | acquire i =>
    refine iff_of_true trivial fun t ht => ?_
    obtain ⟨c, hc, ht⟩ := Option.bind_eq_some_iff.mp ht
    split at ht
    · rename_i hfree
      cases ht
      rw [enterLock]
      split
      · exact hsend _ _ _ (not_settling_of_free hfree.2 _)
      · exact h
    · cases ht
  | minted i token =>
    refine iff_of_true trivial fun t ht => ?_
    obtain ⟨c, hc, ht⟩ := Option.bind_eq_some_iff.mp ht
    split at ht
    · rename_i hpc
      cases ht
      cases token with
      | none => exact h
      | some token =>
        simp only [takeToken]
        split
        · exact h
        · rename_i hzero
          have hpublished : SettledBefore cfg.settlingDelay (s.publish token).log := h
          refine (settledBefore_getStations hpublished).mpr fun _ minted hmint => ?_
          rcases List.mem_cons.mp hmint with hnow | hold
          · obtain ⟨-, rfl⟩ := Event.mint.inj hnow
            exact add_le_of_nonpos_right (not_lt.mp hzero)
          · exact (not_settling_iff hpaced).mp (not_settling_of_posting hex hc hpc token) minted hold
    · cases ht
  | settled i =>
    refine iff_of_true trivial fun t ht => ?_
    obtain ⟨c, hc, ht⟩ := Option.bind_eq_some_iff.mp ht
    split at ht
    · rename_i token wakeAt hpc
      split at ht
      · rename_i hwake
        cases ht
        exact hsend _ _ _ (not_settling_of_slept hex hc hpc hwake token)
      · cases ht
    · cases ht

/-- In every interleaving of calls, tokens are used only once they have settled exactly if each
step holds back. -/
theorem settled_iff_heldBack (cfg : Settings) (now : ℚ) (as : List (Action τ)) :
    Always (clientStep cfg) (fun s => SettledBefore cfg.settlingDelay s.log) (Client.boot now) as ↔
      Along (clientStep cfg) (HeldBack cfg) (Client.boot now) as :=
  always_iff_along (I := fun s => Paced cfg s ∧ Exclusive s)
    (fun _ _ _ hs hstep => ⟨hs.1.step hstep, hs.2.step hstep⟩)
    (fun _ _ hs h => heldBack_iff hs.1 hs.2 h) ⟨paced_boot now, exclusive_boot now⟩ trivial

/-- One second after the mint a second call reads the published token and sends it. -/
theorem unsettled_token_used : ∃ s : Client String,
    run (clientStep hourly) (Client.boot 0)
      [.fetch, .acquire 0, .minted 0 (some "jwt"), .clock 1, .fetch] = some s ∧
    s.log = [.get "jwt" 1, .mint "jwt" 0, .post none] ∧
    ¬ SettledBefore hourly.settlingDelay s.log := by
  have hr : (run (clientStep hourly) (Client.boot 0)
      [.fetch, .acquire 0, .minted 0 (some "jwt"), .clock 1, .fetch]).map Client.log =
      some [.get "jwt" 1, .mint "jwt" 0, .post none] := by decide +kernel
  obtain ⟨s, hrun, hlog⟩ := Option.map_eq_some_iff.mp hr
  refine ⟨s, hrun, hlog, fun h => ?_⟩
  rw [hlog] at h
  have hlate : (0 : ℚ) + 5 ≤ 1 := h.1 0 (by simp)
  exact absurd hlate (by decide +kernel)

end DataService.SmnApiClient
