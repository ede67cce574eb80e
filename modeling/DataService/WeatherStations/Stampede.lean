import DataService.WeatherStations.SmnApiClient

/-! One mint for all calls that are rejected with one token. The call that posts holds the
token that it invalidates, so whoever comes to the lock later finds another one. -/

namespace DataService.SmnApiClient

open StepSystem

variable {τ : Type} {cfg : Settings} {t : τ} {s u : Client τ} {c d : Call τ}
  {p : Call τ × List (Event τ)} {i : Nat}

def Event.minted : Event τ → Option τ
  | .mint token _ => some token
  | _ => none

/-- The tokens that have arrived. -/
def Client.minted (s : Client τ) : List τ := s.log.filterMap Event.minted

/-- The POSTs of calls that were rejected with `t`. -/
def posts [DecidableEq τ] (t : τ) (s : Client τ) : Nat := s.log.count (.post (some t))

/-- The cached token does not expire, a new token is one that never arrived before, and the
POST of a call that was rejected with `t` does not fail. -/
def Orderly (cfg : Settings) (t : τ) (s : Client τ) (a : Action τ) : Prop :=
  (s.token = none ∨ s.now - s.tokenMintedAt < cfg.tokenCacheTtl) ∧
    match a with
    | .minted _ (some token) => token ∉ s.minted
    | .minted i none => s.calls[i]?.bind Call.rejected ≠ some t
    | _ => True

/-- Some call awaits the answer to its POST. -/
def Posting (s : Client τ) : Prop := ∃ c ∈ s.calls, c.pc = .posting

/-- `t` has arrived, and is invalidated or about to be. -/
def Spent (t : τ) (s : Client τ) : Prop := t ∈ s.minted ∧ (s.token = some t → Posting s)

/-- The token that a call is about to send, or has sent last. -/
def Pc.carried : Pc τ → Option τ
  | .getting token _ | .backingOff token _ _ | .settling token _ => some token
  | .waiting | .posting | .ended => none

/-- Past its refresh a call that was rejected with `t` carries another token, has sent it or
will, and `t` is no longer cached. -/
def Renewed (t : τ) (token : Option τ) (sent : List τ) : Pc τ → Prop
  | .waiting | .posting => True
  | .settling k _ => k ≠ t ∧ token ≠ some t
  | .getting k _ | .backingOff k _ _ => k ≠ t ∧ token ≠ some t ∧ sent ≠ []
  | .ended => token ≠ some t ∧ sent ≠ []

/-- What is known of a call when these tokens have arrived and `token` is cached. -/
structure CallOk (cfg : Settings) (t : τ) (minted : List τ) (token : Option τ) (c : Call τ) :
    Prop where
  carried : ∀ k, c.pc.carried = some k → k ∈ minted
  requested : ∀ k attempt, c.pc = .getting k attempt → 1 ≤ cfg.maxRetries
  rejected : ∀ k, c.rejected = some k → k ∈ minted ∧ 1 ≤ cfg.maxRetries
  posting : c.pc = .posting → c.rejected = token
  others : c.rejected = some t → ∀ x ∈ c.sent, x ≠ t
  renewed : c.rejected = some t → Renewed t token c.sent c.pc

/-- The events of a step outside the refresh. -/
def Quiet (events : List (Event τ)) : Prop :=
  ∀ e ∈ events, e.minted = none ∧ ∀ k, e ≠ .post (some k)

theorem quiet_getStations (now : ℚ) (c : Call τ) (k : τ) (attempt : Nat) :
    Quiet (getStations cfg now c k attempt).2 := by
  rw [log_getStations]
  split <;> simp [Quiet, Event.minted]

theorem quiet_nil : Quiet ([] : List (Event τ)) := by simp [Quiet]

theorem minted_setCall (hquiet : Quiet p.2) : (s.setCall i p).minted = s.minted := by
  have hnone : p.2.filterMap Event.minted = [] :=
    List.filterMap_eq_nil_iff.mpr fun e he => (hquiet e he).1
  simp [Client.setCall, Client.minted, hnone]

theorem mem_setCall_cases (h : d ∈ (s.setCall i p).calls) :
    d = p.1 ∨ ∃ j, j ≠ i ∧ s.calls[j]? = some d := by
  obtain ⟨j, hj⟩ := List.mem_iff_getElem?.mp h
  rw [Client.setCall, List.getElem?_set] at hj
  split at hj
  · split at hj
    · exact .inl (Option.some.inj hj).symm
    · cases hj
  · rename_i hne
    exact .inr ⟨j, Ne.symm hne, hj⟩

theorem CallOk.ended {minted : List τ} {token : Option τ} (h : CallOk cfg t minted token c)
    (hrenewed : c.rejected = some t → token ≠ some t ∧ c.sent ≠ []) :
    CallOk cfg t minted token (c.goTo .ended) :=
  ⟨by simp [Pc.carried], by simp, h.rejected, by simp, h.others, hrenewed⟩

/-- A call sends the token it was given, or has sent one before. -/
theorem CallOk.getStations {minted : List τ} {token : Option τ} (h : CallOk cfg t minted token c)
    {k : τ} {attempt : Nat} (hk : k ∈ minted) (hattempt : 1 ≤ attempt)
    (hother : c.rejected = some t → k ≠ t ∧ token ≠ some t)
    (hlast : c.rejected = some t → cfg.maxRetries < attempt → c.sent ≠ []) (now : ℚ) :
    CallOk cfg t minted token (getStations cfg now c k attempt).1 := by
  rw [SmnApiClient.getStations]
  by_cases hround : attempt ≤ cfg.maxRetries
  · rw [if_pos hround]
    refine ⟨?_, fun _ _ _ => hattempt.trans hround, h.rejected, by simp, ?_, ?_⟩
    · intro k' hk'
      obtain rfl := Option.some.inj hk'
      exact hk
    · intro hrej x hx
      rcases List.mem_cons.mp hx with rfl | hx
      · exact (hother hrej).1
      · exact h.others hrej x hx
    · intro hrej
      exact ⟨(hother hrej).1, (hother hrej).2, List.cons_ne_nil _ _⟩
  · rw [if_neg hround]
    exact h.ended fun hrej => ⟨(hother hrej).2, hlast hrej (not_le.mp hround)⟩

theorem fresh_eq {a : Action τ} (horderly : Orderly cfg t s a) : fresh cfg s = s.token := by
  rw [fresh]
  rcases horderly.1 with hnone | hyoung
  · rw [hnone]
    split <;> rfl
  · exact if_pos hyoung

theorem getStations_ne_posting (now : ℚ) (c : Call τ) (k : τ) (attempt : Nat) :
    (getStations cfg now c k attempt).1.pc ≠ .posting := by
  rcases pc_getStations cfg now c k attempt with h | h <;> simp [h]

theorem callOk_waiting (h : CallOk cfg t s.minted s.token c) {minted : List τ} {token : Option τ}
    (hminted : ∀ k ∈ s.minted, k ∈ minted) : CallOk cfg t minted token (c.goTo .waiting) :=
  ⟨by simp [Pc.carried], by simp, fun k hk => ⟨hminted k (h.rejected k hk).1, (h.rejected k hk).2⟩,
    by simp, h.others, fun _ => trivial⟩

variable [DecidableEq τ]

/-- One POST for the calls that were rejected with `t`, from when `t` is spent. -/
structure OneMint (cfg : Settings) (t : τ) (s : Client τ) : Prop where
  cached : ∀ k, s.token = some k → k ∈ s.minted
  empty : s.token = none → s.minted = []
  calls : ∀ c ∈ s.calls, CallOk cfg t s.minted s.token c
  spent : Spent t s → posts t s = 1
  unspent : ¬ Spent t s → posts t s = 0

theorem oneMint_boot (now : ℚ) : OneMint cfg t (Client.boot now) := by
  constructor <;> simp [Client.boot, Client.minted, Spent, posts]

theorem posts_setCall (hquiet : Quiet p.2) : posts t (s.setCall i p) = posts t s := by
  have hzero : p.2.count (.post (some t)) = 0 :=
    List.count_eq_zero.mpr fun hmem => (hquiet _ hmem).2 t rfl
  simp [Client.setCall, posts, hzero]

/-- A move that mints nothing and posts nothing. -/
theorem OneMint.of_calls {u : Client τ} (h : OneMint cfg t s) (htoken : u.token = s.token)
    (hminted : u.minted = s.minted) (hposts : posts t u = posts t s)
    (hposting : s.token = some t → (Posting u ↔ Posting s))
    (hcalls : ∀ d ∈ u.calls, d ∈ s.calls ∨ CallOk cfg t s.minted s.token d) : OneMint cfg t u := by
  have hspent : Spent t u ↔ Spent t s := by
    rw [Spent, Spent, hminted, htoken]
    exact and_congr Iff.rfl (forall_congr' hposting)
  refine ⟨?_, ?_, ?_, ?_, ?_⟩
  · rw [hminted, htoken]
    exact h.cached
  · rw [hminted, htoken]
    exact h.empty
  · intro d hd
    rw [hminted, htoken]
    rcases hcalls d hd with hd | hok
    · exact h.calls d hd
    · exact hok
  · rw [hspent, hposts]
    exact h.spent
  · rw [hspent, hposts]
    exact h.unspent

/-- A step of one call outside the refresh. -/
theorem OneMint.setCall (h : OneMint cfg t s) (hc : s.calls[i]? = some c) (hquiet : Quiet p.2)
    (hposting : p.1.pc ≠ .posting) (hfailed : c.pc = .posting → s.token ≠ some t)
    (hok : CallOk cfg t s.minted s.token p.1) : OneMint cfg t (s.setCall i p) := by
  refine h.of_calls rfl (minted_setCall hquiet) (posts_setCall hquiet) (fun htoken => ?_)
    fun d hd => ?_
  · constructor
    · rintro ⟨d, hd, hpc⟩
      rcases mem_calls_setCall hd with hd | rfl
      · exact ⟨d, hd, hpc⟩
      · exact absurd hpc hposting
    · rintro ⟨d, hd, hpc⟩
      rcases mem_calls_or_eq (p := p) hc hd with hd | rfl
      · exact ⟨d, hd, hpc⟩
      · exact absurd htoken (hfailed hpc)
  · rcases mem_calls_setCall hd with hd | rfl
    · exact .inl hd
    · exact .inr hok

theorem OneMint.setCall_getStations (h : OneMint cfg t s) (hc : s.calls[i]? = some c)
    (hpc : c.pc ≠ .posting) {token : τ} {attempt : Nat}
    (hok : CallOk cfg t s.minted s.token (getStations cfg s.now c token attempt).1) :
    OneMint cfg t (s.setCall i (getStations cfg s.now c token attempt)) :=
  h.setCall hc (quiet_getStations _ _ _ _) (getStations_ne_posting _ _ _ _) (absurd · hpc) hok

theorem OneMint.addCall (h : OneMint cfg t s) (hquiet : Quiet p.2) (hposting : p.1.pc ≠ .posting)
    (hok : CallOk cfg t s.minted s.token p.1) : OneMint cfg t (s.addCall p) := by
  refine h.of_calls rfl (minted_setCall (s := s) (i := 0) hquiet)
    (posts_setCall (s := s) (i := 0) hquiet) (fun _ => ?_) fun d hd => ?_
  · constructor
    · rintro ⟨d, hd, hpc⟩
      rcases mem_calls_addCall.mp hd with hd | rfl
      · exact ⟨d, hd, hpc⟩
      · exact absurd hpc hposting
    · rintro ⟨d, hd, hpc⟩
      exact ⟨d, mem_calls_addCall.mpr (.inl hd), hpc⟩
  · rcases mem_calls_addCall.mp hd with hd | rfl
    · exact .inl hd
    · exact .inr hok

/-- The call that has the lock posts: it invalidates what is cached. -/
theorem OneMint.post (h : OneMint cfg t s) (hc : s.calls[i]? = some c) (hfree : s.locked = false)
    (hrej : c.rejected = s.token) :
    OneMint cfg t (s.setCall i (c.goTo .posting, [.post c.rejected])) := by
  set v := s.setCall i (c.goTo .posting, [.post c.rejected]) with hv
  have hminted : v.minted = s.minted := rfl
  have hposting : Posting v := ⟨_, mem_setCall_self hc, rfl⟩
  have hidle : ¬ Posting s := by
    rintro ⟨d, hd, hdpc⟩
    have hholds := not_holdsLock_of_free hfree hd
    rw [hdpc] at hholds
    cases hholds
  have hspent : Spent t v ↔ t ∈ s.minted := by simp [Spent, hminted, hposting]
  have hbefore : Spent t s ↔ t ∈ s.minted ∧ s.token ≠ some t := by simp [Spent, hidle]
  have hposts : posts t v = posts t s + if s.token = some t then 1 else 0 := by
    rw [← hrej]
    simp [hv, posts, Client.setCall, List.count_cons, Nat.add_comm]
  refine ⟨h.cached, h.empty, ?_, ?_, ?_⟩
  · intro d hd
    rcases mem_calls_setCall hd with hd | rfl
    · exact h.calls d hd
    · have hok := h.calls c (List.mem_of_getElem? hc)
      exact ⟨by simp [Pc.carried], by simp, hok.rejected, fun _ => hrej, hok.others, fun _ => trivial⟩
  · intro hs
    rw [hposts]
    by_cases htoken : s.token = some t
    · have hzero := h.unspent fun hsp => (hbefore.mp hsp).2 htoken
      simp [htoken, hzero]
    · have hone := h.spent (hbefore.mpr ⟨hspent.mp hs, htoken⟩)
      simp [htoken, hone]
  · intro hs
    have hnew : t ∉ s.minted := fun hm => hs (hspent.mpr hm)
    have hzero := h.unspent fun hsp => hnew (hbefore.mp hsp).1
    have htoken : s.token ≠ some t := fun heq => hnew (h.cached t heq)
    simp [hposts, htoken, hzero]

/-- A new token: what was cached is spent, and the new one is not. -/
theorem OneMint.publish (h : OneMint cfg t s) (hex : Exclusive s) (hc : s.calls[i]? = some c)
    (hpc : c.pc = .posting) {k : τ} (hnew : k ∉ s.minted) (hquiet : Quiet p.2)
    (hposting : p.1.pc ≠ .posting) (hok : CallOk cfg t (k :: s.minted) (some k) p.1) :
    OneMint cfg t ((s.publish k).setCall i p) := by
  set v := (s.publish k).setCall i p with hv
  have hminted : v.minted = k :: s.minted := minted_setCall (s := s.publish k) hquiet
  have hposts : posts t v = posts t s := by
    rw [hv, posts_setCall hquiet]
    simp [posts, Client.publish]
  have hothers : ∀ j d, j ≠ i → s.calls[j]? = some d → d.pc ≠ .posting := by
    intro j d hj hd hdpc
    exact hj (hex j i d c hd hc (by rw [hdpc]; rfl) (by rw [hpc]; rfl))
  have hidle : ¬ Posting v := by
    rintro ⟨d, hd, hdpc⟩
    rcases mem_setCall_cases hd with rfl | ⟨j, hj, hdj⟩
    · exact hposting hdpc
    · exact hothers j d hj hdj hdpc
  have hbefore : Spent t s ↔ t ∈ s.minted :=
    and_iff_left fun _ => ⟨c, List.mem_of_getElem? hc, hpc⟩
  have hspent : Spent t v ↔ t ∈ s.minted := by
    have htoken : v.token = some k := rfl
    simp only [Spent, hminted, htoken, Option.some.injEq, hidle, imp_false, List.mem_cons]
    constructor
    · rintro ⟨rfl | hm, hne⟩
      · exact absurd rfl hne
      · exact hm
    · intro hm
      exact ⟨.inr hm, fun heq => hnew (heq ▸ hm)⟩
  refine ⟨?_, fun hnone => absurd hnone (Option.some_ne_none k), ?_, ?_, ?_⟩
  · intro k' hk'
    obtain rfl := Option.some.inj hk'
    rw [hminted]
    exact List.mem_cons_self
  · intro d hd
    rw [hminted]
    rcases mem_setCall_cases hd with rfl | ⟨j, hj, hdj⟩
    · exact hok
    · have hd' := h.calls d (List.mem_of_getElem? hdj)
      refine ⟨fun k' hk' => List.mem_cons_of_mem k (hd'.carried k' hk'), hd'.requested,
        fun k' hk' => ⟨List.mem_cons_of_mem k (hd'.rejected k' hk').1, (hd'.rejected k' hk').2⟩,
        fun hdpc => absurd hdpc (hothers j d hj hdj), hd'.others, fun hrej => ?_⟩
      have hne : k ≠ t := fun heq => hnew (heq ▸ (hd'.rejected t hrej).1)
      have hcached : v.token ≠ some t := fun heq => hne (Option.some.inj heq)
      have hren := hd'.renewed hrej
      cases hdpc : d.pc with
      | waiting => trivial
      | posting => trivial
      | settling k' wakeAt =>
        rw [hdpc] at hren
        exact ⟨hren.1, hcached⟩
      | getting k' attempt =>
        rw [hdpc] at hren
        exact ⟨hren.1, hcached, hren.2.2⟩
      | backingOff k' attempt wakeAt =>
        rw [hdpc] at hren
        exact ⟨hren.1, hcached, hren.2.2⟩
      | ended =>
        rw [hdpc] at hren
        exact ⟨hcached, hren.2⟩
  · rw [hspent, hposts, ← hbefore]
    exact h.spent
  · rw [hspent, hposts, ← hbefore]
    exact h.unspent

theorem OneMint.answer (h : OneMint cfg t s) (hc : s.calls[i]? = some c) {token : τ} {attempt : Nat}
    (hpc : c.pc = .getting token attempt) (answer : GetAnswer) :
    OneMint cfg t (takeAnswer s i c token attempt answer) := by
  have hok := h.calls c (List.mem_of_getElem? hc)
  have hgetting : ¬ c.pc = .posting := by simp [hpc]
  have hren : c.rejected = some t → token ≠ t ∧ s.token ≠ some t ∧ c.sent ≠ [] := by
    intro hrej
    have hren := hok.renewed hrej
    rwa [hpc] at hren
  have hended : CallOk cfg t s.minted s.token (c.goTo .ended) := hok.ended fun hrej => (hren hrej).2
  cases answer with
  | stations => exact h.setCall hc quiet_nil (by simp) (absurd · hgetting) hended
  | refused => exact h.setCall hc quiet_nil (by simp) (absurd · hgetting) hended
  | unavailable =>
    refine h.setCall hc quiet_nil (by simp) (absurd · hgetting) ?_
    refine ⟨fun k hk => hok.carried k ?_, by simp, hok.rejected, by simp, hok.others, hren⟩
    rw [hpc]
    exact hk
  | unauthorized =>
    simp only [takeAnswer]
    split
    · refine h.setCall hc quiet_nil (by simp) (absurd · hgetting) ?_
      refine ⟨by simp [Pc.carried], by simp, ?_, by simp, ?_, ?_⟩
      · intro k hk
        obtain rfl := Option.some.inj hk
        refine ⟨hok.carried token ?_, hok.requested token attempt hpc⟩
        rw [hpc]
        rfl
      · intro _ x hx
        cases hx
      · exact fun _ => trivial
    · exact h.setCall hc quiet_nil (by simp) (absurd · hgetting) hended

theorem OneMint.acquire (h : OneMint cfg t s) (hc : s.calls[i]? = some c) (hpc : c.pc = .waiting)
    (hfree : s.locked = false) (hfresh : fresh cfg s = s.token) :
    OneMint cfg t (enterLock cfg s i c) := by
  have hok := h.calls c (List.mem_of_getElem? hc)
  rw [enterLock, hfresh]
  cases hcheck : s.token.filter fun token => decide (c.rejected ≠ some token) with
  | some token =>
    obtain ⟨htoken, hne⟩ := Option.filter_eq_some_iff.mp hcheck
    have hne' : c.rejected ≠ some token := by simpa using hne
    refine h.setCall_getStations hc (by simp [hpc]) ?_
    refine hok.getStations (h.cached token htoken) le_rfl (fun hrej => ?_) (fun hrej hmax => ?_) s.now
    · have hother : token ≠ t := fun heq => hne' (heq ▸ hrej)
      exact ⟨hother, fun heq => hother (Option.some.inj (htoken.symm.trans heq))⟩
    · have hone := (hok.rejected t hrej).2
      omega
  | none =>
    refine h.post hc hfree ?_
    cases htoken : s.token with
    | none =>
      cases hrej : c.rejected with
      | none => rfl
      | some k =>
        have hmem := (hok.rejected k hrej).1
        rw [h.empty htoken] at hmem
        cases hmem
    | some token => simpa [htoken, Option.filter] using hcheck

theorem OneMint.minted (h : OneMint cfg t s) (hex : Exclusive s) (hc : s.calls[i]? = some c)
    (hpc : c.pc = .posting) {token : Option τ} (horderly : Orderly cfg t s (.minted i token)) :
    OneMint cfg t (takeToken cfg s i c token) := by
  have hok := h.calls c (List.mem_of_getElem? hc)
  have hrej := hok.posting hpc
  cases token with
  | none =>
    have hne : c.rejected ≠ some t := by
      have hnone := horderly.2
      simpa [hc] using hnone
    exact h.setCall hc quiet_nil (by simp) (fun _ => hrej ▸ hne)
      (hok.ended fun heq => absurd heq hne)
  | some k =>
    have hnew : k ∉ s.minted := horderly.2
    have hother : c.rejected = some t → k ≠ t ∧ some k ≠ some t := by
      intro heq
      have hne : k ≠ t := fun hkt => hnew (hkt ▸ (hok.rejected t heq).1)
      exact ⟨hne, fun hkt => hne (Option.some.inj hkt)⟩
    have hwait : CallOk cfg t (k :: s.minted) (some k) (c.goTo .waiting) :=
      callOk_waiting hok fun _ hm => List.mem_cons_of_mem k hm
    simp only [takeToken]
    split
    · refine h.publish hex hc hpc hnew quiet_nil (by simp) ?_
      refine ⟨fun k' hk' => ?_, by simp, hwait.rejected, by simp, hok.others, hother⟩
      obtain rfl := Option.some.inj hk'
      exact List.mem_cons_self
    · refine h.publish hex hc hpc hnew (quiet_getStations _ _ _ _) (getStations_ne_posting _ _ _ _) ?_
      refine hwait.getStations List.mem_cons_self le_rfl hother (fun heq hmax => ?_) s.now
      have hone := (hok.rejected t heq).2
      omega

theorem OneMint.step {a : Action τ} (h : OneMint cfg t s) (hex : Exclusive s)
    (horderly : Orderly cfg t s a) (hstep : clientStep cfg s a = some u) : OneMint cfg t u := by
  have hnothing : CallOk cfg t s.minted s.token (⟨none, [], .waiting⟩ : Call τ) :=
    ⟨by simp [Pc.carried], by simp, by simp, by simp, by simp, by simp⟩
  rcases clientStep_cases hstep with ⟨now, -, -, rfl⟩ | ⟨-, rfl⟩ |
    ⟨i, c, token, attempt, answer, -, hc, hpc, rfl⟩ | ⟨i, c, token, attempt, wakeAt, -, hc, hpc, -, rfl⟩ |
    ⟨i, c, -, hc, hpc, hfree, rfl⟩ | ⟨i, c, token, rfl, hc, hpc, rfl⟩ |
    ⟨i, c, token, wakeAt, -, hc, hpc, -, rfl⟩
  · exact ⟨h.cached, h.empty, h.calls, h.spent, h.unspent⟩
  · rw [fetchStations, fresh_eq horderly]
    cases htoken : s.token with
    | none => exact h.addCall quiet_nil (by simp) hnothing
    | some token =>
      exact h.addCall (quiet_getStations _ _ _ _) (getStations_ne_posting _ _ _ _)
        (hnothing.getStations (h.cached token htoken) le_rfl (by simp) (by simp) s.now)
  · exact h.answer hc hpc answer
  · have hok := h.calls c (List.mem_of_getElem? hc)
    have hren : c.rejected = some t → token ≠ t ∧ s.token ≠ some t ∧ c.sent ≠ [] := by
      intro hrej
      have hren := hok.renewed hrej
      rwa [hpc] at hren
    refine h.setCall_getStations hc (by simp [hpc]) ?_
    refine hok.getStations (hok.carried token ?_) (Nat.le_add_left 1 attempt)
      (fun hrej => ⟨(hren hrej).1, (hren hrej).2.1⟩) (fun hrej _ => (hren hrej).2.2) s.now
    rw [hpc]
    rfl
  · exact h.acquire hc hpc hfree (fresh_eq horderly)
  · exact h.minted hex hc hpc horderly
  · have hok := h.calls c (List.mem_of_getElem? hc)
    refine h.setCall_getStations hc (by simp [hpc]) ?_
    refine hok.getStations (hok.carried token ?_) le_rfl (fun hrej => ?_) (fun hrej hmax => ?_) s.now
    · rw [hpc]
      rfl
    · have hren := hok.renewed hrej
      rwa [hpc] at hren
    · have hone := (hok.rejected t hrej).2
      omega

/-- A call inside its refresh. -/
def Pc.refreshing : Pc τ → Bool
  | .waiting | .posting | .settling _ _ => true
  | _ => false

/-- At most one POST for the calls whose first request was rejected with `t`, one as soon as one
of them has come to the lock, and a retry with another token for each that is past its refresh. -/
structure MintedOnce (t : τ) (s : Client τ) : Prop where
  atMost : posts t s ≤ 1
  once : ∀ c ∈ s.calls, c.rejected = some t → c.pc ≠ .waiting → posts t s = 1
  retried : ∀ c ∈ s.calls, c.rejected = some t → c.pc.refreshing = false →
    c.sent ≠ [] ∧ ∀ k ∈ c.sent, k ≠ t

theorem OneMint.mintedOnce (h : OneMint cfg t s) : MintedOnce t s where
  atMost := by
    by_cases hspent : Spent t s
    · exact (h.spent hspent).le
    · simp [h.unspent hspent]
  once c hc hrej hpc := by
    have hok := h.calls c hc
    have hren := hok.renewed hrej
    refine h.spent ⟨(hok.rejected t hrej).1, fun htoken => ?_⟩
    cases hpc' : c.pc with
    | waiting => exact absurd hpc' hpc
    | posting => exact ⟨c, hc, hpc'⟩
    | settling k wakeAt =>
      rw [hpc'] at hren
      exact absurd htoken hren.2
    | getting k attempt =>
      rw [hpc'] at hren
      exact absurd htoken hren.2.1
    | backingOff k attempt wakeAt =>
      rw [hpc'] at hren
      exact absurd htoken hren.2.1
    | ended =>
      rw [hpc'] at hren
      exact absurd htoken hren.1
  retried c hc hrej hpc := by
    have hok := h.calls c hc
    have hren := hok.renewed hrej
    refine ⟨?_, hok.others hrej⟩
    cases hpc' : c.pc with
    | waiting => simp [hpc', Pc.refreshing] at hpc
    | posting => simp [hpc', Pc.refreshing] at hpc
    | settling k wakeAt => simp [hpc', Pc.refreshing] at hpc
    | getting k attempt =>
      rw [hpc'] at hren
      exact hren.2.2
    | backingOff k attempt wakeAt =>
      rw [hpc'] at hren
      exact hren.2.2
    | ended =>
      rw [hpc'] at hren
      exact hren.2

/-- In every interleaving of any number of calls, with new tokens that do not expire. -/
theorem one_mint_per_stampede {now : ℚ} {as : List (Action τ)}
    (horderly : Along (clientStep cfg) (Orderly cfg t) (Client.boot now) as)
    (hrun : run (clientStep cfg) (Client.boot now) as = some s) : MintedOnce t s := by
  have hinv : OneMint cfg t s ∧ Exclusive s :=
    run_invariant_along (P := fun s => OneMint cfg t s ∧ Exclusive s)
      (fun _ _ _ h hG hstep => ⟨h.1.step h.2 hG hstep, h.2.step hstep⟩)
      ⟨oneMint_boot now, exclusive_boot now⟩ horderly hrun
  exact hinv.1.mintedOnce

instance : DecidablePred (Orderly cfg t s) := fun a =>
  match a with
  | .minted _ (some token) => inferInstanceAs (Decidable (_ ∧ token ∉ s.minted))
  | .minted i none => inferInstanceAs (Decidable (_ ∧ s.calls[i]?.bind Call.rejected ≠ some t))
  | .clock _ | .fetch | .answer _ _ | .retry _ | .acquire _ | .settled _ =>
    inferInstanceAs (Decidable (_ ∧ True))

/-- Three calls hold one token, are rejected, and come to the lock in any order. -/
def threeRejected : List (Action String) :=
  [.fetch, .acquire 0, .minted 0 (some "t"), .clock 5, .settled 0, .fetch, .fetch,
    .answer 0 .unauthorized, .answer 1 .unauthorized, .acquire 1, .answer 2 .unauthorized,
    .minted 1 (some "u"), .clock 10, .settled 1, .acquire 2, .acquire 0]

theorem one_mint_for_three : ∃ s, run (clientStep hourly) (Client.boot 0) threeRejected = some s ∧
    s.calls = List.replicate 3 ⟨some "t", ["u"], .getting "u" 1⟩ ∧ MintedOnce "t" s := by
  have hr : (run (clientStep hourly) (Client.boot 0) threeRejected).map Client.calls =
      some (List.replicate 3 ⟨some "t", ["u"], .getting "u" 1⟩) := by decide +kernel
  obtain ⟨s, hrun, hcalls⟩ := Option.map_eq_some_iff.mp hr
  exact ⟨s, hrun, hcalls, one_mint_per_stampede (by decide +kernel) hrun⟩

/-- The call that minted a token sends it as its second, when another call sends it as its first. -/
def secondAndFirst : List (Action String) :=
  [.fetch, .acquire 0, .minted 0 (some "s"), .clock 5, .settled 0, .answer 0 .unauthorized,
    .acquire 0, .minted 0 (some "t"), .clock 10, .settled 0, .fetch]

def bothRejected : List (Action String) :=
  [.answer 0 .unauthorized, .answer 1 .unauthorized, .acquire 1, .minted 1 (some "u"), .clock 15,
    .settled 1]

/-- Both are rejected with the token they hold, and the first of them does not try again. -/
theorem second_rejection_not_retried : ∃ s u,
    Along (clientStep hourly) (Orderly hourly "t") (Client.boot 0) (secondAndFirst ++ bothRejected) ∧
    run (clientStep hourly) (Client.boot 0) secondAndFirst = some s ∧
    s.calls.map Call.pc = [.getting "t" 1, .getting "t" 1] ∧
    run (clientStep hourly) s bothRejected = some u ∧
    u.calls = [⟨some "s", ["t"], .ended⟩, ⟨some "t", ["u"], .getting "u" 1⟩] := by
  have hr : (run (clientStep hourly) (Client.boot 0) secondAndFirst).map (fun s =>
      (s.calls.map Call.pc, (run (clientStep hourly) s bothRejected).map Client.calls)) =
      some ([.getting "t" 1, .getting "t" 1],
        some [⟨some "s", ["t"], .ended⟩, ⟨some "t", ["u"], .getting "u" 1⟩]) := by decide +kernel
  obtain ⟨s, hs, hpair⟩ := Option.map_eq_some_iff.mp hr
  obtain ⟨hpcs, hafter⟩ := Prod.mk.inj hpair
  obtain ⟨u, hu, hcalls⟩ := Option.map_eq_some_iff.mp hafter
  exact ⟨s, u, by decide +kernel, hs, hpcs, hu, hcalls⟩

end DataService.SmnApiClient
