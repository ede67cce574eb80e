import DataService.Lib.StepSystem
import DataService.WeatherStations.Keystore

/-! Calls of `add_custom` with one secret. The existence check and the put are two requests,
so two calls may both find the secret unused; where no check falls between the check and the
put of another call, one call gets the key, and the key stays within reach of `revoke`. -/

namespace DataService.Keystore

open StepSystem RemoteStore

variable {κ : Type*} [DecidableEq κ] {w w' : World κ} {hash : κ}

/-- `list_all`, with the names in the order of the listing, while nobody else writes. -/
def listAll (bucket : AList fun _ : ObjectKey κ => Body) (objectKeys : List (ObjectKey κ)) :
    List ApiKeyRecord :=
  if objectKeys = [] then []
  else
    let records := objectKeys.filterMap fun key => (bucket.lookup key).bind decodeRecord
    records.mergeSort fun a b => decide (b.createdAt ≤ a.createdAt)

theorem mem_listAll {bucket : AList fun _ : ObjectKey κ => Body} {keys : List (ObjectKey κ)}
    {key : ObjectKey κ} {r : ApiKeyRecord} (hkey : key ∈ keys)
    (hr : bucket.lookup key = some (.record r)) : r ∈ listAll bucket keys := by
  rw [listAll, if_neg (List.ne_nil_of_mem hkey), List.mem_mergeSort]
  exact List.mem_filterMap.mpr ⟨key, hkey, by rw [hr]; rfl⟩

namespace Call

def outcome : Call κ → Option (Except StoreError ApiKeyRecord)
  | .store _ _ _ (.returned record) => some (.ok record)
  | .store _ _ _ (.raised error) => some (.error error)
  | _ => none

/-- The record whose object a call has stored. -/
def stored : Call κ → Option ApiKeyRecord
  | .store _ _ _ (.put record true) => some record
  | .store _ _ _ (.returned record) => some record
  | _ => none

/-- The call found the secret unused, and its put is not answered. -/
def pending : Call κ → Bool
  | .store _ _ _ (.checked (some false)) => true
  | .store _ _ _ (.putting _) => true
  | _ => false

def checking : Call κ → Bool
  | .store _ _ _ .checking => true
  | _ => false

/-- The call was refused by S3 itself. -/
def refused : Call κ → Bool
  | .store _ _ _ (.checked none) => true
  | .store _ _ _ (.put _ false) => true
  | .store _ _ _ (.raised .s3) => true
  | _ => false

def Wins (c : Call κ) : Prop := c.pending = true ∨ c.stored ≠ none

end Call

/-- Calls of `add_custom` with this secret, S3 and the clock. -/
def AddsCustom (secret : String) : Action κ → Prop
  | .addCustom s _ _ => s = secret
  | .clock _ | .answer _ _ | .resume _ => True
  | _ => False

/-- No existence check finds the secret unused while another call is between its own check
and the answer to its put. -/
def ChecksAlone (hash : κ) (w : World κ) : Action κ → Prop
  | .answer i .ok => (w.calls[i]?.any Call.checking) = true → .key hash ∉ w.bucket →
      ∀ c ∈ w.calls, c.pending = false
  | _ => True

/-- At most one call gets the key, and the object of a call that stored it is there. -/
structure OneWinner (hash : κ) (w : World κ) : Prop where
  ofSecret : ∀ c ∈ w.calls, ∃ keyId label pc, c = .store hash keyId label pc
  one : ∀ (i j : Nat) (c d : Call κ), w.calls[i]? = some c → w.calls[j]? = some d → c.Wins →
    d.Wins → i = j
  stored : ∀ c ∈ w.calls, ∀ r, c.stored = some r → w.bucket.lookup (.key hash) = some (.record r)

theorem oneWinner_boot (bucket : AList fun _ : ObjectKey κ => Body) (now : Nat) (hash : κ) :
    OneWinner hash (World.boot bucket now) := by
  constructor <;> simp [World.boot]

/-- One call goes on; the others are as they were. -/
theorem OneWinner.goOn (h : OneWinner hash w) {u : World κ} {i : Nat} {keyId label : String}
    {pc : StorePc} (hcalls : u.calls = w.calls.set i (.store hash keyId label pc))
    (hwins : (Call.store hash keyId label pc).Wins → ∀ j d, j ≠ i → w.calls[j]? = some d → ¬ d.Wins)
    (hothers : ∀ j d r, j ≠ i → w.calls[j]? = some d → d.stored = some r →
      u.bucket.lookup (.key hash) = some (.record r))
    (hstored : ∀ r, (Call.store hash keyId label pc).stored = some r →
      u.bucket.lookup (.key hash) = some (.record r)) : OneWinner hash u := by
  have hget (j : Nat) (d : Call κ) (hd : u.calls[j]? = some d) :
      (j = i ∧ d = .store hash keyId label pc) ∨ (j ≠ i ∧ w.calls[j]? = some d) := by
    rw [hcalls, List.getElem?_set] at hd
    split_ifs at hd with hj hlt
    · exact .inl ⟨hj.symm, (Option.some.inj hd).symm⟩
    · exact .inr ⟨fun he => hj he.symm, hd⟩
  refine ⟨?_, ?_, ?_⟩
  · intro d hd
    obtain ⟨j, hj⟩ := List.mem_iff_getElem?.mp hd
    rcases hget j d hj with ⟨-, rfl⟩ | ⟨-, hold⟩
    · exact ⟨keyId, label, pc, rfl⟩
    · exact h.ofSecret d (List.mem_of_getElem? hold)
  · intro j k c d hj hk hc hd
    rcases hget j c hj with ⟨rfl, rfl⟩ | ⟨hne, hold⟩ <;>
      rcases hget k d hk with ⟨rfl, rfl⟩ | ⟨hne', hold'⟩
    · rfl
    · exact absurd hd (hwins hc k d hne' hold')
    · exact absurd hc (hwins hd j c hne hold)
    · exact h.one j k c d hold hold' hc hd
  · intro d hd r hr
    obtain ⟨j, hj⟩ := List.mem_iff_getElem?.mp hd
    rcases hget j d hj with ⟨-, rfl⟩ | ⟨hne, hold⟩
    · exact hstored r hr
    · exact hothers j d r hne hold hr

theorem OneWinner.winner (h : OneWinner hash w) {u : World κ} {i : Nat} {c : Call κ}
    {keyId label : String} {pc : StorePc} (hi : w.calls[i]? = some c) (hc : c.Wins)
    (hcalls : u.calls = w.calls.set i (.store hash keyId label pc))
    (hstored : ∀ r, (Call.store hash keyId label pc).stored = some r →
      u.bucket.lookup (.key hash) = some (.record r)) : OneWinner hash u := by
  have halone (j : Nat) (d : Call κ) (hne : j ≠ i) (hj : w.calls[j]? = some d) : ¬ d.Wins :=
    fun hd => hne (h.one j i d c hj hi hd hc)
  refine h.goOn hcalls (fun _ => halone) ?_ hstored
  intro j d r hne hj hr
  exact absurd (.inr (by simp [hr])) (halone j d hne hj)

theorem OneWinner.loser (h : OneWinner hash w) {i : Nat} {keyId label : String} {pc : StorePc}
    (hlost : ¬ (Call.store hash keyId label pc).Wins) :
    OneWinner hash (w.setCall i (.store hash keyId label pc)) := by
  refine h.goOn rfl (fun hwin => absurd hwin hlost) ?_ ?_
  · intro j d r _ hj hr
    exact h.stored d (List.mem_of_getElem? hj) r hr
  · intro r hr
    exact absurd (.inr (by simp [hr])) hlost

theorem OneWinner.forget_calls (h : OneWinner hash w) :
    w.calls.map (Call.forget hash) = w.calls := by
  conv_rhs => rw [← List.map_id w.calls]
  refine List.map_congr_left fun d hd => ?_
  obtain ⟨keyId, label, pc, rfl⟩ := h.ofSecret d hd
  rfl

theorem OneWinner.answer (h : OneWinner hash w) {i : Nat} {o : Outcome} {c c' : Call κ}
    {u : World κ} (hi : w.calls[i]? = some c) (hg : ChecksAlone hash w (.answer i o))
    (ha : Keystore.answer w o c = some (u, c')) : OneWinner hash (u.setCall i c') := by
  obtain ⟨keyId, label, pc, rfl⟩ := h.ofSecret c (List.mem_of_getElem? hi)
  cases pc with
  | checking =>
    simp only [Keystore.answer, Option.some.injEq, Prod.mk.injEq] at ha
    obtain ⟨rfl, rfl⟩ := ha
    by_cases hunused : o = .ok ∧ .key hash ∉ w.bucket
    · obtain ⟨rfl, habsent⟩ := hunused
      have hpending : ∀ d ∈ w.calls, d.pending = false := hg (by simp [hi, Call.checking]) habsent
      have hnone : ∀ d ∈ w.calls, ¬ d.Wins := by
        rintro d hd (hp | hst)
        · simp [hpending d hd] at hp
        · obtain ⟨r, hr⟩ := Option.ne_none_iff_exists'.mp hst
          have hlookup := h.stored d hd r hr
          have hin : .key hash ∈ w.bucket := AList.lookup_isSome.mp (by simp [hlookup])
          exact habsent hin
      refine h.goOn rfl (fun _ j d _ hj => hnone d (List.mem_of_getElem? hj)) ?_ ?_
      · intro j d r _ hj hr
        exact h.stored d (List.mem_of_getElem? hj) r hr
      · intro r hr
        cases hr
    · apply h.loser
      rintro (hp | hst)
      · by_cases ho : o = .ok
        · have hin : .key hash ∈ w.bucket := by
            by_contra habsent
            exact hunused ⟨ho, habsent⟩
          simp [ho, hin, Call.pending] at hp
        · simp [ho, Call.pending] at hp
      · simp [Call.stored] at hst
  | putting record =>
    simp only [Keystore.answer, Option.some.injEq, Prod.mk.injEq] at ha
    obtain ⟨rfl, rfl⟩ := ha
    have hwin : (Call.store hash keyId label (.putting record)).Wins := .inl rfl
    let v := if o.landed then
      w.putNewObject hash (encodeRecord record.keyId record.label record.createdAt record.lastUsedAt)
      else w
    have hcalls : (v.setCall i (.store hash keyId label (.put record (decide (o = .ok))))).calls =
        w.calls.set i (.store hash keyId label (.put record (decide (o = .ok)))) := by
      simp only [v]
      cases o.landed with
      | false => rfl
      | true => exact congrArg (fun l => List.set l i _) h.forget_calls
    refine h.winner hi hwin hcalls ?_
    · intro r hr
      by_cases ho : o = .ok
      · subst ho
        obtain rfl : record = r := by simpa [Call.stored] using hr
        exact AList.lookup_insert _
      · simp [ho, Call.stored] at hr
  | checked found => cases ha
  | put record stored => cases ha
  | returned record => cases ha
  | raised error => cases ha

theorem OneWinner.resume (h : OneWinner hash w) {i : Nat} {c c' : Call κ} {u : World κ}
    (hi : w.calls[i]? = some c) (ha : Keystore.resume w c = some (u, c')) :
    OneWinner hash (u.setCall i c') := by
  obtain ⟨keyId, label, pc, rfl⟩ := h.ofSecret c (List.mem_of_getElem? hi)
  cases pc with
  | checked found =>
    cases found with
    | none =>
      cases ha
      exact h.loser (by simp [Call.Wins, Call.pending, Call.stored])
    | some present =>
      cases present with
      | true =>
        cases ha
        exact h.loser (by simp [Call.Wins, Call.pending, Call.stored])
      | false =>
        cases ha
        exact h.winner hi (.inl rfl) rfl (by simp [Call.stored])
  | put record stored =>
    cases stored with
    | true =>
      cases ha
      refine h.winner hi (.inr (by simp [Call.stored])) rfl fun r hr => ?_
      exact h.stored _ (List.mem_of_getElem? hi) r hr
    | false =>
      cases ha
      exact h.loser (by simp [Call.Wins, Call.pending, Call.stored])
  | checking => cases ha
  | putting record => cases ha
  | returned record => cases ha
  | raised error => cases ha

theorem OneWinner.addCustom (h : OneWinner hash w) (keyId label : String) :
    OneWinner hash ((w.issue hash).addCall (.store hash keyId label .checking)) := by
  let new : Call κ := .store hash keyId label .checking
  have hlost : ¬ new.Wins := by simp [new, Call.Wins, Call.pending, Call.stored]
  have hcalls : ((w.issue hash).addCall new).calls = w.calls ++ [new] :=
    congrArg (· ++ [new]) h.forget_calls
  have hold (j : Nat) (d : Call κ) (hj : (w.calls ++ [new])[j]? = some d) (hd : d.Wins) :
      w.calls[j]? = some d := by
    rw [List.getElem?_append] at hj
    split_ifs at hj with hlt
    · exact hj
    · have hnew : d = new := by
        have hmem := List.mem_of_getElem? hj
        simpa using hmem
      exact absurd (hnew ▸ hd) hlost
  refine ⟨?_, ?_, ?_⟩
  · rw [hcalls]
    intro d hd
    rcases List.mem_append.mp hd with hd | hd
    · exact h.ofSecret d hd
    · exact ⟨keyId, label, .checking, List.mem_singleton.mp hd⟩
  · rw [hcalls]
    intro j k c d hj hk hc hd
    exact h.one j k c d (hold j c hj hc) (hold k d hk hd) hc hd
  · rw [hcalls]
    intro d hd r hr
    rcases List.mem_append.mp hd with hd | hd
    · exact h.stored d hd r hr
    · obtain rfl := List.mem_singleton.mp hd
      cases hr

theorem OneWinner.step {hashKey : String → κ} {secret : String} {a : Action κ}
    (h : OneWinner (hashKey secret) w) (hadds : AddsCustom secret a)
    (hg : ChecksAlone (hashKey secret) w a) (ha : keystoreStep hashKey w a = some w') :
    OneWinner (hashKey secret) w' := by
  cases a with
  | clock now =>
    cases ha
    exact ⟨h.ofSecret, h.one, h.stored⟩
  | addCustom s keyId label =>
    obtain rfl : s = secret := hadds
    cases ha
    exact h.addCustom keyId label
  | answer i o =>
    obtain ⟨⟨u, d⟩, hb, rfl⟩ := Option.map_eq_some_iff.mp ha
    obtain ⟨c, hi, ho⟩ := Option.bind_eq_some_iff.mp hb
    exact h.answer hi hg ho
  | resume i =>
    obtain ⟨⟨u, d⟩, hb, rfl⟩ := Option.map_eq_some_iff.mp ha
    obtain ⟨c, hi, ho⟩ := Option.bind_eq_some_iff.mp hb
    exact h.resume hi ho
  | isValid worker s => exact hadds.elim
  | revoke worker keyId => exact hadds.elim
  | create s keyId label => exact hadds.elim
  | list i keys => exact hadds.elim

/-- As long as S3 answers every request, no call fails for S3's sake. -/
def Unrefused (w : World κ) : Prop := ∀ c ∈ w.calls, c.refused = false

def Answered : Action κ → Prop
  | .answer _ o => o = .ok
  | _ => True

theorem Unrefused.set (h : Unrefused w) {c : Call κ} (hc : c.refused = false) {u : World κ} {i : Nat}
    (hcalls : u.calls = w.calls) : Unrefused (u.setCall i c) := by
  intro d hd
  rcases List.mem_or_eq_of_mem_set hd with hd | rfl
  · exact h d (hcalls ▸ hd)
  · exact hc

theorem unrefused_step {hashKey : String → κ} {secret : String} {a : Action κ}
    (hw : OneWinner (hashKey secret) w) (h : Unrefused w) (hadds : AddsCustom secret a)
    (hanswered : Answered a) (ha : keystoreStep hashKey w a = some w') : Unrefused w' := by
  cases a with
  | clock now =>
    cases ha
    exact h
  | addCustom s keyId label =>
    obtain rfl : s = secret := hadds
    cases ha
    intro d hd
    rcases List.mem_append.mp hd with hd | hd
    · have hd' : d ∈ w.calls.map (Call.forget (hashKey s)) := hd
      rw [hw.forget_calls] at hd'
      exact h d hd'
    · obtain rfl := List.mem_singleton.mp hd
      rfl
  | answer i o =>
    obtain ⟨⟨u, d⟩, hb, rfl⟩ := Option.map_eq_some_iff.mp ha
    obtain ⟨c, hi, ho⟩ := Option.bind_eq_some_iff.mp hb
    obtain rfl : o = .ok := hanswered
    obtain ⟨keyId, label, pc, rfl⟩ := hw.ofSecret c (List.mem_of_getElem? hi)
    cases pc with
    | checking =>
      cases ho
      exact h.set rfl rfl
    | putting record =>
      cases ho
      exact h.set rfl hw.forget_calls
    | checked found => cases ho
    | put record stored => cases ho
    | returned record => cases ho
    | raised error => cases ho
  | resume i =>
    obtain ⟨⟨u, d⟩, hb, rfl⟩ := Option.map_eq_some_iff.mp ha
    obtain ⟨c, hi, ho⟩ := Option.bind_eq_some_iff.mp hb
    obtain ⟨keyId, label, pc, rfl⟩ := hw.ofSecret c (List.mem_of_getElem? hi)
    have hc := h _ (List.mem_of_getElem? hi)
    cases pc with
    | checked found =>
      cases found with
      | none => cases hc
      | some present =>
        cases present <;> cases ho <;> exact h.set rfl rfl
    | put record stored =>
      cases stored with
      | true =>
        cases ho
        exact h.set rfl rfl
      | false => cases hc
    | checking => cases ho
    | putting record => cases ho
    | returned record => cases ho
    | raised error => cases ho
  | isValid worker s => exact hadds.elim
  | revoke worker keyId => exact hadds.elim
  | create s keyId label => exact hadds.elim
  | list i keys => exact hadds.elim

section Revoke

variable (hashKey : String → κ) {worker : Nat} {keyId : String}

theorem setCall_calls (w : World κ) {n : Nat} (c : Call κ) (hn : n < w.calls.length) :
    (w.setCall n c).calls[n]? = some c := by
  simp [World.setCall, hn]

theorem dropCached_frame (w : World κ) (worker : Nat) (key : ObjectKey κ) :
    (dropCached w worker key).bucket = w.bucket ∧ (dropCached w worker key).calls = w.calls := by
  unfold dropCached
  cases extractHashFromObjectKey key with
  | none => exact ⟨rfl, rfl⟩
  | some hash =>
    dsimp only
    split_ifs <;> exact ⟨rfl, rfl⟩

theorem revoke_hit {n : Nat} (hn : n < w.calls.length) {key : ObjectKey κ}
    (hcall : w.calls[n]? = some (.revoke worker keyId (.deleting key))) :
    ∃ w', run (keystoreStep hashKey) w [.answer n .ok, .resume n] = some w' ∧
      w'.calls[n]? = some (.revoke worker keyId (.returned true)) ∧
      w'.bucket = w.bucket.erase key := by
  let w₁ := (w.deleteObject key).setCall n (.revoke worker keyId (.deleted key))
  have hdelete : keystoreStep hashKey w (.answer n .ok) = some w₁ := by
    simp only [keystoreStep, hcall, Option.bind_some, answer, Outcome.landed, if_true,
      Option.map_some, w₁]
  have hcall₁ := setCall_calls (w.deleteObject key) (.revoke worker keyId (.deleted key)) hn
  have hn₁ : n < w₁.calls.length := by simpa [w₁, World.setCall, World.deleteObject] using hn
  let w₂ := (dropCached w₁ worker key).setCall n (.revoke worker keyId (.returned true))
  have hreturn : keystoreStep hashKey w₁ (.resume n) = some w₂ := by
    simp only [keystoreStep, w₁, hcall₁, Option.bind_some, resume, Option.map_some, w₂]
  obtain ⟨hbucket, hcalls⟩ := dropCached_frame w₁ worker key
  refine ⟨w₂, run_cons.mpr ⟨w₁, hdelete, run_cons.mpr ⟨w₂, hreturn, rfl⟩⟩, ?_, hbucket⟩
  exact setCall_calls _ _ (by rw [hcalls]; exact hn₁)

/-- What a call of `revoke` does that nobody disturbs: it ends in a hit, and has deleted an
object that holds the key. -/
theorem revoke_scan {n : Nat} (hn : n < w.calls.length) {keys : List (ObjectKey κ)}
    (hcall : w.calls[n]? = some (.revoke worker keyId (scanNext keys)))
    (hkey : ∃ key ∈ keys, ∃ r, w.bucket.lookup key = some (.record r) ∧ r.keyId = keyId) :
    ∃ bs w', (∀ b ∈ bs, b = .answer n .ok ∨ b = .resume n) ∧
      run (keystoreStep hashKey) w bs = some w' ∧
      w'.calls[n]? = some (.revoke worker keyId (.returned true)) ∧
      ∃ key r, w.bucket.lookup key = some (.record r) ∧ r.keyId = keyId ∧
        w'.bucket = w.bucket.erase key := by
  induction keys generalizing w with
  | nil => simp at hkey
  | cons k ks ih =>
    let w₁ := w.setCall n (.revoke worker keyId (.got k (w.bucket.lookup k) ks))
    have hget : keystoreStep hashKey w (.answer n .ok) = some w₁ := by
      simp [keystoreStep, hcall, scanNext, answer, w₁]
    have hn₁ : n < w₁.calls.length := by simpa [w₁, World.setCall] using hn
    have hcall₁ := setCall_calls w (.revoke worker keyId (.got k (w.bucket.lookup k) ks)) hn
    -- the object is not the one: on to the next
    have hskip (hresume : keystoreStep hashKey w₁ (.resume n) =
          some (w₁.setCall n (.revoke worker keyId (scanNext ks))))
        (hrest : ∃ key ∈ ks, ∃ r, w.bucket.lookup key = some (.record r) ∧ r.keyId = keyId) :
        ∃ bs w', (∀ b ∈ bs, b = .answer n .ok ∨ b = .resume n) ∧
          run (keystoreStep hashKey) w bs = some w' ∧
          w'.calls[n]? = some (.revoke worker keyId (.returned true)) ∧
          ∃ key r, w.bucket.lookup key = some (.record r) ∧ r.keyId = keyId ∧
            w'.bucket = w.bucket.erase key := by
      let w₂ := w₁.setCall n (.revoke worker keyId (scanNext ks))
      have hn₂ : n < w₂.calls.length := by simpa [w₂, World.setCall] using hn₁
      obtain ⟨bs, w', hbs, hrun, hend⟩ := ih hn₂ (setCall_calls w₁ _ hn₁) hrest
      refine ⟨.answer n .ok :: .resume n :: bs, w', ?_, ?_, hend⟩
      · intro b hb
        simp only [List.mem_cons] at hb
        rcases hb with rfl | rfl | hb
        · exact .inl rfl
        · exact .inr rfl
        · exact hbs b hb
      · exact run_cons.mpr ⟨w₁, hget, run_cons.mpr ⟨w₂, hresume, hrun⟩⟩
    have hdecode : keystoreStep hashKey w₁ (.resume n) =
        (resume w₁ (.revoke worker keyId (.got k (w.bucket.lookup k) ks))).map
          fun p => p.1.setCall n p.2 := by
      simp only [keystoreStep, w₁, hcall₁, Option.bind_some]
    have hrest (hk : ∀ r, w.bucket.lookup k = some (.record r) → r.keyId ≠ keyId) :
        ∃ key ∈ ks, ∃ r, w.bucket.lookup key = some (.record r) ∧ r.keyId = keyId := by
      obtain ⟨key, hkey, r, hr, hid⟩ := hkey
      rcases List.mem_cons.mp hkey with rfl | hkey
      · exact absurd hid (hk r hr)
      · exact ⟨key, hkey, r, hr, hid⟩
    cases hbody : (w.bucket.lookup k).bind decodeRecord with
    | none =>
      refine hskip ?_ (hrest fun r hr => ?_)
      · rw [hdecode, resume, hbody]
        rfl
      · simp [hr, decodeRecord] at hbody
    | some record =>
      have hlookup : w.bucket.lookup k = some (.record record) := by
        obtain ⟨body, hb, hd⟩ := Option.bind_eq_some_iff.mp hbody
        cases body with
        | record r =>
          obtain rfl : r = record := by simpa [decodeRecord] using hd
          exact hb
        | malformed => cases hd
      by_cases hid : record.keyId = keyId
      · let w₂ := w₁.setCall n (.revoke worker keyId (.deleting k))
        have hresume : keystoreStep hashKey w₁ (.resume n) = some w₂ := by
          rw [hdecode, resume, hbody]
          simp only [if_pos hid, Option.map_some, w₂]
        have hn₂ : n < w₂.calls.length := by simpa [w₂, World.setCall] using hn₁
        obtain ⟨w', hrun, hend, hbucket⟩ := revoke_hit hashKey hn₂
          (setCall_calls w₁ _ hn₁)
        refine ⟨_, w', ?_, run_cons.mpr ⟨w₁, hget, run_cons.mpr ⟨w₂, hresume, hrun⟩⟩, hend,
          k, record, hlookup, hid, hbucket⟩
        simp
      · refine hskip ?_ (hrest fun r hr => ?_)
        · rw [hdecode, resume, hbody]
          simp only [if_neg hid, Option.map_some]
        · obtain rfl : record = r := by simpa [hlookup] using hr
          exact hid

end Revoke

/-- The record is listed, and a `revoke` of it that nobody disturbs ends in a hit. If its
key id is held by no other object, its own object is gone then. -/
def Within (hashKey : String → κ) (hash : κ) (w : World κ) (record : ApiKeyRecord) : Prop :=
  ∀ keys, keys.Perm w.bucket.keys → record ∈ listAll w.bucket keys ∧
    ∀ worker, ∃ bs w',
      (∀ b ∈ bs, b = .answer w.calls.length .ok ∨ b = .resume w.calls.length) ∧
      run (keystoreStep hashKey) w
        (.revoke worker record.keyId :: .list w.calls.length keys :: bs) = some w' ∧
      w'.calls[w.calls.length]? = some (.revoke worker record.keyId (.returned true)) ∧
      ((∀ key r, w.bucket.lookup key = some (.record r) → r.keyId = record.keyId →
        key = .key hash) → w'.bucket.lookup (.key hash) = none)

theorem OneWinner.within {hashKey : String → κ} (h : OneWinner hash w) {c : Call κ}
    {record : ApiKeyRecord} (hc : c ∈ w.calls) (hr : c.stored = some record) :
    Within hashKey hash w record := by
  have hlookup := h.stored c hc record hr
  intro keys hkeys
  have hmem : .key hash ∈ keys := by
    have hin : .key hash ∈ w.bucket := AList.lookup_isSome.mp (by simp [hlookup])
    exact hkeys.mem_iff.mpr hin
  refine ⟨mem_listAll hmem hlookup, fun worker => ?_⟩
  let n := w.calls.length
  let w₁ := w.addCall (.revoke worker record.keyId .listing)
  have hcall₁ : w₁.calls[n]? = some (.revoke worker record.keyId .listing) := by
    simp [w₁, World.addCall, n]
  have hn₁ : n < w₁.calls.length := by simp [w₁, World.addCall, n]
  let w₂ := w₁.setCall n (.revoke worker record.keyId (.listed keys))
  have hlist : keystoreStep hashKey w₁ (.list n keys) = some w₂ := by
    simp only [keystoreStep, hcall₁]
    exact if_pos hkeys
  have hcall₂ : w₂.calls[n]? = some (.revoke worker record.keyId (.listed keys)) :=
    setCall_calls w₁ _ hn₁
  have hn₂ : n < w₂.calls.length := by simpa [w₂, World.setCall] using hn₁
  let w₃ := w₂.setCall n (.revoke worker record.keyId (scanNext keys))
  have hscan : keystoreStep hashKey w₂ (.resume n) = some w₃ := by
    simp only [keystoreStep, hcall₂, Option.bind_some, Keystore.resume, Option.map_some, w₃]
  have hn₃ : n < w₃.calls.length := by simpa [w₃, World.setCall] using hn₂
  obtain ⟨bs, w', hbs, hrun, hend, key, r, hr', hid, hbucket⟩ := revoke_scan hashKey hn₃
    (setCall_calls w₂ _ hn₂) ⟨.key hash, hmem, record, hlookup, rfl⟩
  refine ⟨.resume n :: bs, w', ?_, ?_, hend, ?_⟩
  · intro b hb
    rcases List.mem_cons.mp hb with rfl | hb
    · exact .inr rfl
    · exact hbs b hb
  · exact run_cons.mpr ⟨w₁, rfl, run_cons.mpr ⟨w₂, hlist, run_cons.mpr ⟨w₃, hscan, hrun⟩⟩⟩
  · intro honly
    obtain rfl := honly key r hr' hid
    rw [hbucket]
    exact AList.lookup_erase _ _

/-- Two calls one after the other, for the secret `s` in an empty bucket. -/
def orderlyKeys : List (Action String) :=
  [.addCustom "s" "id0" "first", .answer 0 .ok, .resume 0, .answer 0 .ok, .resume 0,
    .addCustom "s" "id1" "second", .answer 1 .ok, .resume 1]

/-- Both calls check before either of them writes. -/
def crossedKeys : List (Action String) :=
  [.addCustom "s" "id0" "first", .addCustom "s" "id1" "second", .answer 0 .ok, .answer 1 .ok,
    .resume 0, .resume 1, .answer 0 .ok, .resume 0, .answer 1 .ok, .resume 1]

instance (hash : κ) (w : World κ) : DecidablePred (ChecksAlone hash w) := fun a =>
  match a with
  | .answer i .ok => inferInstanceAs (Decidable ((w.calls[i]?.any Call.checking) = true →
      .key hash ∉ w.bucket → ∀ c ∈ w.calls, c.pending = false))
  | .answer _ (.failed _) | .clock _ | .isValid .. | .revoke .. | .create .. | .addCustom ..
  | .list .. | .resume _ => isTrue trivial

instance (secret : String) : DecidablePred (AddsCustom secret : Action κ → Prop) := fun a =>
  match a with
  | .addCustom s _ _ => inferInstanceAs (Decidable (s = secret))
  | .clock _ | .answer .. | .resume _ => isTrue trivial
  | .isValid .. | .revoke .. | .create .. | .list .. => isFalse id

end DataService.Keystore
