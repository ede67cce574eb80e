import DataService.WeatherStations.Revocation

/-! What `revoke` reports when S3 fails: one call over any bucket, with no other call
running, and any answer to each of its requests. -/

namespace DataService.Keystore

open StepSystem RemoteStore

variable {κ : Type*} [DecidableEq κ]

/-- How S3 answers the requests of a call. -/
structure Faults (κ : Type*) where
  list : Outcome
  get : ObjectKey κ → Outcome
  delete : ObjectKey κ → Outcome

/-- A step of the first call, answered as `faults` says. -/
def Answers (faults : Faults κ) (w : World κ) : Action κ → Prop
  | .list 0 _ => faults.list = .ok
  | .resume 0 => True
  | .answer 0 o =>
    match w.calls[0]? with
    | some (Call.revoke _ _ .listing) => o = faults.list
    | some (Call.revoke _ _ (.getting key _)) => o = faults.get key
    | some (Call.revoke _ _ (.deleting key)) => o = faults.delete key
    | _ => False
  | _ => False

/-- A worker has just called `revoke`. -/
def World.revoking (w : World κ) (worker : Nat) (keyId : String) : World κ :=
  { w with calls := [.revoke worker keyId .listing] }

/-- The object under this name is a key with that id. -/
def HasKeyId (bucket : AList fun _ : ObjectKey κ => Body) (key : ObjectKey κ) (keyId : String) :
    Prop :=
  ∃ record, (bucket.lookup key).bind decodeRecord = some record ∧ record.keyId = keyId

/-- No two objects have one key id. -/
def DistinctKeyIds (bucket : AList fun _ : ObjectKey κ => Body) : Prop :=
  ∀ key key' keyId, HasKeyId bucket key keyId → HasKeyId bucket key' keyId → key = key'

/-- `True` says that no such key remains, `False` that there was none. -/
structure Truthful (keyId : String) (before after : AList fun _ : ObjectKey κ => Body)
    (hit : Bool) : Prop where
  gone : hit = true → ∀ key, ¬ HasKeyId after key keyId
  absent : hit = false → ∀ key, ¬ HasKeyId before key keyId

section Progress

variable {hashKey : String → κ} {faults : Faults κ} {keyId : String} {worker : Nat}
  {before bucket : AList fun _ : ObjectKey κ => Body} {keys rest : List (ObjectKey κ)}
  {key : ObjectKey κ} {w w' : World κ} {pc : RevokePc κ} {a : Action κ}

variable (faults keyId before) in
/-- Every object with the id that can be read is still to be read. -/
structure Scanning (keys : List (ObjectKey κ)) : Prop where
  listed : keys ≠ [] → faults.list = .ok
  ahead : ∀ key, HasKeyId before key keyId → faults.list = .ok → faults.get key = .ok → key ∈ keys

variable (faults keyId before) in
/-- The object was listed and read. -/
structure Found (key : ObjectKey κ) : Prop where
  listed : faults.list = .ok
  read : faults.get key = .ok
  hasKeyId : HasKeyId before key keyId

variable (faults before) in
/-- The bucket after a request to delete an object. -/
def afterDelete (key : ObjectKey κ) : AList fun _ : ObjectKey κ => Body :=
  if (faults.delete key).landed then before.erase key else before

variable (faults keyId before) in
/-- What a call knows where it stands. -/
def Progress (bucket : AList fun _ : ObjectKey κ => Body) : RevokePc κ → Prop
  | .listing => bucket = before
  | .listed keys => bucket = before ∧ Scanning faults keyId before keys
  | .getting key rest => bucket = before ∧ Scanning faults keyId before (key :: rest)
  | .got key body rest => bucket = before ∧ Scanning faults keyId before (key :: rest) ∧
      body = if faults.get key = .ok then before.lookup key else none
  | .deleting key => bucket = before ∧ Found faults keyId before key
  | .deleted key => bucket = afterDelete faults before key ∧ Found faults keyId before key
  | .returned true => ∃ key, bucket = afterDelete faults before key ∧ Found faults keyId before key
  | .returned false => bucket = before ∧ Scanning faults keyId before []

theorem HasKeyId.mem_keys (h : HasKeyId bucket key keyId) : key ∈ bucket.keys := by
  obtain ⟨record, hrecord, -⟩ := h
  obtain ⟨body, hbody, -⟩ := Option.bind_eq_some_iff.mp hrecord
  exact AList.mem_keys.mp (AList.lookup_isSome.mp (by simp [hbody]))

theorem scanning_listed (hlist : faults.list = .ok) (hkeys : keys.Perm before.keys) :
    Scanning faults keyId before keys where
  listed _ := hlist
  ahead _ hkey _ _ := hkeys.mem_iff.mpr hkey.mem_keys

theorem scanning_failed (hlist : faults.list ≠ .ok) : Scanning faults keyId before [] where
  listed hne := absurd rfl hne
  ahead _ _ hok _ := absurd hok hlist

/-- An object that is not the one looked for is passed over. -/
theorem Scanning.tail (h : Scanning faults keyId before (key :: rest))
    (hskip : faults.get key = .ok → ¬ HasKeyId before key keyId) :
    Scanning faults keyId before rest where
  listed _ := h.listed (List.cons_ne_nil key rest)
  ahead k hk hlist hget := by
    rcases List.mem_cons.mp (h.ahead k hk hlist hget) with rfl | hmem
    · exact absurd hk (hskip hget)
    · exact hmem

theorem progress_scanNext (h : Scanning faults keyId before keys) :
    Progress faults keyId before before (scanNext keys) := by
  cases keys with
  | nil => exact ⟨rfl, h⟩
  | cons key rest => exact ⟨rfl, h⟩

theorem bucket_dropCached (w : World κ) (worker : Nat) (key : ObjectKey κ) :
    (dropCached w worker key).bucket = w.bucket := by
  cases key with
  | other name => rfl
  | key hash =>
    simp only [dropCached, extractHashFromObjectKey]
    split <;> rfl

theorem calls_dropCached (w : World κ) (worker : Nat) (key : ObjectKey κ) :
    (dropCached w worker key).calls = w.calls := by
  cases key with
  | other name => rfl
  | key hash =>
    simp only [dropCached, extractHashFromObjectKey]
    split <;> rfl

theorem progress_answer {o : Outcome} {c : Call κ} (h : Progress faults keyId before w.bucket pc)
    (hcalls : w.calls = [.revoke worker keyId pc]) (ho : Answers faults w (.answer 0 o))
    (ha : answer w o (.revoke worker keyId pc) = some (w', c)) :
    w'.calls = w.calls ∧ ∃ pc', c = .revoke worker keyId pc' ∧
      Progress faults keyId before w'.bucket pc' := by
  simp only [Answers, hcalls, List.getElem?_cons_zero] at ho
  cases pc with
  | listing =>
    subst ho
    simp only [answer] at ha
    split at ha
    · cases ha
    · rename_i hlist
      cases ha
      exact ⟨rfl, _, rfl, h, scanning_failed hlist⟩
  | getting key rest =>
    subst ho
    cases ha
    refine ⟨rfl, _, rfl, h.1, h.2, ?_⟩
    rw [h.1]
  | deleting key =>
    subst ho
    cases ha
    obtain ⟨hbucket, hfound⟩ := h
    by_cases hlanded : (faults.delete key).landed
    · rw [if_pos hlanded]
      refine ⟨rfl, _, rfl, ?_, hfound⟩
      simp [World.deleteObject, afterDelete, hlanded, hbucket]
    · rw [if_neg hlanded]
      refine ⟨rfl, _, rfl, ?_, hfound⟩
      simp [afterDelete, hlanded, hbucket]
  | listed keys => cases ha
  | got key body rest => cases ha
  | deleted key => cases ha
  | returned hit => cases ha

theorem progress_resume {c : Call κ} (h : Progress faults keyId before w.bucket pc)
    (ha : resume w (.revoke worker keyId pc) = some (w', c)) :
    w'.calls = w.calls ∧ ∃ pc', c = .revoke worker keyId pc' ∧
      Progress faults keyId before w'.bucket pc' := by
  cases pc with
  | listed keys =>
    cases ha
    refine ⟨rfl, _, rfl, ?_⟩
    rw [h.1]
    exact progress_scanNext h.2
  | got key body rest =>
    obtain ⟨hbucket, hscan, rfl⟩ := h
    simp only [resume] at ha
    cases hbody : (if faults.get key = .ok then before.lookup key else none).bind decodeRecord with
    | none =>
      simp only [hbody] at ha
      cases ha
      refine ⟨rfl, _, rfl, ?_⟩
      rw [hbucket]
      refine progress_scanNext (hscan.tail fun hget => ?_)
      rintro ⟨record, hrecord, -⟩
      rw [if_pos hget, hrecord] at hbody
      cases hbody
    | some record =>
      have hget : faults.get key = .ok := by
        by_contra hne
        rw [if_neg hne] at hbody
        cases hbody
      rw [if_pos hget] at hbody ha
      simp only [hbody] at ha
      by_cases hid : record.keyId = keyId
      · rw [if_pos hid] at ha
        cases ha
        exact ⟨rfl, _, rfl, hbucket, hscan.listed (List.cons_ne_nil key rest), hget, record, hbody, hid⟩
      · rw [if_neg hid] at ha
        cases ha
        refine ⟨rfl, _, rfl, ?_⟩
        rw [hbucket]
        refine progress_scanNext (hscan.tail fun _ => ?_)
        rintro ⟨record', hrecord, hid'⟩
        obtain rfl := Option.some.inj (hbody.symm.trans hrecord)
        exact hid hid'
  | deleted key =>
    cases ha
    refine ⟨calls_dropCached w worker key, _, rfl, key, ?_, h.2⟩
    rw [bucket_dropCached, h.1]
  | listing => cases ha
  | getting key rest => cases ha
  | deleting key => cases ha
  | returned hit => cases ha

variable (faults keyId worker before) in
/-- The call is the only one, and knows what it should. -/
def Revoking (w : World κ) : Prop :=
  ∃ pc, w.calls = [.revoke worker keyId pc] ∧ Progress faults keyId before w.bucket pc

theorem Revoking.step (h : Revoking faults keyId worker before w) (hanswered : Answers faults w a)
    (ha : keystoreStep hashKey w a = some w') : Revoking faults keyId worker before w' := by
  obtain ⟨pc, hcalls, hprogress⟩ := h
  have hfirst : w.calls[0]? = some (.revoke worker keyId pc) := by rw [hcalls]; rfl
  cases a with
  | list i keys =>
    obtain rfl : i = 0 := by
      cases i with
      | zero => rfl
      | succ i => cases hanswered
    simp only [keystoreStep, hfirst] at ha
    cases pc with
    | listing =>
      by_cases hkeys : keys.Perm w.bucket.keys
      · simp only [if_pos hkeys] at ha
        cases ha
        rw [hprogress] at hkeys
        refine ⟨.listed keys, by simp [World.setCall, hcalls], ?_, ?_⟩
        · exact hprogress
        · exact scanning_listed hanswered hkeys
      · simp [if_neg hkeys] at ha
    | listed keys => cases ha
    | getting key rest => cases ha
    | got key body rest => cases ha
    | deleting key => cases ha
    | deleted key => cases ha
    | returned hit => cases ha
  | answer i o =>
    obtain rfl : i = 0 := by
      cases i with
      | zero => rfl
      | succ i => cases hanswered
    simp only [keystoreStep, hfirst, Option.bind_some] at ha
    obtain ⟨⟨u, c⟩, hu, rfl⟩ := Option.map_eq_some_iff.mp ha
    obtain ⟨hsame, pc', rfl, hpc'⟩ := progress_answer hprogress hcalls hanswered hu
    exact ⟨pc', by simp [World.setCall, hsame, hcalls], hpc'⟩
  | resume i =>
    obtain rfl : i = 0 := by
      cases i with
      | zero => rfl
      | succ i => cases hanswered
    simp only [keystoreStep, hfirst, Option.bind_some] at ha
    obtain ⟨⟨u, c⟩, hu, rfl⟩ := Option.map_eq_some_iff.mp ha
    obtain ⟨hsame, pc', rfl, hpc'⟩ := progress_resume hprogress hu
    exact ⟨pc', by simp [World.setCall, hsame, hcalls], hpc'⟩
  | clock now => cases hanswered
  | isValid worker secret => cases hanswered
  | revoke worker keyId => cases hanswered
  | create secret keyId label => cases hanswered
  | addCustom secret keyId label => cases hanswered

/-- Deleting the only object with an id leaves none. -/
theorem gone_after_erase (hdistinct : DistinctKeyIds before) (hkey : HasKeyId before key keyId)
    (other : ObjectKey κ) : ¬ HasKeyId (before.erase key) other keyId := by
  rintro ⟨record, hrecord, hid⟩
  by_cases hother : other = key
  · rw [hother, AList.lookup_erase] at hrecord
    cases hrecord
  · rw [AList.lookup_erase_ne hother] at hrecord
    exact hother (hdistinct _ _ _ ⟨record, hrecord, hid⟩ hkey)

/-- What the answer of a call that has returned is worth. -/
theorem truthful_iff_of_progress {hit : Bool} (hdistinct : DistinctKeyIds before)
    (h : Progress faults keyId before bucket (.returned hit)) :
    Truthful keyId before bucket hit ↔ ∀ key, HasKeyId before key keyId →
      faults.list = .ok ∧ faults.get key = .ok ∧ (faults.delete key).landed := by
  cases hit with
  | false =>
    obtain ⟨-, hscan⟩ := h
    constructor
    · intro ht key hkey
      exact absurd hkey (ht.absent rfl key)
    · intro hall
      refine ⟨nofun, fun _ key hkey => ?_⟩
      obtain ⟨hlist, hget, -⟩ := hall key hkey
      cases hscan.ahead key hkey hlist hget
  | true =>
    obtain ⟨key, rfl, hfound⟩ := h
    constructor
    · intro ht other hother
      obtain rfl := hdistinct _ _ _ hfound.hasKeyId hother
      refine ⟨hfound.listed, hfound.read, ?_⟩
      by_contra hfailed
      have hgone := ht.gone rfl key
      rw [afterDelete, if_neg hfailed] at hgone
      exact hgone hfound.hasKeyId
    · intro hall
      obtain ⟨-, -, hlanded⟩ := hall key hfound.hasKeyId
      refine ⟨fun _ other => ?_, nofun⟩
      rw [afterDelete, if_pos hlanded]
      exact gone_after_erase hdistinct hfound.hasKeyId other

end Progress

section Returns

variable {hashKey : String → κ} {faults : Faults κ} {keyId : String} {worker : Nat}
  {keys : List (ObjectKey κ)} {w w' : World κ} {a : Action κ}

variable (hashKey faults) in
/-- The call can go on to its return. -/
def Returns (worker : Nat) (keyId : String) (w : World κ) : Prop :=
  ∃ as w' hit, Along (keystoreStep hashKey) (Answers faults) w as ∧
    run (keystoreStep hashKey) w as = some w' ∧ w'.calls = [.revoke worker keyId (.returned hit)]

theorem Returns.cons (ha : Answers faults w a) (hstep : keystoreStep hashKey w a = some w')
    (h : Returns hashKey faults worker keyId w') : Returns hashKey faults worker keyId w := by
  obtain ⟨as, u, hit, hG, hrun, hret⟩ := h
  refine ⟨a :: as, u, hit, ⟨ha, fun t ht => ?_⟩, run_cons.mpr ⟨w', hstep, hrun⟩, hret⟩
  obtain rfl := Option.some.inj (hstep.symm.trans ht)
  exact hG

theorem calls_setCall {c : Call κ} (hcalls : w.calls = [c]) (d : Call κ) :
    (w.setCall 0 d).calls = [d] := by
  simp [World.setCall, hcalls]

theorem returns_returned (hit : Bool) (hcalls : w.calls = [.revoke worker keyId (.returned hit)]) :
    Returns hashKey faults worker keyId w :=
  ⟨[], w, hit, trivial, rfl, hcalls⟩

theorem Returns.resume {c d : Call κ} (hcalls : w.calls = [c])
    (hstep : Keystore.resume w c = some (w', d))
    (h : Returns hashKey faults worker keyId (w'.setCall 0 d)) :
    Returns hashKey faults worker keyId w := by
  refine Returns.cons (a := .resume 0) trivial ?_ h
  simp [keystoreStep, hcalls, hstep]

theorem Returns.answer {o : Outcome} {c d : Call κ} (hcalls : w.calls = [c])
    (ho : Answers faults w (.answer 0 o)) (hstep : Keystore.answer w o c = some (w', d))
    (h : Returns hashKey faults worker keyId (w'.setCall 0 d)) :
    Returns hashKey faults worker keyId w := by
  refine Returns.cons (a := .answer 0 o) ho ?_ h
  simp [keystoreStep, hcalls, hstep]

theorem returns_deleting {key : ObjectKey κ}
    (hcalls : w.calls = [.revoke worker keyId (.deleting key)]) :
    Returns hashKey faults worker keyId w := by
  have ho : Answers faults w (.answer 0 (faults.delete key)) := by simp [Answers, hcalls]
  refine Returns.answer hcalls ho rfl ?_
  generalize hu : (if (faults.delete key).landed then w.deleteObject key else w) = u
  have hcalls' : u.calls = w.calls := by
    rw [← hu]
    split <;> rfl
  have hdeleted := calls_setCall (hcalls'.trans hcalls) (.revoke worker keyId (.deleted key))
  refine Returns.resume hdeleted rfl (returns_returned true ?_)
  exact calls_setCall ((calls_dropCached _ worker key).trans hdeleted) _

/-- By induction on the names still to be read. -/
theorem returns_scanNext (keys : List (ObjectKey κ)) :
    ∀ w : World κ, w.calls = [.revoke worker keyId (scanNext keys)] →
      Returns hashKey faults worker keyId w := by
  induction keys with
  | nil => exact fun w hcalls => returns_returned _ hcalls
  | cons key rest ih =>
    intro w hcalls
    have ho : Answers faults w (.answer 0 (faults.get key)) := by
      simp [Answers, hcalls, scanNext]
    refine Returns.answer hcalls ho rfl ?_
    generalize (if faults.get key = .ok then w.bucket.lookup key else none) = body
    have hgot := calls_setCall hcalls (.revoke worker keyId (.got key body rest))
    cases hbody : body.bind decodeRecord with
    | none =>
      refine Returns.resume hgot (d := .revoke worker keyId (scanNext rest)) ?_
        (ih _ (calls_setCall hgot _))
      simp [Keystore.resume, hbody]
    | some record =>
      by_cases hid : record.keyId = keyId
      · refine Returns.resume hgot (d := .revoke worker keyId (.deleting key)) ?_
          (returns_deleting (calls_setCall hgot _))
        simp [Keystore.resume, hbody, hid]
      · refine Returns.resume hgot (d := .revoke worker keyId (scanNext rest)) ?_
          (ih _ (calls_setCall hgot _))
        simp [Keystore.resume, hbody, hid]

/-- However S3 answers, `revoke` returns. -/
theorem revoke_returns (hashKey : String → κ) (faults : Faults κ) (w : World κ) (worker : Nat)
    (keyId : String) : Returns hashKey faults worker keyId (w.revoking worker keyId) := by
  have hcalls : (w.revoking worker keyId).calls = [.revoke worker keyId .listing] := rfl
  by_cases hlist : faults.list = .ok
  · have hlisted := calls_setCall hcalls (.revoke worker keyId (.listed w.bucket.keys))
    refine Returns.cons (a := .list 0 w.bucket.keys) hlist ?_
      (Returns.resume hlisted rfl (returns_scanNext w.bucket.keys _ (calls_setCall hlisted _)))
    simp [keystoreStep, World.revoking]
  · have hlisted := calls_setCall hcalls (.revoke worker keyId (.listed []))
    refine Returns.answer hcalls (o := faults.list) rfl (if_neg hlist)
      (Returns.resume hlisted rfl (returns_scanNext [] _ (calls_setCall hlisted _)))

end Returns

instance (faults : Faults κ) (w : World κ) : DecidablePred (Answers faults w) := fun a => by
  unfold Answers
  split
  · infer_instance
  · infer_instance
  · split <;> infer_instance
  · infer_instance

/-- S3 works. -/
def noFaults : Faults String := ⟨.ok, fun _ => .ok, fun _ => .ok⟩

theorem distinctKeyIds_oneKey : DistinctKeyIds oneKey := by
  have hkeys : ∀ key keyId, HasKeyId oneKey key keyId → key = .key "s" := by
    intro key keyId hkey
    have hmem := hkey.mem_keys
    simpa [oneKey] using hmem
  intro key key' keyId hkey hkey'
  exact (hkeys key keyId hkey).trans (hkeys key' keyId hkey').symm

theorem hasKeyId_oneKey : HasKeyId oneKey (.key "s") "id" :=
  ⟨⟨"id", "label", 0, none⟩, rfl, rfl⟩

/-- A run of `revoke` over the bucket with one key that ends with a wrong report. -/
def Misreports (as : List (Action String)) (hit : Bool) : Prop :=
  ∃ w', run (keystoreStep id) ((World.boot oneKey 0).revoking 0 "id") as = some w' ∧
    w'.calls = [.revoke 0 "id" (.returned hit)] ∧ ¬ Truthful "id" oneKey w'.bucket hit

end DataService.Keystore
