import DataService.Lib.StepSystem
import DataService.WeatherStations.Keystore

/-! Revocation on a worker. A validation that read its record before the delete still
fills the cache and writes the record back; without such a validation a revoked key
stays revoked in every run. -/

namespace DataService.Keystore

open StepSystem RemoteStore

variable {κ : Type*} [DecidableEq κ] {w w' : World κ} {c c' : Call κ}

/-- Every revoked key has no object, and no validation that began after its
revocation returned `True`. -/
structure RevocationHolds (w : World κ) : Prop where
  gone : ∀ p ∈ w.revoked, w.bucket.lookup (.key p.2) = none
  denied : ∀ worker hash now, .isValid worker hash now true (.returned true) ∉ w.calls

/-- The object that a running `is_valid` is about to write back. -/
def Call.touching : Call κ → Option κ
  | .isValid _ hash _ _ (.touching _) => some hash
  | _ => none

/-- The cache entry that a running `is_valid` is about to fill. -/
def Call.takingUp : Call κ → Option (Nat × κ)
  | .isValid worker hash _ _ (.got body) => (body.bind decodeRecord).map fun _ => (worker, hash)
  | _ => none

/-- No validation acts in this step on a record it read before the delete: a touch does not
reach a bucket whose object was deleted, and a record is not taken up once `revoke` returned. -/
def NoStaleValidation (w : World κ) : Action κ → Prop
  | .answer i o => o.landed → ∀ hash ∈ w.calls[i]?.bind Call.touching, hash ∉ w.deleted
  | .resume i => ∀ p ∈ w.calls[i]?.bind Call.takingUp, p ∉ w.revoked
  | _ => True

/-- A validation that began after a revocation finds nothing and ends in a refusal. -/
def ValidatePc.Refused : ValidatePc → Prop
  | .getting => True
  | .got body => body = none
  | .returned valid => valid = false
  | _ => False

def Call.LateRefused (w : World κ) : Call κ → Prop
  | .isValid worker hash _ late pc => late → (worker, hash) ∈ w.revoked ∧ pc.Refused
  | _ => True

/-- What the workers and the bucket agree on as long as no stale validation acts. -/
structure Revocable (w : World κ) : Prop where
  gone : ∀ hash ∈ w.deleted, w.bucket.lookup (.key hash) = none
  deleted : ∀ p ∈ w.revoked, p.2 ∈ w.deleted
  uncached : ∀ p ∈ w.revoked, (w.validationCache p.1).lookup p.2 = none
  late : ∀ c ∈ w.calls, c.LateRefused w

theorem Revocable.holds (h : Revocable w) : RevocationHolds w where
  gone p hp := h.gone _ (h.deleted p hp)
  denied worker hash now hc := by
    have hr := (h.late _ hc rfl).2
    simp [ValidatePc.Refused] at hr

theorem revocable_boot (bucket : AList fun _ : ObjectKey κ => Body) (now : Nat) :
    Revocable (World.boot bucket now) := by
  constructor <;> simp [World.boot]

theorem Call.LateRefused.mono (h : c.LateRefused w) (hr : ∀ p ∈ w.revoked, p ∈ w'.revoked) :
    c.LateRefused w' := by
  cases c with
  | isValid worker hash now late pc =>
    intro hl
    exact ⟨hr _ (h hl).1, (h hl).2⟩
  | revoke worker keyId pc => trivial
  | store hash keyId label pc => trivial

theorem Revocable.setCall (h : Revocable w) (i : Nat) (hc : c.LateRefused w) :
    Revocable (w.setCall i c) where
  gone := h.gone
  deleted := h.deleted
  uncached := h.uncached
  late d hd := by
    rcases List.mem_or_eq_of_mem_set hd with hd | rfl
    · exact (h.late d hd).mono fun p hp => hp
    · exact hc.mono fun p hp => hp

theorem Revocable.addCall (h : Revocable w) (hc : c.LateRefused w) :
    Revocable (w.addCall c) where
  gone := h.gone
  deleted := h.deleted
  uncached := h.uncached
  late d hd := by
    rcases List.mem_append.mp hd with hd | hd
    · exact (h.late d hd).mono fun p hp => hp
    · obtain rfl := List.mem_singleton.mp hd
      exact hc.mono fun p hp => hp

theorem Revocable.putObject (h : Revocable w) {hash : κ} (hd : hash ∉ w.deleted) (body : Body) :
    Revocable (w.putObject hash body) where
  gone k hk := by
    have hne : ObjectKey.key k ≠ .key hash := by
      intro he
      cases he
      exact hd hk
    rw [World.putObject, AList.lookup_insert_ne hne]
    exact h.gone k hk
  deleted := h.deleted
  uncached := h.uncached
  late d hd := (h.late d hd).mono fun p hp => hp

theorem Revocable.deleteObject (h : Revocable w) (key : ObjectKey κ) :
    Revocable (w.deleteObject key) where
  gone k hk := by
    by_cases he : ObjectKey.key k = key
    · subst he
      exact AList.lookup_erase _ _
    · rw [World.deleteObject, AList.lookup_erase_ne he]
      rcases List.mem_append.mp hk with hk | hk
      · cases key with
        | key hash =>
          have heq : k = hash := by simpa [extractHashFromObjectKey] using hk
          exact absurd (congrArg ObjectKey.key heq) he
        | other name => simp [extractHashFromObjectKey] at hk
      · exact h.gone k hk
  deleted p hp := List.mem_append_right _ (h.deleted p hp)
  uncached := h.uncached
  late d hd := (h.late d hd).mono fun p hp => hp

theorem Call.LateRefused.forget (h : c.LateRefused w) (hash : κ) :
    (c.forget hash).LateRefused (w.issue hash) := by
  cases c with
  | isValid worker k now late pc =>
    intro hl
    have hl' : late = true ∧ k ≠ hash := by simpa using hl
    obtain ⟨hm, hp⟩ := h hl'.1
    exact ⟨List.mem_filter.mpr ⟨hm, by simpa using hl'.2⟩, hp⟩
  | revoke worker keyId pc => trivial
  | store hash keyId label pc => trivial

theorem Revocable.issue (h : Revocable w) (hash : κ) : Revocable (w.issue hash) where
  gone := h.gone
  deleted p hp := h.deleted p (List.mem_of_mem_filter hp)
  uncached p hp := h.uncached p (List.mem_of_mem_filter hp)
  late d hd := by
    obtain ⟨c, hc, rfl⟩ := List.mem_map.mp hd
    exact (h.late c hc).forget hash

theorem Revocable.putNewObject (h : Revocable w) (hash : κ) (body : Body) :
    Revocable (w.putNewObject hash body) where
  gone k hk := by
    have hk' : k ∈ w.deleted ∧ k ≠ hash := by simpa [World.putNewObject] using hk
    have hne : ObjectKey.key k ≠ .key hash := by
      intro he
      cases he
      exact hk'.2 rfl
    exact (AList.lookup_insert_ne hne).trans (h.gone k hk'.1)
  deleted p hp := by
    have hp' : p ∈ w.revoked ∧ p.2 ≠ hash := by
      simpa [World.putNewObject, World.issue, World.putObject] using hp
    exact List.mem_filter.mpr ⟨h.deleted p hp'.1, by simpa using hp'.2⟩
  uncached p hp := h.uncached p (List.mem_of_mem_filter hp)
  late d hd := by
    have hi := (h.issue hash).late d hd
    exact hi.mono fun p hp => hp

theorem Revocable.setCache (h : Revocable w) {worker : Nat} {cache : AList fun _ : κ => Nat}
    (hc : ∀ hash, (worker, hash) ∈ w.revoked → cache.lookup hash = none) :
    Revocable (w.setCache worker cache) where
  gone := h.gone
  deleted := h.deleted
  uncached p hp := by
    obtain ⟨k, hash⟩ := p
    by_cases he : k = worker
    · subst he
      simpa [World.setCache] using hc hash hp
    · simpa [World.setCache, he] using h.uncached _ hp
  late d hd := (h.late d hd).mono fun p hp => hp

theorem Revocable.dropCached (h : Revocable w) (worker : Nat) (key : ObjectKey κ) :
    Revocable (dropCached w worker key) := by
  cases key with
  | other name => exact h
  | key hash =>
    have hc : Revocable (w.setCache worker ((w.validationCache worker).erase hash)) :=
      h.setCache fun k hk => lookup_erase_eq_none (h.uncached _ hk)
    simp only [Keystore.dropCached, extractHashFromObjectKey]
    by_cases hd : hash ∈ w.deleted
    · have hd' : hash ∈ (w.setCache worker ((w.validationCache worker).erase hash)).deleted := hd
      rw [if_pos hd']
      constructor
      · exact hc.gone
      · intro p hp
        rcases List.mem_cons.mp hp with rfl | hp
        · exact hd
        · exact hc.deleted p hp
      · intro p hp
        rcases List.mem_cons.mp hp with rfl | hp
        · simp [World.setCache]
        · exact hc.uncached p hp
      · intro d hd
        exact (hc.late d hd).mono fun p hp => List.mem_cons_of_mem _ hp
    · have hd' : hash ∉ (w.setCache worker ((w.validationCache worker).erase hash)).deleted := hd
      rw [if_neg hd']
      exact hc

/-- A validation that starts after the revocation misses the cache. -/
theorem isValid_refused (h : Revocable w) {worker : Nat} {hash : κ} (secret : String)
    (hr : (worker, hash) ∈ w.revoked) : (isValid w worker hash secret).Refused := by
  unfold isValid
  by_cases he : secret.isEmpty
  · simp [he, ValidatePc.Refused]
  · simp [he, h.uncached _ hr, ValidatePc.Refused]

theorem Revocable.answer (h : Revocable w) {i : Nat} {o : Outcome}
    (hc : c ∈ w.calls) (hi : w.calls[i]? = some c) (hg : NoStaleValidation w (.answer i o))
    (ha : Keystore.answer w o c = some (w', c')) : Revocable w' ∧ c'.LateRefused w' := by
  have hlate := h.late c hc
  simp only [NoStaleValidation, hi] at hg
  cases c with
  | isValid worker hash now late pc =>
    cases pc with
    | getting =>
      obtain ⟨rfl, rfl⟩ : w = w' ∧ _ = c' := by simpa [Keystore.answer] using ha
      refine ⟨h, fun hl => ⟨(hlate hl).1, ?_⟩⟩
      have hn := h.gone hash (h.deleted _ (hlate hl).1)
      by_cases ho : o = .ok <;> simp [ValidatePc.Refused, ho, hn]
    | touching record =>
      obtain ⟨rfl, rfl⟩ : _ = w' ∧ _ = c' := by simpa [Keystore.answer] using ha
      refine ⟨?_, fun hl => False.elim (hlate hl).2⟩
      by_cases ho : o.landed
      · rw [if_pos ho]
        exact h.putObject (hg ho hash rfl) _
      · rw [if_neg ho]
        exact h
    | got body => simp [Keystore.answer] at ha
    | touched => simp [Keystore.answer] at ha
    | returned valid => simp [Keystore.answer] at ha
  | revoke worker keyId pc =>
    suffices hw : Revocable w' ∧ ∃ pc', c' = .revoke worker keyId pc' by
      obtain ⟨hr, pc', rfl⟩ := hw
      exact ⟨hr, trivial⟩
    cases pc with
    | listing =>
      simp only [Keystore.answer] at ha
      split at ha
      · cases ha
      · obtain ⟨rfl, rfl⟩ : w = w' ∧ _ = c' := by simpa using ha
        exact ⟨h, _, rfl⟩
    | getting key rest =>
      obtain ⟨rfl, rfl⟩ : w = w' ∧ _ = c' := by simpa [Keystore.answer] using ha
      exact ⟨h, _, rfl⟩
    | deleting key =>
      obtain ⟨rfl, rfl⟩ : _ = w' ∧ _ = c' := by simpa [Keystore.answer] using ha
      refine ⟨?_, _, rfl⟩
      by_cases ho : o.landed
      · rw [if_pos ho]
        exact h.deleteObject key
      · rw [if_neg ho]
        exact h
    | listed keys => simp [Keystore.answer] at ha
    | got key body rest => simp [Keystore.answer] at ha
    | deleted key => simp [Keystore.answer] at ha
    | returned hit => simp [Keystore.answer] at ha
  | store hash keyId label pc =>
    suffices hw : Revocable w' ∧ ∃ pc', c' = .store hash keyId label pc' by
      obtain ⟨hr, pc', rfl⟩ := hw
      exact ⟨hr, trivial⟩
    cases pc with
    | checking =>
      obtain ⟨rfl, rfl⟩ : w = w' ∧ _ = c' := by simpa [Keystore.answer] using ha
      exact ⟨h, _, rfl⟩
    | putting record =>
      obtain ⟨rfl, rfl⟩ : _ = w' ∧ _ = c' := by simpa [Keystore.answer] using ha
      refine ⟨?_, _, rfl⟩
      by_cases ho : o.landed
      · rw [if_pos ho]
        exact h.putNewObject hash _
      · rw [if_neg ho]
        exact h
    | checked found => simp [Keystore.answer] at ha
    | put record stored => simp [Keystore.answer] at ha
    | returned record => simp [Keystore.answer] at ha
    | raised error => simp [Keystore.answer] at ha

/-- What a resumed call of `revoke` or of a store does to the workers. -/
theorem resume_other (ha : resume w c = some (w', c')) :
    (∃ worker hash now late pc, c = .isValid worker hash now late pc) ∨
    (w' = w ∨ ∃ worker key, w' = dropCached w worker key) ∧ c'.LateRefused w' := by
  cases c with
  | isValid worker hash now late pc => exact .inl ⟨_, _, _, _, _, rfl⟩
  | revoke worker keyId pc =>
    right
    cases pc with
    | listed keys =>
      obtain ⟨rfl, rfl⟩ : w = w' ∧ _ = c' := by simpa [resume] using ha
      exact ⟨.inl rfl, trivial⟩
    | got key body rest =>
      simp only [resume] at ha
      split at ha
      · cases ha
        exact ⟨.inl rfl, trivial⟩
      · split at ha <;> cases ha <;> exact ⟨.inl rfl, trivial⟩
    | deleted key =>
      obtain ⟨rfl, rfl⟩ : _ = w' ∧ _ = c' := by simpa [resume] using ha
      exact ⟨.inr ⟨_, _, rfl⟩, trivial⟩
    | listing => simp [resume] at ha
    | getting key rest => simp [resume] at ha
    | deleting key => simp [resume] at ha
    | returned hit => simp [resume] at ha
  | store hash keyId label pc =>
    right
    cases pc with
    | checked found =>
      rcases found with _ | _ | _ <;> cases ha <;> exact ⟨.inl rfl, trivial⟩
    | put record stored =>
      cases stored <;> cases ha <;> exact ⟨.inl rfl, trivial⟩
    | checking => simp [resume] at ha
    | putting record => simp [resume] at ha
    | returned record => simp [resume] at ha
    | raised error => simp [resume] at ha

theorem Revocable.resume (h : Revocable w) {i : Nat} (hc : c ∈ w.calls)
    (hi : w.calls[i]? = some c) (hg : NoStaleValidation w (.resume i))
    (ha : Keystore.resume w c = some (w', c')) : Revocable w' ∧ c'.LateRefused w' := by
  rcases resume_other ha with ⟨worker, hash, now, late, pc, rfl⟩ | ⟨hw, hc'⟩
  · have hlate := h.late _ hc
    simp only [NoStaleValidation, hi] at hg
    cases pc with
    | got body =>
      simp only [Keystore.resume] at ha
      cases hb : body.bind decodeRecord with
      | none =>
        obtain ⟨rfl, rfl⟩ : w = w' ∧ _ = c' := by simpa [hb] using ha
        exact ⟨h, fun hl => ⟨(hlate hl).1, rfl⟩⟩
      | some record =>
        obtain ⟨rfl, rfl⟩ : _ = w' ∧ _ = c' := by simpa [hb] using ha
        have htaken : (body.bind decodeRecord).map (fun _ => (worker, hash)) =
          some (worker, hash) := by
          rw [hb]
          rfl
        have hnot : (worker, hash) ∉ w.revoked := hg _ htaken
        refine ⟨h.setCache ?_, fun hl => absurd (hlate hl).1 hnot⟩
        intro k hk
        have hne : k ≠ hash := by
          intro he
          exact hnot (he ▸ hk)
        rw [AList.lookup_insert_ne hne]
        exact h.uncached _ hk
    | touched =>
      obtain ⟨rfl, rfl⟩ : w = w' ∧ _ = c' := by simpa [Keystore.resume] using ha
      exact ⟨h, fun hl => False.elim (hlate hl).2⟩
    | getting => simp [Keystore.resume] at ha
    | touching record => simp [Keystore.resume] at ha
    | returned valid => simp [Keystore.resume] at ha
  · rcases hw with rfl | ⟨worker, key, rfl⟩
    · exact ⟨h, hc'⟩
    · exact ⟨h.dropCached worker key, hc'⟩

theorem Revocable.step {hashKey : String → κ} {a : Action κ} (h : Revocable w)
    (hg : NoStaleValidation w a) (ha : keystoreStep hashKey w a = some w') : Revocable w' := by
  cases a with
  | clock now =>
    cases ha
    exact ⟨h.gone, h.deleted, h.uncached, fun c hc => (h.late c hc).mono fun p hp => hp⟩
  | isValid worker secret =>
    cases ha
    apply h.addCall
    intro hl
    have hr : (worker, hashKey secret) ∈ w.revoked := by simpa [World.isRevoked] using hl
    exact ⟨hr, isValid_refused h secret hr⟩
  | revoke worker keyId =>
    cases ha
    exact h.addCall trivial
  | create secret keyId label =>
    cases ha
    exact (h.issue _).addCall trivial
  | addCustom secret keyId label =>
    cases ha
    exact (h.issue _).addCall trivial
  | answer i o =>
    obtain ⟨⟨u, d⟩, hb, rfl⟩ := Option.map_eq_some_iff.mp ha
    obtain ⟨c, hi, ho⟩ := Option.bind_eq_some_iff.mp hb
    have hu := h.answer (List.mem_of_getElem? hi) hi hg ho
    exact hu.1.setCall i hu.2
  | list i keys =>
    simp only [keystoreStep] at ha
    split at ha
    · split at ha
      · cases ha
        exact h.setCall i trivial
      · cases ha
    · cases ha
  | resume i =>
    obtain ⟨⟨u, d⟩, hb, rfl⟩ := Option.map_eq_some_iff.mp ha
    obtain ⟨c, hi, ho⟩ := Option.bind_eq_some_iff.mp hb
    have hu := h.resume (List.mem_of_getElem? hi) hi hg ho
    exact hu.1.setCall i hu.2

/-- In every run of the workers over any bucket whose steps let no stale validation act,
a revoked key stays revoked. -/
theorem revocation_holds_of_no_stale_validation {hashKey : String → κ}
    {bucket : AList fun _ : ObjectKey κ => Body} {now : Nat} {as : List (Action κ)}
    (hg : Along (keystoreStep hashKey) NoStaleValidation (World.boot bucket now) as)
    (h : run (keystoreStep hashKey) (World.boot bucket now) as = some w) : RevocationHolds w := by
  have hw : Revocable w :=
    run_invariant_along (P := Revocable) (fun s a t hs hgs ha => hs.step hgs ha)
      (revocable_boot bucket now) hg h
  exact hw.holds

/-- A bucket with the one key `s`. -/
def oneKey : AList fun _ : ObjectKey String => Body :=
  (∅ : AList _).insert (.key "s") (encodeRecord "id" "label" 0 none)

/-- The requests of `revoke` over a bucket with one key, from its start to its return. -/
def revokeKey (i : Nat) : List (Action String) :=
  [.list i [.key "s"], .resume i, .answer i .ok, .resume i, .answer i .ok, .resume i]

/-- A validation ends before the key is revoked, and a second one begins after. -/
def orderlyRun : List (Action String) :=
  [Action.isValid 0 "s", .answer 0 .ok, .resume 0, .answer 0 .ok, .resume 0, .revoke 0 "id"] ++
  revokeKey 1 ++ [Action.isValid 0 "s", .answer 2 .ok, .resume 2]

/-- A validation has read its record when the key is revoked; then it goes on. -/
def staleRun : List (Action String) :=
  [Action.isValid 0 "s", .answer 0 .ok, .revoke 0 "id"] ++ revokeKey 1 ++
  [Action.resume 0, .answer 0 .ok, .resume 0, .isValid 0 "s"]

instance (w : World κ) : DecidablePred (NoStaleValidation w) := fun a =>
  match a with
  | .answer i o =>
    inferInstanceAs (Decidable (o.landed → ∀ hash ∈ w.calls[i]?.bind Call.touching, hash ∉ w.deleted))
  | .resume i =>
    inferInstanceAs (Decidable (∀ p ∈ w.calls[i]?.bind Call.takingUp, p ∉ w.revoked))
  | .clock _ | .isValid .. | .revoke .. | .create .. | .addCustom .. | .list .. => isTrue trivial

theorem revocation_holds_orderly : ∃ w : World String,
    run (keystoreStep id) (World.boot oneKey 0) orderlyRun = some w ∧
      (0, "s") ∈ w.revoked ∧ RevocationHolds w := by
  have hr : ((run (keystoreStep id) (World.boot oneKey 0) orderlyRun).map World.revoked) =
      some [(0, "s")] := by decide
  obtain ⟨w, hw, hm⟩ := Option.map_eq_some_iff.mp hr
  refine ⟨w, hw, by simp [hm], ?_⟩
  exact revocation_holds_of_no_stale_validation (by decide) hw

/-- A validation that read its record before the delete brings the revoked key back. -/
theorem stale_validation_revives_key : ¬ ∀ (as : List (Action String)) (w : World String),
    run (keystoreStep id) (World.boot oneKey 0) as = some w → RevocationHolds w := by
  intro h
  have hr : ((run (keystoreStep id) (World.boot oneKey 0) staleRun).map fun w =>
      (w.revoked, w.calls[2]?, w.bucket.keys)) =
      some ([(0, "s")], some (.isValid 0 "s" 0 true (.returned true)), [.key "s"]) := by decide
  obtain ⟨w, hw, hm⟩ := Option.map_eq_some_iff.mp hr
  have hc : w.calls[2]? = some (.isValid 0 "s" 0 true (.returned true)) := by simp_all
  exact (h staleRun w hw).denied 0 "s" 0 (List.mem_of_getElem? hc)

end DataService.Keystore
