import DataService.WeatherStations.BucketAgreement
import DataService.WeatherStations.CacheLog
import DataService.WeatherStations.CacheService

/-! The order of the writes to Redis. A write-back carries what its request read some time
ago, and nothing compares it with what Redis has by then. -/

namespace DataService.WeatherCache

open Coroutine Coro HourBuckets Raising Series UtcDateTime

/-- The keys that change with every scrape. -/
def CacheKey.tracked : CacheKey → Bool
  | .latest | .tilesets | .series _ => true
  | .snapBody _ => false

variable {ρ π : Type}

/-- Redis holds nothing that was made of an older state of S3 than what a write-through of
its key had brought there before, and no latest snapshot was answered that is older than one
answered before the request came. -/
structure CacheState.NeverBack (s : CacheState ρ π) : Prop where
  writes : ∀ key slot, key.tracked = true → s.world.redis.lookup key = some slot → ∀ moment,
    .wroteThrough key moment ∈ s.world.history.log.take slot.written →
      uploadsBefore s.world.history.log moment ≤ uploadsBefore s.world.history.log slot.origin.moment
  answers : ∀ answer, .returned answer ∈ s.world.history.log → ∀ former,
    .returned former ∈ s.world.history.log.take answer.arrived → former.stamp ≤ answer.stamp

/-- When the latest snapshot was read that a request is about to answer. -/
def ReadTask.latestRead (task : ReadTask ρ π) : Option Nat :=
  match task.request, task.code with
  | .latest, .ret (.snapshot (some body)) => some body.origin.moment
  | _, _ => none

/-- No write-back lands under a key that changes unless it is punctual. No request answers
bytes that were read after an upload of latest.json while Redis still has bytes from before it.
The clock does not go back. -/
def Forward (s : CacheState ρ π) : CacheAction ρ → Prop
  | .writeBack i landed => landed = true → ∀ p ∈ s.world.writeBacks[i]?, p.1.tracked = true →
      Punctual s.world.history.log p.1 p.2.origin.moment
  | .respond i => ∀ task ∈ s.tasks[i]?, ∀ read ∈ task.latestRead,
      ∀ slot ∈ s.world.redis.lookup .latest,
        Without s.world.history.log (Event.isUploadOf latestObject) slot.origin.moment read
  | .tick now _ => s.world.now ≤ now
  | _ => True

instance (s : CacheState ρ π) (a : CacheAction ρ) : Decidable (Forward s a) := by
  cases a <;> unfold Forward <;> infer_instance

namespace World

structure Ordered (w : World ρ π) : Prop where
  completed : Completed w.history.log
  returned : ∀ answer, .returned answer ∈ w.history.log →
    Dated w.history.log answer.read answer.stamp
  answers : ∀ answer, .returned answer ∈ w.history.log → answer.arrived ≤ w.history.log.length ∧
    ∀ former, .returned former ∈ w.history.log.take answer.arrived → former.stamp ≤ answer.stamp
  latest : ∀ body, w.bucket.lookup latestObject = some (.snapshot body) →
    Dated w.history.log w.history.moment body.scrapedAt.stamp
  clock : ∀ stamp, .uploaded latestObject stamp ∈ w.history.log → stamp ≤ w.now.stamp
  writes : ∀ key slot, key.tracked = true → w.redis.lookup key = some slot →
    slot.InOrder key w.history.log
  cached : ∀ slot body, w.redis.lookup .latest = some slot → slot.value = .snapshot body →
    Dated w.history.log slot.origin.moment body.scrapedAt.stamp ∧
      ∀ answer, .returned answer ∈ w.history.log → answer.stamp ≤ body.scrapedAt.stamp
  writeBacks : ∀ p ∈ w.writeBacks, p.1 = .latest → ∀ body, p.2.value = .snapshot body →
    Dated w.history.log p.2.origin.moment body.scrapedAt.stamp

/-- The order stays, and nothing that has happened is forgotten. -/
structure Later (s t : World ρ π) : Prop where
  ordered : s.Ordered → t.Ordered
  log : s.history.log <+: t.history.log
  clock : s.now.stamp ≤ t.now.stamp

/-- Nothing was uploaded over latest.json either. -/
structure Clear (s t : World ρ π) : Prop extends Later s t where
  kept : t.bucket.lookup latestObject = s.bucket.lookup latestObject
  stamps : ∀ stamp, .uploaded latestObject stamp ∈ t.history.log →
    .uploaded latestObject stamp ∈ s.history.log

/-- Nothing was uploaded at all. -/
structure Aside (s t : World ρ π) : Prop extends Clear s t where
  uploads : t.history.log.countP Event.isUpload = s.history.log.countP Event.isUpload

variable {s t u w : World ρ π}

theorem later_refl (w : World ρ π) : Later w w := ⟨id, List.prefix_refl _, le_rfl⟩

theorem Later.trans (h : Later s t) (h' : Later t u) : Later s u :=
  ⟨fun hs => h'.ordered (h.ordered hs), h.log.trans h'.log, h.clock.trans h'.clock⟩

theorem clear_refl (w : World ρ π) : Clear w w := ⟨later_refl w, rfl, fun _ h => h⟩

theorem Clear.trans (h : Clear s t) (h' : Clear t u) : Clear s u :=
  ⟨h.toLater.trans h'.toLater, h'.kept.trans h.kept, fun stamp hs => h.stamps stamp (h'.stamps stamp hs)⟩

theorem aside_refl (w : World ρ π) : Aside w w := ⟨clear_refl w, rfl⟩

theorem Aside.trans (h : Aside s t) (h' : Aside t u) : Aside s u :=
  ⟨h.toClear.trans h'.toClear, h'.uploads.trans h.uploads⟩

theorem Ordered.returned_le (h : w.Ordered) {body : Body ρ}
    (hbody : w.bucket.lookup latestObject = some (.snapshot body)) {answer : LatestAnswer}
    (hanswer : .returned answer ∈ w.history.log) : answer.stamp ≤ body.scrapedAt.stamp := by
  refine (h.latest body hbody).newest.2 ?_
  have hmem := List.mem_of_mem_take (h.returned answer hanswer).newest.1
  exact (List.take_length (l := w.history.log)).symm ▸ hmem

/-- A step that leaves the log, the bucket and the clock alone. -/
theorem aside_of_ordered (hordered : s.Ordered → t.Ordered) (hbucket : t.bucket = s.bucket)
    (hlog : t.history.log = s.history.log) (hnow : t.now = s.now) : Aside s t := by
  have hkept : t.bucket.lookup latestObject = s.bucket.lookup latestObject := by rw [hbucket]
  refine ⟨⟨⟨hordered, ?_, (congrArg DateTime.stamp hnow).ge⟩, hkept, fun stamp h => ?_⟩, ?_⟩
  · rw [hlog]
  · rwa [hlog] at h
  · rw [hlog]

/-- Only the write-backs and the memory of the processes change. -/
theorem Ordered.frame (h : s.Ordered) (hbucket : t.bucket = s.bucket) (hredis : t.redis = s.redis)
    (hnow : t.now = s.now) (hlog : t.history.log = s.history.log)
    (hwrites : ∀ p ∈ t.writeBacks, p ∈ s.writeBacks ∨ (p.1 = .latest → ∀ body,
      p.2.value = .snapshot body → Dated s.history.log p.2.origin.moment body.scrapedAt.stamp)) :
    t.Ordered := by
  refine ⟨?_, ?_, ?_, ?_, ?_, ?_, ?_, ?_⟩
  · rw [hlog]
    exact h.completed
  · rw [hlog]
    exact h.returned
  · rw [hlog]
    exact h.answers
  · rw [History.moment, hbucket, hlog]
    exact h.latest
  · rw [hlog, hnow]
    exact h.clock
  · rw [hlog, hredis]
    exact h.writes
  · rw [hlog, hredis]
    exact h.cached
  · intro p hp hkey body hbody
    rw [hlog]
    rcases hwrites p hp with hold | hnew
    · exact h.writeBacks p hold hkey body hbody
    · exact hnew hkey body hbody

theorem aside_frame (hbucket : t.bucket = s.bucket) (hredis : t.redis = s.redis)
    (hnow : t.now = s.now) (hwrites : t.writeBacks = s.writeBacks)
    (hlog : t.history.log = s.history.log) : Aside s t := by
  refine aside_of_ordered (fun h => ?_) hbucket hlog hnow
  refine h.frame hbucket hredis hnow hlog fun p hp => .inl ?_
  rw [← hwrites]
  exact hp

theorem aside_writeBack (w : World ρ π) {key : CacheKey} {v : Sourced (CacheValue ρ π)}
    (hv : key = .latest → ∀ body, v.value = .snapshot body →
      Dated w.history.log v.origin.moment body.scrapedAt.stamp) :
    Aside w { w with writeBacks := w.writeBacks ++ [(key, v)] } := by
  refine aside_of_ordered (fun h => ?_) rfl rfl rfl
  refine h.frame rfl rfl rfl rfl fun p hp => ?_
  rcases List.mem_append.mp hp with hold | hnew
  · exact .inl hold
  · obtain rfl := List.mem_singleton.mp hnew
    exact .inr hv

/-- A write to Redis in the order of the writes and, under the key of the latest snapshot, of
what is no older than what was answered. -/
theorem Ordered.setRedis (h : w.Ordered) {key : CacheKey} {v : Sourced (CacheValue ρ π)}
    (horder : key.tracked = true → (⟨v, w.history.moment⟩ : Slot _).InOrder key w.history.log)
    (hlatest : key = .latest → ∀ body, v.value = .snapshot body →
      Dated w.history.log v.origin.moment body.scrapedAt.stamp ∧
        ∀ answer, .returned answer ∈ w.history.log → answer.stamp ≤ body.scrapedAt.stamp) :
    (w.setRedis key v).Ordered := by
  have hself : (w.redis.insert key ⟨v, w.history.moment⟩).lookup key = some ⟨v, w.history.moment⟩ :=
    AList.lookup_insert w.redis
  have hother (key' : CacheKey) (hne : key' ≠ key) :
      (w.redis.insert key ⟨v, w.history.moment⟩).lookup key' = w.redis.lookup key' :=
    AList.lookup_insert_ne hne
  refine ⟨h.completed, h.returned, h.answers, h.latest, h.clock, fun key' slot htracked hslot => ?_,
    fun slot body hslot hbody => ?_, h.writeBacks⟩
  · by_cases hkey : key' = key
    · subst hkey
      obtain rfl := Option.some.inj (hself.symm.trans hslot)
      exact horder htracked
    · exact h.writes key' slot htracked ((hother key' hkey).symm.trans hslot)
  · by_cases hkey : CacheKey.latest = key
    · subst hkey
      obtain rfl := Option.some.inj (hself.symm.trans hslot)
      exact hlatest rfl body hbody
    · exact h.cached slot body ((hother _ hkey).symm.trans hslot) hbody

/-- The scraper writes what it made of the state that S3 is in. -/
theorem aside_setRedis (w : World ρ π) {key : CacheKey} {v : Sourced (CacheValue ρ π)}
    (hcurrent : v.origin.Current w.history.log)
    (hlatest : key = .latest → ∀ body, v.value = .snapshot body →
      w.bucket.lookup latestObject = some (.snapshot body) ∧
        Dated w.history.log v.origin.moment body.scrapedAt.stamp) :
    Aside w (w.setRedis key v) := by
  refine aside_of_ordered (fun h => h.setRedis (fun _ => ?_) fun hkey body hbody => ?_) rfl rfl rfl
  · exact inOrder_of_current key h.completed hcurrent
  · obtain ⟨hlookup, hdated⟩ := hlatest hkey body hbody
    exact ⟨hdated, fun answer hanswer => h.returned_le hlookup hanswer⟩

/-- An event that may come next. -/
structure Admits (w : World ρ π) (e : Event) : Prop where
  completed : ∀ key moment, e = .wroteThrough key moment → moment ≤ w.history.log.length
  returned : ∀ answer, e = .returned answer →
    Dated w.history.log answer.read answer.stamp ∧ answer.arrived ≤ w.history.log.length
  former : ∀ answer, e = .returned answer → ∀ former,
    .returned former ∈ w.history.log.take answer.arrived → former.stamp ≤ answer.stamp
  cached : ∀ answer, e = .returned answer → ∀ slot body, w.redis.lookup .latest = some slot →
    slot.value = .snapshot body → answer.stamp ≤ body.scrapedAt.stamp

/-- The log grows by an event. -/
theorem Ordered.grow (h : s.Ordered) {e : Event} (hredis : t.redis = s.redis)
    (hwrites : t.writeBacks = s.writeBacks) (hlog : t.history.log = s.history.log ++ [e])
    (he : s.Admits e)
    (hlatest : ∀ body, t.bucket.lookup latestObject = some (.snapshot body) →
      Dated t.history.log t.history.moment body.scrapedAt.stamp)
    (hclock : ∀ stamp, .uploaded latestObject stamp ∈ t.history.log → stamp ≤ t.now.stamp) :
    t.Ordered := by
  have hinitial : s.history.log <+: t.history.log := hlog ▸ List.prefix_append _ _
  have hcase {answer : LatestAnswer} (hanswer : .returned answer ∈ t.history.log) :
      .returned answer ∈ s.history.log ∨ e = .returned answer := by
    rw [hlog, List.mem_append, List.mem_singleton] at hanswer
    exact hanswer.imp_right Eq.symm
  refine ⟨hlog ▸ completed_note h.completed he.completed, fun answer hanswer => ?_,
    fun answer hanswer => ?_, hlatest, hclock, ?_, ?_, ?_⟩
  · rcases hcase hanswer with hold | hnew
    · exact (h.returned answer hold).later hinitial
    · exact (he.returned answer hnew).1.later hinitial
  · have hold : answer.arrived ≤ s.history.log.length ∧ ∀ former,
        .returned former ∈ s.history.log.take answer.arrived → former.stamp ≤ answer.stamp := by
      rcases hcase hanswer with hold | hnew
      · exact h.answers answer hold
      · exact ⟨(he.returned answer hnew).2, he.former answer hnew⟩
    rw [take_later hinitial hold.1]
    exact ⟨hold.1.trans hinitial.length_le, hold.2⟩
  · rw [hredis]
    exact fun key slot htracked hslot => (h.writes key slot htracked hslot).later hinitial
  · rw [hredis]
    intro slot body hslot hbody
    obtain ⟨hdated, hle⟩ := h.cached slot body hslot hbody
    refine ⟨hdated.later hinitial, fun answer hanswer => ?_⟩
    rcases hcase hanswer with hold | hnew
    · exact hle answer hold
    · exact he.cached answer hnew slot body hslot hbody
  · rw [hwrites]
    exact fun p hp hkey body hbody => (h.writeBacks p hp hkey body hbody).later hinitial

/-- What has happened is no upload. -/
theorem aside_note (w : World ρ π) {e : Event} (hupload : e.isUpload = false)
    (he : w.Admits e) :
    Aside w { w with history := w.history.note e } := by
  have hstamps (stamp : Nat) (h : .uploaded latestObject stamp ∈ (w.history.note e).log) :
      .uploaded latestObject stamp ∈ w.history.log := by
    rcases List.mem_append.mp h with hold | hnew
    · exact hold
    · rw [← List.mem_singleton.mp hnew] at hupload
      cases hupload
  refine ⟨⟨⟨fun h => ?_, List.prefix_append _ _, le_rfl⟩, rfl, hstamps⟩, ?_⟩
  · refine h.grow rfl rfl rfl he (fun body hbody => ?_) fun stamp hstamp =>
      h.clock stamp (hstamps stamp hstamp)
    exact (h.latest body hbody).note hstamps
  · simp [History.note, List.countP_append, hupload]

theorem admits_upload (w : World ρ π) (key : S3Key) (stamp : Nat) :
    w.Admits (.uploaded key stamp) where
  completed _ _ h := by cases h
  returned _ h := by cases h
  former _ h := by cases h
  cached _ h := by cases h

theorem clear_putObject (w : World ρ π) {key : S3Key} (hkey : latestObject ≠ key)
    (object : S3Object ρ) : Clear w (w.putObject key object) := by
  have hkept : (w.putObject key object).bucket.lookup latestObject = w.bucket.lookup latestObject :=
    AList.lookup_insert_ne hkey
  have hstamps (stamp : Nat)
      (h : .uploaded latestObject stamp ∈ (w.putObject key object).history.log) :
      .uploaded latestObject stamp ∈ w.history.log := by
    rcases List.mem_append.mp h with hold | hnew
    · exact hold
    · exact absurd (Event.uploaded.inj (List.mem_singleton.mp hnew)).1 hkey
  refine ⟨⟨fun h => ?_, List.prefix_append _ _, le_rfl⟩, hkept, hstamps⟩
  refine h.grow rfl rfl rfl (admits_upload w _ _) (fun body hbody => ?_) fun stamp hstamp => h.clock stamp (hstamps stamp hstamp)
  exact (h.latest body (hkept.symm.trans hbody)).note hstamps

/-- A snapshot no older than the last one, and not of the future, goes over latest.json. -/
theorem later_putLatest (w : World ρ π) {body : Body ρ}
    (hle : ∀ stamp, .uploaded latestObject stamp ∈ w.history.log → stamp ≤ body.scrapedAt.stamp)
    (hnow : body.scrapedAt.stamp ≤ w.now.stamp) :
    Later w (w.putObject latestObject (.snapshot body)) := by
  have hlookup : (w.putObject latestObject (.snapshot body)).bucket.lookup latestObject =
      some (.snapshot body) := AList.lookup_insert w.bucket
  have hnew (stamp : Nat)
      (h : .uploaded latestObject stamp ∈ (w.putObject latestObject (.snapshot body)).history.log) :
      stamp ≤ body.scrapedAt.stamp := by
    rcases List.mem_append.mp h with hold | hlast
    · exact hle stamp hold
    · exact (Event.uploaded.inj (List.mem_singleton.mp hlast)).2.le
  refine ⟨fun h => ?_, List.prefix_append _ _, le_rfl⟩
  refine h.grow rfl rfl rfl (admits_upload w _ _) (fun other hother => ?_) fun stamp hstamp => (hnew stamp hstamp).trans hnow
  rw [hlookup] at hother
  cases hother
  refine dated_now ⟨?_, fun stamp hstamp => hnew stamp hstamp⟩
  exact List.mem_append_right _ List.mem_cons_self

end World

section Steady

open DataService.WeatherCache.World

variable {R : World ρ π → World ρ π → Prop} {w : World ρ π} {α β : Type}

/-- What a coroutine that steps aside may expect of the others. -/
structure Rely (R : World ρ π → World ρ π → Prop) : Prop where
  refl : ∀ s, R s s
  trans : ∀ s t u, R s t → R t u → R s u
  aside : ∀ s t, Aside s t → R s t

theorem rely_later : Rely (Later : World ρ π → World ρ π → Prop) :=
  ⟨later_refl, fun _ _ _ h h' => h.trans h', fun _ _ h => h.toLater⟩

theorem rely_aside : Rely (Aside : World ρ π → World ρ π → Prop) :=
  ⟨aside_refl, fun _ _ _ h h' => h.trans h', fun _ _ h => h⟩

/-- Beside others that keep to `R` the code steps aside, and it ends in `Q`. -/
def Steady (R : World ρ π → World ρ π → Prop) (Q : α → World ρ π → Prop) (c : Code ρ π α)
    (w : World ρ π) : Prop :=
  c.Honours R Aside Q (fun _ _ => True) w

theorem steady_pure {Q : α → World ρ π → Prop} {a : α} (h : Q a w) :
    Steady R Q (pure a : Code ρ π α) w := h

theorem steady_bind (hR : Rely R) {Q : α → World ρ π → Prop} {Q' : β → World ρ π → Prop}
    {c : Code ρ π α} {k : α → Code ρ π β} (h : Steady R Q c w)
    (hk : ∀ a t, R w t → Q a t → Steady R Q' (k a) t) : Steady R Q' (c >>= k) w := by
  have hframe := honours_frame (P := R w) (fun s t hst hws => hR.trans w s t hws hst)
    (fun s t hst hws => hR.trans w s t hws (hR.aside s t hst)) h (hR.refl w)
  exact honours_bind (honours_mono (fun a t ha => hk a t ha.2 ha.1) (fun _ _ _ => trivial) hframe)

theorem steady_catch {Q : α → World ρ π → Prop} {body handler : Code ρ π α}
    (h : Steady R Q body w) (hh : ∀ t, Steady R Q handler t) :
    Steady R Q (catchException body handler) w := by
  apply honours_tryCatch
  refine honours_mono (fun _ _ hq => hq) (fun e t _ => ?_) h
  by_cases he : e = .cancelled
  · rw [if_pos he]
    trivial
  · rw [if_neg he]
    exact hh t

theorem steady_update {f : World ρ π → World ρ π} (h : Aside w (f w)) :
    Steady R (fun _ _ => True) (update f) w := ⟨h, trivial⟩

theorem steady_roundTrip {Q : α → World ρ π → Prop}
    {f : World ρ π → Reply ρ → Option (Except CacheExn α × World ρ π)}
    (hok : ∀ t, R w t → ∀ r a u, f t r = some (.ok a, u) → Aside t u ∧ ∀ v, R u v → Q a v)
    (herror : ∀ t, R w t → ∀ r e u, f t r = some (.error e, u) → Aside t u) :
    Steady R Q (roundTrip f) w := by
  refine honours_roundTrip aside_refl (fun t ht r a u hu => ?_) fun t ht r e u hu => ?_
  · obtain ⟨hG, hQ⟩ := hok t ht r a u hu
    exact ⟨hG, fun v hv => ⟨trivial, hQ v hv⟩⟩
  · exact ⟨herror t ht r e u hu, trivial⟩

variable {cfg : CacheConfig ρ π}

/-- What is read from S3 was there at one moment since. -/
theorem steady_downloadTile (key : S3Key) :
    Steady R (fun a t => ∀ object, a = some object → ∃ v : World ρ π, R w v ∧ R v t ∧
      v.bucket.lookup key = some object.value ∧ object.origin = ⟨v.history.moment, false⟩)
      (downloadTile key) w := by
  refine steady_roundTrip (fun t ht r a u hu => ?_) fun t _ r e u hu => ?_
  · cases r with
    | ok =>
      cases hu
      refine ⟨aside_refl t, fun v hv object hobject => ?_⟩
      obtain ⟨stored, hstored, rfl⟩ := Option.map_eq_some_iff.mp hobject
      exact ⟨t, ht, hv, hstored, rfl⟩
    | failed landed =>
      cases hu
      exact ⟨aside_refl t, fun v _ object hobject => by cases hobject⟩
    | raised | cancelled | observations => cases hu
  · cases r <;> cases hu
    · exact aside_refl t
    · exact aside_refl t

/-- What is read from Redis was there at one moment since. -/
theorem steady_cacheGet (key : CacheKey) :
    Steady R (fun a t => ∀ x, a = some x → ∃ (v : World ρ π) (slot : Slot (CacheValue ρ π)),
      R w v ∧ R v t ∧ v.redis.lookup key = some slot ∧ slot.toSourced = x)
      (cacheGet cfg key) w := by
  unfold cacheGet
  by_cases hc : cfg.cacheEnabled = true
  · rw [if_pos hc]
    refine steady_roundTrip (fun t ht r a u hu => ?_) fun t _ r e u hu => ?_
    · cases r with
      | ok =>
        cases hu
        refine ⟨aside_refl t, fun v hv x hx => ?_⟩
        obtain ⟨slot, hslot, rfl⟩ := Option.map_eq_some_iff.mp hx
        exact ⟨t, slot, ht, hv, hslot, rfl⟩
      | failed landed =>
        cases hu
        exact ⟨aside_refl t, fun v _ x hx => by cases hx⟩
      | raised | cancelled | observations => cases hu
    · cases r <;> cases hu
      exact aside_refl t
  · rw [if_neg hc]
    exact steady_pure fun x hx => by cases hx

theorem steady_cacheSetBg {key : CacheKey} {v : Sourced (CacheValue ρ π)}
    (hv : key = .latest → ∀ body, v.value = .snapshot body →
      Dated w.history.log v.origin.moment body.scrapedAt.stamp) :
    Steady R (fun _ _ => True) (cacheSetBg cfg key v) w := by
  unfold cacheSetBg
  by_cases hc : cfg.cacheEnabled = true
  · rw [if_pos hc]
    exact steady_update (aside_writeBack w hv)
  · rw [if_neg hc]
    exact steady_pure trivial

/-- A latest snapshot is no older than those that were answered before the request. -/
theorem steady_getLatestSnapshot (hw : w.Ordered) :
    Steady Later (fun a t => ∀ body : Sourced (Body ρ), a = some body →
      Dated t.history.log body.origin.moment body.value.scrapedAt.stamp ∧
        ∀ former, .returned former ∈ w.history.log → former.stamp ≤ body.value.scrapedAt.stamp)
      (getLatestSnapshot cfg) w := by
  refine steady_bind rely_later (steady_cacheGet .latest) fun cached t hwt hcached => ?_
  cases hhit : asSnapshot cached with
  | some body =>
    refine steady_pure ?_
    rintro _ ⟨⟩
    obtain ⟨v, slot, hwv, hvt, hslot, hsourced⟩ := hcached _ (asSnapshot_some hhit)
    have hvalue : slot.value = .snapshot body.value := congrArg Sourced.value hsourced
    have horigin : slot.origin = body.origin := congrArg Sourced.origin hsourced
    obtain ⟨hdated, hle⟩ := (hwv.ordered hw).cached slot body.value hslot hvalue
    rw [horigin] at hdated
    exact ⟨hdated.later hvt.log, fun former hformer => hle former (hwv.log.subset hformer)⟩
  | none =>
    refine steady_bind rely_later (steady_downloadTile latestObject) fun object u htu hobject => ?_
    cases hbody : asBody object with
    | none => exact steady_pure fun _ h => by cases h
    | some body =>
      obtain ⟨v, htv, hvu, hlookup, horigin⟩ := hobject _ (asBody_some hbody)
      have hwv := hwt.trans htv
      have hmoment : body.origin.moment = v.history.moment := congrArg Origin.moment horigin
      have hdated : Dated u.history.log body.origin.moment body.value.scrapedAt.stamp := by
        rw [hmoment]
        exact ((hwv.ordered hw).latest body.value hlookup).later hvu.log
      have hset : Steady Later (fun _ _ => True)
          (cacheSetBg cfg .latest (body.map .snapshot)) u := by
        refine steady_cacheSetBg ?_
        rintro - _ ⟨⟩
        exact hdated
      refine steady_bind rely_later hset fun _ x hux _ => steady_pure ?_
      rintro _ ⟨⟩
      refine ⟨hdated.later hux.log, fun former hformer => ?_⟩
      exact (hwv.ordered hw).returned_le hlookup (hwv.log.subset hformer)

end Steady

end DataService.WeatherCache
