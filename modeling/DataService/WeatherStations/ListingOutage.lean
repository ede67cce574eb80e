import DataService.WeatherStations.CacheService

/-! LISTs that fail. The client answers them with no keys, and whoever asked goes on with
these: a request caches them, and what it makes of them; so does the warm-up of the
tilesets. The warm-up of the recent bodies finds nothing to write. -/

namespace DataService.WeatherCache

open Coroutine Coro HourBuckets Series UtcDateTime

/-- No request and no warm-up of the tilesets has met a LIST that failed. -/
def NoneFailed (history : History) : Prop :=
  .reader ∉ history.failedLists ∧ .tilesetsWarmUp ∉ history.failedLists

instance (history : History) : Decidable (NoneFailed history) :=
  inferInstanceAs (Decidable (_ ∧ _))

/-- The keys whose values are made from a listing. -/
def CacheKey.listed : CacheKey → Bool
  | .tilesets | .series _ => true
  | .latest | .snapBody _ => false

variable {ρ π : Type}

/-- Nothing that is cached, or about to be, was made from a LIST that failed. -/
structure World.Clean (w : World ρ π) : Prop where
  redis : ∀ key slot, key.listed = true → w.redis.lookup key = some slot → slot.origin.failed = false
  listCache : ∀ k e, w.listCache.lookup k = some e → e.keys.origin.failed = false
  writeBacks : ∀ p ∈ w.writeBacks, p.1.listed = true → p.2.origin.failed = false

/-- Nor is an answer that was made from a listing. -/
def Answer.Clean : Answer ρ π → Prop
  | .snapshot _ => True
  | .entries l => l.origin.failed = false
  | .points l => l.origin.failed = false

structure CacheState.Unpoisoned (s : CacheState ρ π) : Prop where
  world : s.world.Clean
  answers : ∀ task ∈ s.tasks, ∀ answer, task.code = .ret answer → answer.Clean

namespace World

variable {s t u w : World ρ π}

def Guarded (w : World ρ π) : Prop := NoneFailed w.history → w.Clean

/-- The LISTs that failed are not forgotten. -/
structure Onward (s t : World ρ π) : Prop where
  failed : s.history.failedLists <:+ t.history.failedLists
  guarded : s.Guarded → t.Guarded

/-- If this was made from a LIST that failed, then a request or a warm-up has met one. -/
def Trusts (w : World ρ π) (origin : Origin) : Prop := NoneFailed w.history → origin.failed = false

theorem noneFailed_of_suffix (h : s.history.failedLists <:+ t.history.failedLists)
    (hn : NoneFailed t.history) : NoneFailed s.history :=
  ⟨fun hm => hn.1 (h.subset hm), fun hm => hn.2 (h.subset hm)⟩

theorem onward_refl (w : World ρ π) : Onward w w := ⟨List.suffix_refl _, id⟩

theorem Onward.trans (h : Onward s t) (h' : Onward t u) : Onward s u :=
  ⟨h.failed.trans h'.failed, fun hs => h'.guarded (h.guarded hs)⟩

theorem onward_frame (hredis : t.redis = s.redis) (hlists : t.listCache = s.listCache)
    (hwrites : t.writeBacks = s.writeBacks)
    (hfailed : s.history.failedLists <:+ t.history.failedLists) : Onward s t := by
  refine ⟨hfailed, fun h hn => ?_⟩
  have hc := h (noneFailed_of_suffix hfailed hn)
  refine ⟨?_, ?_, ?_⟩
  · rw [hredis]
    exact hc.redis
  · rw [hlists]
    exact hc.listCache
  · rw [hwrites]
    exact hc.writeBacks

theorem Trusts.onward {origin : Origin} (h : s.Trusts origin) (ho : Onward s t) :
    t.Trusts origin :=
  fun hn => h (noneFailed_of_suffix ho.failed hn)

theorem Guarded.setRedis (h : w.Guarded) {key : CacheKey} {v : Sourced (CacheValue ρ π)}
    (hv : key.listed = true → w.Trusts v.origin) : (w.setRedis key v).Guarded := by
  intro hn
  have hc := h hn
  refine ⟨fun key' slot hlisted hslot => ?_, hc.listCache, hc.writeBacks⟩
  by_cases hkey : key' = key
  · subst hkey
    have hself : some (⟨v, w.history.moment⟩ : Slot (CacheValue ρ π)) = some slot := by
      rw [← hslot]
      exact (AList.lookup_insert w.redis).symm
    obtain rfl := Option.some.inj hself
    exact hv hlisted hn
  · have hold : w.redis.lookup key' = some slot := by
      rw [← hslot]
      exact (AList.lookup_insert_ne hkey).symm
    exact hc.redis key' slot hlisted hold

theorem Guarded.rememberKeys (h : w.Guarded) {ttl worker : Nat} {p : S3Key}
    {keys : Sourced (List S3Key)} (hkeys : w.Trusts keys.origin) :
    (w.rememberKeys ttl worker p keys).Guarded := by
  intro hn
  have hc := h hn
  refine ⟨hc.redis, fun k e he => ?_, hc.writeBacks⟩
  by_cases hk : k = (worker, p)
  · subst hk
    have hself : some (⟨w.monotonic + ttl, keys⟩ : ListEntry) = some e := by
      rw [← he]
      exact (AList.lookup_insert w.listCache).symm
    obtain rfl := Option.some.inj hself
    exact hkeys hn
  · have hold : w.listCache.lookup k = some e := by
      rw [← he]
      exact (AList.lookup_insert_ne hk).symm
    exact hc.listCache k e hold

theorem Guarded.addWriteBack (h : w.Guarded) {key : CacheKey} {v : Sourced (CacheValue ρ π)}
    (hv : key.listed = true → w.Trusts v.origin) :
    ({ w with writeBacks := w.writeBacks ++ [(key, v)] } : World ρ π).Guarded := by
  intro hn
  have hc := h hn
  refine ⟨hc.redis, hc.listCache, fun p hp hlisted => ?_⟩
  rcases List.mem_append.mp hp with hp | hp
  · exact hc.writeBacks p hp hlisted
  · obtain rfl := List.mem_singleton.mp hp
    exact hv hlisted hn

theorem Guarded.freshKeys (h : w.Guarded) {worker : Nat} {p : S3Key} {keys : Sourced (List S3Key)}
    (hkeys : w.freshKeys worker p = some keys) : w.Trusts keys.origin := by
  intro hn
  obtain ⟨e, he, rfl⟩ := Option.map_eq_some_iff.mp hkeys
  exact (h hn).listCache _ e (Option.filter_eq_some_iff.mp he).1

end World

section Commands

variable {cfg : CacheConfig ρ π} {w : World ρ π} {α β : Type}

/-- Beside others that go onward the code goes onward, and it ends in `Q`. -/
def Keeps (Q : α → World ρ π → Prop) (c : Code ρ π α) (w : World ρ π) : Prop :=
  c.Honours World.Onward World.Onward (fun a t => t.Guarded ∧ Q a t) (fun _ t => t.Guarded) w

theorem keeps_pure {Q : α → World ρ π → Prop} {a : α} (hw : w.Guarded) (h : Q a w) :
    Keeps Q (pure a : Code ρ π α) w := ⟨hw, h⟩

theorem keeps_bind {Q : α → World ρ π → Prop} {Q' : β → World ρ π → Prop} {c : Code ρ π α}
    {k : α → Code ρ π β} (h : Keeps Q c w)
    (hk : ∀ a t, World.Onward w t → t.Guarded → Q a t → Keeps Q' (k a) t) :
    Keeps Q' (c >>= k) w := by
  have honward : ∀ s t, World.Onward s t → World.Onward w s → World.Onward w t :=
    fun s t hst hws => hws.trans hst
  have hframe := honours_frame honward honward h (World.onward_refl w)
  exact honours_bind (honours_mono (fun a t ha => hk a t ha.2 ha.1.1 ha.1.2) (fun _ _ he => he.1)
    hframe)

theorem keeps_catch {Q : α → World ρ π → Prop} {body handler : Code ρ π α} (h : Keeps Q body w)
    (hh : ∀ t, t.Guarded → Keeps Q handler t) : Keeps Q (catchException body handler) w := by
  apply honours_tryCatch
  refine honours_mono (fun _ _ hq => hq) (fun e t ht => ?_) h
  by_cases he : e = .cancelled
  · rw [if_pos he]
    exact ht
  · rw [if_neg he]
    exact hh t ht

theorem keeps_update {f : World ρ π → World ρ π} (hw : w.Guarded) (h : World.Onward w (f w)) :
    Keeps (fun _ _ => True) (update f) w := ⟨h, h.guarded hw, trivial⟩

/-- A command, by what it does and by what stays true of its answer. -/
theorem keeps_roundTrip {Q : α → World ρ π → Prop} (hw : w.Guarded)
    {f : World ρ π → Reply ρ → Option (Except CacheExn α × World ρ π)}
    (hok : ∀ t, World.Onward w t → t.Guarded → ∀ r a u, f t r = some (.ok a, u) →
      World.Onward t u ∧ ∀ v, World.Onward u v → Q a v)
    (herror : ∀ t, World.Onward w t → t.Guarded → ∀ r e u, f t r = some (.error e, u) →
      World.Onward t u) : Keeps Q (roundTrip f) w := by
  refine honours_roundTrip World.onward_refl (fun t ht r a u hu => ?_) fun t ht r e u hu => ?_
  · obtain ⟨hG, hQ⟩ := hok t ht (ht.guarded hw) r a u hu
    have hu' := hG.guarded (ht.guarded hw)
    exact ⟨hG, fun v hv => ⟨hv.guarded hu', hv.guarded hu', hQ v hv⟩⟩
  · have hG := herror t ht (ht.guarded hw) r e u hu
    exact ⟨hG, hG.guarded (ht.guarded hw)⟩

theorem keeps_call {Q : α → World ρ π → Prop} (hw : w.Guarded)
    {f : World ρ π → Reply ρ → Option (Except CacheExn α × World ρ π)}
    (h : ∀ t, t.Guarded → ∀ r a u, f t r = some (a, u) →
      World.Onward t u ∧ ∀ b, a = .ok b → Q b u) : Keeps Q (call f) w := by
  refine honours_call (fun t ht r a u hu => ?_) fun t ht r e u hu => ?_
  · obtain ⟨hG, hQ⟩ := h t (ht.guarded hw) r _ u hu
    exact ⟨hG, hG.guarded (ht.guarded hw), hQ a rfl⟩
  · obtain ⟨hG, -⟩ := h t (ht.guarded hw) r _ u hu
    exact ⟨hG, hG.guarded (ht.guarded hw)⟩

/-- A listing that failed has no keys; whether it is noted depends on who asked. -/
theorem keeps_listObjectKeys (hw : w.Guarded) (caller : ListCaller) (p : S3Key) :
    Keeps (fun keys t => (caller ≠ .recentWarmUp → t.Trusts keys.origin) ∧
      (keys.origin.failed = true → keys.value = [])) (listObjectKeys caller p) w := by
  refine keeps_bind (Q := fun keys _ => keys.origin.failed = true → keys.value = [])
    (keeps_roundTrip hw (fun t _ _ r a u hu => ?_) fun t _ _ r e u hu => ?_) fun keys t _ ht hempty => ?_
  · cases r with
    | ok =>
      cases hu
      exact ⟨World.onward_refl t, fun _ _ hf => by cases hf⟩
    | failed landed =>
      cases hu
      exact ⟨World.onward_refl t, fun _ _ _ => rfl⟩
    | raised | cancelled | observations => cases hu
  · cases r <;> cases hu
    · exact World.onward_refl t
    · exact World.onward_refl t
  · by_cases hfailed : keys.origin.failed = true
    · rw [if_pos hfailed]
      have hnote : World.Onward t (t.noteFailedList caller) :=
        World.onward_frame rfl rfl rfl (List.suffix_cons _ _)
      refine ⟨hnote, hnote.guarded ht, fun hcaller hn => ?_, hempty⟩
      cases caller with
      | reader => exact absurd List.mem_cons_self hn.1
      | tilesetsWarmUp => exact absurd List.mem_cons_self hn.2
      | recentWarmUp => exact absurd rfl hcaller
    · rw [if_neg hfailed]
      exact keeps_pure ht ⟨fun _ _ => by simpa using hfailed, hempty⟩

theorem keeps_downloadTile (hw : w.Guarded) (key : S3Key) :
    Keeps (fun _ _ => True) (downloadTile key) w := by
  refine keeps_roundTrip hw (fun t _ _ r a u hu => ⟨?_, fun _ _ => trivial⟩) fun t _ _ r e u hu => ?_
  · cases r <;> cases hu <;> exact World.onward_refl t
  · cases r <;> cases hu <;> exact World.onward_refl t

theorem keeps_uploadTile (hw : w.Guarded) (key : S3Key) (object : S3Object ρ) :
    Keeps (fun _ _ => True) (uploadTile key object) w := by
  have hput (t : World ρ π) : World.Onward t (t.putObject key object) :=
    World.onward_frame rfl rfl rfl (List.suffix_refl _)
  refine keeps_roundTrip hw (fun t _ _ r a u hu => ⟨?_, fun _ _ => trivial⟩) fun t _ _ r e u hu => ?_
  · cases r <;> cases hu
    exact hput t
  · cases r with
    | failed landed =>
      cases hu
      cases landed with
      | true => exact hput t
      | false => exact World.onward_refl t
    | cancelled =>
      cases hu
      exact World.onward_refl t
    | ok | raised | observations => cases hu

/-- What is read from a key that holds listings was made from one that did not fail. -/
theorem keeps_cacheGet (hw : w.Guarded) (key : CacheKey) :
    Keeps (fun a t => ∀ v, a = some v → key.listed = true → t.Trusts v.origin)
      (cacheGet cfg key) w := by
  unfold cacheGet
  by_cases hc : cfg.cacheEnabled = true
  · rw [if_pos hc]
    refine keeps_roundTrip hw (fun t _ ht r a u hu => ?_) fun t _ _ r e u hu => ?_
    · cases r with
      | ok =>
        cases hu
        refine ⟨World.onward_refl t, fun v hv x hx hlisted => ?_⟩
        obtain ⟨slot, hslot, rfl⟩ := Option.map_eq_some_iff.mp hx
        have htrust : t.Trusts slot.origin := fun hn => (ht hn).redis key slot hlisted hslot
        exact htrust.onward hv
      | failed landed =>
        cases hu
        exact ⟨World.onward_refl t, fun v hv x hx => by cases hx⟩
      | raised | cancelled | observations => cases hu
    · cases r <;> cases hu
      exact World.onward_refl t
  · rw [if_neg hc]
    exact keeps_pure hw fun v hv => by cases hv

theorem keeps_redisSet (hw : w.Guarded) (key : CacheKey) {v : Sourced (CacheValue ρ π)}
    (hv : key.listed = true → w.Trusts v.origin) :
    Keeps (fun _ _ => True) (redisSet cfg key v) w := by
  unfold redisSet
  have hset (t : World ρ π) (hwt : World.Onward w t) : World.Onward t (t.setRedis key v) :=
    ⟨List.suffix_refl _, fun ht => ht.setRedis fun hlisted => (hv hlisted).onward hwt⟩
  by_cases hc : cfg.cacheEnabled = true
  · rw [if_pos hc]
    refine keeps_bind (Q := fun _ _ => True) (keeps_roundTrip hw (fun t hwt _ r a u hu =>
      ⟨?_, fun _ _ => trivial⟩) fun t _ _ r e u hu => ?_) fun done t _ ht _ => ?_
    · cases r with
      | ok =>
        cases hu
        exact hset t hwt
      | failed landed =>
        cases hu
        cases landed with
        | true => exact hset t hwt
        | false => exact World.onward_refl t
      | raised | cancelled | observations => cases hu
    · cases r <;> cases hu
      exact World.onward_refl t
    · cases done with
      | true => exact keeps_update ht (World.onward_frame rfl rfl rfl (List.suffix_refl _))
      | false => exact keeps_pure ht trivial
  · rw [if_neg hc]
    exact keeps_pure hw trivial

theorem keeps_cacheSetBg (hw : w.Guarded) (key : CacheKey) {v : Sourced (CacheValue ρ π)}
    (hv : key.listed = true → w.Trusts v.origin) :
    Keeps (fun _ _ => True) (cacheSetBg cfg key v) w := by
  unfold cacheSetBg
  by_cases hc : cfg.cacheEnabled = true
  · rw [if_pos hc]
    exact keeps_update hw ⟨List.suffix_refl _, fun h => h.addWriteBack hv⟩
  · rw [if_neg hc]
    exact keeps_pure hw trivial

theorem keeps_look (hw : w.Guarded) (f : World ρ π → α) :
    Keeps (fun a t => a = f t) (look f) w := ⟨World.onward_refl w, hw, rfl⟩

theorem keeps_gatherEach {f : α → Code ρ π β} (hf : ∀ a t, t.Guarded → Keeps (fun _ _ => True) (f a) t)
    (hw : w.Guarded) (l : List α) : Keeps (fun _ _ => True) (gatherEach f l) w := by
  induction l generalizing w with
  | nil => exact keeps_pure hw trivial
  | cons a l ih =>
    refine keeps_bind (hf a w hw) fun b t _ ht _ => ?_
    exact keeps_bind (ih ht) fun bs u _ hu _ => keeps_pure hu trivial

end Commands

end DataService.WeatherCache
