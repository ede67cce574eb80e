import DataService.WeatherStations.CacheOrder

/-! No request and no cycle disturbs the order of the writes by itself. -/

namespace DataService.WeatherCache

open Coroutine Coro HourBuckets Raising Series UtcDateTime

variable {ρ π : Type}

section Requests

open DataService.WeatherCache.World

variable {cfg : CacheConfig ρ π} {α β : Type}

theorem within_pure (a : α) : (pure a : Code ρ π α).Within Aside := trivial

theorem within_look (f : World ρ π → α) : (look f : Code ρ π α).Within Aside :=
  ⟨fun w => aside_refl w, fun _ => trivial⟩

theorem within_update {f : World ρ π → World ρ π} (h : ∀ w, Aside w (f w)) :
    (update f : Code ρ π Unit).Within Aside := ⟨h, fun _ => trivial⟩

theorem within_downloadTile (key : S3Key) : (downloadTile key : Code ρ π _).Within Aside := by
  refine within_roundTrip aside_refl fun s r x t ht => ?_
  cases r <;> cases ht <;> exact aside_refl s

theorem within_cacheGet (key : CacheKey) : (cacheGet cfg key).Within Aside := by
  unfold cacheGet
  by_cases hc : cfg.cacheEnabled = true
  · rw [if_pos hc]
    refine within_roundTrip aside_refl fun s r x t ht => ?_
    cases r <;> cases ht <;> exact aside_refl s
  · rw [if_neg hc]
    exact within_pure none

theorem within_cacheSetBg {key : CacheKey} (hkey : key ≠ .latest) (v : Sourced (CacheValue ρ π)) :
    (cacheSetBg cfg key v).Within Aside := by
  unfold cacheSetBg
  by_cases hc : cfg.cacheEnabled = true
  · rw [if_pos hc]
    exact within_update fun w => aside_writeBack w fun h => absurd h hkey
  · rw [if_neg hc]
    exact within_pure ()

theorem within_listObjectKeys (caller : ListCaller) (p : S3Key) :
    (listObjectKeys caller p : Code ρ π _).Within Aside := by
  refine within_bind (within_roundTrip aside_refl fun s r x t ht => ?_) fun keys => ?_
  · cases r <;> cases ht <;> exact aside_refl s
  · by_cases hfailed : keys.origin.failed = true
    · rw [if_pos hfailed]
      exact within_bind (within_update fun w => aside_frame rfl rfl rfl rfl rfl) fun _ =>
        within_pure keys
    · rw [if_neg hfailed]
      exact within_pure keys

theorem within_acquireListLock (worker : Nat) :
    (acquireListLock worker : Code ρ π Unit).Within Aside := by
  refine within_call fun s r x t ht => ?_
  cases r with
  | ok =>
    by_cases hlocked : worker ∈ s.listLocks
    · simp [hlocked] at ht
    · simp only [hlocked, if_false, Option.some.injEq, Prod.mk.injEq] at ht
      obtain ⟨-, rfl⟩ := ht
      exact aside_frame rfl rfl rfl rfl rfl
  | cancelled =>
    cases ht
    exact aside_refl s
  | failed landed | raised | observations => cases ht

theorem within_cachedList (worker : Nat) (p : S3Key) : (cachedList cfg worker p).Within Aside := by
  refine within_bind (within_look _) fun fresh => ?_
  cases fresh with
  | some keys => exact within_pure keys
  | none =>
    refine within_bind (within_acquireListLock worker) fun _ => within_tryFinally ?_ ?_
    · refine within_bind (within_look _) fun fresh => ?_
      cases fresh with
      | some keys => exact within_pure keys
      | none =>
        refine within_bind (within_listObjectKeys .reader p) fun keys => ?_
        exact within_bind (within_update fun w => aside_frame rfl rfl rfl rfl rfl) fun _ =>
          within_pure keys
    · exact within_update fun w => aside_frame rfl rfl rfl rfl rfl

theorem within_gatherEach {f : α → Code ρ π β} (hf : ∀ a, (f a).Within Aside) (l : List α) :
    (gatherEach f l).Within Aside := by
  induction l with
  | nil => exact within_pure []
  | cons a l ih => exact within_bind (hf a) fun b => within_bind ih fun bs => within_pure (b :: bs)

theorem within_getCachedObject {cacheKey : CacheKey} (hkey : cacheKey ≠ .latest) (key : S3Key) :
    (getCachedObject cfg cacheKey key).Within Aside := by
  refine within_bind (within_cacheGet cacheKey) fun cached => ?_
  cases asSnapshot cached with
  | some body => exact within_pure (some body)
  | none =>
    refine within_bind (within_downloadTile key) fun object => ?_
    cases asBody object with
    | none => exact within_pure none
    | some body => exact within_bind (within_cacheSetBg hkey _) fun _ => within_pure (some body)

theorem within_getSnapshotBody (key : S3Key) : (getSnapshotBody cfg key).Within Aside :=
  within_getCachedObject (by simp) key

theorem within_readCounts (keys : List S3Key) :
    (gatherEach (readStationCount (ρ := ρ) (π := π)) keys).Within Aside :=
  within_gatherEach (fun _ => within_bind (within_downloadTile _) fun _ => within_pure _) keys

theorem within_listTilesets (worker : Nat) : (listTilesets cfg worker).Within Aside := by
  refine within_bind (within_cacheGet .tilesets) fun cached => ?_
  cases asEntries cached with
  | some entries => exact within_pure entries
  | none =>
    refine within_bind (within_cachedList worker snapshotsPrefix) fun keys => ?_
    refine within_bind (within_bind (within_readCounts _) fun _ => within_pure _) fun entries => ?_
    exact within_bind (within_cacheSetBg (by decide) _) fun _ => within_pure entries

theorem within_stationSeriesPoints (worker : Nat) (stationId : Int) (hours : Nat) :
    (stationSeriesPoints cfg worker stationId hours).Within Aside := by
  refine within_bind (within_cacheGet (.series stationId)) fun cached => ?_
  cases asPoints cached with
  | some points => exact within_pure points
  | none =>
    refine within_bind (within_cachedList worker snapshotsPrefix) fun keys => ?_
    refine within_bind (within_gatherEach (within_getSnapshotBody) _) fun bodies => ?_
    cases seriesOf cfg stationId bodies with
    | error _ => trivial
    | ok points => exact within_bind (within_cacheSetBg (by simp) _) fun _ => within_pure _

theorem within_getSnapshotForTileset (worker : Nat) (tilesetId : List Char) :
    (getSnapshotForTileset cfg worker tilesetId).Within Aside := by
  unfold getSnapshotForTileset
  cases parseTilesetId cfg.digits tilesetId with
  | none => trivial
  | some target =>
    dsimp only
    cases dayPrefixesCovering target target with
    | none => trivial
    | some prefixes =>
      have hlist (p : S3Key) : (listUnder cfg worker p).Within Aside :=
        within_bind (within_cachedList worker p) fun _ => within_pure _
      refine within_bind (within_gatherEach hlist prefixes) fun listed => ?_
      cases resolveBucketSnapshotKey cfg.digits (fun p => (listed.lookup p).getD []) target with
      | none => trivial
      | some found =>
        cases found with
        | none => exact within_pure none
        | some key => exact within_getSnapshotBody key

/-- An answer to a latest-snapshot request is no older than those given before it came. -/
structure Answer.Recent (arrived : Nat) (request : ReadRequest) (answer : Answer ρ π)
    (w : World ρ π) : Prop where
  past : arrived ≤ w.history.log.length
  dated : request = .latest → ∀ body, answer = .snapshot (some body) →
    Dated w.history.log body.origin.moment body.value.scrapedAt.stamp
  former : request = .latest → ∀ body, answer = .snapshot (some body) → ∀ former,
    .returned former ∈ w.history.log.take arrived → former.stamp ≤ body.value.scrapedAt.stamp

theorem Answer.Recent.later {arrived : Nat} {request : ReadRequest} {answer : Answer ρ π}
    {s t : World ρ π} (h : answer.Recent arrived request s) (hst : Later s t) :
    answer.Recent arrived request t := by
  refine ⟨h.past.trans hst.log.length_le, fun hrequest body hbody => ?_, fun hrequest body hbody => ?_⟩
  · exact (h.dated hrequest body hbody).later hst.log
  · rw [take_later hst.log h.past]
    exact h.former hrequest body hbody

theorem steady_serve (cfg : CacheConfig ρ π) {w : World ρ π} (hw : w.Ordered) (worker : Nat)
    (request : ReadRequest) :
    Steady Later (Answer.Recent w.history.moment request) (serve cfg worker request) w := by
  have hother {c : Code ρ π (Answer ρ π)} (hc : c.Within Aside) (hrequest : request ≠ .latest) :
      Steady Later (Answer.Recent w.history.moment request) c w := by
    have hframe := honours_frame (P := Later w) (fun s t hst hws => hws.trans hst)
      (fun s t hst hws => hws.trans hst.toLater) (hc.honours w) (later_refl w)
    refine honours_mono (fun answer t ht => ?_) (fun _ _ _ => trivial) hframe
    exact ⟨ht.2.log.length_le, fun h => absurd h hrequest, fun h => absurd h hrequest⟩
  cases request with
  | latest =>
    refine steady_bind rely_later (steady_getLatestSnapshot hw) fun found t hwt hfound => ?_
    refine steady_pure ⟨hwt.log.length_le, fun _ body hbody => ?_, fun _ body hbody former hformer => ?_⟩
    · cases hbody
      exact (hfound body rfl).1
    · cases hbody
      have hseen := take_later hwt.log le_rfl ▸ hformer
      exact (hfound body rfl).2 former (List.mem_of_mem_take hseen)
  | tilesets => exact hother (within_bind (within_listTilesets worker) fun _ => within_pure _) (by decide)
  | series stationId hours =>
    exact hother (within_bind (within_stationSeriesPoints worker stationId hours) fun _ =>
      within_pure _) (by simp)
  | tileset tilesetId =>
    exact hother (within_bind (within_getSnapshotForTileset worker tilesetId) fun _ =>
      within_pure _) (by simp)

end Requests

section Scraper

open DataService.WeatherCache.World

variable {cfg : CacheConfig ρ π} {w : World ρ π}

/-- A write-through of what was made of the state that S3 is in. -/
theorem steady_redisSet {key : CacheKey} {v : Sourced (CacheValue ρ π)}
    (hcurrent : v.origin.Current w.history.log)
    (hlatest : key = .latest → ∀ body, v.value = .snapshot body →
      w.bucket.lookup latestObject = some (.snapshot body) ∧
        Dated w.history.log v.origin.moment body.scrapedAt.stamp) :
    Steady Aside (fun _ _ => True) (redisSet cfg key v) w := by
  unfold redisSet
  have hset (t : World ρ π) (hwt : Aside w t) : Aside t (t.setRedis key v) := by
    refine aside_setRedis t (hcurrent.later hwt.log hwt.uploads) fun hkey body hbody => ?_
    obtain ⟨hlookup, hdated⟩ := hlatest hkey body hbody
    exact ⟨hwt.kept.trans hlookup, hdated.later hwt.log⟩
  have hnote (t : World ρ π) (hwt : Aside w t) :
      Aside t (t.noteWriteThrough key v.origin.moment) := by
    refine aside_note t rfl ?_
    have hpast := hcurrent.past.trans hwt.log.length_le
    exact
      { completed := fun _ _ h => (Event.wroteThrough.inj h).2 ▸ hpast
        returned := fun _ h => by cases h
        former := fun _ h => by cases h
        cached := fun _ h => by cases h }
  by_cases hc : cfg.cacheEnabled = true
  · rw [if_pos hc]
    refine steady_bind rely_aside (Q := fun _ _ => True)
      (steady_roundTrip (fun t hwt r a u hu => ⟨?_, fun _ _ => trivial⟩) fun t _ r e u hu => ?_)
      fun done t hwt _ => ?_
    · cases r with
      | ok =>
        cases hu
        exact hset t hwt
      | failed landed =>
        cases hu
        cases landed with
        | true => exact hset t hwt
        | false => exact aside_refl t
      | raised | cancelled | observations => cases hu
    · cases r <;> cases hu
      exact aside_refl t
    · cases done with
      | true => exact steady_update (hnote t hwt)
      | false => exact steady_pure trivial
  · rw [if_neg hc]
    exact steady_pure trivial

theorem steady_listObjectKeys (caller : ListCaller) (p : S3Key) :
    Steady Aside (fun keys t => keys.origin.Current t.history.log)
      (listObjectKeys caller p) w := by
  refine steady_bind rely_aside (Q := fun keys t => keys.origin.Current t.history.log)
    (steady_roundTrip (fun t _ r a u hu => ?_) fun t _ r e u hu => ?_) fun keys t _ hkeys => ?_
  · cases r with
    | ok | failed =>
      cases hu
      exact ⟨aside_refl t, fun v hv => (current_now _).later hv.log hv.uploads⟩
    | raised | cancelled | observations => cases hu
  · cases r <;> cases hu
    · exact aside_refl t
    · exact aside_refl t
  · by_cases hfailed : keys.origin.failed = true
    · rw [if_pos hfailed]
      exact ⟨aside_frame rfl rfl rfl rfl rfl, hkeys⟩
    · rw [if_neg hfailed]
      exact steady_pure hkeys

theorem steady_warmObservationCache (cfg : CacheConfig ρ π) (hw : w.Ordered) {body : Body ρ}
    (hbody : w.bucket.lookup latestObject = some (.snapshot body)) :
    Steady Aside (fun _ _ => True) (warmObservationCache cfg body) w := by
  unfold warmObservationCache
  by_cases hc : cfg.cacheEnabled = true
  · rw [if_pos hc]
    have hlook : Steady Aside (fun n t => n = t.history.moment)
        (look (·.history.moment) : Code ρ π Nat) w := ⟨aside_refl w, rfl⟩
    refine steady_bind rely_aside hlook fun moment t hwt hmoment => ?_
    subst hmoment
    have hlookup := hwt.kept.trans hbody
    have hlatest : Steady Aside (fun _ _ => True)
        (redisSet cfg .latest ⟨.snapshot body, ⟨t.history.moment, false⟩⟩) t := by
      refine steady_redisSet (current_now false) ?_
      rintro - _ ⟨⟩
      exact ⟨hlookup, (hwt.ordered hw).latest body hlookup⟩
    refine steady_bind rely_aside hlatest fun _ u _ _ => ?_
    have hentries : Steady Aside (fun l v => ∀ entries : Sourced (List TilesetEntry),
        l = some entries → entries.origin.Current v.history.log) (catchException (do
          let keys ← listObjectKeys .tilesetsWarmUp snapshotsPrefix
          let entries ← computeEntries cfg keys
          pure (some entries)) (pure none)) u := by
      refine steady_catch ?_ fun x => steady_pure fun _ h => by cases h
      refine steady_bind rely_aside (steady_listObjectKeys _ _) fun keys x _ hkeys => ?_
      have hcompute : Steady Aside (fun l _ => l.origin = keys.origin) (computeEntries cfg keys) x :=
        steady_bind rely_aside ((within_readCounts _).honours x) fun _ _ _ _ => steady_pure rfl
      refine steady_bind rely_aside hcompute fun entries y hxy horigin => steady_pure ?_
      rintro _ ⟨⟩
      rw [horigin]
      exact hkeys.later hxy.log hxy.uploads
    refine steady_bind rely_aside hentries fun l v _ hl => ?_
    cases l with
    | none => exact steady_pure trivial
    | some entries => exact steady_redisSet (hl entries rfl) fun h => by cases h
  · rw [if_neg hc]
    exact steady_pure trivial

theorem steady_warmBodies (index : Nat) (keys : List S3Key) :
    Steady Aside (fun _ _ => True) (warmBodies cfg index keys) w := by
  induction keys generalizing w index with
  | nil => exact steady_pure trivial
  | cons key keys ih =>
    have hdownload : Steady Aside (fun a t => ∀ object, a = some object →
        object.origin.Current t.history.log) (catchException (downloadTile key) (pure none)) w := by
      refine steady_catch ?_ fun t => steady_pure fun _ h => by cases h
      refine honours_mono (fun a t ha object hobject => ?_) (fun _ _ _ => trivial)
        (steady_downloadTile key)
      obtain ⟨v, -, hvt, -, horigin⟩ := ha object hobject
      rw [horigin]
      exact (current_now false).later hvt.log hvt.uploads
    refine steady_bind rely_aside hdownload fun object t _ hobject => ?_
    cases hbody : asBody object with
    | none => exact ih (index + 1)
    | some body =>
      have hrest (u : World ρ π) : Steady Aside (fun _ _ => True) (do
          let bodies ← warmBodies cfg (index + 1) keys
          pure (body.value :: bodies)) u :=
        steady_bind rely_aside (ih (index + 1)) fun _ _ _ _ => steady_pure trivial
      dsimp only
      by_cases hindex : index < cfg.animationWarmBuckets
      · rw [if_pos hindex]
        have hset : Steady Aside (fun _ _ => True)
            (redisSet cfg (.snapBody key) (body.map .snapshot)) t :=
          steady_redisSet (hobject _ (asBody_some hbody)) fun h => by cases h
        exact steady_bind rely_aside hset fun _ u _ _ => hrest u
      · rw [if_neg hindex]
        exact hrest t

theorem steady_warmEach {origin : Origin} (hcurrent : origin.Current w.history.log)
    (series : List (Int × List (Point π))) :
    Steady Aside (fun _ _ => True) (warmEach cfg origin series) w := by
  induction series generalizing w with
  | nil => exact steady_pure trivial
  | cons p series ih =>
    have hset : Steady Aside (fun _ _ => True)
        (redisSet cfg (.series p.1) ⟨.points p.2, origin⟩) w :=
      steady_redisSet hcurrent fun h => by cases h
    exact steady_bind rely_aside hset fun _ t hwt _ => ih (hcurrent.later hwt.log hwt.uploads)

theorem steady_warmStationSeries {origin : Origin} (hcurrent : origin.Current w.history.log)
    (bodies : List (Body ρ)) :
    Steady Aside (fun _ _ => True) (warmStationSeries cfg origin bodies) w := by
  unfold warmStationSeries
  by_cases hskip : cfg.cacheEnabled = false ∨ cfg.seriesHours = 0 ∨ bodies.isEmpty
  · rw [if_pos hskip]
    exact steady_pure trivial
  · rw [if_neg hskip]
    cases cfg.code.pivotStationSeries ((bodies.take cfg.seriesHours).map (·.stations)) with
    | error _ => trivial
    | ok series => exact steady_warmEach hcurrent series

theorem steady_warmRecentSnapshotBodies (cfg : CacheConfig ρ π) (w : World ρ π) :
    Steady Aside (fun _ _ => True) (warmRecentSnapshotBodies cfg) w := by
  unfold warmRecentSnapshotBodies
  by_cases hskip : cfg.cacheEnabled = false ∨ warmWindow cfg = 0
  · rw [if_pos hskip]
    exact steady_pure trivial
  · rw [if_neg hskip]
    have hlist : Steady Aside (fun l t => ∀ keys : Sourced (List S3Key), l = some keys →
        keys.origin.Current t.history.log) (catchException (do
          let keys ← listObjectKeys .recentWarmUp snapshotsPrefix
          pure (some keys)) (pure none)) w := by
      refine steady_catch ?_ fun x => steady_pure fun _ h => by cases h
      refine steady_bind rely_aside (steady_listObjectKeys _ _) fun keys x _ hkeys => steady_pure ?_
      rintro _ ⟨⟩
      exact hkeys
    refine steady_bind rely_aside hlist fun l t _ hl => ?_
    cases l with
    | none => exact steady_pure trivial
    | some keys =>
      refine steady_bind rely_aside (steady_warmBodies 0 _) fun bodies u htu _ => ?_
      exact steady_warmStationSeries ((hl keys rfl).later htu.log htu.uploads) bodies

theorem honours_uploadOther {key : S3Key} (hkey : latestObject ≠ key) (object : S3Object ρ) :
    (uploadTile key object).Honours Aside Clear (fun _ _ => True) (fun _ _ => True) w := by
  refine honours_roundTrip clear_refl (fun t _ r a u hu => ⟨?_, fun _ _ => ⟨trivial, trivial⟩⟩)
    fun t _ r e u hu => ⟨?_, trivial⟩
  · cases r <;> cases hu
    exact clear_putObject t hkey object
  · cases r with
    | failed landed =>
      cases hu
      cases landed with
      | true => exact clear_putObject t hkey object
      | false => exact clear_refl t
    | cancelled =>
      cases hu
      exact clear_refl t
    | ok | raised | observations => cases hu

theorem honours_uploadLatest {body : Body ρ}
    (hle : ∀ stamp, .uploaded latestObject stamp ∈ w.history.log → stamp ≤ body.scrapedAt.stamp)
    (hnow : body.scrapedAt.stamp ≤ w.now.stamp) :
    (uploadTile latestObject (.snapshot body)).Honours Aside Later
      (fun _ t => t.bucket.lookup latestObject = some (.snapshot body)) (fun _ _ => True) w := by
  have hput (t : World ρ π) (hwt : Aside w t) : Later t (t.putObject latestObject (.snapshot body)) :=
    later_putLatest t (fun stamp hstamp => hle stamp (hwt.stamps stamp hstamp)) (hnow.trans hwt.clock)
  refine honours_roundTrip later_refl (fun t hwt r a u hu => ?_) fun t hwt r e u hu => ⟨?_, trivial⟩
  · cases r <;> cases hu
    have hkept : (t.bucket.insert latestObject (.snapshot body)).lookup latestObject =
        some (.snapshot body) := AList.lookup_insert t.bucket
    exact ⟨hput t hwt, fun v hv => ⟨trivial, hv.kept.trans hkept⟩⟩
  · cases r with
    | failed landed =>
      cases hu
      cases landed with
      | true => exact hput t hwt
      | false => exact later_refl t
    | cancelled =>
      cases hu
      exact later_refl t
    | ok | raised | observations => cases hu

theorem latestObject_ne_snapshotKey (t : DateTime) : latestObject ≠ snapshotKey t := by
  intro h
  have hstart := snapshotsPrefix_prefix t
  rw [← h] at hstart
  exact absurd hstart (by decide)

theorem latestObject_ne_snapshotMetaKey (key : S3Key) : latestObject ≠ snapshotMetaKey key := by
  intro h
  have hsuffix : snapshotMetaSuffix <:+ snapshotMetaKey key := List.suffix_append _ _
  rw [← h] at hsuffix
  exact absurd hsuffix (by decide)

theorem honours_uploadSnapshot {body : Body ρ}
    (hle : ∀ stamp, .uploaded latestObject stamp ∈ w.history.log → stamp ≤ body.scrapedAt.stamp)
    (hnow : body.scrapedAt.stamp ≤ w.now.stamp) :
    (uploadSnapshot body).Honours Aside Later
      (fun _ t => t.bucket.lookup latestObject = some (.snapshot body)) (fun _ _ => True) w := by
  -- neither of the first two objects is latest.json
  have hother {key : S3Key} (hkey : latestObject ≠ key) (object : S3Object ρ) (t : World ρ π)
      (hwt : Clear w t) : (uploadTile key object).Honours Aside Later
        (fun _ u => Clear w u) (fun _ _ => True) t := by
    have hframe := honours_frame (P := Clear w) (fun s u hsu hws => hws.trans hsu.toClear)
      (fun s u hsu hws => hws.trans hsu) (honours_uploadOther hkey object) hwt
    exact honours_weaken (fun _ _ h => h.toLater)
      (honours_mono (fun _ _ h => h.2) (fun _ _ _ => trivial) hframe)
  have hsnapshot := hother (latestObject_ne_snapshotKey body.scrapedAt) (.snapshot body) w
    (clear_refl w)
  refine honours_bind (honours_mono (fun _ t hwt => ?_) (fun _ _ h => h) hsnapshot)
  have hmeta := hother (latestObject_ne_snapshotMetaKey (snapshotKey body.scrapedAt))
    (.info body.stations.length) t hwt
  refine honours_bind (honours_mono (fun _ u hwu => ?_) (fun _ _ h => h) hmeta)
  exact honours_uploadLatest (fun stamp hstamp => hle stamp (hwu.stamps stamp hstamp))
    (hnow.trans hwu.clock)

theorem honours_runSync (cfg : CacheConfig ρ π) (hw : w.Ordered) :
    (runSync cfg).Honours Aside Later (fun _ _ => True) (fun _ _ => True) w := by
  have hfetch : (fetchObservations : Code ρ π _).Honours Aside Later (fun _ t => t.Ordered)
      (fun _ _ => True) w := by
    refine honours_call (fun t hwt r a u hu => ?_) fun t _ r e u hu => ⟨?_, trivial⟩
    · cases r <;> cases hu <;> exact ⟨later_refl t, hwt.ordered hw⟩
    · cases r <;> cases hu <;> exact later_refl t
  refine honours_bind (honours_mono (fun stations t ht => ?_) (fun _ _ h => h) hfetch)
  cases stations with
  | none => trivial
  | some stations =>
    have hupload : (catchException (do
        uploadSnapshot ⟨t.now, stations⟩
        pure true) (pure false)).Honours Aside Later (fun uploaded u => uploaded = true →
          u.bucket.lookup latestObject = some (.snapshot ⟨t.now, stations⟩)) (fun _ _ => True) t := by
      apply honours_tryCatch
      refine honours_mono (fun _ _ h => h) (fun e u _ => ?_) (honours_bind
        (honours_mono (fun _ u hu _ => hu) (fun _ _ h => h) (honours_uploadSnapshot ht.clock le_rfl)))
      by_cases he : e = .cancelled
      · rw [if_pos he]
        trivial
      · rw [if_neg he]
        exact fun h => by cases h
    have hlook : (look (·.now) : Code ρ π DateTime).Honours Aside Later
        (fun a u => a = t.now ∧ u = t) (fun _ _ => True) t := ⟨later_refl t, rfl, rfl⟩
    refine honours_bind (honours_mono ?_ (fun _ _ h => h) hlook)
    rintro _ v ⟨rfl, rfl⟩
    have hframe := honours_frame (P := Later v) (fun s u hsu hts => hts.trans hsu.toLater)
      (fun s u hsu hts => hts.trans hsu) hupload (later_refl v)
    refine honours_bind (honours_mono (fun uploaded u hu => ?_) (fun _ _ _ => trivial) hframe)
    cases uploaded with
    | false => trivial
    | true =>
      have hu' := hu.2.ordered ht
      have hwarm := steady_bind rely_aside (steady_warmObservationCache cfg hu' (hu.1 rfl))
        fun _ x _ _ => steady_warmRecentSnapshotBodies cfg x
      exact honours_weaken (fun _ _ h => h.toLater) hwarm

end Scraper

end DataService.WeatherCache
