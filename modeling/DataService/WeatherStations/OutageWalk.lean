import DataService.WeatherStations.ListingOutage

/-! The requests and the cycle of the scraper, LIST by LIST. -/

namespace DataService.WeatherCache

open Coroutine Coro HourBuckets Raising Series UtcDateTime

variable {ρ π : Type}

section Reader

variable {cfg : CacheConfig ρ π} {w : World ρ π}

theorem keeps_acquireListLock (hw : w.Guarded) (worker : Nat) :
    Keeps (fun _ _ => True) (acquireListLock worker) w := by
  refine keeps_call hw fun t ht r a u hu => ⟨?_, fun _ _ => trivial⟩
  cases r with
  | ok =>
    by_cases hlocked : worker ∈ t.listLocks
    · simp [hlocked] at hu
    · simp only [hlocked, if_false, Option.some.injEq, Prod.mk.injEq] at hu
      obtain ⟨-, rfl⟩ := hu
      exact World.onward_frame rfl rfl rfl (List.suffix_refl _)
  | cancelled =>
    cases hu
    exact World.onward_refl t
  | failed landed | raised | observations => cases hu

theorem keeps_releaseListLock (worker : Nat) {c : Code ρ π (Sourced (List S3Key))}
    (h : Keeps (fun keys t => t.Trusts keys.origin) c w) :
    Keeps (fun keys t => t.Trusts keys.origin) (tryFinally c (releaseListLock worker)) w := by
  have hrelease (v : World ρ π) : World.Onward v { v with listLocks := v.listLocks.erase worker } :=
    World.onward_frame rfl rfl rfl (List.suffix_refl _)
  apply honours_tryFinally
  refine honours_mono (fun keys v hkeys => ?_) (fun _ v hv => ?_) h
  · exact ⟨hrelease v, (hrelease v).guarded hkeys.1, hkeys.2.onward (hrelease v)⟩
  · exact ⟨hrelease v, (hrelease v).guarded hv⟩

theorem keeps_cachedList (hw : w.Guarded) (worker : Nat) (p : S3Key) :
    Keeps (fun keys t => t.Trusts keys.origin) (cachedList cfg worker p) w := by
  refine keeps_bind (keeps_look hw _) fun fresh t _ ht hfresh => ?_
  cases fresh with
  | some keys => exact keeps_pure ht (ht.freshKeys hfresh.symm)
  | none =>
    refine keeps_bind (keeps_acquireListLock ht worker) fun _ u _ hu _ =>
      keeps_releaseListLock worker ?_
    refine keeps_bind (keeps_look hu _) fun fresh v _ hv hfresh => ?_
    cases fresh with
    | some keys => exact keeps_pure hv (hv.freshKeys hfresh.symm)
    | none =>
      refine keeps_bind (keeps_listObjectKeys hv .reader p) fun keys x _ hx hkeys => ?_
      have htrust : x.Trusts keys.origin := hkeys.1 (by decide)
      have hremember : World.Onward x (x.rememberKeys cfg.listCacheTtl worker p keys) :=
        ⟨List.suffix_refl _, fun hg => hg.rememberKeys htrust⟩
      exact keeps_bind (keeps_update hx hremember) fun _ y hxy hy _ =>
        keeps_pure hy (htrust.onward hxy)

theorem keeps_getCachedObject (hw : w.Guarded) {cacheKey : CacheKey} (hkey : cacheKey.listed = false)
    (key : S3Key) : Keeps (fun _ _ => True) (getCachedObject cfg cacheKey key) w := by
  refine keeps_bind (keeps_cacheGet hw cacheKey) fun cached t _ ht _ => ?_
  cases asSnapshot cached with
  | some body => exact keeps_pure ht trivial
  | none =>
    refine keeps_bind (keeps_downloadTile ht key) fun object u _ hu _ => ?_
    cases asBody object with
    | none => exact keeps_pure hu trivial
    | some body =>
      have hset : Keeps (fun _ _ => True) (cacheSetBg cfg cacheKey (body.map .snapshot)) u :=
        keeps_cacheSetBg hu cacheKey fun hlisted => absurd hlisted (by simp [hkey])
      exact keeps_bind hset fun _ v _ hv _ => keeps_pure hv trivial

theorem keeps_computeEntries (hw : w.Guarded) (keys : Sourced (List S3Key)) :
    Keeps (fun l _ => l.origin = keys.origin) (computeEntries cfg keys) w := by
  have hcount (key : S3Key) (t : World ρ π) (ht : t.Guarded) :
      Keeps (fun _ _ => True) (readStationCount key) t :=
    keeps_bind (keeps_downloadTile ht _) fun _ u _ hu _ => keeps_pure hu trivial
  exact keeps_bind (keeps_gatherEach hcount hw _) fun _ t _ ht _ => keeps_pure ht rfl

theorem keeps_listTilesets (hw : w.Guarded) (worker : Nat) :
    Keeps (fun l t => t.Trusts l.origin) (listTilesets cfg worker) w := by
  refine keeps_bind (keeps_cacheGet hw .tilesets) fun cached t _ ht hcached => ?_
  cases hentries : asEntries cached with
  | some entries =>
    exact keeps_pure ht (hcached _ (asEntries_some hentries) rfl)
  | none =>
    refine keeps_bind (keeps_cachedList ht worker snapshotsPrefix) fun keys u _ hu hkeys => ?_
    refine keeps_bind (keeps_computeEntries hu keys) fun entries v huv hv horigin => ?_
    have htrust : v.Trusts entries.origin := by
      rw [horigin]
      exact hkeys.onward huv
    exact keeps_bind (keeps_cacheSetBg hv .tilesets fun _ => htrust) fun _ x hvx hx _ =>
      keeps_pure hx (htrust.onward hvx)

theorem keeps_stationSeriesPoints (hw : w.Guarded) (worker : Nat) (stationId : Int) (hours : Nat) :
    Keeps (fun l t => t.Trusts l.origin) (stationSeriesPoints cfg worker stationId hours) w := by
  refine keeps_bind (keeps_cacheGet hw (.series stationId)) fun cached t _ ht hcached => ?_
  cases hpoints : asPoints cached with
  | some points =>
    exact keeps_pure ht (hcached _ (asPoints_some hpoints) rfl)
  | none =>
    refine keeps_bind (keeps_cachedList ht worker snapshotsPrefix) fun keys u _ hu hkeys => ?_
    have hbody (key : S3Key) (x : World ρ π) (hx : x.Guarded) :
        Keeps (fun _ _ => True) (getSnapshotBody cfg key) x := keeps_getCachedObject hx rfl key
    refine keeps_bind (keeps_gatherEach hbody hu _) fun bodies v huv hv _ => ?_
    have htrust := hkeys.onward huv
    cases seriesOf cfg stationId bodies with
    | error _ => exact hv
    | ok points =>
      exact keeps_bind (keeps_cacheSetBg hv (.series stationId) fun _ => htrust) fun _ x hvx hx _ =>
        keeps_pure hx (htrust.onward hvx)

theorem keeps_getSnapshotForTileset (hw : w.Guarded) (worker : Nat) (tilesetId : List Char) :
    Keeps (fun _ _ => True) (getSnapshotForTileset cfg worker tilesetId) w := by
  have hlist (p : S3Key) (t : World ρ π) (ht : t.Guarded) :
      Keeps (fun _ _ => True) (listUnder cfg worker p) t :=
    keeps_bind (keeps_cachedList ht worker p) fun _ u _ hu _ => keeps_pure hu trivial
  unfold getSnapshotForTileset
  cases parseTilesetId cfg.digits tilesetId with
  | none => exact hw
  | some target =>
    dsimp only
    cases dayPrefixesCovering target target with
    | none => exact hw
    | some prefixes =>
      refine keeps_bind (keeps_gatherEach hlist hw prefixes) fun listed t _ ht _ => ?_
      cases resolveBucketSnapshotKey cfg.digits (fun p => (listed.lookup p).getD []) target with
      | none => exact ht
      | some found =>
        cases found with
        | none => exact keeps_pure ht trivial
        | some key => exact keeps_getCachedObject ht rfl key

/-- Unless a listing has failed, an answer was not made from one that did. -/
def Answer.Trusted (answer : Answer ρ π) (w : World ρ π) : Prop :=
  NoneFailed w.history → answer.Clean

theorem keeps_serve (cfg : CacheConfig ρ π) (hw : w.Guarded) (worker : Nat) (request : ReadRequest) :
    Keeps Answer.Trusted (serve cfg worker request) w := by
  cases request with
  | latest =>
    exact keeps_bind (keeps_getCachedObject hw rfl _) fun _ t _ ht _ => keeps_pure ht fun _ => trivial
  | tilesets => exact keeps_bind (keeps_listTilesets hw worker) fun _ t _ ht h => keeps_pure ht h
  | series stationId hours =>
    exact keeps_bind (keeps_stationSeriesPoints hw worker stationId hours) fun _ t _ ht h =>
      keeps_pure ht h
  | tileset tilesetId =>
    exact keeps_bind (keeps_getSnapshotForTileset hw worker tilesetId) fun _ t _ ht _ =>
      keeps_pure ht fun _ => trivial

end Reader

section Scraper

variable {cfg : CacheConfig ρ π} {w : World ρ π}

theorem keeps_uploadSnapshot (hw : w.Guarded) (body : Body ρ) :
    Keeps (fun _ _ => True) (uploadSnapshot (π := π) body) w := by
  refine keeps_bind (keeps_uploadTile hw _ _) fun _ t _ ht _ => ?_
  refine keeps_bind (keeps_uploadTile ht _ _) fun _ u _ hu _ => ?_
  exact keeps_uploadTile hu _ _

theorem keeps_warmObservationCache (hw : w.Guarded) (body : Body ρ) :
    Keeps (fun _ _ => True) (warmObservationCache cfg body) w := by
  unfold warmObservationCache
  by_cases hc : cfg.cacheEnabled = true
  · rw [if_pos hc]
    refine keeps_bind (keeps_look hw _) fun uploads t _ ht _ => ?_
    refine keeps_bind (keeps_redisSet ht .latest fun hlisted => by cases hlisted) fun _ u _ hu _ => ?_
    have hentries : Keeps (fun l v => ∀ entries, l = some entries → v.Trusts entries.origin)
        (catchException (do
          let keys ← listObjectKeys .tilesetsWarmUp snapshotsPrefix
          let entries ← computeEntries cfg keys
          pure (some entries)) (pure none)) u := by
      refine keeps_catch ?_ fun x hx => keeps_pure hx fun _ h => by cases h
      refine keeps_bind (keeps_listObjectKeys hu .tilesetsWarmUp snapshotsPrefix)
        fun keys x _ hx hkeys => ?_
      refine keeps_bind (keeps_computeEntries hx keys) fun entries y hxy hy horigin =>
        keeps_pure hy ?_
      rintro _ ⟨⟩
      rw [horigin]
      exact (hkeys.1 (by decide)).onward hxy
    refine keeps_bind hentries fun l v _ hv hl => ?_
    cases l with
    | none => exact keeps_pure hv trivial
    | some entries => exact keeps_redisSet hv .tilesets fun _ => hl entries rfl
  · rw [if_neg hc]
    exact keeps_pure hw trivial

theorem keeps_warmBodies (hw : w.Guarded) (index : Nat) (keys : List S3Key) :
    Keeps (fun _ _ => True) (warmBodies cfg index keys) w := by
  induction keys generalizing w index with
  | nil => exact keeps_pure hw trivial
  | cons key keys ih =>
    have hdownload : Keeps (fun _ _ => True) (catchException (downloadTile key) (pure none)) w :=
      keeps_catch (keeps_downloadTile hw key) fun t ht => keeps_pure ht trivial
    refine keeps_bind hdownload fun object t _ ht _ => ?_
    cases asBody object with
    | none => exact ih ht (index + 1)
    | some body =>
      have hrest (u : World ρ π) (hu : u.Guarded) : Keeps (fun _ _ => True) (do
          let bodies ← warmBodies cfg (index + 1) keys
          pure (body.value :: bodies)) u :=
        keeps_bind (ih hu (index + 1)) fun _ v _ hv _ => keeps_pure hv trivial
      dsimp only
      by_cases hindex : index < cfg.animationWarmBuckets
      · rw [if_pos hindex]
        exact keeps_bind (keeps_redisSet ht _ fun hlisted => by cases hlisted) fun _ u _ hu _ =>
          hrest u hu
      · rw [if_neg hindex]
        exact hrest t ht

theorem keeps_warmEach {origin : Origin} (hw : w.Guarded) (horigin : w.Trusts origin)
    (series : List (Int × List (Point π))) :
    Keeps (fun _ _ => True) (warmEach cfg origin series) w := by
  induction series generalizing w with
  | nil => exact keeps_pure hw trivial
  | cons p series ih =>
    exact keeps_bind (keeps_redisSet hw _ fun _ => horigin) fun _ t hwt ht _ =>
      ih ht (horigin.onward hwt)

/-- Without bodies nothing is written, so only the series of a listing that did not fail are. -/
theorem keeps_warmStationSeries {origin : Origin} {bodies : List (Body ρ)} (hw : w.Guarded)
    (horigin : bodies ≠ [] → w.Trusts origin) :
    Keeps (fun _ _ => True) (warmStationSeries cfg origin bodies) w := by
  unfold warmStationSeries
  by_cases hskip : cfg.cacheEnabled = false ∨ cfg.seriesHours = 0 ∨ bodies.isEmpty
  · rw [if_pos hskip]
    exact keeps_pure hw trivial
  · rw [if_neg hskip]
    cases cfg.code.pivotStationSeries ((bodies.take cfg.seriesHours).map (·.stations)) with
    | error _ => exact hw
    | ok series =>
      refine keeps_warmEach hw (horigin fun hnil => hskip (.inr (.inr ?_))) series
      simp [hnil]

theorem keeps_warmRecentSnapshotBodies (hw : w.Guarded) :
    Keeps (fun _ _ => True) (warmRecentSnapshotBodies cfg) w := by
  unfold warmRecentSnapshotBodies
  by_cases hskip : cfg.cacheEnabled = false ∨ warmWindow cfg = 0
  · rw [if_pos hskip]
    exact keeps_pure hw trivial
  · rw [if_neg hskip]
    have hlist : Keeps (fun l _ => ∀ keys : Sourced (List S3Key), l = some keys →
        keys.origin.failed = true → keys.value = []) (catchException (do
          let keys ← listObjectKeys .recentWarmUp snapshotsPrefix
          pure (some keys)) (pure none)) w := by
      refine keeps_catch ?_ fun t ht => keeps_pure ht fun _ h => by cases h
      refine keeps_bind (keeps_listObjectKeys hw .recentWarmUp snapshotsPrefix)
        fun keys t _ ht hkeys => ?_
      refine keeps_pure ht ?_
      rintro _ ⟨⟩
      exact hkeys.2
    refine keeps_bind hlist fun l t _ ht hl => ?_
    cases l with
    | none => exact keeps_pure ht trivial
    | some keys =>
      by_cases hfailed : keys.origin.failed = true
      · -- no keys, hence no bodies
        have hkeys : recentSnapshotKeys cfg.digits (fun _ => keys.value) (warmWindow cfg) = [] := by
          rw [hl keys rfl hfailed]
          simp [recentSnapshotKeys, latestSnapshotPerBucket, Latest.groupLatest]
        dsimp only
        rw [hkeys]
        exact keeps_warmStationSeries ht fun h => absurd rfl h
      · have htrust : ∀ u : World ρ π, u.Trusts keys.origin := fun _ _ => by simpa using hfailed
        exact keeps_bind (keeps_warmBodies ht 0 _) fun bodies u _ hu _ =>
          keeps_warmStationSeries hu fun _ => htrust u

theorem keeps_runSync (cfg : CacheConfig ρ π) (hw : w.Guarded) :
    Keeps (fun _ _ => True) (runSync cfg) w := by
  have hfetch : Keeps (fun _ _ => True) (fetchObservations : Code ρ π _) w := by
    refine keeps_call hw fun t ht r a u hu => ⟨?_, fun _ _ => trivial⟩
    cases r <;> cases hu <;> exact World.onward_refl t
  refine keeps_bind hfetch fun stations t _ ht _ => ?_
  cases stations with
  | none => exact keeps_pure ht trivial
  | some stations =>
    refine keeps_bind (keeps_look ht _) fun scrapedAt u _ hu _ => ?_
    have hupload : Keeps (fun _ _ => True) (catchException (do
        uploadSnapshot ⟨scrapedAt, stations⟩
        pure true) (pure false)) u :=
      keeps_catch (keeps_bind (keeps_uploadSnapshot hu _) fun _ v _ hv _ => keeps_pure hv trivial)
        fun v hv => keeps_pure hv trivial
    refine keeps_bind hupload fun uploaded v _ hv _ => ?_
    cases uploaded with
    | false => exact keeps_pure hv trivial
    | true =>
      exact keeps_bind (keeps_warmObservationCache hv _) fun _ x _ hx _ =>
        keeps_warmRecentSnapshotBodies hx

end Scraper

end DataService.WeatherCache
