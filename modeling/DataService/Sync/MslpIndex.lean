import DataService.Sync.MslpNotes
import DataService.Sync.Reconciliation

/-! The timestamps index of a forecast after a cycle of the ECMWF-MSLP loop. The cycle adds
what it stored, and takes nothing out of the index. -/

namespace DataService.Sync

open Coroutine Coro ExpiringStore

/-- `get_ecmwf_mslp_timestamps`: the set of members, sorted. -/
def getEcmwfMslpTimestamps (w : World) (forecastTs : String) : List String :=
  sortAscending (w.memberNames (.ecmwfMslpTimestamps forecastTs)).dedup

/-- No timestamps index gains or loses a member. -/
def TimestampsKept (w w' : World) : Prop :=
  ∀ forecastTs, w'.memberNames (.ecmwfMslpTimestamps forecastTs) =
    w.memberNames (.ecmwfMslpTimestamps forecastTs)

/-- The indexes hold what they held before the cycle and what has been stored since. -/
structure Accumulates (before : String → List String) (w : World) (n : MslpNotes) : Prop where
  indexed : ∀ forecastTs timestampTs, timestampTs ∈ w.memberNames (.ecmwfMslpTimestamps forecastTs) ↔
    timestampTs ∈ before forecastTs ∨ timestampTs ∈ n.stored forecastTs
  fresh : ∀ forecastTs, ∀ timestampTs ∈ n.stored forecastTs, timestampTs ∉ before forecastTs

variable {cfg : MslpConfig} {w w' : World} {n : MslpNotes} {before : String → List String}
  {forecastTs : String}

section Kept

theorem TimestampsKept.refl (w : World) : TimestampsKept w w := fun _ => rfl

theorem TimestampsKept.trans {u : World} (h : TimestampsKept w w') (h' : TimestampsKept w' u) :
    TimestampsKept w u :=
  fun forecastTs => (h' forecastTs).trans (h forecastTs)

theorem accumulates_kept (h : Accumulates before w n) (hkept : TimestampsKept w w') :
    Accumulates before w' n where
  indexed forecastTs timestampTs := by
    rw [hkept forecastTs]
    exact h.indexed forecastTs timestampTs
  fresh := h.fresh

theorem timestampsKept_setEx {k : RedisKey} (hk : ∀ i, k ≠ .index i) (ttl : Nat) :
    TimestampsKept w (w.setEx k ttl) :=
  fun _ => memberNames_setEx hk ttl

theorem timestampsKept_keep {key : IndexKey} (hkey : ∀ f, key ≠ .ecmwfMslpTimestamps f)
    (p : String × Int → Bool) : TimestampsKept w (w.keep key p) := by
  intro f
  apply memberNames_congr
  exact get_keep_ne fun he => hkey f (RedisKey.index.inj he).symm

end Kept

/-- The store of the index only adds. -/
theorem mem_storeEcmwfMslpIndex {timestamps : List String} {ttl : Nat} (httl : 0 < ttl)
    {other timestampTs : String} :
    timestampTs ∈ (storeEcmwfMslpIndex forecastTs timestamps ttl w).memberNames
        (.ecmwfMslpTimestamps other) ↔
      timestampTs ∈ w.memberNames (.ecmwfMslpTimestamps other) ∨
        (other = forecastTs ∧ timestampTs ∈ timestamps) := by
  unfold storeEcmwfMslpIndex
  split
  · rename_i hnone
    simp [mem_addFor_iff httl, hnone]
  · simp [mem_addAll httl, mem_addFor_iff httl]

theorem sortAscending_dedup_eq_iff {l l' : List String} :
    sortAscending l.dedup = sortAscending l'.dedup ↔ ∀ name, name ∈ l ↔ name ∈ l' := by
  have hmem : ∀ (l : List String) name, name ∈ sortAscending l.dedup ↔ name ∈ l := by
    intro l name
    exact (List.perm_insertionSort _ _).mem_iff.trans List.mem_dedup
  constructor
  · intro h name
    rw [← hmem l, h, hmem l']
  · intro h
    have hsorted : ∀ l : List String, (sortAscending l.dedup).Pairwise (· < ·) :=
      fun l => sorted_sortAscending l.nodup_dedup
    refine (hsorted l).eq_of_mem_iff (hsorted l') fun name => ?_
    rw [hmem, hmem, h]

theorem mem_indexedTimestamps {timestamps known stored : List String} {timestampTs : String} :
    timestampTs ∈ indexedTimestamps timestamps known stored ↔
      (timestampTs ∈ known ∧ timestampTs ∈ timestamps) ∨ timestampTs ∈ stored := by
  have hmem : timestampTs ∈ indexedTimestamps timestamps known stored ↔
      timestampTs ∈ (known.filter (· ∈ timestamps) ++ stored).dedup :=
    (List.perm_insertionSort _ _).mem_iff
  simp [hmem]

section Cycle

variable {p : World × MslpNotes}

abbrev Quiet : World × MslpNotes → World × MslpNotes → Prop := Beside TimestampsKept

/-- Code that leaves the indexes and the notes alone. -/
theorem safe_quiet {α : Type} {c : Code α} (h : c.Within TimestampsKept) (p : World × MslpNotes) :
    (silent c).Safe Quiet (fun _ => True) (fun _ q => TimestampsKept p.1 q.1 ∧ q.2 = p.2)
      (fun _ q => TimestampsKept p.1 q.1 ∧ q.2 = p.2) p := by
  have hsafe : c.Safe TimestampsKept (fun w => TimestampsKept p.1 w)
      (fun _ w => TimestampsKept p.1 w) (fun _ w => TimestampsKept p.1 w) p.1 :=
    h.safe (fun _ _ h ht => ht.trans h) (fun _ _ h ht => ht.trans h) (.refl p.1)
  exact safe_mono_crash (fun _ _ => trivial) (safe_silent hsafe)

/-- A download is noted exactly if it is counted. -/
theorem downloadNoted_safe (timestampTs : String) (p : World × MslpNotes) :
    (downloadNoted cfg forecastTs timestampTs).Safe Quiet (fun _ => True)
      (fun ok q => TimestampsKept p.1 q.1 ∧
        q.2 = p.2.store forecastTs (if ok then [timestampTs] else []))
      (fun _ _ => True) p := by
  have hfailed : ∀ e q, (TimestampsKept p.1 q.1 ∧ q.2 = p.2) →
      (if e = SyncExn.cancelled then raise e else pure false : NotedCode MslpNotes Bool).Safe Quiet
        (fun _ => True) (fun ok q => TimestampsKept p.1 q.1 ∧
          q.2 = p.2.store forecastTs (if ok then [timestampTs] else [])) (fun _ _ => True) q := by
    intro e q hq
    split
    · trivial
    · simpa using hq
  apply safe_tryCatch
  apply safe_bind
  refine safe_mono ?_ hfailed (safe_quiet (within_fetchObject .refl) p)
  rintro _ q ⟨hq, hnotes⟩
  apply safe_bind
  have hset := safe_quiet (within_command .refl fun w => timestampsKept_setEx
    (k := .ecmwfMslpGeojson forecastTs timestampTs) (by simp) cfg.ecmwfMslpGeojsonTtl) q
  refine safe_mono ?_ (fun e u hu => hfailed e u ⟨hq.trans hu.1, hu.2.trans hnotes⟩) hset
  rintro _ u ⟨hu, hnotes'⟩
  exact ⟨hq.trans hu, congrArg (MslpNotes.store forecastTs [timestampTs]) (hnotes'.trans hnotes)⟩

/-- Of the timestamps asked for, those that are returned are noted. -/
theorem syncGeojsonsNoted_safe (timestamps : List String) (p : World × MslpNotes) :
    (syncGeojsonsNoted cfg forecastTs timestamps).Safe Quiet (fun _ => True)
      (fun stored q => TimestampsKept p.1 q.1 ∧ q.2 = p.2.store forecastTs stored ∧
        stored ⊆ timestamps)
      (fun _ _ => True) p := by
  induction timestamps generalizing p with
  | nil => exact ⟨.refl p.1, by simp, List.Subset.refl _⟩
  | cons timestampTs timestamps ih =>
    apply safe_bind
    refine safe_mono ?_ (fun _ _ _ => trivial) (downloadNoted_safe timestampTs p)
    rintro ok q ⟨hq, hnotes⟩
    apply safe_bind
    refine safe_mono ?_ (fun _ _ _ => trivial) (ih q)
    rintro stored u ⟨hu, hnotes', hstored⟩
    refine ⟨hq.trans hu, ?_, ?_⟩
    · cases ok <;> simp [hnotes', hnotes]
    · cases ok
      · exact List.subset_cons_of_subset _ hstored
      · exact List.cons_subset_cons _ hstored

/-- What a pass over a forecast writes at its end. -/
theorem accumulates_store {timestamps known stored : List String}
    (httl : 0 < cfg.ecmwfMslpGeojsonTtl) (h : Accumulates before w n)
    (hknown : known = w.memberNames (.ecmwfMslpTimestamps forecastTs))
    (hstored : stored ⊆ timestamps.filter fun t => t ∉ known) :
    Accumulates before (storeEcmwfMslpIndex forecastTs (indexedTimestamps timestamps known stored)
      cfg.ecmwfMslpGeojsonTtl w) (n.store forecastTs stored) where
  indexed other timestampTs := by
    rw [mem_storeEcmwfMslpIndex httl, mem_indexedTimestamps, MslpNotes.mem_store, h.indexed]
    by_cases hother : other = forecastTs
    · subst hother
      rw [hknown, h.indexed]
      tauto
    · simp [hother]
  fresh other timestampTs hmem hbefore := by
    rcases MslpNotes.mem_store.mp hmem with hold | ⟨rfl, hnow⟩
    · exact h.fresh other timestampTs hold hbefore
    · have hnew := of_decide_eq_true (List.mem_filter.mp (hstored hnow)).2
      rw [hknown] at hnew
      exact hnew ((h.indexed other timestampTs).mpr (.inl hbefore))

theorem syncForecastNoted_safe (httl : 0 < cfg.ecmwfMslpGeojsonTtl)
    (h : Accumulates before p.1 p.2) :
    (syncForecastNoted cfg forecastTs).Safe Quiet (fun _ => True)
      (fun _ q => Accumulates before q.1 q.2) (fun _ _ => True) p := by
  apply safe_bind
  refine safe_mono ?_ (fun _ _ _ => trivial) (safe_quiet (within_listNames .refl) p)
  rintro basenames q ⟨hq, hnotes⟩
  apply safe_bind
  apply safe_jot
  have hlisted : Accumulates before q.1
      (q.2.list forecastTs (listedTimestamps cfg basenames)) := by
    rw [hnotes]
    exact ⟨(accumulates_kept h hq).indexed, h.fresh⟩
  generalize q.2.list forecastTs (listedTimestamps cfg basenames) = m at hlisted ⊢
  apply safe_bind
  apply safe_notedMembers rfl
  rintro u ⟨hu, rfl⟩
  refine ⟨trivial, ?_, fun _ => trivial⟩
  apply safe_bind
  refine safe_mono ?_ (fun _ _ _ => trivial) (syncGeojsonsNoted_safe _ u)
  rintro stored v ⟨hv, hnotes', hstored⟩
  apply safe_bind
  refine safe_mono ?_ (fun _ _ _ => trivial)
    (safe_quiet (within_act fun w => TimestampsKept.refl w) v)
  rintro _ x ⟨hx, hnotes''⟩
  apply safe_notedCommand
  rintro y ⟨hy, hnoted⟩
  refine ⟨trivial, ?_, fun _ => ⟨trivial, trivial⟩⟩
  have hkept : TimestampsKept u.1 y.1 := (hv.trans hx).trans hy
  rw [hnoted, hnotes'', hnotes']
  exact accumulates_store httl (accumulates_kept hlisted (hu.trans hkept)) (hkept forecastTs).symm
    hstored

theorem forEachNoted_safe (httl : 0 < cfg.ecmwfMslpGeojsonTtl) (forecasts : List String)
    (h : Accumulates before p.1 p.2) :
    (forEachNoted (syncForecastNoted cfg) forecasts).Safe Quiet (fun _ => True)
      (fun _ q => Accumulates before q.1 q.2) (fun _ _ => True) p := by
  induction forecasts generalizing p with
  | nil => exact h
  | cons forecastTs forecasts ih =>
    apply safe_bind
    exact safe_mono (fun _ _ hq => ih hq) (fun _ _ _ => trivial) (syncForecastNoted_safe httl h)

theorem syncActiveNoted_safe (httl : 0 < cfg.ecmwfMslpGeojsonTtl) (activeForecasts : List String)
    (h : Accumulates before p.1 p.2) :
    (syncActiveNoted cfg activeForecasts).Safe Quiet (fun _ => True)
      (fun _ q => Accumulates before q.1 q.2) (fun _ _ => True) p := by
  have hactive : Accumulates before p.1 (p.2.activate activeForecasts) := ⟨h.indexed, h.fresh⟩
  have hprune : (pruneIndex .ecmwfMslpForecasts activeForecasts).Within TimestampsKept :=
    within_pruneIndex .refl (fun w _ => .refl w)
      (fun _ q => timestampsKept_keep (by simp) q) activeForecasts
  apply safe_bind
  apply safe_jot
  split
  · exact hactive
  · apply safe_bind
    refine safe_mono ?_ (fun _ _ _ => trivial) (forEachNoted_safe httl activeForecasts hactive)
    intro _ q hq
    refine safe_mono ?_ (fun _ _ _ => trivial) (safe_quiet hprune q)
    rintro _ u ⟨hu, hnotes⟩
    rw [hnotes]
    exact accumulates_kept hq hu

theorem syncMslpNoted_safe (httl : 0 < cfg.ecmwfMslpGeojsonTtl) (h : Accumulates before p.1 p.2) :
    (syncMslpNoted cfg).Safe Quiet (fun _ => True)
      (fun errors q => errors = 0 → Accumulates before q.1 q.2) (fun _ _ => True) p := by
  apply safe_tryCatch
  apply safe_bind
  have hfailed : ∀ e (q : World × MslpNotes),
      (if e = SyncExn.cancelled then raise e else pure 1 : NotedCode MslpNotes Nat).Safe Quiet
        (fun _ => True) (fun errors q => errors = 0 → Accumulates before q.1 q.2)
        (fun _ _ => True) q := by
    intro e q
    split
    · trivial
    · exact nofun
  refine safe_mono ?_ (fun e q _ => hfailed e q) (safe_quiet (within_listNames .refl) p)
  rintro subdirs q ⟨hq, hnotes⟩
  apply safe_bind
  have hstart : Accumulates before q.1 q.2 := by
    rw [hnotes]
    exact accumulates_kept h hq
  refine safe_mono ?_ (fun e q _ => hfailed e q) (syncActiveNoted_safe httl _ hstart)
  exact fun _ u hu _ => hu

end Cycle

variable {μ : Type} {other : World → μ → Option World}

theorem accumulates_of_run (httl : 0 < cfg.ecmwfMslpGeojsonTtl)
    (hother : ∀ w m w', other w m = some w' → TimestampsKept w w') {turns : List (Turn Reply μ)}
    {p : Process (World × MslpNotes) Reply SyncExn Nat}
    (hrun : Process.run (beside other) (syncMslpNoted cfg) (w, .empty) turns = some p)
    (hend : p.returned = some 0) :
    Accumulates (fun forecastTs => w.memberNames (.ecmwfMslpTimestamps forecastTs)) p.memory.1
      p.memory.2 := by
  have hstart : Accumulates (fun forecastTs => w.memberNames (.ecmwfMslpTimestamps forecastTs)) w
      .empty := ⟨by simp [MslpNotes.empty], fun _ _ h => by simp [MslpNotes.empty] at h⟩
  have hmeets := Process.meets_of_run (Beside.refl .refl)
    (fun _ _ _ h h' => h.trans (fun _ _ _ ht hu => ht.trans hu) h')
    (fun _ _ _ h => beside_of_other hother h) (syncMslpNoted_safe httl hstart) hrun
  exact hmeets.of_returned hend rfl

/-- After a cycle without an error, the index of an active forecast is as it was meant to be if
and only if every timestamp that was indexed before is still among its COGs. The notes say
which forecasts were active, what was listed, and what was stored. -/
theorem mslp_index_iff (cfg : MslpConfig) (httl : 0 < cfg.ecmwfMslpGeojsonTtl)
    (hother : ∀ w m w', other w m = some w' → TimestampsKept w w') {w : World}
    {turns : List (Turn Reply μ)} {q : Process World Reply SyncExn Nat}
    (hrun : Process.run other (syncEcmwfMslp cfg) w turns = some q) (hend : q.returned = some 0) :
    ∃ p, Process.run (beside other) (syncMslpNoted cfg) (w, .empty) turns = some p ∧
      ∀ forecastTs ∈ p.memory.2.active,
        let before := w.memberNames (.ecmwfMslpTimestamps forecastTs)
        let listed := p.memory.2.cogs forecastTs
        getEcmwfMslpTimestamps q.memory forecastTs =
            indexedTimestamps listed before (p.memory.2.stored forecastTs) ↔
          ∀ timestampTs ∈ before, timestampTs ∈ listed := by
  obtain ⟨p, hnoted, hmemory, hreturned⟩ := Process.noted_of_run annotates_syncMslp .empty hrun
  refine ⟨p, hnoted, fun forecastTs _ => ?_⟩
  intro before listed
  obtain ⟨hindexed, hfresh⟩ := accumulates_of_run httl hother hnoted (hreturned.trans hend)
  rw [← hmemory, getEcmwfMslpTimestamps, indexedTimestamps, sortAscending_dedup_eq_iff]
  simp only [List.mem_append, List.mem_filter, decide_eq_true_eq, hindexed]
  constructor
  · intro h timestampTs hbefore
    rcases (h timestampTs).mp (.inl hbefore) with hkept | hstored
    · exact hkept.2
    · exact absurd hbefore (hfresh forecastTs timestampTs hstored)
  · intro h timestampTs
    constructor
    · rintro (hbefore | hstored)
      · exact .inl ⟨hbefore, h timestampTs hbefore⟩
      · exact .inr hstored
    · rintro (hkept | hstored)
      · exact .inl hkept.1
      · exact .inr hstored

/-- Redis drops a tile or an overlay. -/
def evictData (w : World) : RedisKey → Option World
  | .index _ => none
  | key => some (w.setRedis (w.redis.del key))

theorem timestampsKept_evictData {key : RedisKey} (h : evictData w key = some w') :
    TimestampsKept w w' := by
  intro f
  cases key with
  | index i => cases h
  | tile | wrfGeojson | wrfOverlaysDone | ecmwfMslpGeojson | gfsGeojson =>
    cases h
    exact memberNames_congr (Store.get_del_ne (by simp))

def oneTimestamp : World :=
  (World.initial 100).addFor (.ecmwfMslpTimestamps "20260101T0000Z") "20260101T0300Z" 0 60

/-- The turns of a cycle over one forecast of which one timestamp is new. -/
def oneForecast (basenames : List String) : List (Turn Reply RedisKey) :=
  [.answer (.names ["20260101T0000Z"]), .answer (.names basenames), .answer .ok, .answer .ok,
    .other (.ecmwfMslpGeojson "20260101T0000Z" "20260101T0300Z"), .answer .ok, .answer .ok,
    .answer .ok]

/-- What was indexed is still listed, and a timestamp is added. -/
theorem mslp_index_grown :
    ∃ q, Process.run evictData (syncEcmwfMslp smallMirror) oneTimestamp
        (oneForecast ["20260101T0300Z", "20260101T0600Z"]) = some q ∧
      getEcmwfMslpTimestamps q.memory "20260101T0000Z" = ["20260101T0300Z", "20260101T0600Z"] := by
  obtain ⟨q, hrun, hend⟩ : ∃ q, Process.run evictData (syncEcmwfMslp smallMirror) oneTimestamp
      (oneForecast ["20260101T0300Z", "20260101T0600Z"]) = some q ∧ q.returned = some 0 :=
    ⟨_, rfl, rfl⟩
  obtain ⟨p, hnoted, hiff⟩ := mslp_index_iff smallMirror (by decide)
    (fun _ _ _ h => timestampsKept_evictData h) hrun hend
  obtain ⟨n, hn, hactive, hcogs, hstored⟩ : ∃ n, (Process.run (beside evictData)
      (syncMslpNoted smallMirror) (oneTimestamp, .empty)
        (oneForecast ["20260101T0300Z", "20260101T0600Z"])).map (·.memory.2) = some n ∧
      n.active = ["20260101T0000Z"] ∧
      n.cogs "20260101T0000Z" = ["20260101T0300Z", "20260101T0600Z"] ∧
      n.stored "20260101T0000Z" = ["20260101T0600Z"] :=
    ⟨_, rfl, by decide, by decide, by decide⟩
  obtain rfl : p.memory.2 = n := by simpa [hnoted] using hn
  have hforecast := hiff "20260101T0000Z" (by simp [hactive])
  rw [hcogs, hstored] at hforecast
  exact ⟨q, hrun, (hforecast.mpr (by decide)).trans (by decide)⟩

/-- The COG of the indexed timestamp has gone, and the cycle leaves the timestamp in the index. -/
theorem stale_timestamp_stays :
    ∃ q, Process.run evictData (syncEcmwfMslp smallMirror) oneTimestamp
        (oneForecast ["20260101T0600Z"]) = some q ∧ q.returned = some 0 ∧
      getEcmwfMslpTimestamps q.memory "20260101T0000Z" = ["20260101T0300Z", "20260101T0600Z"] ∧
      indexedTimestamps ["20260101T0600Z"]
        (oneTimestamp.memberNames (.ecmwfMslpTimestamps "20260101T0000Z")) ["20260101T0600Z"] =
          ["20260101T0600Z"] :=
  ⟨_, rfl, rfl, by decide, by decide⟩

end DataService.Sync
