import DataService.Sync.Frame
import DataService.Sync.History

/-! The loops keep every invariant that survives what they do to the indexes. A unit
enters an index only when the cycle is entitled to write it. -/

namespace DataService.Sync

open Coroutine Coro ExpiringStore

/-- A property of the world that the indexes and the history decide, and that each thing
a cycle does to them preserves. -/
structure LoopInvariant (start : Nat) (G : World → Prop) : Prop where
  clock : ∀ w, G w → start ≤ w.now
  shrink : ∀ w w', w'.log = w.log → w.now ≤ w'.now → Shrinks w w' → G w → G w'
  synced : ∀ w unit listed stored, (∀ p ∈ stored, start ≤ p.time) → G w →
    G (w.record (.synced unit listed stored))
  found : ∀ w key, G w → G (w.record (.found key (w.memberNames key)))
  indexed : ∀ w w' unit, Entitled w.log unit → w'.log = .indexed unit :: w.log → w'.now = w.now →
    (∀ key, key.listsUnits → ∀ name ∈ w'.memberNames key,
      name ∈ w.memberNames key ∨ (key = unit.index ∧ name = unit.name)) → G w → G w'

/-- Run from `w`, the code keeps `G` at every await and exception, and ends in `Q`. -/
def Meets {α : Type} (G : World → Prop) (Q : α → World → Prop) (c : Code α) (w : World) : Prop :=
  c.Safe Nudge G Q (fun _ t => G t) w

variable {α β : Type} {start : Nat} {G : World → Prop} {w : World} {names : NameCode}
  {cfg : SyncConfig} {unit : UnitId} {key : IndexKey}

theorem LoopInvariant.nudge (hG : LoopInvariant start G) {t : World} (h : Nudge w t) (hw : G w) :
    G t :=
  hG.shrink w t h.log h.now h.indexes hw

theorem meets_bind {Q : α → World → Prop} {Q' : β → World → Prop} {c : Code α} {k : α → Code β}
    (h : Meets G Q c w) (hk : ∀ a t, Q a t → Meets G Q' (k a) t) : Meets G Q' (c >>= k) w :=
  safe_bind (safe_mono hk (fun _ _ he => he) h)

theorem meets_mono {Q Q' : α → World → Prop} {c : Code α} (h : Meets G Q c w)
    (hQ : ∀ a t, Q a t → Q' a t) : Meets G Q' c w :=
  safe_mono hQ (fun _ _ he => he) h

theorem meets_listNames (hG : LoopInvariant start G) (hw : G w) :
    Meets G (fun _ t => G t ∧ t.log = w.log) listNames w := by
  apply safe_call
  intro t ht
  have hGt := hG.nudge ht hw
  refine ⟨hGt, ?_, ?_⟩
  · intro r a u hu
    cases r with
    | names l =>
      cases hu
      exact ⟨hGt, ht.log⟩
    | ok => cases hu
    | raised e landed => cases hu
  · intro r e u hu
    cases r with
    | names l => cases hu
    | ok => cases hu
    | raised e landed =>
      cases hu
      exact hGt

theorem meets_fetchObject (hG : LoopInvariant start G) (hw : G w) :
    Meets G (fun _ t => G t) fetchObject w := by
  apply safe_call
  intro t ht
  have hGt := hG.nudge ht hw
  refine ⟨hGt, ?_, ?_⟩
  · intro r a u hu
    cases r <;> cases hu
    exact hGt
  · intro r e u hu
    cases r <;> cases hu
    exact hGt

theorem meets_readExists (hG : LoopInvariant start G) (hw : G w) (k : RedisKey) :
    Meets G (fun _ t => G t) (readExists k) w := by
  apply safe_call
  intro t ht
  have hGt := hG.nudge ht hw
  refine ⟨hGt, ?_, ?_⟩
  · intro r a u hu
    cases r <;> cases hu
    exact hGt
  · intro r e u hu
    cases r <;> cases hu
    exact hGt

theorem meets_command (hG : LoopInvariant start G) (hw : G w) {f : World → World}
    (hf : ∀ t, Nudge w t → G t → G (f t)) : Meets G (fun _ t => G t) (command f) w := by
  apply safe_call
  intro t ht
  have hGt := hG.nudge ht hw
  refine ⟨hGt, ?_, ?_⟩
  · intro r a u hu
    cases r <;> cases hu
    exact hf t ht hGt
  · intro r e u hu
    cases r with
    | raised e landed =>
      cases landed <;> cases hu
      · exact hGt
      · exact hf t ht hGt
    | ok => cases hu
    | names l => cases hu

/-- What was read from an index of units is in the history. -/
theorem meets_readMembers (hG : LoopInvariant start G) (hw : G w) (key : IndexKey) :
    Meets G (fun l t => G t ∧ (key.listsUnits → .found key l ∈ cycleLog t.log)) (readMembers key)
      w := by
  apply safe_call
  intro t ht
  have hGt := hG.nudge ht hw
  refine ⟨hGt, ?_, ?_⟩
  · intro r a u hu
    cases r with
    | ok =>
      cases hu
      by_cases hk : key.listsUnits
      · rw [if_pos hk]
        refine ⟨hG.found t key hGt, fun _ => ?_⟩
        rw [World.record, cycleLog_cons rfl]
        exact List.mem_cons_self ..
      · rw [if_neg hk]
        exact ⟨hGt, fun h => absurd h hk⟩
    | raised e landed => cases hu
    | names l => cases hu
  · intro r e u hu
    cases r <;> cases hu
    exact hGt

theorem meets_catchException {Q : α → World → Prop} {c d : Code α}
    (h : Meets G Q c w) (hh : ∀ t, G t → Meets G Q d t) :
    Meets G Q (catchException c d) w := by
  apply safe_tryCatch
  refine safe_mono (fun _ _ hq => hq) ?_ h
  intro e t ht
  cases e with
  | cancelled => exact ht
  | error => exact hh t ht

theorem meets_forEach {f : α → Code Unit} {l : List α} (hw : G w)
    (hf : ∀ a ∈ l, ∀ t, G t → Meets G (fun _ u => G u) (f a) t) :
    Meets G (fun _ t => G t) (forEach f l) w := by
  induction l generalizing w with
  | nil => exact hw
  | cons a l ih =>
    apply meets_bind (hf a (List.mem_cons_self ..) w hw)
    intro _ t ht
    exact ih ht fun b hb => hf b (List.mem_cons_of_mem _ hb)

theorem meets_countDownloaded (hG : LoopInvariant start G) {t : World} (n : Nat) (hw : G w)
    (hl : w.log = t.log) : Meets G (fun _ u => G u ∧ u.log = t.log) (countDownloaded n) w :=
  ⟨hG.shrink w _ rfl (Nat.le_refl _) (.refl w) hw, hl⟩

/-- The tile tasks of a unit end, or the cycle is cancelled. -/
theorem meets_awaitTiles (hG : LoopInvariant start G) (hw : G w) {g : Gather}
    (hg : w.gather = some g) (hs : ∀ p ∈ g.stored, start ≤ p.time) :
    Meets G (fun stored t => G t ∧
      lastSynced g.unit (cycleLog t.log) = some (g.listed, stored)) awaitTiles w := by
  apply safe_call
  intro t ht
  have hGt := hG.nudge ht hw
  obtain ⟨g', hg', hu, hl, hst⟩ := ht.gather g hg
  have hrecent : ∀ p ∈ g'.stored, start ≤ p.time := by
    intro p hp
    rcases hst p hp with hp | hp
    · exact hs p hp
    · exact (hG.clock w hw).trans hp
  refine ⟨hGt, ?_, ?_⟩
  · intro r a u hr
    cases r with
    | ok =>
      by_cases htasks : g'.tasks = []
      · obtain ⟨rfl, rfl⟩ : g'.stored = a ∧ _ = u := by simpa [hg', htasks] using hr
        have hGs := hG.synced t g'.unit g'.listed g'.stored hrecent hGt
        refine ⟨hG.shrink (t.record _) _ rfl (Nat.le_refl _) (fun _ _ _ hn => hn) hGs, ?_⟩
        rw [← hu, ← hl]
        show lastSynced g'.unit (cycleLog (.synced g'.unit g'.listed g'.stored :: t.log)) = _
        rw [cycleLog_cons rfl, lastSynced_self]
      · simp [hg', htasks] at hr
    | raised e landed => cases e <;> simp [hg'] at hr
    | names l => simp [hg'] at hr
  · intro r e u hr
    cases r with
    | raised e landed =>
      cases e with
      | cancelled =>
        obtain ⟨-, rfl⟩ : _ ∧ _ = u := by simpa [hg'] using hr
        exact hG.shrink t _ rfl (Nat.le_refl _) (.refl t) hGt
      | error => simp [hg'] at hr
    | ok => by_cases htasks : g'.tasks = [] <;> simp [hg', htasks] at hr
    | names l => simp [hg'] at hr

/-- `sync_prefix_to_redis` returns how many tiles its last sync stored. -/
theorem syncUnit_meets (hG : LoopInvariant start G) (hw : G w) (ttl : Nat) :
    Meets G (fun n t => G t ∧ ∃ listed stored,
      lastSynced unit (cycleLog t.log) = some (listed, stored) ∧ stored.countP (·.counted) = n)
      (syncUnitToRedis names unit ttl) w := by
  apply meets_bind (meets_listNames hG hw)
  intro objects t ht
  by_cases he : objects.filter isWebp = []
  · simp only [he, if_true]
    refine ⟨hG.synced t unit [] [] (by simp) ht.1, [], [], ?_, rfl⟩
    show lastSynced unit (cycleLog (.synced unit [] [] :: t.log)) = _
    rw [cycleLog_cons rfl, lastSynced_self]
  · simp only [he, if_false]
    let g : Gather := ⟨unit, ttl, objects.filter isWebp,
      ((objects.filter isWebp).filter fun k => (names.parseZxy k).isSome).map (⟨·, .downloading⟩), []⟩
    have hGu : G { t with gather := some g } := hG.shrink t _ rfl (Nat.le_refl _) (.refl t) ht.1
    have hawait := meets_awaitTiles hG hGu (g := g) rfl (by simp [g])
    apply meets_bind (Q := fun _ u => u = { t with gather := some g })
    · rfl
    · rintro _ u rfl
      apply meets_bind hawait
      intro stored u hu
      exact ⟨hu.1, _, stored, hu.2, rfl⟩

theorem meets_shrinkCommand (hG : LoopInvariant start G) (hw : G w) {f : World → World}
    (hl : ∀ t, (f t).log = t.log) (hn : ∀ t, (f t).now = t.now) (hs : ∀ t, Shrinks t (f t)) :
    Meets G (fun _ t => G t) (command f) w :=
  meets_command hG hw fun t _ ht => hG.shrink t _ (hl t) (hn t).ge (hs t) ht

theorem LoopInvariant.expire (hG : LoopInvariant start G) (hw : G w) (ttl : Nat) :
    G (w.expire key ttl) :=
  hG.shrink w _ rfl (Nat.le_refl _) (shrinks_expire ttl) hw

theorem meets_keep (hG : LoopInvariant start G) (hw : G w) (key : IndexKey)
    (p : String × Int → Bool) : Meets G (fun _ t => G t) (command (World.keep key p)) w :=
  meets_shrinkCommand hG hw (fun _ => keep_log p) (fun _ => keep_now p) fun _ => shrinks_keep p

theorem meets_expire (hG : LoopInvariant start G) (hw : G w) (key : IndexKey) (ttl : Nat) :
    Meets G (fun _ t => G t) (command (World.expire key ttl)) w :=
  meets_shrinkCommand hG hw (fun _ => rfl) (fun _ => rfl) fun _ => shrinks_expire ttl

theorem meets_setEx (hG : LoopInvariant start G) (hw : G w) {k : RedisKey}
    (hk : ∀ i, k ≠ .index i) (ttl : Nat) :
    Meets G (fun _ t => G t) (command (World.setEx k ttl)) w :=
  meets_shrinkCommand hG hw (fun _ => rfl) (fun _ => rfl) fun _ => shrinks_setEx hk ttl

theorem entitled_of_lastSynced {log : List Event} {listed : List String}
    {stored : List StoredTile} (h : lastSynced unit (cycleLog log) = some (listed, stored))
    (hs : 0 < stored.countP (·.counted)) : Entitled log unit :=
  .inl ⟨listed, stored, h, fun _ => List.countP_pos_iff.mp hs⟩

/-- A unit that the cycle is entitled to write is added to its index, and other keys may
get a new deadline in the same pipeline. -/
theorem meets_index (hG : LoopInvariant start G) (hw : G w) (he : Entitled w.log unit)
    {f : World → World} (hl : ∀ t, (f t).log = .indexed unit :: t.log)
    (hn : ∀ t, (f t).now = t.now)
    (hm : ∀ t key, key.listsUnits → ∀ name ∈ (f t).memberNames key,
      name ∈ t.memberNames key ∨ (key = unit.index ∧ name = unit.name)) :
    Meets G (fun _ t => G t) (command f) w := by
  apply meets_command hG hw
  intro t ht hGt
  have het : Entitled t.log unit := by
    rw [ht.log]
    exact he
  exact hG.indexed t (f t) unit het (hl t) (hn t) (hm t) hGt

section Satellite

theorem syncSatelliteTileset_meets (hG : LoopInvariant start G) (hw : G w) (now : Nat)
    (channelDir : String) (existing : List String) (tilesetId : String) :
    Meets G (fun _ t => G t) (syncSatelliteTileset cfg now channelDir existing tilesetId) w := by
  unfold syncSatelliteTileset
  by_cases he : tilesetId ∈ existing
  · rw [if_pos he]
    exact hw
  · rw [if_neg he]
    apply meets_bind (syncUnit_meets hG hw _)
    rintro n t ⟨ht, listed, stored, hs, rfl⟩
    apply meets_bind (meets_countDownloaded hG _ ht rfl)
    rintro _ u ⟨hu, hlog⟩
    by_cases hpos : 0 < stored.countP (·.counted)
    · rw [if_pos hpos]
      rw [← hlog] at hs
      unfold addSatelliteTileset
      apply meets_bind (meets_index hG hu (entitled_of_lastSynced hs hpos)
        (f := indexSatelliteTileset channelDir tilesetId now) (fun _ => rfl) (fun _ => rfl)
        fun t key _ name hn => mem_add.mp hn)
      intro _ v hv
      by_cases hz : cfg.satelliteTileTtl = 0
      · rw [if_pos hz]
        exact hv
      · rw [if_neg hz]
        exact meets_expire hG hv _ _
    · rw [if_neg hpos]
      exact hu

theorem syncSatellitePrefix_meets (hG : LoopInvariant start G) (hw : G w) (now : Nat)
    (channelDir : String) :
    Meets G (fun _ t => G t) (syncSatellitePrefix cfg now channelDir) w := by
  apply meets_bind (meets_listNames hG hw)
  intro tilesets t ht
  apply meets_bind (meets_readMembers hG ht.1 _)
  intro existing u hu
  apply meets_bind (meets_forEach hu.1 fun tilesetId _ v hv =>
    syncSatelliteTileset_meets hG hv now channelDir existing tilesetId)
  intro _ v hv
  exact meets_keep hG hv _ _

theorem syncSatellitePrefixes_meets (hG : LoopInvariant start G) (hw : G w) (now : Nat)
    (channels : List String) (errors : Nat) :
    Meets G (fun _ t => G t) (syncSatellitePrefixes cfg now channels errors) w := by
  induction channels generalizing w errors with
  | nil => exact hw
  | cons channelDir channels ih =>
    have hbody : Meets G (fun _ t => G t) (do
        syncSatellitePrefix cfg now channelDir
        pure false) w := by
      apply meets_bind (syncSatellitePrefix_meets hG hw now channelDir)
      exact fun _ t ht => ht
    apply meets_bind (meets_catchException (d := pure true) hbody fun t ht => ht)
    intro failed t ht
    exact ih ht _

end Satellite

section Radar

theorem addRadarIndex_members {network radarId variableId elevationId tilesetId : String}
    {score ttl : Nat} {name : String} (hk : key.listsUnits)
    (hn : name ∈ (addRadarIndex network radarId variableId elevationId tilesetId score ttl
      w).memberNames key) :
    name ∈ w.memberNames key ∨
      (key = .radarTilesets network radarId variableId elevationId ∧ name = tilesetId) := by
  rw [addRadarIndex, record_memberNames] at hn
  rcases mem_addFor hk hn with hn | hn
  · have h3 := shrinks_addFor rfl key hk hn
    have h2 := shrinks_addFor rfl key hk h3
    exact .inl (shrinks_addFor rfl key hk h2)
  · exact .inr hn

theorem addRadarIndex_log (network radarId variableId elevationId tilesetId : String)
    (score ttl : Nat) :
    (addRadarIndex network radarId variableId elevationId tilesetId score ttl w).log =
      .indexed ⟨.radarTilesets network radarId variableId elevationId, tilesetId⟩ :: w.log := by
  simp [addRadarIndex, World.record]

theorem addRadarIndex_now (network radarId variableId elevationId tilesetId : String)
    (score ttl : Nat) :
    (addRadarIndex network radarId variableId elevationId tilesetId score ttl w).now = w.now := by
  simp [addRadarIndex, World.record]

theorem syncRadarTileset_meets (hG : LoopInvariant start G) (hw : G w) (now : Nat)
    (network radarId variableId elevationId : String) (existing : List String)
    (tilesetId : String) :
    Meets G (fun _ t => G t)
      (syncRadarTileset cfg now network radarId variableId elevationId existing tilesetId) w := by
  unfold syncRadarTileset
  by_cases he : tilesetId ∈ existing
  · rw [if_pos he]
    exact hw
  · rw [if_neg he]
    apply meets_bind (syncUnit_meets hG hw _)
    rintro n t ⟨ht, listed, stored, hs, rfl⟩
    by_cases hpos : 0 < stored.countP (·.counted)
    · rw [if_pos hpos]
      apply meets_bind (meets_index hG ht (entitled_of_lastSynced hs hpos)
        (fun _ => addRadarIndex_log _ _ _ _ _ _ _) (fun _ => addRadarIndex_now _ _ _ _ _ _ _)
        fun t key hk name hn => addRadarIndex_members hk hn)
      intro _ u hu
      exact meets_mono (meets_countDownloaded hG _ hu rfl) fun _ _ h => h.1
    · rw [if_neg hpos]
      exact ht

theorem syncRadarElevation_meets (hG : LoopInvariant start G) (hw : G w) (now : Nat)
    (network radarId variableId elevationId : String) :
    Meets G (fun _ t => G t) (syncRadarElevation cfg now network radarId variableId elevationId)
      w := by
  unfold syncRadarElevation
  split
  · apply meets_bind (meets_readMembers hG hw _)
    intro existing t ht
    apply meets_bind (meets_listNames hG ht.1)
    intro tilesets u hu
    apply meets_bind (meets_forEach hu.1 fun tilesetId _ v hv =>
      syncRadarTileset_meets hG hv now network radarId variableId elevationId existing tilesetId)
    intro _ v hv
    exact meets_keep hG hv _ _
  · exact hw

theorem syncRadarVariable_meets (hG : LoopInvariant start G) (hw : G w) (now : Nat)
    (network radarId variableId : String) :
    Meets G (fun _ t => G t) (syncRadarVariable cfg now network radarId variableId) w := by
  apply meets_bind (meets_listNames hG hw)
  intro elevations t ht
  exact meets_forEach ht.1 fun elevationId _ u hu =>
    syncRadarElevation_meets hG hu now network radarId variableId elevationId

theorem syncRadarSite_meets (hG : LoopInvariant start G) (hw : G w) (now : Nat)
    (network radarId : String) :
    Meets G (fun _ t => G t) (syncRadarSite cfg now network radarId) w := by
  apply meets_bind (meets_listNames hG hw)
  intro variableIds t ht
  exact meets_forEach ht.1 fun variableId _ u hu =>
    syncRadarVariable_meets hG hu now network radarId variableId

theorem syncRadar_meets (hG : LoopInvariant start G) (hw : G w) (now : Nat) (network : String) :
    Meets G (fun _ t => G t) (syncRadar cfg now network) w := by
  apply meets_catchException
  · apply meets_bind (meets_listNames hG hw)
    intro radars t ht
    apply meets_bind (meets_forEach ht.1 fun radarId _ u hu =>
      syncRadarSite_meets hG hu now network radarId)
    exact fun _ u hu => hu
  · exact fun t ht => ht

end Radar

section Wrf

theorem addWrfIndex_members {productId initTag fxxx : String} {initScore stepScore : Int}
    {ttl : Nat} {name : String} (hk : key.listsUnits)
    (hn : name ∈ (addWrfIndex productId initTag fxxx initScore stepScore ttl w).memberNames key) :
    name ∈ w.memberNames key ∨ (key = .wrfSteps productId initTag ∧ name = fxxx) := by
  rw [addWrfIndex, record_memberNames] at hn
  rcases mem_addFor hk hn with hn | hn
  · have h2 := shrinks_addFor rfl key hk hn
    exact .inl (shrinks_addFor rfl key hk h2)
  · exact .inr hn

theorem addWrfIndex_log (productId initTag fxxx : String) (initScore stepScore : Int) (ttl : Nat) :
    (addWrfIndex productId initTag fxxx initScore stepScore ttl w).log =
      .indexed ⟨.wrfSteps productId initTag, fxxx⟩ :: w.log := by
  simp [addWrfIndex, World.record]

theorem addWrfIndex_now (productId initTag fxxx : String) (initScore stepScore : Int) (ttl : Nat) :
    (addWrfIndex productId initTag fxxx initScore stepScore ttl w).now = w.now := by
  simp [addWrfIndex, World.record]

/-- Registering layers touches no index of units. -/
theorem addWrfLayers_frame (productId initTag fxxx : String) (layers : List String) (ttl : Nat) :
    (addWrfLayers productId initTag fxxx layers ttl w).log = w.log ∧
      (addWrfLayers productId initTag fxxx layers ttl w).now = w.now ∧
      Shrinks w (addWrfLayers productId initTag fxxx layers ttl w) := by
  suffices h : ∀ u, u = layers.foldl
      (fun w layer => w.add (.wrfLayers productId initTag fxxx) layer 0) w →
      u.log = w.log ∧ u.now = w.now ∧ Shrinks w u by
    obtain ⟨hl, hn, hs⟩ := h _ rfl
    exact ⟨hl, hn, hs.trans (shrinks_expire ttl)⟩
  induction layers generalizing w with
  | nil =>
    rintro u rfl
    exact ⟨rfl, rfl, .refl _⟩
  | cons layer layers ih =>
    intro u hu
    obtain ⟨hl, hn, hs⟩ := ih u hu
    exact ⟨hl, hn, (shrinks_add_dimension rfl).trans hs⟩

theorem copyMissingLayers_meets (hG : LoopInvariant start G) (hw : G w)
    (productId initTag fxxx : String) (s3Layers missingLayers : List String) :
    Meets G (fun _ t => G t) (copyMissingLayers cfg productId initTag fxxx s3Layers missingLayers)
      w := by
  unfold copyMissingLayers
  by_cases he : missingLayers = []
  · rw [if_pos he]
    exact meets_setEx hG hw (by simp) _
  · rw [if_neg he]
    apply meets_bind (meets_shrinkCommand hG hw (fun _ => (addWrfLayers_frame _ _ _ _ _).1)
      (fun _ => (addWrfLayers_frame _ _ _ _ _).2.1) fun _ => (addWrfLayers_frame _ _ _ _ _).2.2)
    intro _ t ht
    apply meets_forEach ht
    intro layer _ u hu
    apply meets_catchException (d := pure ())
    · apply meets_bind (meets_fetchObject hG hu)
      intro _ v hv
      exact meets_setEx hG hv (by simp) _
    · exact fun v hv => hv

theorem syncWrfOverlays_meets (hG : LoopInvariant start G) (hw : G w)
    (productId initTag fxxx : String) :
    Meets G (fun _ t => G t) (syncWrfOverlays cfg productId initTag fxxx) w := by
  apply meets_bind (meets_readExists hG hw _)
  intro done t ht
  cases done with
  | true => exact ht
  | false =>
    apply meets_catchException (d := pure ())
    · apply meets_bind (meets_listNames hG ht)
      intro s3Layers u hu
      by_cases he : s3Layers = []
      · rw [if_pos he]
        exact meets_setEx hG hu.1 (by simp) _
      · rw [if_neg he]
        apply meets_bind (meets_readMembers hG hu.1 _)
        intro redisLayers v hv
        exact copyMissingLayers_meets hG hv.1 _ _ _ _ _
    · exact fun u hu => hu

theorem syncWrfStepTiles_meets (hG : LoopInvariant start G) (hw : G w)
    (productId initTag : String) (existingSteps : List String) (fxxx : String) :
    Meets G (fun _ t => G t) (syncWrfStepTiles cfg productId initTag existingSteps fxxx) w := by
  unfold syncWrfStepTiles
  by_cases he : fxxx ∈ existingSteps
  · rw [if_pos he]
    exact hw
  · rw [if_neg he]
    apply meets_bind (syncUnit_meets hG hw _)
    rintro n t ⟨ht, listed, stored, hs, rfl⟩
    by_cases hpos : 0 < stored.countP (·.counted)
    · rw [if_pos hpos]
      split
      · apply meets_bind (meets_index hG ht (entitled_of_lastSynced hs hpos)
          (fun _ => addWrfIndex_log _ _ _ _ _ _) (fun _ => addWrfIndex_now _ _ _ _ _ _)
          fun t key hk name hn => addWrfIndex_members hk hn)
        intro _ u hu
        exact meets_mono (meets_countDownloaded hG _ hu rfl) fun _ _ h => h.1
      · exact ht
    · rw [if_neg hpos]
      exact ht

theorem pruneIndex_meets (hG : LoopInvariant start G) (hw : G w) (key : IndexKey)
    (keep : List String) : Meets G (fun _ t => G t) (pruneIndex key keep) w := by
  apply meets_bind (meets_readMembers hG hw _)
  intro l t ht
  unfold removeMembers
  split
  · exact ht.1
  · exact meets_keep hG ht.1 _ _

theorem syncWrfInit_meets (hG : LoopInvariant start G) (hw : G w) (productId initTag : String) :
    Meets G (fun _ t => G t) (syncWrfInit cfg productId initTag) w := by
  apply meets_bind (meets_listNames hG hw)
  intro steps t ht
  apply meets_bind (meets_readMembers hG ht.1 _)
  intro existingSteps u hu
  apply meets_forEach hu.1
  intro fxxx _ v hv
  apply meets_bind (syncWrfStepTiles_meets hG hv productId initTag existingSteps fxxx)
  intro _ x hx
  exact syncWrfOverlays_meets hG hx productId initTag fxxx

theorem syncWrfProduct_meets (hG : LoopInvariant start G) (hw : G w) (productId : String) :
    Meets G (fun _ t => G t) (syncWrfProduct cfg productId) w := by
  apply meets_bind (meets_listNames hG hw)
  intro initTags t ht
  apply meets_bind (meets_forEach ht.1 fun initTag _ u hu =>
    syncWrfInit_meets hG hu productId initTag)
  intro _ u hu
  split
  · exact hu
  · exact pruneIndex_meets hG hu _ _

theorem syncWrf_meets (hG : LoopInvariant start G) (hw : G w) :
    Meets G (fun _ t => G t) (syncWrf cfg) w := by
  apply meets_catchException
  · apply meets_bind (meets_listNames hG hw)
    intro products t ht
    apply meets_bind (meets_forEach ht.1 fun productId _ u hu =>
      syncWrfProduct_meets hG hu productId)
    exact fun _ u hu => hu
  · exact fun t ht => ht

end Wrf

section EcmwfTp

variable {forecastTs : String}

theorem meets_weaken {H : World → Prop} {Q : α → World → Prop} {c : Code α}
    (hHG : ∀ t, H t → G t) (h : Meets H Q c w) : Meets G Q c w :=
  safe_mono_crash hHG (safe_mono (fun _ _ hq => hq) (fun _ t ht => hHG t ht) h)

theorem LoopInvariant.noted (hG : LoopInvariant start G) (S : UnitId → Prop) :
    LoopInvariant start fun w => G w ∧ ∀ unit, S unit → Noted w.log unit where
  clock w h := hG.clock w h.1
  shrink w w' hl hn hs h := ⟨hG.shrink w w' hl hn hs h.1, fun unit hu => hl ▸ h.2 unit hu⟩
  synced w unit listed stored hs h :=
    ⟨hG.synced w unit listed stored hs h.1, fun v hv => (h.2 v hv).cons rfl⟩
  found w key h := ⟨hG.found w key h.1, fun v hv => (h.2 v hv).cons rfl⟩
  indexed w w' unit he hl hn hm h :=
    ⟨hG.indexed w w' unit he hl hn hm h.1, fun v hv => hl ▸ (h.2 v hv).cons rfl⟩

theorem addPeriods_keeps (hG : LoopInvariant start G) {periods : List String} (hw : G w)
    (hn : ∀ period ∈ periods, Noted w.log ⟨.ecmwfTpPeriods forecastTs, period⟩) :
    G (addPeriods forecastTs periods w) := by
  induction periods generalizing w with
  | nil => exact hw
  | cons period periods ih =>
    have he := (hn period (List.mem_cons_self ..)).entitled rfl
    apply ih
    · exact hG.indexed w _ _ he rfl rfl (fun key _ name h => mem_add.mp h) hw
    · exact fun p hp => (hn p (List.mem_cons_of_mem _ hp)).cons rfl

theorem meets_storeEcmwfTpIndex (hG : LoopInvariant start G) {periods : List String} (hw : G w)
    (hn : ∀ period ∈ periods, Noted w.log ⟨.ecmwfTpPeriods forecastTs, period⟩) (ttl : Nat) :
    Meets G (fun _ t => G t) (command (storeEcmwfTpIndex forecastTs periods ttl)) w := by
  apply meets_command hG hw
  intro t ht hGt
  have hdim : G (t.addFor .ecmwfTpForecasts forecastTs 0 ttl) :=
    hG.shrink t _ rfl (Nat.le_refl _) (shrinks_addFor rfl) hGt
  unfold storeEcmwfTpIndex
  split
  · exact hdim
  · have hp := addPeriods_keeps hG hdim fun period hp => by
      rw [addFor_log, ht.log]
      exact hn period hp
    exact hG.expire hp ttl

theorem syncEcmwfTpPeriod_meets (hG : LoopInvariant start G) (hw : G w) (periodTs : String) :
    Meets G (fun _ t => G t ∧ Noted t.log ⟨.ecmwfTpPeriods forecastTs, periodTs⟩)
      (syncEcmwfTpPeriod cfg forecastTs periodTs) w := by
  apply meets_bind (syncUnit_meets hG hw _)
  rintro n t ⟨ht, listed, stored, hs, rfl⟩
  have hnoted : Noted t.log ⟨.ecmwfTpPeriods forecastTs, periodTs⟩ := .inl (by rw [hs]; rfl)
  apply meets_bind (meets_countDownloaded hG _ ht rfl)
  rintro _ u ⟨hu, hlog⟩
  rw [← hlog] at hnoted
  by_cases hpos : 0 < stored.countP (·.counted)
  · rw [if_pos hpos]
    have hG' := hG.noted fun unit => unit = ⟨.ecmwfTpPeriods forecastTs, periodTs⟩
    have hone : ∀ period ∈ [periodTs], Noted u.log ⟨.ecmwfTpPeriods forecastTs, period⟩ := by
      intro period hp
      rw [List.mem_singleton.mp hp]
      exact hnoted
    have hstore := meets_storeEcmwfTpIndex hG' ⟨hu, fun unit h => h ▸ hnoted⟩ hone cfg.ecmwfTileTtl
    exact meets_weaken (fun _ h => h.1) (meets_mono hstore fun _ _ h => ⟨h.1, h.2 _ rfl⟩)
  · rw [if_neg hpos]
    exact ⟨hu, hnoted⟩

theorem syncPeriods_meets (hG : LoopInvariant start G) (hw : G w) (periods : List String) :
    Meets G (fun _ t => G t ∧
      ∀ period ∈ periods, Noted t.log ⟨.ecmwfTpPeriods forecastTs, period⟩)
      (forEach (syncEcmwfTpPeriod cfg forecastTs) periods) w := by
  induction periods generalizing w G with
  | nil => exact ⟨hw, by simp⟩
  | cons period periods ih =>
    apply meets_bind (syncEcmwfTpPeriod_meets hG hw period)
    rintro _ t ⟨ht, hnoted⟩
    have hG' := hG.noted fun unit => unit = ⟨.ecmwfTpPeriods forecastTs, period⟩
    have hrest := ih hG' ⟨ht, fun unit h => h ▸ hnoted⟩
    apply meets_weaken (fun _ h => h.1) (meets_mono hrest _)
    rintro _ u ⟨⟨hu, hp⟩, hps⟩
    refine ⟨hu, fun q hq => ?_⟩
    rcases List.mem_cons.mp hq with rfl | hq
    · exact hp _ rfl
    · exact hps q hq

/-- Every period of the last index write was known or has just been synced. -/
theorem syncEcmwfTpForecast_meets (hG : LoopInvariant start G) (hw : G w) (forecastTs : String) :
    Meets G (fun _ t => G t) (syncEcmwfTpForecast cfg forecastTs) w := by
  apply meets_bind (meets_listNames hG hw)
  intro subdirs t ht
  apply meets_bind (meets_readMembers hG ht.1 _)
  rintro known u ⟨hu, hfound⟩
  have hknown : ∀ period ∈ known, Noted u.log ⟨.ecmwfTpPeriods forecastTs, period⟩ :=
    fun period hp => .inr ⟨known, hfound rfl, hp⟩
  have hG' := hG.noted fun unit =>
    ∃ period ∈ known, unit = ⟨.ecmwfTpPeriods forecastTs, period⟩
  have hall : ∀ unit, (∃ period ∈ known, unit = ⟨.ecmwfTpPeriods forecastTs, period⟩) →
      Noted u.log unit := by
    rintro _ ⟨period, hp, rfl⟩
    exact hknown period hp
  apply meets_bind (meets_weaken (fun _ h => h.1) (syncPeriods_meets hG' ⟨hu, hall⟩ _))
  rintro _ v ⟨⟨hv, hold⟩, hsynced⟩
  apply meets_storeEcmwfTpIndex hG hv
  intro period hp
  by_cases hk : period ∈ known
  · exact hold _ ⟨period, hk, rfl⟩
  · exact hsynced period (List.mem_filter.mpr ⟨hp, by simpa using hk⟩)

theorem syncEcmwfTp_meets (hG : LoopInvariant start G) (hw : G w) :
    Meets G (fun _ t => G t) (syncEcmwfTp cfg) w := by
  apply meets_catchException
  · apply meets_bind (meets_listNames hG hw)
    intro subdirs t ht
    apply meets_bind (Q := fun _ u => G u)
    · unfold syncActiveForecasts
      split
      · exact ht.1
      · apply meets_bind (meets_forEach ht.1 fun forecastTs _ u hu =>
          syncEcmwfTpForecast_meets hG hu forecastTs)
        intro _ u hu
        exact pruneIndex_meets hG hu _ _
    · exact fun _ u hu => hu
  · exact fun t ht => ht

end EcmwfTp

theorem syncDomain_meets (hG : LoopInvariant start G) (hw : G w) (now : Nat) (domain : Domain) :
    Meets G (fun _ t => G t) (syncDomain cfg now domain) w := by
  cases domain with
  | satellite => exact syncSatellitePrefixes_meets hG hw now _ _
  | radar network => exact syncRadar_meets hG hw now network
  | wrf => exact syncWrf_meets hG hw
  | ecmwfTp => exact syncEcmwfTp_meets hG hw

end DataService.Sync
