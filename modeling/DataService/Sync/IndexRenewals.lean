import DataService.Lib.RelyGuarantee
import DataService.Sync.Frame

/-! How long a unit stays a member of the index of its model run. Each addition to the index is
one pipeline with an `EXPIRE`, so that a chain of additions carries every earlier member on;
the members of an index are those that such a chain has carried to the present. -/

namespace DataService.Sync

open Coroutine Coro ExpiringStore StepSystem

/-- How long the tiles below an index of a model run live. -/
def SyncConfig.modelTileTtl (cfg : SyncConfig) : IndexKey → Option Nat
  | .wrfSteps .. => some cfg.wrfTileTtl
  | .ecmwfTpPeriods _ => some cfg.ecmwfTileTtl
  | _ => none

/-- A unit was added to its index, whose `EXPIRE` began anew; or Redis evicted an index. -/
inductive Renewal where
  | added (time : Nat) (unit : UnitId)
  | evicted (index : IndexKey)
  deriving DecidableEq, Repr

/-- Since the unit was added, each `EXPIRE` of its index was renewed before it ran out, and the
last has not run out now. The latest renewal comes first. -/
def Carried (ttl : Nat) (unit : UnitId) : List Renewal → Nat → Prop
  | [], _ => False
  | .added time other :: past, now =>
    if other.index = unit.index then
      now < time + ttl ∧ (other = unit ∨ Carried ttl unit past time)
    else Carried ttl unit past now
  | .evicted index :: past, now => index ≠ unit.index ∧ Carried ttl unit past now

/-- The additions among the events of one instant. -/
def additions (now : Nat) (events : List Event) : List Renewal :=
  events.filterMap fun e =>
    match e with
    | .indexed unit => some (.added now unit)
    | _ => none

/-- A run of a loop beside what happened to the indexes. -/
structure RenewalState where
  sync : SyncState
  renewals : List Renewal

def RenewalState.initial (now : Nat) : RenewalState := ⟨.initial now, []⟩

/-- What a step does to the indexes. -/
def newRenewals (w w' : World) : Action → List Renewal
  | .evict (.index index) => [.evicted index]
  | _ => additions w.now (w'.log.take (w'.log.length - w.log.length))

def renewalStep (cfg : SyncConfig) (domain : Domain) (s : RenewalState) (a : Action) :
    Option RenewalState :=
  (syncStep cfg domain s.sync a).map fun t =>
    ⟨t, newRenewals s.sync.world t.world a ++ s.renewals⟩

variable {cfg : SyncConfig} {domain : Domain} {ttl now later : Nat} {key : IndexKey} {unit : UnitId}
  {name : String} {w w' : World} {past : List Renewal} {events : List Event}

theorem mem_of_carried (h : Carried ttl unit past now) : ∃ time, .added time unit ∈ past := by
  induction past generalizing now with
  | nil => exact h.elim
  | cons renewal past ih =>
    cases renewal with
    | added time other =>
      rw [Carried] at h
      split at h
      · rcases h.2 with rfl | h
        · exact ⟨time, List.mem_cons_self⟩
        · obtain ⟨time', ht⟩ := ih h
          exact ⟨time', List.mem_cons_of_mem _ ht⟩
      · obtain ⟨time', ht⟩ := ih h
        exact ⟨time', List.mem_cons_of_mem _ ht⟩
    | evicted index =>
      obtain ⟨time, ht⟩ := ih h.2
      exact ⟨time, List.mem_cons_of_mem _ ht⟩

theorem additions_append (now : Nat) (events events' : List Event) :
    additions now (events ++ events') = additions now events ++ additions now events' :=
  List.filterMap_append

theorem carried_other (h : ∀ unit, .indexed unit ∈ events → unit.index ≠ key) :
    Carried ttl ⟨key, name⟩ (additions now events ++ past) later ↔
      Carried ttl ⟨key, name⟩ past later := by
  induction events with
  | nil => exact Iff.rfl
  | cons e events ih =>
    have hrest := ih fun unit hu => h unit (List.mem_cons_of_mem e hu)
    cases e with
    | indexed unit =>
      have hne := h unit List.mem_cons_self
      rw [additions, List.filterMap_cons]
      simp only [List.cons_append, Carried, if_neg hne]
      exact hrest
    | cycleStart | found | synced | cycleEnd => exact hrest

/-- Additions of one instant carry what was there, and the units they add. -/
theorem carried_added {names : List String} (hne : names ≠ []) (hle : now ≤ later) :
    Carried ttl ⟨key, name⟩
        (additions now (names.map fun name => .indexed ⟨key, name⟩) ++ past) later ↔
      later < now + ttl ∧ (name ∈ names ∨ Carried ttl ⟨key, name⟩ past now) := by
  induction names generalizing later with
  | nil => exact absurd rfl hne
  | cons first names ih =>
    have hcons : Carried ttl ⟨key, name⟩
        (additions now ((first :: names).map fun name => .indexed ⟨key, name⟩) ++ past) later ↔
        later < now + ttl ∧ (first = name ∨ Carried ttl ⟨key, name⟩
          (additions now (names.map fun name => .indexed ⟨key, name⟩) ++ past) now) := by
      rw [additions, List.map_cons, List.filterMap_cons]
      simp only [List.cons_append, Carried, if_true, UnitId.mk.injEq, true_and]
      exact Iff.rfl
    rw [hcons]
    refine and_congr_right fun hlt => ?_
    have hpos : now < now + ttl := by omega
    by_cases hnil : names = []
    · subst hnil
      simp [additions, eq_comm]
    · rw [ih hnil (Nat.le_refl now)]
      simp only [hpos, true_and, List.mem_cons, eq_comm (a := first), or_assoc]

/-- The members of the index, now and as long as it is left alone, are those that are carried. -/
def Tracks (ttl : Nat) (key : IndexKey) (past : List Renewal) (w : World) : Prop :=
  ∀ later, w.now ≤ later → ∀ name,
    name ∈ memberNames w.redis later key ↔ Carried ttl ⟨key, name⟩ past later

/-- A move at one instant, whose additions carry what it leaves in the index. -/
def Advances (ttl : Nat) (key : IndexKey) (w w' : World) : Prop :=
  w'.now = w.now ∧ ∃ events, w'.log = events ++ w.log ∧
    ∀ past, Tracks ttl key past w → Tracks ttl key (additions w.now events ++ past) w'

/-- A move that has nothing to do with the index. -/
structure Aside (key : IndexKey) (w w' : World) : Prop where
  now : w'.now = w.now
  slot : w'.redis.lookup (.index key) = w.redis.lookup (.index key)
  log : ∃ events, w'.log = events ++ w.log ∧ ∀ unit, .indexed unit ∈ events → unit.index ≠ key

section Moves

theorem Advances.refl (ttl : Nat) (key : IndexKey) (w : World) : Advances ttl key w w :=
  ⟨rfl, [], rfl, fun _ h => h⟩

theorem Advances.trans {u : World} (h : Advances ttl key w w') (h' : Advances ttl key w' u) :
    Advances ttl key w u := by
  obtain ⟨hnow, events, hlog, htracks⟩ := h
  obtain ⟨hnow', events', hlog', htracks'⟩ := h'
  refine ⟨hnow'.trans hnow, events' ++ events, by rw [hlog', hlog, List.append_assoc], ?_⟩
  intro past hpast
  have hboth := htracks' _ (htracks past hpast)
  rwa [hnow, ← List.append_assoc, ← additions_append] at hboth

theorem memberNames_of_lookup {redis redis' : Redis}
    (h : redis'.lookup (.index key) = redis.lookup (.index key)) (later : Nat) :
    memberNames redis' later key = memberNames redis later key := by
  simp only [memberNames, members, Store.get, h]

theorem Aside.advances (h : Aside key w w') : Advances ttl key w w' := by
  obtain ⟨events, hlog, hother⟩ := h.log
  refine ⟨h.now, events, hlog, fun past hpast later hle name => ?_⟩
  rw [memberNames_of_lookup h.slot, carried_other hother]
  exact hpast later (h.now ▸ hle) name

theorem Aside.quiet (hnow : w'.now = w.now) (hlog : w'.log = w.log)
    (hslot : w'.redis.lookup (.index key) = w.redis.lookup (.index key)) : Aside key w w' :=
  ⟨hnow, hslot, [], hlog, by simp⟩

theorem Aside.trans {u : World} (h : Aside key w w') (h' : Aside key w' u) : Aside key w u := by
  obtain ⟨events, hlog, hother⟩ := h.log
  obtain ⟨events', hlog', hother'⟩ := h'.log
  refine ⟨h'.now.trans h.now, h'.slot.trans h.slot, events' ++ events, ?_, fun unit hu => ?_⟩
  · rw [hlog', hlog, List.append_assoc]
  · rcases List.mem_append.mp hu with hu | hu
    · exact hother' unit hu
    · exact hother unit hu

theorem aside_record {e : Event} (h : ∀ unit, e = .indexed unit → unit.index ≠ key) :
    Aside key w (w.record e) := by
  refine ⟨rfl, rfl, [e], rfl, fun unit hu => h unit ?_⟩
  exact (List.mem_singleton.mp hu).symm

theorem aside_add {key' : IndexKey} {score : Int} (h : key' ≠ key) :
    Aside key w (w.add key' name score) :=
  .quiet rfl rfl (Store.lookup_update_ne fun he => h (RedisKey.index.inj he).symm)

theorem aside_expire {key' : IndexKey} (h : key' ≠ key) (ttl : Nat) :
    Aside key w (w.expire key' ttl) :=
  .quiet rfl rfl (Store.lookup_expire_ne fun he => h (RedisKey.index.inj he).symm)

theorem aside_addFor {key' : IndexKey} {score : Int} (h : key' ≠ key) (ttl : Nat) :
    Aside key w (w.addFor key' name score ttl) :=
  (aside_add h).trans (aside_expire h ttl)

theorem aside_keep {key' : IndexKey} {p : String × Int → Bool} (h : key' ≠ key) :
    Aside key w (w.keep key' p) := by
  have hne : RedisKey.index key ≠ .index key' := fun he => h (RedisKey.index.inj he).symm
  refine .quiet (keep_now p) (keep_log p) ?_
  unfold World.keep
  split
  · exact AList.lookup_erase_ne hne
  · exact Store.lookup_update_ne hne

theorem aside_setEx {k : RedisKey} (h : ∀ index, k ≠ .index index) (ttl : Nat) :
    Aside key w (w.setEx k ttl) :=
  .quiet rfl rfl (AList.lookup_insert_ne (h key).symm)

/-- At a new deadline, what is there now is there until then. -/
theorem mem_expire (hle : w.now ≤ later) :
    name ∈ memberNames (w.expire key ttl).redis later key ↔
      later < w.now + ttl ∧ name ∈ w.memberNames key := by
  rw [World.memberNames, memberNames, memberNames, members, members, World.expire, World.setRedis,
    Store.get_expire_later hle]
  by_cases hlt : later < w.now + ttl
  · rw [if_pos hlt]
    simp [hlt]
  · rw [if_neg hlt]
    simp [hlt]

/-- Units are added to the index, and the `EXPIRE` of the pipeline takes effect. -/
theorem advances_expire {names : List String} (hne : names ≠ []) (hnow : w'.now = w.now)
    (hlog : w'.log = (names.map fun name => .indexed ⟨key, name⟩) ++ w.log)
    (hmem : ∀ name, name ∈ w'.memberNames key ↔ name ∈ names ∨ name ∈ w.memberNames key) :
    Advances ttl key w (w'.expire key ttl) := by
  refine ⟨hnow, _, hlog, fun past hpast later hle name => ?_⟩
  have hle' : w'.now ≤ later := hle
  have hmembers : name ∈ w.memberNames key ↔ Carried ttl ⟨key, name⟩ past w.now :=
    hpast w.now (Nat.le_refl _) name
  rw [mem_expire hle', hmem, hmembers, carried_added hne (hnow ▸ hle'), hnow]

theorem advances_addWrfIndex (httl : cfg.modelTileTtl key = some ttl)
    (productId initTag fxxx : String) (initScore stepScore : Int) :
    Advances ttl key w
      (addWrfIndex productId initTag fxxx initScore stepScore cfg.wrfTileTtl w) := by
  have hproducts : IndexKey.wrfProducts ≠ key := by
    rintro rfl
    cases httl
  have hinits : IndexKey.wrfInitRuns productId ≠ key := by
    rintro rfl
    cases httl
  have hdimensions : Aside key w ((w.addFor .wrfProducts productId 0 cfg.wrfTileTtl).addFor
      (.wrfInitRuns productId) initTag initScore cfg.wrfTileTtl) :=
    (aside_addFor hproducts _).trans (aside_addFor hinits _)
  by_cases hkey : IndexKey.wrfSteps productId initTag = key
  · subst hkey
    obtain rfl := Option.some.inj httl
    refine hdimensions.advances.trans ?_
    show Advances _ _ _ (((World.add _ fxxx stepScore _).record
      (.indexed ⟨.wrfSteps productId initTag, fxxx⟩)).expire _ _)
    refine advances_expire (List.cons_ne_nil fxxx []) rfl rfl fun name => ?_
    rw [record_memberNames, mem_add, List.mem_singleton, or_comm]
    simp
  · exact (hdimensions.trans ((aside_addFor hkey _).trans
      (aside_record fun unit hu => by cases hu; exact hkey))).advances

theorem addPeriods_adds (forecastTs : String) (periods : List String) :
    (addPeriods forecastTs periods w).now = w.now ∧
      (addPeriods forecastTs periods w).log =
        (periods.reverse.map fun period => .indexed ⟨.ecmwfTpPeriods forecastTs, period⟩) ++ w.log ∧
      ∀ name, name ∈ (addPeriods forecastTs periods w).memberNames (.ecmwfTpPeriods forecastTs) ↔
        name ∈ periods.reverse ∨ name ∈ w.memberNames (.ecmwfTpPeriods forecastTs) := by
  induction periods generalizing w with
  | nil => exact ⟨rfl, rfl, fun name => by simp [addPeriods]⟩
  | cons period periods ih =>
    obtain ⟨hnow, hlog, hmem⟩ := @ih ((w.add (.ecmwfTpPeriods forecastTs) period 0).record
      (.indexed ⟨.ecmwfTpPeriods forecastTs, period⟩))
    refine ⟨hnow, hlog.trans ?_, fun name => (hmem name).trans ?_⟩
    · simp [World.record, World.add, World.setRedis]
    · rw [record_memberNames, mem_add]
      simp only [List.reverse_cons, List.mem_append, List.mem_singleton, true_and]
      tauto

theorem aside_addPeriods {forecastTs : String} (h : IndexKey.ecmwfTpPeriods forecastTs ≠ key)
    (periods : List String) : Aside key w (addPeriods forecastTs periods w) := by
  induction periods generalizing w with
  | nil => exact .quiet rfl rfl rfl
  | cons period periods ih =>
    have hone : Aside key w ((w.add (.ecmwfTpPeriods forecastTs) period 0).record
        (.indexed ⟨.ecmwfTpPeriods forecastTs, period⟩)) :=
      (aside_add h).trans (aside_record fun unit hu => by cases hu; exact h)
    exact hone.trans ih

theorem advances_storeEcmwfTpIndex (httl : cfg.modelTileTtl key = some ttl) (forecastTs : String)
    (periods : List String) :
    Advances ttl key w (storeEcmwfTpIndex forecastTs periods cfg.ecmwfTileTtl w) := by
  have hforecasts : IndexKey.ecmwfTpForecasts ≠ key := by
    rintro rfl
    cases httl
  have hdimension : Aside key w (w.addFor .ecmwfTpForecasts forecastTs 0 cfg.ecmwfTileTtl) :=
    aside_addFor hforecasts _
  unfold storeEcmwfTpIndex
  split
  · exact hdimension.advances
  · rename_i hne
    by_cases hkey : IndexKey.ecmwfTpPeriods forecastTs = key
    · subst hkey
      obtain rfl := Option.some.inj httl
      obtain ⟨hnow, hlog, hmem⟩ := @addPeriods_adds
        (w.addFor .ecmwfTpForecasts forecastTs 0 cfg.ecmwfTileTtl) forecastTs periods
      exact hdimension.advances.trans (advances_expire (by simpa using hne) hnow hlog hmem)
    · exact (hdimension.trans ((aside_addPeriods hkey periods).trans (aside_expire hkey _))).advances

end Moves

section Walk

variable {α : Type} (httl : cfg.modelTileTtl key = some ttl)

theorem aside_downloaded (n : Nat) : Aside key w { w with downloaded := n } :=
  .quiet rfl rfl rfl

theorem advances_listNames : listNames.Within (Advances ttl key) :=
  within_listNames (Advances.refl ttl key)

theorem advances_countDownloaded (n : Nat) :
    (countDownloaded n).Within (Advances ttl key) :=
  within_act fun _ => (aside_downloaded _).advances

theorem advances_record {e : Event} (h : ∀ unit, e ≠ .indexed unit) (w : World) :
    Advances ttl key w (w.record e) :=
  (aside_record fun unit he => absurd he (h unit)).advances

theorem advances_readMembers (index : IndexKey) :
    (readMembers index).Within (Advances ttl key) := by
  apply within_call
  intro w r x t ht
  cases r with
  | ok =>
    cases ht
    split
    · exact advances_record (by simp) w
    · exact .refl _ _ w
  | raised e landed =>
    cases ht
    exact .refl _ _ w
  | names l => cases ht

theorem advances_setEx {k : RedisKey} (hk : ∀ index, k ≠ .index index) (lifetime : Nat) :
    (command (World.setEx k lifetime)).Within (Advances ttl key) :=
  within_command (Advances.refl ttl key) fun _ => (aside_setEx hk lifetime).advances

theorem advances_keep {index : IndexKey} (h : index ≠ key) (p : String × Int → Bool) :
    (command (World.keep index p)).Within (Advances ttl key) :=
  within_command (Advances.refl ttl key) fun _ => (aside_keep h).advances

theorem advances_awaitTiles : awaitTiles.Within (Advances ttl key) := by
  apply within_call
  intro w r x t ht
  cases hg : w.gather with
  | none =>
    rw [hg] at ht
    cases r <;> cases ht
  | some g =>
    rw [hg] at ht
    cases r with
    | ok =>
      simp only at ht
      split at ht
      · cases ht
        have hdone : Advances ttl key w (w.record (.synced g.unit g.listed g.stored)) :=
          advances_record (by simp) w
        exact hdone.trans (Aside.quiet rfl rfl rfl).advances
      · cases ht
    | raised e landed =>
      cases e with
      | cancelled =>
        cases ht
        exact (Aside.quiet rfl rfl rfl).advances
      | error => cases ht
    | names l => cases ht

theorem advances_syncUnit (names : NameCode) (unit : UnitId) (lifetime : Nat) :
    (syncUnitToRedis names unit lifetime).Within (Advances ttl key) := by
  apply within_bind advances_listNames
  intro objects
  dsimp only
  split
  · exact within_bind (within_act fun w => advances_record (by simp) w) fun _ => trivial
  · apply within_bind (within_act fun w => (Aside.quiet rfl rfl rfl).advances)
    exact fun _ => within_bind advances_awaitTiles fun _ => trivial

theorem advances_pruneIndex {index : IndexKey} (h : index ≠ key) (keep : List String) :
    (pruneIndex index keep).Within (Advances ttl key) := by
  apply within_bind (advances_readMembers index)
  intro names
  unfold removeMembers
  split
  · trivial
  · exact advances_keep h _

include httl

theorem satellite_ne_key (channelDir : String) : IndexKey.satellite channelDir ≠ key := by
  rintro rfl
  cases httl

theorem radar_ne_key (network radarId variableId elevationId : String) :
    IndexKey.radars network ≠ key ∧ IndexKey.radarVariables network radarId ≠ key ∧
      IndexKey.radarElevations network radarId variableId ≠ key ∧
      IndexKey.radarTilesets network radarId variableId elevationId ≠ key := by
  refine ⟨?_, ?_, ?_, ?_⟩ <;> rintro rfl <;> cases httl

theorem advances_syncSatellitePrefix (now : Nat) (channelDir : String) :
    (syncSatellitePrefix cfg now channelDir).Within (Advances ttl key) := by
  have hne := satellite_ne_key httl channelDir
  apply within_bind advances_listNames
  intro tilesets
  apply within_bind (advances_readMembers _)
  intro existing
  apply within_bind (within_forEach fun tilesetId _ => ?_)
  · exact fun _ => advances_keep hne _
  · unfold syncSatelliteTileset
    split
    · trivial
    · apply within_bind (advances_syncUnit _ _ _)
      intro downloaded
      apply within_bind (advances_countDownloaded downloaded)
      intro _
      split
      · apply within_bind (within_command (Advances.refl ttl key) fun w => ?_)
        · intro _
          split
          · trivial
          · exact within_command (Advances.refl ttl key) fun w => (aside_expire hne _).advances
        · exact ((aside_add hne).trans (aside_record fun unit hu => by cases hu; exact hne)).advances
      · trivial

theorem advances_syncSatellitePrefixes (now : Nat) (channels : List String) (errors : Nat) :
    (syncSatellitePrefixes cfg now channels errors).Within (Advances ttl key) := by
  induction channels generalizing errors with
  | nil => trivial
  | cons channelDir channels ih =>
    apply within_bind
    · apply within_catchException
      · exact within_bind (advances_syncSatellitePrefix httl now channelDir) fun _ => trivial
      · trivial
    · exact fun failed => ih _

theorem advances_addRadarIndex (network radarId variableId elevationId tilesetId : String)
    (score lifetime : Nat) : Advances ttl key w
      (addRadarIndex network radarId variableId elevationId tilesetId score lifetime w) := by
  obtain ⟨hradars, hvariables, helevations, htilesets⟩ :=
    radar_ne_key httl network radarId variableId elevationId
  have hdimensions : Aside key w (((w.addFor (.radars network) radarId 0 lifetime).addFor
      (.radarVariables network radarId) variableId 0 lifetime).addFor
      (.radarElevations network radarId variableId) elevationId 0 lifetime) :=
    (aside_addFor hradars lifetime).trans
      ((aside_addFor hvariables lifetime).trans (aside_addFor helevations lifetime))
  exact (hdimensions.trans ((aside_addFor htilesets lifetime).trans
    (aside_record fun unit hu => by cases hu; exact htilesets))).advances

theorem advances_syncRadar (now : Nat) (network : String) :
    (syncRadar cfg now network).Within (Advances ttl key) := by
  have helevation : ∀ radarId variableId elevationId,
      (syncRadarElevation cfg now network radarId variableId elevationId).Within
        (Advances ttl key) := by
    intro radarId variableId elevationId
    unfold syncRadarElevation
    split
    · apply within_bind (advances_readMembers _)
      intro existing
      apply within_bind advances_listNames
      intro tilesets
      apply within_bind (within_forEach fun tilesetId _ => ?_)
      · exact fun _ => advances_keep (radar_ne_key httl network radarId variableId elevationId).2.2.2 _
      · unfold syncRadarTileset
        split
        · trivial
        · apply within_bind (advances_syncUnit _ _ _)
          intro downloaded
          split
          · apply within_bind (within_command (Advances.refl ttl key) fun w =>
              advances_addRadarIndex httl _ _ _ _ _ _ _)
            exact fun _ => advances_countDownloaded downloaded
          · trivial
    · trivial
  have hvariable : ∀ radarId variableId,
      (syncRadarVariable cfg now network radarId variableId).Within (Advances ttl key) :=
    fun radarId variableId => within_bind advances_listNames fun elevations =>
      within_forEach fun elevationId _ => helevation radarId variableId elevationId
  apply within_catchException
  · apply within_bind advances_listNames
    intro radars
    exact within_bind (within_forEach fun radarId _ => within_bind advances_listNames fun variableIds =>
      within_forEach fun variableId _ => hvariable radarId variableId) fun _ => trivial
  · trivial

theorem advances_syncWrfOverlays (productId initTag fxxx : String) :
    (syncWrfOverlays cfg productId initTag fxxx).Within (Advances ttl key) := by
  have hlayers : IndexKey.wrfLayers productId initTag fxxx ≠ key := by
    rintro rfl
    cases httl
  have hadd : ∀ layers w, Aside key w (addWrfLayers productId initTag fxxx layers cfg.wrfGeojsonTtl w) := by
    intro layers w
    refine Aside.trans ?_ (aside_expire hlayers _)
    induction layers generalizing w with
    | nil => exact .quiet rfl rfl rfl
    | cons layer layers ih => exact (aside_add hlayers).trans (ih _)
  apply within_bind (within_readExists (Advances.refl ttl key) _)
  intro done
  split
  · trivial
  · apply within_catchException
    · apply within_bind advances_listNames
      intro s3Layers
      split
      · exact advances_setEx (by simp) _
      · apply within_bind (advances_readMembers _)
        intro redisLayers
        unfold copyMissingLayers
        split
        · exact advances_setEx (by simp) _
        · apply within_bind (within_command (Advances.refl ttl key) fun w => (hadd s3Layers w).advances)
          intro _
          refine within_forEach fun layer _ => within_catchException ?_ trivial
          exact within_bind (within_fetchObject (Advances.refl ttl key)) fun _ =>
            advances_setEx (by simp) _
    · trivial

theorem advances_syncWrf : (syncWrf cfg).Within (Advances ttl key) := by
  have htiles : ∀ productId initTag existing fxxx,
      (syncWrfStepTiles cfg productId initTag existing fxxx).Within (Advances ttl key) := by
    intro productId initTag existing fxxx
    unfold syncWrfStepTiles
    split
    · trivial
    · apply within_bind (advances_syncUnit _ _ _)
      intro downloaded
      split
      · split
        · apply within_bind (within_command (Advances.refl ttl key) fun w =>
            advances_addWrfIndex httl _ _ _ _ _)
          exact fun _ => advances_countDownloaded downloaded
        · trivial
      · trivial
  have hinit : ∀ productId initTag,
      (syncWrfInit cfg productId initTag).Within (Advances ttl key) := by
    intro productId initTag
    apply within_bind advances_listNames
    intro steps
    apply within_bind (advances_readMembers _)
    exact fun existing => within_forEach fun fxxx _ => within_bind
      (htiles productId initTag existing fxxx) fun _ => advances_syncWrfOverlays httl _ _ _
  have hproduct : ∀ productId, (syncWrfProduct cfg productId).Within (Advances ttl key) := by
    intro productId
    have hne : IndexKey.wrfInitRuns productId ≠ key := by
      rintro rfl
      cases httl
    apply within_bind advances_listNames
    intro initTags
    apply within_bind (within_forEach fun initTag _ => hinit productId initTag)
    intro _
    split
    · trivial
    · exact advances_pruneIndex hne _
  apply within_catchException
  · apply within_bind advances_listNames
    exact fun products => within_bind (within_forEach fun productId _ => hproduct productId)
      fun _ => trivial
  · trivial

theorem advances_syncEcmwfTp : (syncEcmwfTp cfg).Within (Advances ttl key) := by
  have hforecasts : IndexKey.ecmwfTpForecasts ≠ key := by
    rintro rfl
    cases httl
  have hstore : ∀ forecastTs periods,
      (command (storeEcmwfTpIndex forecastTs periods cfg.ecmwfTileTtl)).Within (Advances ttl key) :=
    fun forecastTs periods => within_command (Advances.refl ttl key) fun w =>
      advances_storeEcmwfTpIndex httl forecastTs periods
  have hforecast : ∀ forecastTs,
      (syncEcmwfTpForecast cfg forecastTs).Within (Advances ttl key) := by
    intro forecastTs
    apply within_bind advances_listNames
    intro subdirs
    apply within_bind (advances_readMembers _)
    intro knownPeriods
    apply within_bind (within_forEach fun periodTs _ => ?_)
    · exact fun _ => hstore forecastTs _
    · apply within_bind (advances_syncUnit _ _ _)
      intro stored
      apply within_bind (advances_countDownloaded stored)
      intro _
      split
      · exact hstore forecastTs _
      · trivial
  apply within_catchException
  · apply within_bind advances_listNames
    intro subdirs
    refine within_bind ?_ fun _ => trivial
    unfold syncActiveForecasts
    split
    · trivial
    · apply within_bind (within_forEach fun forecastTs _ => hforecast forecastTs)
      exact fun _ => advances_pruneIndex hforecasts _
  · trivial

theorem advances_runSync (domain : Domain) : (runSync cfg domain).Within (Advances ttl key) := by
  have hdomain : ∀ now, (syncDomain cfg now domain).Within (Advances ttl key) := by
    intro now
    cases domain with
    | satellite => exact advances_syncSatellitePrefixes httl now _ 0
    | radar network => exact advances_syncRadar httl now network
    | wrf => exact advances_syncWrf httl
    | ecmwfTp => exact advances_syncEcmwfTp httl
  apply within_bind (within_act fun w => Advances.refl ttl key w)
  intro now
  apply within_bind (within_act fun w => ?_)
  · exact fun _ => within_bind (hdomain now) fun errors =>
      within_act fun w => advances_record (by simp) w
  · exact (advances_record (by simp) w).trans (aside_downloaded 0).advances

end Walk

section Run

variable {s s' : RenewalState} {a : Action}

/-- The renewals so far tell the members, and so will those of the running cycle. -/
structure Tracked (ttl : Nat) (key : IndexKey) (s : RenewalState) : Prop where
  tracks : Tracks ttl key s.renewals s.sync.world
  cycle : ∀ c, s.sync.main = some c → c.Within (Advances ttl key)

/-- What a move recorded is what its new events tell. -/
theorem tracks_advance (h : Advances ttl key w w') (hpast : Tracks ttl key past w) :
    Tracks ttl key (additions w.now (w'.log.take (w'.log.length - w.log.length)) ++ past) w' := by
  obtain ⟨-, events, hlog, htracks⟩ := h
  have hnew : w'.log.take (w'.log.length - w.log.length) = events := by
    rw [hlog, List.length_append, Nat.add_sub_cancel, List.take_left]
  rw [hnew]
  exact htracks past hpast

theorem arrive_world (p : Code Unit × World) : (arrive p).world = p.2 := by
  unfold arrive
  split <;> rfl

theorem arrive_main {p : Code Unit × World} {c : Code Unit} (h : (arrive p).main = some c) :
    p.1 = c := by
  unfold arrive at h
  split at h
  · cases h
  · cases h
  · exact Option.some.inj h

theorem tracked_arrive {p : Code Unit × World}
    (hmove : Advances ttl key s.sync.world p.2 ∧ p.1.Within (Advances ttl key))
    (hs : Tracked ttl key s) :
    Tracked ttl key ⟨arrive p, additions s.sync.world.now
      ((arrive p).world.log.take ((arrive p).world.log.length - s.sync.world.log.length)) ++
        s.renewals⟩ := by
  constructor
  · show Tracks ttl key _ (arrive p).world
    rw [arrive_world]
    exact tracks_advance hmove.1 hs.tracks
  · intro c hc
    obtain rfl := arrive_main hc
    exact hmove.2

theorem carried_evicted {index : IndexKey} (hne : index ≠ key) :
    Carried ttl ⟨key, name⟩ (.evicted index :: past) later ↔
      Carried ttl ⟨key, name⟩ past later := by
  rw [Carried]
  exact and_iff_right hne

theorem tracks_evict {k : RedisKey} (hpast : Tracks ttl key past w) :
    Tracks ttl key (newRenewals w (w.setRedis (w.redis.del k)) (.evict k) ++ past)
      (w.setRedis (w.redis.del k)) := by
  have haside : ∀ k', k' ≠ .index key → Aside key w (w.setRedis (w.redis.del k')) :=
    fun k' hne => .quiet rfl rfl (AList.lookup_erase_ne hne.symm)
  cases k with
  | index index =>
    by_cases hkey : index = key
    · subst hkey
      intro later hle name
      have hnone : memberNames (w.redis.del (.index index)) later index = [] := by
        rw [memberNames, members, Store.get_del_self]
        rfl
      have hgone : ¬ Carried ttl ⟨index, name⟩ (.evicted index :: past) later := fun h => h.1 rfl
      exact iff_of_false (by simp [World.setRedis, hnone]) hgone
    · intro later hle name
      have hsame := (haside (.index index) fun he => hkey (RedisKey.index.inj he)).slot
      rw [memberNames_of_lookup hsame]
      exact (hpast later hle name).trans (carried_evicted hkey).symm
  | tile | wrfGeojson | wrfOverlaysDone | ecmwfMslpGeojson | gfsGeojson =>
    exact tracks_advance (haside _ (by simp)).advances hpast

theorem aside_tileStep {names : NameCode} {i : Nat} {r : TileReply}
    (h : w.tileStep names i r = some w') : Aside key w w' := by
  obtain ⟨g, -, h⟩ := Option.bind_eq_some_iff.mp h
  have hland : ∀ k counted, Aside key w (w.landTile names g i k counted) := by
    intro k counted
    have hstore : Aside key w (w.storeTile names g k) := by
      unfold World.storeTile
      split
      · exact aside_setEx (by simp) _
      · exact .quiet rfl rfl rfl
    exact hstore.trans (.quiet rfl rfl rfl)
  split at h
  · cases h
    exact .quiet rfl rfl rfl
  · split at h
    · cases h
    · cases h
      exact hland _ _
  · split at h
    · cases h
    · cases h
      exact hland _ _
  · cases h
    exact .quiet rfl rfl rfl
  · cases h

/-- A step of a run keeps the renewals in step with the index. -/
theorem tracked_step (httl : cfg.modelTileTtl key = some ttl) (hs : Tracked ttl key s)
    (h : renewalStep cfg domain s a = some s') : Tracked ttl key s' := by
  obtain ⟨t, ht, rfl⟩ := Option.map_eq_some_iff.mp h
  cases a with
  | begin =>
    simp only [syncStep] at ht
    split at ht
    · cases ht
      exact tracked_arrive (within_settle (Advances.refl ttl key) (fun _ _ _ => Advances.trans)
        (advances_runSync httl domain) s.sync.world) hs
    · cases ht
  | tick seconds =>
    cases ht
    have hquiet : newRenewals s.sync.world { s.sync.world with now := s.sync.world.now + seconds }
        (.tick seconds) = [] := by
      simp [newRenewals, additions]
    refine ⟨?_, hs.cycle⟩
    rw [hquiet]
    exact fun later hle => hs.tracks later (Nat.le_trans (Nat.le_add_right _ _) hle)
  | evict k =>
    cases ht
    exact ⟨tracks_evict hs.tracks, hs.cycle⟩
  | tile i r =>
    obtain ⟨w, hw, rfl⟩ := Option.map_eq_some_iff.mp ht
    exact ⟨tracks_advance (aside_tileStep hw).advances hs.tracks, hs.cycle⟩
  | resume r =>
    obtain ⟨c, hc, hanswer⟩ := Option.bind_eq_some_iff.mp ht
    obtain ⟨p, hp, rfl⟩ := Option.map_eq_some_iff.mp hanswer
    exact tracked_arrive (within_answer (Advances.refl ttl key) (fun _ _ _ => Advances.trans)
      (hs.cycle c hc) hp) hs
  | kill =>
    cases ht
    exact ⟨tracks_advance (Aside.quiet rfl rfl rfl).advances hs.tracks, nofun⟩

/-- In every run, the members of the index of a model run are the units that additions to it have
carried to the present. -/
theorem mem_iff_carried (httl : cfg.modelTileTtl key = some ttl) {as : List Action}
    (h : run (renewalStep cfg domain) (.initial now) as = some s) (name : String) :
    name ∈ s.sync.world.memberNames key ↔
      Carried ttl ⟨key, name⟩ s.renewals s.sync.world.now := by
  have hstart : Tracked ttl key (.initial now) :=
    ⟨fun later _ name => iff_of_false (by rintro ⟨⟩) id, nofun⟩
  exact (run_invariant (fun _ _ _ hs hstep => tracked_step httl hs hstep) hstart h).tracks _
    (Nat.le_refl _) name

/-- The renewals stand beside a run of the loop and do not take part in it. -/
theorem syncReachable_of_run {as : List Action}
    (h : run (renewalStep cfg domain) (.initial now) as = some s) :
    SyncReachable cfg domain s.sync := by
  suffices hrun : ∀ u, run (renewalStep cfg domain) u as = some s →
      run (syncStep cfg domain) u.sync as = some s.sync from ⟨now, as, hrun _ h⟩
  clear h
  induction as with
  | nil =>
    intro u hu
    obtain rfl := Option.some.inj hu
    rfl
  | cons a as ih =>
    intro u hu
    obtain ⟨v, hv, hs⟩ := run_cons.mp hu
    obtain ⟨t, ht, rfl⟩ := Option.map_eq_some_iff.mp hv
    exact run_cons.mpr ⟨t, ht, ih _ hs⟩

end Run

end DataService.Sync
