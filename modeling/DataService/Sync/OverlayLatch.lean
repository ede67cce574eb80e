import DataService.Sync.OverlayNotes
import DataService.Sync.Reconciliation

/-! The marker that ends the passes over the overlays of a WRF step. A pass takes the layers
index as evidence that a layer was stored, and the index is written before the layers are
copied. -/

namespace DataService.Sync

open Coroutine Coro ExpiringStore

/-- The marker was set for good only when all that S3 listed had been stored, and a pass has
fetched all that was listed and owed when it began. -/
structure OverlaysMirrored (n : OverlayNotes) : Prop where
  latched : ∀ entry ∈ n.latched, entry.1 ⊆ entry.2
  retried : ∀ pass ∈ n.passes, ∀ layer ∈ pass.listed, layer ∈ pass.owedBefore →
    layer ∈ pass.fetched

/-- The index lists no layer that is owed. -/
def OwesNothing (key : IndexKey) (p : World × OverlayNotes) : Prop :=
  ∀ layer ∈ p.1.memberNames key, layer ∉ p.2.owed

instance (key : IndexKey) (p : World × OverlayNotes) : Decidable (OwesNothing key p) :=
  inferInstanceAs (Decidable (∀ layer ∈ p.1.memberNames key, layer ∉ p.2.owed))

/-- What is indexed has been stored or is owed. -/
structure Accounted (key : IndexKey) (p : World × OverlayNotes) : Prop where
  indexed : ∀ layer ∈ p.1.memberNames key, layer ∈ p.2.stored ∨ layer ∈ p.2.owed
  mirrored : OverlaysMirrored p.2

/-- The others add nothing to the index. -/
def Loses (key : IndexKey) (w w' : World) : Prop := w'.memberNames key ⊆ w.memberNames key

variable {cfg : SyncConfig} {productId initTag fxxx : String} {key : IndexKey}
  {p q : World × OverlayNotes} {n : OverlayNotes} {w : World}

theorem loses_setEx {k : RedisKey} (hk : ∀ i, k ≠ .index i) (w : World) (ttl : Nat) :
    Loses key w (w.setEx k ttl) := by
  rw [Loses, memberNames_setEx hk]
  exact List.Subset.refl _

section Accounted

theorem accounted_loses (h : Accounted key p) (hw : Loses key p.1 w) : Accounted key (w, p.2) where
  indexed layer hlayer := h.indexed layer (hw hlayer)
  mirrored := h.mirrored

theorem accounted_beside (h : Accounted key p) (hq : Beside (Loses key) p q) : Accounted key q := by
  obtain ⟨hw, hn⟩ := hq
  have hkept := accounted_loses h hw
  rw [← hn] at hkept
  exact hkept

/-- Notes that forget no layer, and conclude nothing. -/
theorem accounted_noted (h : Accounted key p)
    (hkept : ∀ layer, layer ∈ p.2.stored ∨ layer ∈ p.2.owed → layer ∈ n.stored ∨ layer ∈ n.owed)
    (hlatched : n.latched = p.2.latched) (hpasses : n.passes = p.2.passes) :
    Accounted key (p.1, n) where
  indexed layer hlayer := hkept layer (h.indexed layer hlayer)
  mirrored :=
    { latched := by
        rw [hlatched]
        exact h.mirrored.latched
      retried := by
        rw [hpasses]
        exact h.mirrored.retried }

theorem accounted_store (h : Accounted key p) (layer : String) :
    Accounted key (p.1, p.2.store layer) := by
  refine accounted_noted h (fun other hother => ?_) rfl rfl
  by_cases heq : other = layer
  · simp [OverlayNotes.store, heq]
  · simpa [OverlayNotes.store, heq] using hother

theorem accounted_register (h : Accounted key p) (layers : List String) :
    Accounted key (p.1, p.2.register layers) := by
  refine accounted_noted h (fun other hother => ?_) rfl rfl
  rcases hother with hstored | howed
  · exact .inl hstored
  · exact .inr (List.mem_append_left _ howed)

theorem accounted_fail (h : Accounted key p) (layer : String) :
    Accounted key (p.1, p.2.fail layer) := by
  refine accounted_noted h (fun other hother => ?_) rfl rfl
  by_cases heq : other = layer
  · simp [OverlayNotes.fail, heq]
  · simpa [OverlayNotes.fail, heq] using hother

theorem accounted_latch {listed : List String} (h : Accounted key p) (hlisted : listed ⊆ p.2.stored) :
    Accounted key (p.1, p.2.latch listed) where
  indexed := h.indexed
  mirrored :=
    { latched := by
        intro entry hentry
        rcases List.mem_append.mp hentry with hold | hnew
        · exact h.mirrored.latched entry hold
        · obtain rfl := List.mem_singleton.mp hnew
          exact hlisted
      retried := h.mirrored.retried }

theorem accounted_endPass {listed : List String} (h : Accounted key p)
    (hlisted : ∀ layer ∈ listed, layer ∈ p.2.owedBefore → layer ∈ p.2.fetched) :
    Accounted key (p.1, p.2.endPass listed) where
  indexed := h.indexed
  mirrored :=
    { latched := h.mirrored.latched
      retried := by
        intro pass hpass
        rcases List.mem_append.mp hpass with hold | hnew
        · exact h.mirrored.retried pass hold
        · obtain rfl := List.mem_singleton.mp hnew
          exact hlisted }

end Accounted

section Pass

/-- The running pass has fetched these layers since. -/
structure Fetched (key : IndexKey) (layers : List String) (p q : World × OverlayNotes) : Prop where
  accounted : Accounted key q
  fetched : q.2.fetched = p.2.fetched ++ layers
  owedBefore : q.2.owedBefore = p.2.owedBefore

theorem Fetched.beside {layers : List String} {u : World × OverlayNotes}
    (h : Fetched key layers p q) (hu : Beside (Loses key) q u) : Fetched key layers p u where
  accounted := accounted_beside h.accounted hu
  fetched := by rw [hu.2, h.fetched]
  owedBefore := by rw [hu.2, h.owedBefore]

theorem copyLayerNoted_safe (layer : String) (h : Accounted key p) :
    (copyLayerNoted cfg productId initTag fxxx layer).Safe (Beside (Loses key)) (Accounted key)
      (fun _ q => Fetched key [layer] p q) (fun _ q => Accounted key q) p := by
  have hfailed : ∀ q, Fetched key [layer] p q → Accounted key q ∧
      (jot (OverlayNotes.fail layer) : NotedCode OverlayNotes Unit).Safe (Beside (Loses key))
        (Accounted key) (fun _ q => Fetched key [layer] p q) (fun _ q => Accounted key q) q :=
    fun q hq => ⟨hq.accounted, safe_jot ⟨accounted_fail hq.accounted layer, hq.fetched,
      hq.owedBefore⟩⟩
  have hstart : Fetched key [layer] p (p.1, p.2.fetch layer) :=
    ⟨accounted_noted h (fun _ hlayer => hlayer) rfl rfl, rfl, rfl⟩
  apply safe_bind
  apply safe_jot
  apply safe_catchNoted
  apply safe_bind
  apply safe_notedFetch
  intro q hq
  have hfetching := hstart.beside hq
  refine ⟨hfetching.accounted, ?_, fun _ => hfailed q hfetching⟩
  apply safe_bind
  apply safe_notedCommand
  intro u hu
  have hstoring := hfetching.beside hu
  have hlanded : Fetched key [layer] p (u.1.setEx (.wrfGeojson productId initTag fxxx layer)
      cfg.wrfGeojsonTtl, u.2) := hstoring.beside ⟨loses_setEx (by simp) u.1 _, rfl⟩
  refine ⟨hstoring.accounted, safe_jot ?_, fun _ => ⟨hfailed u hstoring, hfailed _ hlanded⟩⟩
  exact ⟨accounted_store hlanded.accounted layer, hlanded.fetched, hlanded.owedBefore⟩

theorem copyLayersNoted_safe (layers : List String) (h : Accounted key p) :
    (forEachNoted (copyLayerNoted cfg productId initTag fxxx) layers).Safe (Beside (Loses key))
      (Accounted key) (fun _ q => Fetched key layers p q) (fun _ q => Accounted key q) p := by
  induction layers generalizing p with
  | nil => exact ⟨h, by simp, rfl⟩
  | cons layer layers ih =>
    apply safe_bind
    refine safe_mono (fun _ q hq => ?_) (fun _ _ he => he) (copyLayerNoted_safe layer h)
    refine safe_mono (fun _ u hu => ?_) (fun _ _ he => he) (ih hq.accounted)
    exact ⟨hu.accounted, by rw [hu.fetched, hq.fetched, List.append_assoc, List.singleton_append],
      hu.owedBefore.trans hq.owedBefore⟩

theorem mem_addWrfLayers {layers : List String} {ttl : Nat} {layer : String}
    (h : layer ∈ (addWrfLayers productId initTag fxxx layers ttl w).memberNames
      (.wrfLayers productId initTag fxxx)) :
    layer ∈ w.memberNames (.wrfLayers productId initTag fxxx) ∨ layer ∈ layers := by
  have hadded := memberNames_expire_subset ttl h
  clear h
  induction layers generalizing w with
  | nil => exact .inl hadded
  | cons other layers ih =>
    rcases ih hadded with hadd | hlater
    · rcases mem_add.mp hadd with hold | ⟨-, rfl⟩
      · exact .inl hold
      · exact .inr List.mem_cons_self
    · exact .inr (List.mem_cons_of_mem other hlater)

/-- Wherever the code stands or ends, what is indexed is accounted for. -/
abbrev KeepsAccount (key : IndexKey) (c : NotedCode OverlayNotes Unit)
    (p : World × OverlayNotes) : Prop :=
  c.Safe (Beside (Loses key)) (Accounted key) (fun _ q => Accounted key q)
    (fun _ q => Accounted key q) p

variable {s3Layers redisLayers : List String}

/-- Nothing that S3 listed is missing. -/
theorem latchNoted_safe (h : Accounted key p)
    (hlisted : ∀ layer ∈ s3Layers, layer ∈ p.2.stored ∧ layer ∉ p.2.owedBefore) :
    KeepsAccount key (do
      copyMissingNoted cfg productId initTag fxxx s3Layers []
      jot (OverlayNotes.endPass s3Layers)) p := by
  have hlatched := accounted_latch h fun layer hlayer => (hlisted layer hlayer).1
  apply safe_bind
  apply safe_bind
  apply safe_jot
  apply safe_notedCommand
  rintro ⟨u, n⟩ ⟨hu, hn⟩
  obtain rfl : n = p.2.latch s3Layers := hn
  have hkept := accounted_loses hlatched hu
  have hmarked := accounted_loses hkept (loses_setEx
    (k := .wrfOverlaysDone productId initTag fxxx) (by simp) u cfg.wrfGeojsonTtl)
  refine ⟨hkept, safe_jot ?_, fun _ => ⟨hkept, hmarked⟩⟩
  exact accounted_endPass hmarked fun layer hlayer howed => absurd howed (hlisted layer hlayer).2

/-- The index gains what S3 has listed; the layers that it lacked are owed from then on. -/
theorem accounted_addWrfLayers (s3Layers : List String) (ttl : Nat)
    (h : Accounted (.wrfLayers productId initTag fxxx) p)
    (hredis : ∀ layer ∈ redisLayers, layer ∈ p.2.stored) :
    Accounted (.wrfLayers productId initTag fxxx) (addWrfLayers productId initTag fxxx s3Layers ttl p.1,
      p.2.register (s3Layers.filter fun layer => layer ∉ redisLayers)) := by
  have hregistered := accounted_register h (s3Layers.filter fun layer => layer ∉ redisLayers)
  refine ⟨fun layer hlayer => ?_, hregistered.mirrored⟩
  rcases mem_addWrfLayers hlayer with hold | hnew
  · exact hregistered.indexed layer hold
  · by_cases hlisted : layer ∈ redisLayers
    · exact .inl (hredis layer hlisted)
    · exact .inr (List.mem_append_right _ (List.mem_filter.mpr ⟨hnew, decide_eq_true hlisted⟩))

theorem registerNoted_safe (h : Accounted (.wrfLayers productId initTag fxxx) p)
    (hredis : ∀ layer ∈ redisLayers, layer ∈ p.2.stored ∧ layer ∉ p.2.owedBefore)
    (hmissing : (s3Layers.filter fun layer => layer ∉ redisLayers) ≠ []) :
    KeepsAccount (.wrfLayers productId initTag fxxx) (do
      copyMissingNoted cfg productId initTag fxxx s3Layers
        (s3Layers.filter fun layer => layer ∉ redisLayers)
      jot (OverlayNotes.endPass s3Layers)) p := by
  rw [copyMissingNoted, if_neg hmissing]
  apply safe_bind
  apply safe_bind
  apply safe_jot
  apply safe_bind
  apply safe_notedCommand
  rintro ⟨u, n⟩ ⟨hu, hn⟩
  obtain rfl : n = p.2.register (s3Layers.filter fun layer => layer ∉ redisLayers) := hn
  have hkept := accounted_loses h hu
  have hregistered := accounted_register hkept (s3Layers.filter fun layer => layer ∉ redisLayers)
  have hindexed := accounted_addWrfLayers s3Layers cfg.wrfGeojsonTtl hkept
    fun layer hlayer => (hredis layer hlayer).1
  refine ⟨hregistered, ?_, fun _ => ⟨hregistered, hindexed⟩⟩
  refine safe_mono (fun _ v hv => safe_jot ?_) (fun _ _ he => he) (copyLayersNoted_safe _ hindexed)
  refine accounted_endPass hv.accounted fun layer hlayer howed => ?_
  have hnew : layer ∉ redisLayers := by
    rw [hv.owedBefore] at howed
    exact fun hlisted => (hredis layer hlisted).2 howed
  rw [hv.fetched]
  exact List.mem_append_right _ (List.mem_filter.mpr ⟨hlayer, decide_eq_true hnew⟩)

/-- A pass in which S3 has listed layers, from the reading of the index on. -/
theorem mirrorLayersNoted_safe (h : Accounted (.wrfLayers productId initTag fxxx) p)
    (howed : p.2.owedBefore = p.2.owed)
    (hpaid : OwesNothing (.wrfLayers productId initTag fxxx) p) :
    KeepsAccount (.wrfLayers productId initTag fxxx)
      (mirrorLayersNoted cfg productId initTag fxxx s3Layers) p := by
  apply safe_bind
  apply safe_notedMembers rfl
  rintro ⟨w, n⟩ hread
  have hq := accounted_beside h hread
  obtain ⟨hloses, hn⟩ := hread
  obtain rfl : n = p.2 := hn
  refine ⟨hq, ?_, fun _ => hq⟩
  -- what the index lists has been stored and is not owed
  have hredis : ∀ layer ∈ w.memberNames (.wrfLayers productId initTag fxxx),
      layer ∈ p.2.stored ∧ layer ∉ p.2.owedBefore := by
    intro layer hlayer
    have hnot := hpaid layer (hloses hlayer)
    exact ⟨(hq.indexed layer hlayer).resolve_right hnot, howed ▸ hnot⟩
  generalize w.memberNames (.wrfLayers productId initTag fxxx) = redisLayers at hredis ⊢
  by_cases hnone : (s3Layers.filter fun layer => layer ∉ redisLayers) = []
  · rw [hnone]
    refine latchNoted_safe hq fun layer hlayer => hredis layer ?_
    simpa using List.filter_eq_nil_iff.mp hnone layer hlayer
  · exact registerNoted_safe hq hredis hnone

/-- A pass that begins while the index lists nothing that is owed. -/
theorem syncOverlaysNoted_safe (h : Accounted (.wrfLayers productId initTag fxxx) p)
    (hpaid : OwesNothing (.wrfLayers productId initTag fxxx) p) :
    KeepsAccount (.wrfLayers productId initTag fxxx)
      (syncOverlaysNoted cfg productId initTag fxxx) p := by
  have hbegun : Accounted (.wrfLayers productId initTag fxxx) (p.1, p.2.beginPass) :=
    accounted_noted h (fun _ hlayer => hlayer) rfl rfl
  apply safe_bind
  apply safe_jot
  apply safe_bind
  apply safe_notedExists
  rintro ⟨u, n⟩ hu
  have hread := accounted_beside hbegun hu
  have hn : n = p.2.beginPass := hu.2
  refine ⟨hread, fun found => ?_, fun _ => hread⟩
  split
  · exact hread
  · apply safe_catchNoted
    apply safe_bind
    apply safe_notedNames
    rintro ⟨v, m⟩ hv
    have hlisted := accounted_beside hread hv
    have hm : m = p.2.beginPass := hv.2.trans hn
    subst hm
    refine ⟨hlisted, fun s3Layers => ?_, fun _ => ⟨hlisted, hlisted⟩⟩
    split
    · apply safe_notedCommand
      intro x hx
      have hkept := accounted_beside hlisted hx
      have hmarked := accounted_loses hkept (loses_setEx
        (k := .wrfOverlaysDone productId initTag fxxx) (by simp) x.1 cfg.wrfOverlayRecheckTtl)
      exact ⟨hkept, hmarked, fun _ => ⟨⟨hkept, hkept⟩, hmarked, hmarked⟩⟩
    · refine safe_mono (fun _ _ hq => hq) (fun _ q hq => ⟨hq, hq⟩)
        (mirrorLayersNoted_safe hlisted rfl ?_)
      exact fun layer hlayer => hpaid layer (hu.1 (hv.1 hlayer))

end Pass

/-- In every run of passes that each begin while the layers index lists no layer whose copy
failed or was cut off, the marker is set for good only when all that was listed is stored, and
every layer whose copy failed is fetched again by the next pass. -/
theorem overlays_mirrored_of_owes_nothing {μ : Type} (cfg : SyncConfig)
    (productId initTag fxxx : String) {other : World → μ → Option World}
    (hother : ∀ w m w', other w m = some w' → Loses (.wrfLayers productId initTag fxxx) w w')
    {w : World} (hfresh : w.memberNames (.wrfLayers productId initTag fxxx) = [])
    {as : List (Shift Reply μ)} {u : Worker World Reply SyncExn}
    (hbegin : StepSystem.Along
      (Worker.step (beside other) (syncOverlaysNoted cfg productId initTag fxxx))
      (fun v a => a = .begin → OwesNothing (.wrfLayers productId initTag fxxx) v.memory)
      ⟨(w, .empty), none⟩ as)
    (hrun : StepSystem.run (Worker.step other (syncWrfOverlays cfg productId initTag fxxx))
      ⟨w, none⟩ as = some u) :
    ∃ v, StepSystem.run (Worker.step (beside other) (syncOverlaysNoted cfg productId initTag fxxx))
        ⟨(w, .empty), none⟩ as = some v ∧ v.memory.1 = u.memory ∧ OverlaysMirrored v.memory.2 := by
  obtain ⟨v, hnoted, hmemory⟩ := Worker.noted_of_run annotates_syncOverlays OverlayNotes.empty hrun
  refine ⟨v, hnoted, hmemory, ?_⟩
  have hstart : Accounted (.wrfLayers productId initTag fxxx) (w, .empty) :=
    ⟨by simp [hfresh], by simp [OverlayNotes.empty], by simp [OverlayNotes.empty]⟩
  have hrefl : ∀ x, Loses (.wrfLayers productId initTag fxxx) x x := fun _ => List.Subset.refl _
  have htrans : ∀ x y z, Loses (.wrfLayers productId initTag fxxx) x y →
      Loses (.wrfLayers productId initTag fxxx) y z → Loses (.wrfLayers productId initTag fxxx) x z :=
    fun _ _ _ hxy hyz => List.Subset.trans hyz hxy
  have hbeside : ∀ (q : World × OverlayNotes) m t, beside other q m = some t →
      Beside (Loses (.wrfLayers productId initTag fxxx)) q t :=
    fun _ _ _ ht => beside_of_other hother ht
  have haccounted := Worker.invariant_along (Beside.refl hrefl) (fun _ _ _ => Beside.trans htrans)
    (fun q m t ht => ⟨hbeside q m t ht, fun hq => accounted_beside hq (hbeside q m t ht)⟩)
    (fun q hq hpaid => syncOverlaysNoted_safe hq hpaid) hstart hbegin hnoted
  exact haccounted.mirrored

/-- Time passes, or Redis drops a key. -/
inductive Meanwhile where
  | tick (seconds : Nat)
  | evict (key : RedisKey)
  deriving DecidableEq, Repr

def meanwhile (w : World) : Meanwhile → Option World
  | .tick seconds => some { w with now := w.now + seconds }
  | .evict key => some (w.setRedis (w.redis.del key))

theorem loses_meanwhile {m : Meanwhile} {w' : World} (h : meanwhile w m = some w') :
    Loses key w w' := by
  cases m with
  | tick seconds =>
    cases h
    exact memberNames_subset_of_get fun v hv => Store.get_later (Nat.le_add_right _ _) hv
  | evict k =>
    cases h
    apply memberNames_subset_of_get
    intro v hv
    by_cases hk : RedisKey.index key = k
    · rw [← hk, World.setRedis, Store.get_del_self] at hv
      cases hv
    · rwa [World.setRedis, Store.get_del_ne hk] at hv

def overlaySettings : SyncConfig :=
  { smallMirror.toSyncConfig with wrfGeojsonTtl := 600, wrfOverlayRecheckTtl := 60 }

/-- A pass that finds one layer to copy, up to the copy. -/
def upToCopy : List (Shift Reply Meanwhile) :=
  [.begin, .answer .ok, .answer (.names ["barbs"]), .answer .ok, .answer .ok]

/-- A pass that finds all layers in the index, and sets the marker. -/
def latching : List (Shift Reply Meanwhile) :=
  [.begin, .answer .ok, .answer (.names ["barbs"]), .answer .ok, .answer .ok]

/-- The copy fails, Redis drops the index, and the next pass copies the layer. -/
def copiedAtLast : List (Shift Reply Meanwhile) :=
  upToCopy ++ [Shift.answer (.raised .error false),
    .other (.evict (.index (.wrfLayers "t2m" "20260101_000000" "F001")))] ++
  upToCopy ++ [Shift.answer .ok, .answer .ok, .other (.tick 10)] ++ latching

theorem overlays_mirrored_at_last :
    ∃ v, StepSystem.run (Worker.step (beside meanwhile)
        (syncOverlaysNoted overlaySettings "t2m" "20260101_000000" "F001"))
        ⟨(.initial 100, .empty), none⟩ copiedAtLast = some v ∧ OverlaysMirrored v.memory.2 := by
  obtain ⟨u, hrun⟩ : ∃ u, StepSystem.run (Worker.step meanwhile
      (syncWrfOverlays overlaySettings "t2m" "20260101_000000" "F001"))
      ⟨.initial 100, none⟩ copiedAtLast = some u := ⟨_, rfl⟩
  obtain ⟨v, hnoted, -, hmirrored⟩ := overlays_mirrored_of_owes_nothing overlaySettings "t2m"
    "20260101_000000" "F001" (fun _ _ _ h => loses_meanwhile h) rfl (by decide) hrun
  exact ⟨v, hnoted, hmirrored⟩

/-- The copy fails, the next pass finds the layer in the index, and sets the marker for good
without a fetch. -/
theorem failed_copy_latched :
    ∃ v, StepSystem.run (Worker.step (beside meanwhile)
        (syncOverlaysNoted overlaySettings "t2m" "20260101_000000" "F001"))
        ⟨(.initial 100, .empty), none⟩
        (upToCopy ++ [.answer (.raised .error false)] ++ latching) = some v ∧
      v.memory.2.latched = [(["barbs"], [])] ∧
      v.memory.2.passes = [⟨["barbs"], [], ["barbs"]⟩, ⟨["barbs"], ["barbs"], []⟩] ∧
      v.memory.1.redis.lookup (.wrfOverlaysDone "t2m" "20260101_000000" "F001") =
        some ⟨.bytes, some 700⟩ ∧
      v.memory.1.redis.lookup (.wrfGeojson "t2m" "20260101_000000" "F001" "barbs") = none :=
  ⟨_, rfl, by decide, by decide, by decide, by decide⟩

end DataService.Sync
