import DataService.Lib.RelyGuarantee
import DataService.Sync.Loops

/-! What the commands of the loops leave of the indexes, and what may happen to them
while a loop waits. -/

namespace DataService.Sync

open Coroutine Coro ExpiringStore

variable {w w' : World} {key key' : IndexKey} {name name' : String} {names : NameCode}

theorem members_congr {redis redis' : Redis} {now now' : Nat}
    (h : redis'.get now' (.index key) = redis.get now (.index key)) :
    members redis' now' key = members redis now key := by
  simp [members, h]

theorem members_update (redis : Redis) (now : Nat) (l : List (String × Int)) :
    members (redis.update now (.index key) (.members l)) now key' =
      if key' = key then l else members redis now key' := by
  by_cases h : key' = key
  · subst h
    simp [members, Store.get_update_self]
  · have hne : RedisKey.index key' ≠ .index key := by
      intro he
      cases he
      exact h rfl
    rw [if_neg h]
    exact members_congr (Store.get_update_ne hne)

theorem members_del (redis : Redis) (now : Nat) :
    members (redis.del (.index key)) now key' = if key' = key then [] else members redis now key' := by
  by_cases h : key' = key
  · subst h
    simp [members, Store.get_del_self]
  · have hne : RedisKey.index key' ≠ .index key := by
      intro he
      cases he
      exact h rfl
    rw [if_neg h]
    exact members_congr (Store.get_del_ne hne)

/-- An index has no member that another does not have, as a rule of `get`. -/
theorem members_subset_of_get {redis redis' : Redis} {now now' : Nat}
    (h : ∀ v, redis'.get now' (.index key) = some v → redis.get now (.index key) = some v) :
    members redis' now' key ⊆ members redis now key := by
  intro p hp
  unfold members at hp
  split at hp
  · rename_i l hl
    simpa [members, h _ hl] using hp
  · cases hp

theorem memberNames_subset_of_get {redis redis' : Redis} {now now' : Nat}
    (h : ∀ v, redis'.get now' (.index key) = some v → redis.get now (.index key) = some v) :
    memberNames redis' now' key ⊆ memberNames redis now key := by
  intro name hn
  obtain ⟨p, hp, rfl⟩ := List.mem_map.mp hn
  exact List.mem_map_of_mem (members_subset_of_get h hp)

/-- The indexes of units have lost members, if anything, and gained none. -/
def Shrinks (w w' : World) : Prop :=
  ∀ key, key.listsUnits → w'.memberNames key ⊆ w.memberNames key

theorem Shrinks.refl (w : World) : Shrinks w w := fun _ _ _ h => h

theorem Shrinks.trans {u : World} (h : Shrinks w w') (h' : Shrinks w' u) : Shrinks w u :=
  fun key hk => List.Subset.trans (h' key hk) (h key hk)

theorem mem_add {score : Int} :
    name' ∈ (w.add key name score).memberNames key' ↔
      name' ∈ w.memberNames key' ∨ (key' = key ∧ name' = name) := by
  simp only [World.memberNames, memberNames, World.add, World.setRedis, members_update]
  by_cases h : key' = key
  · subst h
    rw [if_pos rfl]
    constructor
    · intro hm
      rcases List.mem_append.mp (by simpa only [List.map_append] using hm) with hm | hm
      · obtain ⟨p, hp, rfl⟩ := List.mem_map.mp hm
        exact .inl (List.mem_map_of_mem (List.mem_of_mem_filter hp))
      · exact .inr ⟨rfl, by simpa using hm⟩
    · intro hm
      rw [List.map_append, List.mem_append]
      by_cases hn : name' = name
      · exact .inr (by simp [hn])
      · obtain ⟨p, hp, rfl⟩ := List.mem_map.mp (hm.resolve_right fun hh => hn hh.2)
        exact .inl (List.mem_map_of_mem (List.mem_filter.mpr ⟨hp, by simpa using hn⟩))
  · rw [if_neg h]
    simp [h]

theorem shrinks_add_dimension {score : Int} (hk : key.listsUnits = false) :
    Shrinks w (w.add key name score) := by
  intro k hl n hn
  rcases mem_add.mp hn with hn | ⟨rfl, -⟩
  · exact hn
  · rw [hk] at hl
    cases hl

/-- A new deadline brings no member back. -/
theorem memberNames_expire_subset (ttl : Nat) :
    (w.expire key ttl).memberNames key' ⊆ w.memberNames key' := by
  apply memberNames_subset_of_get
  intro v hv
  by_cases h : key' = key
  · subst h
    exact Store.get_expire_self hv
  · have hne : RedisKey.index key' ≠ .index key := by
      intro he
      cases he
      exact h rfl
    rwa [World.expire, World.setRedis, Store.get_expire_ne hne] at hv

theorem shrinks_expire (ttl : Nat) : Shrinks w (w.expire key ttl) :=
  fun _ _ => memberNames_expire_subset ttl

theorem shrinks_addFor {score : Int} {ttl : Nat} (hk : key.listsUnits = false) :
    Shrinks w (w.addFor key name score ttl) :=
  (shrinks_add_dimension hk).trans (shrinks_expire ttl)

theorem mem_addFor {score : Int} {ttl : Nat} (hk : key'.listsUnits)
    (h : name' ∈ (w.addFor key name score ttl).memberNames key') :
    name' ∈ w.memberNames key' ∨ (key' = key ∧ name' = name) :=
  mem_add.mp (shrinks_expire ttl key' hk h)

@[simp] theorem record_memberNames (e : Event) : (w.record e).memberNames key = w.memberNames key :=
  rfl

@[simp] theorem addFor_log (score : Int) (ttl : Nat) : (w.addFor key name score ttl).log = w.log :=
  rfl

@[simp] theorem addFor_now (score : Int) (ttl : Nat) : (w.addFor key name score ttl).now = w.now :=
  rfl

theorem keep_log (p : String × Int → Bool) : (w.keep key p).log = w.log := by
  unfold World.keep
  split <;> rfl

theorem keep_now (p : String × Int → Bool) : (w.keep key p).now = w.now := by
  unfold World.keep
  split <;> rfl

theorem shrinks_keep (p : String × Int → Bool) : Shrinks w (w.keep key p) := by
  intro k _ n hn
  unfold World.keep at hn
  split at hn
  · simp only [World.memberNames, memberNames, World.setRedis, members_del] at hn
    by_cases h : k = key
    · rw [if_pos h] at hn
      cases hn
    · rw [if_neg h] at hn
      exact hn
  · simp only [World.memberNames, memberNames, World.setRedis, members_update] at hn
    by_cases h : k = key
    · subst h
      rw [if_pos rfl] at hn
      obtain ⟨q, hq, rfl⟩ := List.mem_map.mp hn
      exact List.mem_map_of_mem (List.mem_of_mem_filter hq)
    · rw [if_neg h] at hn
      exact hn

theorem shrinks_setEx {k : RedisKey} (hk : ∀ i, k ≠ .index i) (ttl : Nat) :
    Shrinks w (w.setEx k ttl) := by
  intro i _
  apply memberNames_subset_of_get
  intro v hv
  rwa [World.setEx, World.setRedis, Store.get_put_ne (fun h => hk i h.symm)] at hv

theorem shrinks_storeTile (g : Gather) (key : String) : Shrinks w (w.storeTile names g key) := by
  unfold World.storeTile
  split
  · exact shrinks_setEx (by simp) _
  · exact .refl w

theorem memberNames_congr (h : w'.redis.get w'.now (.index key) = w.redis.get w.now (.index key)) :
    w'.memberNames key = w.memberNames key := by
  rw [World.memberNames, World.memberNames, memberNames, memberNames, members_congr h]

theorem memberNames_expire {ttl : Nat} (h : key' = key → 0 < ttl) :
    (w.expire key ttl).memberNames key' = w.memberNames key' := by
  apply memberNames_congr
  by_cases hkey : key' = key
  · exact Store.get_expire_pos (h hkey)
  · exact Store.get_expire_ne fun he => hkey (RedisKey.index.inj he)

theorem memberNames_setEx {k : RedisKey} (hk : ∀ i, k ≠ .index i) (ttl : Nat) :
    (w.setEx k ttl).memberNames key = w.memberNames key :=
  memberNames_congr (Store.get_put_ne (hk key).symm _)

theorem mem_addFor_iff {score : Int} {ttl : Nat} (h : 0 < ttl) :
    name' ∈ (w.addFor key name score ttl).memberNames key' ↔
      name' ∈ w.memberNames key' ∨ (key' = key ∧ name' = name) := by
  rw [World.addFor, memberNames_expire fun _ => h, mem_add]

theorem memberNames_keep {p : String × Int → Bool} :
    (w.keep key p).memberNames key = ((members w.redis w.now key).filter p).map Prod.fst := by
  unfold World.keep
  split
  · rename_i h
    simp [World.memberNames, memberNames, World.setRedis, members_del, h]
  · simp [World.memberNames, memberNames, World.setRedis, members_update]

theorem mem_memberNames_remove {stale : List String} :
    name ∈ (w.keep key fun p => decide (p.1 ∉ stale)).memberNames key ↔
      name ∈ w.memberNames key ∧ name ∉ stale := by
  rw [memberNames_keep, World.memberNames, memberNames]
  constructor
  · intro h
    obtain ⟨p, hp, rfl⟩ := List.mem_map.mp h
    obtain ⟨hmem, hstale⟩ := List.mem_filter.mp hp
    exact ⟨List.mem_map_of_mem hmem, of_decide_eq_true hstale⟩
  · rintro ⟨h, hstale⟩
    obtain ⟨p, hp, rfl⟩ := List.mem_map.mp h
    exact List.mem_map_of_mem (List.mem_filter.mpr ⟨hp, decide_eq_true hstale⟩)

section Others

variable {k : RedisKey}

/-- A command to an index does not show at other keys. -/
theorem get_add_ne {score : Int} (h : k ≠ .index key) :
    (w.add key name score).redis.get (w.add key name score).now k = w.redis.get w.now k :=
  Store.get_update_ne h

theorem get_addFor_ne {score : Int} {ttl : Nat} (h : k ≠ .index key) :
    (w.addFor key name score ttl).redis.get (w.addFor key name score ttl).now k =
      w.redis.get w.now k :=
  (Store.get_expire_ne h).trans (get_add_ne h)

theorem get_keep_ne {p : String × Int → Bool} (h : k ≠ .index key) :
    (w.keep key p).redis.get (w.keep key p).now k = w.redis.get w.now k := by
  unfold World.keep
  split
  · exact Store.get_del_ne h
  · exact Store.get_update_ne h

theorem get_addAll_ne {layers : List String} {ttl : Nat} (h : k ≠ .index key) :
    ((layers.foldl (fun w layer => w.add key layer 0) w).expire key ttl).redis.get
        ((layers.foldl (fun w layer => w.add key layer 0) w).expire key ttl).now k =
      w.redis.get w.now k := by
  refine (Store.get_expire_ne h).trans ?_
  induction layers generalizing w with
  | nil => rfl
  | cons layer layers ih => exact ih.trans (get_add_ne h)

theorem mem_addAll {layers : List String} {ttl : Nat} (h : 0 < ttl) :
    name' ∈ ((layers.foldl (fun w layer => w.add key layer 0) w).expire key ttl).memberNames key' ↔
      name' ∈ w.memberNames key' ∨ (key' = key ∧ name' ∈ layers) := by
  rw [memberNames_expire fun _ => h]
  induction layers generalizing w with
  | nil => simp
  | cons layer layers ih =>
    rw [List.foldl_cons, ih, mem_add, List.mem_cons]
    tauto

end Others

theorem nodup_sortDescending {l : List String} (h : l.Nodup) : (sortDescending l).Nodup :=
  (List.perm_insertionSort _ l).nodup_iff.mpr h

theorem sorted_sortAscending {l : List String} (h : l.Nodup) :
    (sortAscending l).Pairwise (· < ·) := by
  have hsorted : (sortAscending l).Pairwise (· ≤ ·) := List.pairwise_insertionSort _ _
  have hnodup : (sortAscending l).Nodup := (List.perm_insertionSort _ l).nodup_iff.mpr h
  exact (hsorted.and hnodup).imp fun hboth => lt_of_le_of_ne hboth.1 hboth.2

theorem sorted_sortDescending {l : List String} (h : l.Nodup) :
    (sortDescending l).Pairwise (· > ·) := by
  have hsorted : (sortDescending l).Pairwise (· ≥ ·) := List.pairwise_insertionSort _ _
  exact (hsorted.and (nodup_sortDescending h)).imp fun hboth => lt_of_le_of_ne hboth.1 hboth.2.symm

theorem newest_ne_nil {runs : List String} {n : Nat} (hn : 0 < n) (h : runs ≠ []) :
    (sortDescending runs).take n ≠ [] := by
  have hsort : sortDescending runs ≠ [] := by
    intro hnil
    have hperm := List.perm_insertionSort (· ≥ ·) runs
    rw [← sortDescending, hnil] at hperm
    exact h hperm.nil_eq.symm
  simp [List.take_eq_nil_iff, hsort]
  omega

section Moves

variable {α : Type} {F : World → World → Prop}

/-- Reading moves nothing, and a command moves Redis as far as it lands. -/
theorem within_command (hrefl : ∀ w, F w w) {f : World → World} (h : ∀ w, F w (f w)) :
    (command f).Within F := by
  apply within_call
  intro w r x t ht
  cases r with
  | ok =>
    cases ht
    exact h w
  | raised e landed =>
    cases landed <;> cases ht
    · exact hrefl w
    · exact h w
  | names l => cases ht

theorem within_listNames (hrefl : ∀ w, F w w) : listNames.Within F := by
  apply within_call
  intro w r x t ht
  cases r <;> cases ht <;> exact hrefl w

theorem within_fetchObject (hrefl : ∀ w, F w w) : fetchObject.Within F := by
  apply within_call
  intro w r x t ht
  cases r <;> cases ht <;> exact hrefl w

theorem within_readExists (hrefl : ∀ w, F w w) (k : RedisKey) : (readExists k).Within F := by
  apply within_call
  intro w r x t ht
  cases r <;> cases ht <;> exact hrefl w

theorem within_readMembers (hrefl : ∀ w, F w w) (hrecord : ∀ w e, F w (w.record e))
    (key : IndexKey) : (readMembers key).Within F := by
  apply within_call
  intro w r x t ht
  cases r with
  | ok =>
    cases ht
    split
    · exact hrecord w _
    · exact hrefl w
  | raised e landed =>
    cases ht
    exact hrefl w
  | names l => cases ht

theorem within_catchException {body handler : Code α} (h : body.Within F)
    (hhandler : handler.Within F) : (catchException body handler).Within F := by
  apply within_tryCatch h
  intro e
  split
  · trivial
  · exact hhandler

theorem within_forEach {f : α → Code Unit} {l : List α} (h : ∀ a ∈ l, (f a).Within F) :
    (forEach f l).Within F := by
  induction l with
  | nil => trivial
  | cons a l ih =>
    exact within_bind (h a List.mem_cons_self) fun _ => ih fun b hb => h b (List.mem_cons_of_mem a hb)

theorem within_pruneIndex (hrefl : ∀ w, F w w) (hrecord : ∀ w e, F w (w.record e))
    (h : ∀ w p, F w (w.keep key p)) (keep : List String) : (pruneIndex key keep).Within F := by
  apply within_bind (within_readMembers hrefl hrecord key)
  intro names
  unfold removeMembers
  split
  · trivial
  · exact within_command hrefl fun w => h w _

end Moves

/-- What may happen while a loop waits: time passes, keys go, its tile tasks move on. -/
structure Nudge (w w' : World) : Prop where
  log : w'.log = w.log
  now : w.now ≤ w'.now
  indexes : Shrinks w w'
  idle : w.gather = none → w'.gather = none
  gather : ∀ g, w.gather = some g → ∃ g', w'.gather = some g' ∧ g'.unit = g.unit ∧
    g'.listed = g.listed ∧ ∀ p ∈ g'.stored, p ∈ g.stored ∨ w.now ≤ p.time

theorem Nudge.refl (w : World) : Nudge w w :=
  ⟨rfl, Nat.le_refl _, .refl w, id, fun g h => ⟨g, h, rfl, rfl, fun _ hp => .inl hp⟩⟩

theorem Nudge.trans {u : World} (h : Nudge w w') (h' : Nudge w' u) : Nudge w u where
  log := h'.log.trans h.log
  now := h.now.trans h'.now
  indexes := h.indexes.trans h'.indexes
  idle hg := h'.idle (h.idle hg)
  gather g hg := by
    obtain ⟨g', hg', hu, hl, hs⟩ := h.gather g hg
    obtain ⟨g'', hg'', hu', hl', hs'⟩ := h'.gather g' hg'
    refine ⟨g'', hg'', hu'.trans hu, hl'.trans hl, ?_⟩
    intro p hp
    rcases hs' p hp with hp | hp
    · exact hs p hp
    · exact .inr (h.now.trans hp)

theorem nudge_tick (w : World) (seconds : Nat) : Nudge w { w with now := w.now + seconds } where
  log := rfl
  now := Nat.le_add_right _ _
  indexes _ _ := memberNames_subset_of_get fun _ hv => Store.get_later (Nat.le_add_right _ _) hv
  idle := id
  gather g hg := ⟨g, hg, rfl, rfl, fun _ hp => .inl hp⟩

theorem nudge_evict (w : World) (k : RedisKey) : Nudge w (w.setRedis (w.redis.del k)) where
  log := rfl
  now := Nat.le_refl _
  indexes key _ := by
    apply memberNames_subset_of_get
    intro v hv
    by_cases h : RedisKey.index key = k
    · subst h
      rw [World.setRedis, Store.get_del_self] at hv
      cases hv
    · rwa [World.setRedis, Store.get_del_ne h] at hv
  idle := id
  gather g hg := ⟨g, hg, rfl, rfl, fun _ hp => .inl hp⟩

theorem storeTile_log (g : Gather) (key : String) : (w.storeTile names g key).log = w.log := by
  unfold World.storeTile
  split <;> rfl

theorem storeTile_now (g : Gather) (key : String) : (w.storeTile names g key).now = w.now := by
  unfold World.storeTile
  split <;> rfl

/-- A tile reaches Redis or not; the unit of the tasks and its listing stay. -/
theorem nudge_tile {i : Nat} {r : TileReply} (h : w.tileStep names i r = some w') :
    Nudge w w' := by
  obtain ⟨g, hg, h⟩ := Option.bind_eq_some_iff.mp h
  have hkeep : ∀ u : World, u.log = w.log → u.now = w.now → Shrinks w u →
      ∀ g' : Gather, g'.unit = g.unit → g'.listed = g.listed →
        (∀ p ∈ g'.stored, p ∈ g.stored ∨ w.now ≤ p.time) → Nudge w { u with gather := some g' } := by
    intro u hl hn hs g' hu hli hst
    refine ⟨hl, hn.ge, hs, fun hnone => ?_, fun g₀ hg₀ => ?_⟩
    · rw [hg] at hnone
      cases hnone
    · obtain rfl : g = g₀ := Option.some.inj (hg.symm.trans hg₀)
      exact ⟨g', rfl, hu, hli, hst⟩
  have hland : ∀ key counted, Nudge w (w.landTile names g i key counted) := by
    intro key counted
    have hst : ∀ p ∈ g.stored ++ [⟨key, w.now, counted⟩], p ∈ g.stored ∨ w.now ≤ p.time := by
      intro p hp
      rcases List.mem_append.mp hp with hp | hp
      · exact .inl hp
      · obtain rfl := List.mem_singleton.mp hp
        exact .inr (Nat.le_refl _)
    exact hkeep _ (storeTile_log g key) (storeTile_now g key) (shrinks_storeTile g key)
      ⟨g.unit, g.ttl, g.listed, g.tasks.eraseIdx i, _⟩ rfl rfl hst
  split at h
  · cases h
    exact hkeep w rfl rfl (.refl w) _ rfl rfl fun p hp => .inl hp
  · split at h
    · cases h
    · cases h
      exact hland _ _
  · split at h
    · cases h
    · cases h
      exact hland _ _
  · cases h
    exact hkeep w rfl rfl (.refl w) _ rfl rfl fun p hp => .inl hp
  · cases h

end DataService.Sync
