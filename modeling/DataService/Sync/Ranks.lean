import DataService.Sync.Site

/-! Sorted sets in Redis: every command keeps each member once, with a score that its name
allows. -/

namespace DataService.Sync

open Coroutine Coro ExpiringStore

/-- The members of an index are distinct, and their scores are as `R` says. -/
structure KeyRanked (R : String → Int → Prop) (key : IndexKey) (w : World) : Prop where
  nodup : (w.memberNames key).Nodup
  scores : ∀ p ∈ members w.redis w.now key, R p.1 p.2

variable {R : String → Int → Prop} {w w' : World} {key key' : IndexKey}

theorem keyRanked_of_sublist
    (h : (members w'.redis w'.now key).Sublist (members w.redis w.now key))
    (hw : KeyRanked R key w) : KeyRanked R key w' :=
  ⟨(h.map Prod.fst).nodup hw.nodup, fun p hp => hw.scores p (h.subset hp)⟩

theorem members_sublist_of_get {redis redis' : Redis} {now now' : Nat}
    (h : ∀ v, redis'.get now' (.index key) = some v → redis.get now (.index key) = some v) :
    (members redis' now' key).Sublist (members redis now key) := by
  unfold members
  split
  · rename_i l hl
    rw [h _ hl]
  · exact List.nil_sublist _

theorem keyRanked_of_get
    (h : ∀ v, w'.redis.get w'.now (.index key) = some v →
      w.redis.get w.now (.index key) = some v)
    (hw : KeyRanked R key w) : KeyRanked R key w' :=
  keyRanked_of_sublist (members_sublist_of_get h) hw

theorem keyRanked_expire (ttl : Nat) (hw : KeyRanked R key w) :
    KeyRanked R key (w.expire key' ttl) := by
  refine keyRanked_of_get (fun v hv => ?_) hw
  by_cases hkey : key = key'
  · subst hkey
    exact Store.get_expire_self hv
  · rwa [World.expire, World.setRedis, Store.get_expire_ne (by simpa using hkey)] at hv

theorem keyRanked_setEx {k : RedisKey} {ttl : Nat} (hk : ∀ i, k ≠ .index i)
    (hw : KeyRanked R key w) : KeyRanked R key (w.setEx k ttl) := by
  refine keyRanked_of_get (fun v hv => ?_) hw
  rwa [World.setEx, World.setRedis, Store.get_put_ne (hk _).symm] at hv

theorem keyRanked_later (seconds : Nat) (hw : KeyRanked R key w) :
    KeyRanked R key { w with now := w.now + seconds } :=
  keyRanked_of_get (fun _ hv => Store.get_later (Nat.le_add_right _ _) hv) hw

theorem keyRanked_evict (k : RedisKey) (hw : KeyRanked R key w) :
    KeyRanked R key (w.setRedis (w.redis.del k)) := by
  refine keyRanked_of_get (fun v hv => ?_) hw
  by_cases hkey : RedisKey.index key = k
  · subst hkey
    rw [World.setRedis, Store.get_del_self] at hv
    cases hv
  · rwa [World.setRedis, Store.get_del_ne hkey] at hv

theorem keyRanked_add {name : String} {score : Int} (hscore : key = key' → R name score)
    (hw : KeyRanked R key w) : KeyRanked R key (w.add key' name score) := by
  by_cases hkey : key = key'
  · subst hkey
    have hmembers : members (w.add key name score).redis (w.add key name score).now key =
        (members w.redis w.now key).filter (fun p => p.1 ≠ name) ++ [(name, score)] := by
      simp only [World.add, World.setRedis, members_update, if_true]
    constructor
    · rw [World.memberNames, memberNames, hmembers, List.map_append, List.nodup_append]
      refine ⟨(List.filter_sublist.map Prod.fst).nodup hw.nodup, by simp, ?_⟩
      rintro n hn n' hn' rfl
      obtain ⟨p, hp, rfl⟩ := List.mem_map.mp hn
      have hne : p.1 ≠ name := of_decide_eq_true (List.mem_filter.mp hp).2
      exact hne (by simpa using hn')
    · intro p hp
      rw [hmembers] at hp
      rcases List.mem_append.mp hp with hp | hp
      · exact hw.scores p (List.mem_of_mem_filter hp)
      · obtain rfl := List.mem_singleton.mp hp
        exact hscore rfl
  · refine keyRanked_of_get (fun v hv => ?_) hw
    rwa [get_add_ne (by simpa using hkey)] at hv

theorem keyRanked_addFor {name : String} {score : Int} {ttl : Nat}
    (hscore : key = key' → R name score) (hw : KeyRanked R key w) :
    KeyRanked R key (w.addFor key' name score ttl) :=
  keyRanked_expire ttl (keyRanked_add hscore hw)

theorem keyRanked_keep {p : String × Int → Bool} (hw : KeyRanked R key w) :
    KeyRanked R key (w.keep key' p) := by
  refine keyRanked_of_sublist ?_ hw
  unfold World.keep
  split
  · simp only [World.setRedis, members_del]
    split
    · exact List.nil_sublist _
    · exact List.Sublist.refl _
  · simp only [World.setRedis, members_update]
    split
    · rename_i hkey
      rw [hkey]
      exact List.filter_sublist
    · exact List.Sublist.refl _

/-- A set of layers, to which a list is added at once. -/
theorem keyRanked_addAll {layers : List String} {ttl : Nat}
    (hscore : ∀ layer ∈ layers, key = key' → R layer 0) (hw : KeyRanked R key w) :
    KeyRanked R key ((layers.foldl (fun w layer => w.add key' layer 0) w).expire key' ttl) := by
  apply keyRanked_expire
  induction layers generalizing w with
  | nil => exact hw
  | cons layer layers ih =>
    have hrest : ∀ other ∈ layers, key = key' → R other 0 := fun other ho =>
      hscore other (List.mem_cons_of_mem layer ho)
    exact ih hrest (keyRanked_add (hscore layer List.mem_cons_self) hw)

theorem keyRanked_initial (now : Nat) : KeyRanked R key (World.initial now) :=
  ⟨List.nodup_nil, fun p hp => by cases hp⟩

/-- A move that keeps the index ranked. -/
def KeyRankedMove (R : String → Int → Prop) (key : IndexKey) (w w' : World) : Prop :=
  KeyRanked R key w → KeyRanked R key w'

end DataService.Sync
