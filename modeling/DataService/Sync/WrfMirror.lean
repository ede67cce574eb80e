import Mathlib.Data.Set.Basic
import DataService.Sync.Frame
import DataService.Sync.WrfSync

/-! The WRF indexes and tiles as sets. A cycle adds the steps that S3 has and the index does
not, and takes the runs that are not active out of the index of runs. -/

namespace DataService.Sync

open Coroutine Coro ExpiringStore NumberText

/-- A forecast step of a run of a product. -/
@[ext]
structure WrfStep where
  productId : String
  initTag : String
  fxxx : String
  deriving DecidableEq, Repr

abbrev Spot := Int × Int × Int

@[ext]
structure WrfMirror where
  products : Set String
  /-- runs, each with its product -/
  inits : Set (String × String)
  steps : Set WrfStep
  tiles : Set (WrfStep × Spot)

namespace WrfMirror

variable {m : WrfMirror} {S S' : Set WrfStep} {spots : WrfStep → List Spot}

def store (step : WrfStep) (l : List Spot) (m : WrfMirror) : WrfMirror :=
  { m with tiles := m.tiles ∪ {t | t.1 = step ∧ t.2 ∈ l} }

/-- The steps enter the indexes, with their tiles. -/
def add (spots : WrfStep → List Spot) (S : Set WrfStep) (m : WrfMirror) : WrfMirror where
  products := m.products ∪ {p | ∃ s ∈ S, s.productId = p}
  inits := m.inits ∪ {r | ∃ s ∈ S, s.productId = r.1 ∧ s.initTag = r.2}
  steps := m.steps ∪ S
  tiles := m.tiles ∪ {t | t.1 ∈ S ∧ t.2 ∈ spots t.1}

def prune (productId : String) (keep : List String) (m : WrfMirror) : WrfMirror :=
  { m with inits := {r | r ∈ m.inits ∧ (r.1 = productId → r.2 ∈ keep)} }

@[simp] theorem store_nil (step : WrfStep) : m.store step [] = m := by
  ext <;> simp [store]

theorem store_append (step : WrfStep) (l l' : List Spot) :
    (m.store step l).store step l' = m.store step (l ++ l') := by
  ext x
  · rfl
  · rfl
  · rfl
  · simp only [store, Set.mem_union, Set.mem_ofPred_eq, List.mem_append]
    tauto

@[simp] theorem add_empty : m.add spots ∅ = m := by
  ext <;> simp [add]

theorem add_union : (m.add spots S).add spots S' = m.add spots (S ∪ S') := by
  ext x
  · simp only [add, Set.mem_union, Set.mem_ofPred_eq]
    grind
  · simp only [add, Set.mem_union, Set.mem_ofPred_eq]
    grind
  · simp only [add, Set.mem_union]
    tauto
  · simp only [add, Set.mem_union, Set.mem_ofPred_eq]
    tauto

/-- The tiles of a step first, and then its index entries. -/
theorem add_store (step : WrfStep) :
    (m.store step (spots step)).add (fun _ => []) {step} = m.add spots {step} := by
  apply WrfMirror.ext
  · rfl
  · rfl
  · rfl
  · ext t
    simp only [add, store, Set.mem_union, Set.mem_ofPred_eq, Set.mem_singleton_iff, List.not_mem_nil,
      and_false, or_false]
    constructor
    · rintro (h | ⟨rfl, h⟩)
      · exact .inl h
      · exact .inr ⟨rfl, h⟩
    · rintro (h | ⟨rfl, h⟩)
      · exact .inl h
      · exact .inr ⟨rfl, h⟩

end WrfMirror

/-- What the WRF keys of Redis say. -/
def wrfMirror (w : World) : WrfMirror where
  products := {p | p ∈ w.memberNames .wrfProducts}
  inits := {r | r.2 ∈ w.memberNames (.wrfInitRuns r.1)}
  steps := {s | s.fxxx ∈ w.memberNames (.wrfSteps s.productId s.initTag)}
  tiles := {t | (w.redis.get w.now (.tile ⟨.wrfSteps t.1.productId t.1.initTag, t.1.fxxx⟩
    t.2.1 t.2.2.1 t.2.2.2)).isSome}

section Commands

variable {w w' : World} {key : IndexKey} {ttl : Nat}

/-- The keys that make up the mirror. -/
def RedisKey.mirrorsWrf : RedisKey → Prop
  | .index .wrfProducts | .index (.wrfInitRuns _) | .index (.wrfSteps ..) => True
  | .tile ⟨.wrfSteps .., _⟩ _ _ _ => True
  | _ => False

/-- What happens to other keys does not show. -/
theorem wrfMirror_congr (h : ∀ k : RedisKey, k.mirrorsWrf →
    w'.redis.get w'.now k = w.redis.get w.now k) : wrfMirror w' = wrfMirror w := by
  have hproducts := memberNames_congr (h (.index .wrfProducts) trivial)
  have hinits := fun p => memberNames_congr (h (.index (.wrfInitRuns p)) trivial)
  have hsteps := fun p i => memberNames_congr (h (.index (.wrfSteps p i)) trivial)
  have htiles := fun p i f z x y => h (.tile ⟨.wrfSteps p i, f⟩ z x y) trivial
  simp only [wrfMirror, hproducts, hinits, hsteps, htiles]

theorem wrfMirror_record (e : Event) : wrfMirror (w.record e) = wrfMirror w := rfl

theorem wrfMirror_setEx {k : RedisKey} (hk : ¬ k.mirrorsWrf) :
    wrfMirror (w.setEx k ttl) = wrfMirror w := by
  apply wrfMirror_congr
  intro k' hk'
  refine Store.get_put_ne ?_ _
  rintro rfl
  exact hk hk'

theorem wrfMirror_addWrfLayers (productId initTag fxxx : String) (layers : List String) :
    wrfMirror (addWrfLayers productId initTag fxxx layers ttl w) = wrfMirror w := by
  refine wrfMirror_congr fun k hk => get_addAll_ne ?_
  rintro rfl
  exact hk

theorem wrfMirror_storeTile (step : WrfStep) (z x y : Int) (h : 0 < ttl) :
    wrfMirror (w.setEx (.tile ⟨.wrfSteps step.productId step.initTag, step.fxxx⟩ z x y) ttl) =
      (wrfMirror w).store step [(z, x, y)] := by
  have hindex : ∀ key, (w.setEx (.tile ⟨.wrfSteps step.productId step.initTag, step.fxxx⟩ z x y)
      ttl).memberNames key = w.memberNames key := fun key =>
    memberNames_congr (Store.get_put_ne (by simp) _)
  ext t
  · simp only [wrfMirror, WrfMirror.store, hindex]
  · simp only [wrfMirror, WrfMirror.store, hindex]
  · simp only [wrfMirror, WrfMirror.store, hindex]
  · simp only [wrfMirror, WrfMirror.store, Set.mem_union, Set.mem_ofPred_eq, List.mem_singleton]
    by_cases hkey : t = (step, (z, x, y))
    · subst hkey
      have hlt : w.now < w.now + ttl := by omega
      simp [World.setEx, World.setRedis, Store.get_put_self, hlt]
    · have hne : RedisKey.tile ⟨.wrfSteps t.1.productId t.1.initTag, t.1.fxxx⟩ t.2.1 t.2.2.1 t.2.2.2 ≠
          .tile ⟨.wrfSteps step.productId step.initTag, step.fxxx⟩ z x y := by
        intro he
        apply hkey
        simp only [RedisKey.tile.injEq, UnitId.mk.injEq, IndexKey.wrfSteps.injEq] at he
        obtain ⟨⟨⟨hp, hi⟩, hf⟩, hz, hx, hy⟩ := he
        exact Prod.ext (WrfStep.ext hp hi hf) (Prod.ext hz (Prod.ext hx hy))
      have hget : (w.redis.put _ .bytes (some (w.now + ttl))).get w.now _ = w.redis.get w.now _ :=
        Store.get_put_ne hne _
      simp only [World.setEx, World.setRedis, hget]
      constructor
      · exact .inl
      · rintro (h | ⟨h1, h2⟩)
        · exact h
        · exact absurd (Prod.ext h1 h2) hkey

theorem get_addWrfIndex {k : RedisKey} (hk : ∀ i, k ≠ .index i) (step : WrfStep)
    (initScore stepScore : Int) :
    (addWrfIndex step.productId step.initTag step.fxxx initScore stepScore ttl w).redis.get w.now k =
      w.redis.get w.now k := by
  let u := w.addFor .wrfProducts step.productId 0 ttl
  let v := u.addFor (.wrfInitRuns step.productId) step.initTag initScore ttl
  have hproducts : u.redis.get u.now k = w.redis.get w.now k := get_addFor_ne (hk _)
  have hinits : v.redis.get v.now k = u.redis.get u.now k := get_addFor_ne (hk _)
  have hsteps : (v.addFor (.wrfSteps step.productId step.initTag) step.fxxx stepScore ttl).redis.get
      v.now k = v.redis.get v.now k := get_addFor_ne (hk _)
  exact hsteps.trans (hinits.trans hproducts)

theorem wrfMirror_addWrfIndex (step : WrfStep) (initScore stepScore : Int) (h : 0 < ttl) :
    wrfMirror (addWrfIndex step.productId step.initTag step.fxxx initScore stepScore ttl w) =
      (wrfMirror w).add (fun _ => []) {step} := by
  have hmembers : ∀ key name,
      name ∈ (addWrfIndex step.productId step.initTag step.fxxx initScore stepScore ttl w).memberNames
        key ↔ ((name ∈ w.memberNames key ∨ key = .wrfProducts ∧ name = step.productId) ∨
          key = .wrfInitRuns step.productId ∧ name = step.initTag) ∨
          key = .wrfSteps step.productId step.initTag ∧ name = step.fxxx := by
    intro key name
    rw [addWrfIndex, record_memberNames, mem_addFor_iff h, mem_addFor_iff h, mem_addFor_iff h]
  apply WrfMirror.ext
  · ext p
    simp only [wrfMirror, WrfMirror.add, hmembers, Set.mem_union, Set.mem_ofPred_eq,
      Set.mem_singleton_iff, exists_eq_left]
    simp [eq_comm (a := p)]
  · ext r
    simp [wrfMirror, WrfMirror.add, hmembers, eq_comm (a := r.1), eq_comm (a := r.2)]
  · ext s
    simp only [wrfMirror, WrfMirror.add, hmembers, Set.mem_union, Set.mem_ofPred_eq,
      Set.mem_singleton_iff, WrfStep.ext_iff]
    simp [and_assoc]
  · have hnow : (addWrfIndex step.productId step.initTag step.fxxx initScore stepScore ttl w).now =
        w.now := rfl
    ext t
    simp [wrfMirror, WrfMirror.add, hnow, get_addWrfIndex]

theorem wrfMirror_reconcile (productId : String) (keep : List String) :
    wrfMirror (w.reconcile (.wrfInitRuns productId) keep) = (wrfMirror w).prune productId keep := by
  apply WrfMirror.ext
  · simp only [wrfMirror, WrfMirror.prune]
    rw [memberNames_congr (get_reconcile_ne (by simp))]
  · ext ⟨p, i⟩
    simp only [wrfMirror, WrfMirror.prune, Set.mem_ofPred_eq]
    by_cases hp : p = productId
    · subst hp
      simp [mem_reconcile]
    · rw [memberNames_congr (get_reconcile_ne (by simpa using hp))]
      simp [hp]
  · ext s
    simp only [wrfMirror, WrfMirror.prune, Set.mem_ofPred_eq]
    rw [memberNames_congr (get_reconcile_ne (by simp))]
  · ext t
    simp only [wrfMirror, WrfMirror.prune, Set.mem_ofPred_eq]
    rw [get_reconcile_ne (by simp)]

end Commands

end DataService.Sync
