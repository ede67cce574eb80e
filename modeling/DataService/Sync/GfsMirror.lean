import Mathlib.Data.Set.Basic
import DataService.Sync.GfsSync

/-! The GFS indexes and overlay bodies in Redis as sets, and what a pass with no error adds to
them when S3 and Redis answer. -/

namespace DataService.Sync

open Coroutine Coro ExpiringStore NumberText

/-- A forecast step of a cycle of a product. -/
@[ext]
structure GfsStep where
  productId : String
  cycle : String
  fxxx : String
  deriving DecidableEq, Repr

/-- An overlay of a step, by its layer. -/
abbrev Overlay := GfsStep × String

@[ext]
structure GfsMirror where
  /-- cycles, each with its product -/
  cycles : Set (String × String)
  steps : Set GfsStep
  layers : Set Overlay
  bodies : Set Overlay

/-- `layers_for` -/
def layersFor (productId : String) : List String := ((getProduct productId).map (·.layers)).getD []

def segmentOf (productId : String) : String := (s3Segment productId).getD ""

def overlayKey (x : Overlay) : S3Key :=
  buildGfsGeojsonKey (segmentOf x.1.productId) x.1.cycle x.1.fxxx x.2

/-- What the GFS keys of Redis say. -/
def gfsMirror (w : World) : GfsMirror where
  cycles := {r | r.2 ∈ w.memberNames (.gfsCycles r.1)}
  steps := {s | s.fxxx ∈ w.memberNames (.gfsSteps s.productId s.cycle)}
  layers := {x | x.2 ∈ w.memberNames (.gfsLayers x.1.productId x.1.cycle x.1.fxxx)}
  bodies := {x | (w.redis.get w.now
    (.gfsGeojson x.1.productId x.1.cycle x.1.fxxx x.2)).isSome}

namespace GfsMirror

/-- Redis has the body, or S3 a filled object. -/
def Retrievable (bucket : Bucket) (m : GfsMirror) (x : Overlay) : Prop :=
  x ∈ m.bodies ∨ bucket.lookup (overlayKey x) = some .filled

def enter (step : GfsStep) (m : GfsMirror) : GfsMirror :=
  { m with cycles := insert (step.productId, step.cycle) m.cycles, steps := insert step m.steps }

def copy (S : Set Overlay) (m : GfsMirror) : GfsMirror := { m with bodies := m.bodies ∪ S }

def advertise (S : Set Overlay) (m : GfsMirror) : GfsMirror := { m with layers := m.layers ∪ S }

def prune (productId : String) (keep : List String) (m : GfsMirror) : GfsMirror :=
  { m with cycles := {r | r ∈ m.cycles ∧ (r.1 = productId → r.2 ∈ keep)} }

/-- The retrievable overlays of a step, as far as a list of layers goes. -/
def foundIn (bucket : Bucket) (step : GfsStep) (layers : List String) (m : GfsMirror) :
    Set Overlay :=
  {x | x.1 = step ∧ x.2 ∈ layers ∧ m.Retrievable bucket x}

/-- The retrievable overlays of the steps. -/
def found (bucket : Bucket) (D : Set GfsStep) (m : GfsMirror) : Set Overlay :=
  {x | x.1 ∈ D ∧ x.2 ∈ layersFor x.1.productId ∧ m.Retrievable bucket x}

/-- The steps enter the indexes with the overlays that are retrievable. -/
def add (bucket : Bucket) (D : Set GfsStep) (m : GfsMirror) : GfsMirror where
  cycles := m.cycles ∪ {r | ∃ s ∈ D, s.productId = r.1 ∧ s.cycle = r.2}
  steps := m.steps ∪ D
  layers := m.layers ∪ m.found bucket D
  bodies := m.bodies ∪ m.found bucket D

variable {bucket : Bucket} {m : GfsMirror} {D D' : Set GfsStep} {step : GfsStep} {layer : String}
  {layers : List String} {S S' : Set Overlay}

@[simp] theorem foundIn_nil : m.foundIn bucket step [] = ∅ := by
  ext x
  simp [foundIn]

theorem foundIn_cons (h : m.Retrievable bucket (step, layer)) :
    m.foundIn bucket step (layer :: layers) =
      insert (step, layer) (m.foundIn bucket step layers) := by
  ext ⟨y, other⟩
  simp only [foundIn, Set.mem_ofPred_eq, List.mem_cons, Set.mem_insert_iff, Prod.ext_iff]
  constructor
  · rintro ⟨rfl, rfl | hmem, hret⟩
    · exact .inl ⟨rfl, rfl⟩
    · exact .inr ⟨rfl, hmem, hret⟩
  · rintro (⟨rfl, rfl⟩ | ⟨rfl, hmem, hret⟩)
    · exact ⟨rfl, .inl rfl, h⟩
    · exact ⟨rfl, .inr hmem, hret⟩

theorem foundIn_cons_not (h : ¬ m.Retrievable bucket (step, layer)) :
    m.foundIn bucket step (layer :: layers) = m.foundIn bucket step layers := by
  ext ⟨y, other⟩
  simp only [foundIn, Set.mem_ofPred_eq, List.mem_cons]
  constructor
  · rintro ⟨rfl, rfl | hmem, hret⟩
    · exact absurd hret h
    · exact ⟨rfl, hmem, hret⟩
  · rintro ⟨rfl, hmem, hret⟩
    exact ⟨rfl, .inr hmem, hret⟩

@[simp] theorem copy_empty : m.copy ∅ = m := by
  ext <;> simp [copy]

theorem copy_copy : (m.copy S).copy S' = m.copy (S ∪ S') := by
  apply GfsMirror.ext
  · rfl
  · rfl
  · rfl
  · exact Set.union_assoc _ _ _

theorem copy_insert {x : Overlay} (h : x ∈ m.bodies) : m.copy (insert x S) = m.copy S := by
  apply GfsMirror.ext
  · rfl
  · rfl
  · rfl
  · simp [copy, h, Set.union_insert]

/-- A copy of what is retrievable makes nothing else retrievable. -/
theorem foundIn_copy (h : ∀ x ∈ S, m.Retrievable bucket x) :
    (m.copy S).foundIn bucket step layers = m.foundIn bucket step layers := by
  have hsame : ∀ x, (m.copy S).Retrievable bucket x ↔ m.Retrievable bucket x := by
    intro x
    constructor
    · rintro ((hx | hx) | hx)
      · exact .inl hx
      · exact h x hx
      · exact .inr hx
    · rintro (hx | hx)
      · exact .inl (.inl hx)
      · exact .inr hx
  ext x
  simp only [foundIn, Set.mem_ofPred_eq, hsame]

theorem retrievable_add {x : Overlay} :
    (m.add bucket D).Retrievable bucket x ↔ m.Retrievable bucket x := by
  constructor
  · rintro ((h | h) | h)
    · exact .inl h
    · exact h.2.2
    · exact .inr h
  · rintro (h | h)
    · exact .inl (.inl h)
    · exact .inr h

theorem add_empty : m.add bucket ∅ = m := by
  ext <;> simp [add, found]

theorem add_union : (m.add bucket D).add bucket D' = m.add bucket (D ∪ D') := by
  have hfound : (m.add bucket D).found bucket D' = m.found bucket D' := by
    ext x
    simp only [found, Set.mem_ofPred_eq, retrievable_add]
  have hboth : m.found bucket (D ∪ D') = m.found bucket D ∪ m.found bucket D' := by
    ext x
    simp only [found, Set.mem_union, Set.mem_ofPred_eq]
    tauto
  apply GfsMirror.ext
  · ext r
    simp only [add, Set.mem_union, Set.mem_ofPred_eq]
    grind
  · ext s
    simp only [add, Set.mem_union]
    tauto
  · change m.layers ∪ m.found bucket D ∪ (m.add bucket D).found bucket D' = _
    rw [hfound, Set.union_assoc, ← hboth]
    rfl
  · change m.bodies ∪ m.found bucket D ∪ (m.add bucket D).found bucket D' = _
    rw [hfound, Set.union_assoc, ← hboth]
    rfl

/-- What `_sync_step` does one after the other. -/
theorem add_single : ((m.enter step).copy
      (m.foundIn bucket step (layersFor step.productId))).advertise
      (m.foundIn bucket step (layersFor step.productId)) = m.add bucket {step} := by
  have hfound : m.foundIn bucket step (layersFor step.productId) = m.found bucket {step} := by
    ext ⟨y, other⟩
    simp only [foundIn, found, Set.mem_ofPred_eq, Set.mem_singleton_iff]
    refine and_congr_right ?_
    rintro rfl
    rfl
  rw [hfound]
  apply GfsMirror.ext
  · ext r
    simp only [enter, copy, advertise, add, Set.mem_insert_iff, Set.mem_union, Set.mem_ofPred_eq,
      Set.mem_singleton_iff, exists_eq_left, Prod.ext_iff]
    rw [or_comm, eq_comm (a := r.1), eq_comm (a := r.2)]
  · ext s
    simp only [enter, copy, advertise, add, Set.mem_insert_iff, Set.mem_union,
      Set.mem_singleton_iff]
    exact or_comm
  · rfl
  · rfl

theorem prune_self {productId : String} {keep : List String}
    (h : ∀ r ∈ m.cycles, r.1 = productId → r.2 ∈ keep) : m.prune productId keep = m := by
  apply GfsMirror.ext
  · ext r
    exact and_iff_left_of_imp (h r)
  · rfl
  · rfl
  · rfl

end GfsMirror

theorem getProduct_of_mem {product : GfsProduct} (h : product ∈ gfsProducts) :
    getProduct product.productId = some product := by
  simp only [gfsProducts, List.mem_cons, List.not_mem_nil, or_false] at h
  rcases h with rfl | rfl | rfl <;> decide

theorem segmentOf_of_mem {product : GfsProduct} (h : product ∈ gfsProducts) :
    segmentOf product.productId = product.s3Segment := by
  rw [segmentOf, s3Segment, getProduct_of_mem h]
  rfl

theorem layersFor_of_mem {product : GfsProduct} (h : product ∈ gfsProducts) :
    layersFor product.productId = product.layers := by
  rw [layersFor, getProduct_of_mem h]
  rfl

section Commands

variable {w w' : World} {ttl : Nat}

theorem gfsMirror_initial (now : Nat) : gfsMirror (World.initial now) = ⟨∅, ∅, ∅, ∅⟩ := by
  apply GfsMirror.ext
  · ext r
    simp [gfsMirror, World.initial, World.memberNames, memberNames, members, Store.get]
  · ext s
    simp [gfsMirror, World.initial, World.memberNames, memberNames, members, Store.get]
  · ext x
    simp [gfsMirror, World.initial, World.memberNames, memberNames, members, Store.get]
  · ext x
    simp [gfsMirror, World.initial, Store.get]

theorem gfsMirror_addGfsIndex (step : GfsStep) (cycleScore stepScore : Int) (h : 0 < ttl) :
    gfsMirror (addGfsIndex step.productId step.cycle step.fxxx cycleScore stepScore ttl w) =
      (gfsMirror w).enter step := by
  have hmembers : ∀ key name,
      name ∈ (addGfsIndex step.productId step.cycle step.fxxx cycleScore stepScore ttl w).memberNames
        key ↔ (name ∈ w.memberNames key ∨ key = .gfsCycles step.productId ∧ name = step.cycle) ∨
          key = .gfsSteps step.productId step.cycle ∧ name = step.fxxx := by
    intro key name
    rw [addGfsIndex, mem_addFor_iff h, mem_addFor_iff h]
  have hbody : ∀ k : RedisKey, (∀ i, k ≠ .index i) →
      (addGfsIndex step.productId step.cycle step.fxxx cycleScore stepScore ttl w).redis.get w.now k =
        w.redis.get w.now k := by
    intro k hk
    let u := w.addFor (.gfsCycles step.productId) step.cycle cycleScore ttl
    have hcycle : u.redis.get u.now k = w.redis.get w.now k := get_addFor_ne (hk _)
    exact (get_addFor_ne (hk _)).trans hcycle
  apply GfsMirror.ext
  · ext r
    simp [gfsMirror, GfsMirror.enter, hmembers, Prod.ext_iff, or_comm]
  · ext s
    simp only [gfsMirror, GfsMirror.enter, hmembers, Set.mem_ofPred_eq, Set.mem_insert_iff,
      GfsStep.ext_iff]
    simp [and_assoc, or_comm]
  · ext x
    simp [gfsMirror, GfsMirror.enter, hmembers]
  · have hnow : (addGfsIndex step.productId step.cycle step.fxxx cycleScore stepScore ttl w).now =
        w.now := rfl
    ext x
    simp [gfsMirror, GfsMirror.enter, hnow, hbody]

theorem gfsMirror_storeGeojson (x : Overlay) (h : 0 < ttl) :
    gfsMirror (w.setEx (.gfsGeojson x.1.productId x.1.cycle x.1.fxxx x.2) ttl) =
      (gfsMirror w).copy {x} := by
  have hindex : ∀ key, (w.setEx (.gfsGeojson x.1.productId x.1.cycle x.1.fxxx x.2)
      ttl).memberNames key = w.memberNames key := fun key => memberNames_setEx (by simp) ttl
  apply GfsMirror.ext
  · simp only [gfsMirror, GfsMirror.copy, hindex]
  · simp only [gfsMirror, GfsMirror.copy, hindex]
  · simp only [gfsMirror, GfsMirror.copy, hindex]
  · ext y
    simp only [gfsMirror, GfsMirror.copy, Set.mem_union, Set.mem_ofPred_eq, Set.mem_singleton_iff]
    by_cases hy : y = x
    · subst hy
      have hlt : w.now < w.now + ttl := by omega
      simp [World.setEx, World.setRedis, Store.get_put_self, hlt]
    · have hne : RedisKey.gfsGeojson y.1.productId y.1.cycle y.1.fxxx y.2 ≠
          .gfsGeojson x.1.productId x.1.cycle x.1.fxxx x.2 := by
        intro he
        apply hy
        obtain ⟨hp, hc, hf, hl⟩ := RedisKey.gfsGeojson.inj he
        exact Prod.ext (GfsStep.ext hp hc hf) hl
      simp only [World.setEx, World.setRedis, Store.get_put_ne hne, hy, or_false]

theorem gfsMirror_addGfsLayers (step : GfsStep) (layers : List String) (h : 0 < ttl) :
    gfsMirror (addGfsLayers step.productId step.cycle step.fxxx layers ttl w) =
      (gfsMirror w).advertise {x | x.1 = step ∧ x.2 ∈ layers} := by
  apply GfsMirror.ext
  · ext r
    simp [gfsMirror, GfsMirror.advertise, addGfsLayers, mem_addAll h]
  · ext s
    simp [gfsMirror, GfsMirror.advertise, addGfsLayers, mem_addAll h]
  · ext x
    simp only [gfsMirror, GfsMirror.advertise, addGfsLayers, mem_addAll h, Set.mem_union,
      Set.mem_ofPred_eq, GfsStep.ext_iff]
    simp [and_assoc]
  · ext x
    simp only [gfsMirror, GfsMirror.advertise, addGfsLayers, Set.mem_ofPred_eq]
    rw [get_addAll_ne (by simp)]

theorem gfsMirror_reconcile (productId : String) (keep : List String) :
    gfsMirror (w.reconcile (.gfsCycles productId) keep) = (gfsMirror w).prune productId keep := by
  apply GfsMirror.ext
  · ext ⟨p, c⟩
    simp only [gfsMirror, GfsMirror.prune, Set.mem_ofPred_eq]
    by_cases hp : p = productId
    · subst hp
      simp [mem_reconcile]
    · rw [memberNames_congr (get_reconcile_ne (by simpa using hp))]
      simp [hp]
  · ext s
    simp only [gfsMirror, GfsMirror.prune, Set.mem_ofPred_eq]
    rw [memberNames_congr (get_reconcile_ne (by simp))]
  · ext x
    simp only [gfsMirror, GfsMirror.prune, Set.mem_ofPred_eq]
    rw [memberNames_congr (get_reconcile_ne (by simp))]
  · ext x
    simp only [gfsMirror, GfsMirror.prune, Set.mem_ofPred_eq]
    rw [get_reconcile_ne (by simp)]

end Commands

end DataService.Sync
