import DataService.Lib.Reservoir

/-! The scan of the keyspace for the memory of each domain: every key is counted, and of each
domain a sample of bounded size is kept to be measured. -/

namespace DataService.Metrics

open Finset Reservoir

/-- `_PREFIX_DOMAINS`; the first match wins. -/
def prefixDomains : List (String × String) :=
  [("tile:sat:", "satellite"), ("tile:radar:", "radar"), ("tile:radar-inta:", "radar"),
    ("tile:ecmwf_tp:", "ecmwf_tp"), ("geojson:ecmwf_mslp:", "ecmwf_mslp"), ("tile:wrf:", "wrf"),
    ("geojson:wrf:", "wrf"), ("tile:gfs:", "gfs"), ("geojson:gfs:", "gfs"),
    ("tile:basemap:", "basemap"), ("basemap:availability:", "basemap"),
    ("cache:ws:", "weather_stations"), ("idx:", "indexes"), ("cache:", "listings"),
    ("sync:", "sync")]

def domainOther : String := "other"

/-- `classify_key` of a decoded key -/
def classifyKey (name : String) : String :=
  ((prefixDomains.find? fun p => p.1.toList.isPrefixOf name.toList).map Prod.snd).getD domainOther

variable {κ : Type}

/-- `_reservoir_observe`; `randrange` is what the call with each position returns. -/
def reservoirObserve (randrange : Nat → Nat) (sample : List κ) (key : κ) (seen : Nat) (cap : Int) :
    List κ :=
  if cap ≤ 0 ∨ sample.length < cap then sample ++ [key]
  else
    let slot := randrange seen
    if slot < cap then sample.set slot key else sample

structure Scan (κ : Type) where
  counts : String → Nat
  reservoirs : String → List κ

variable (name : κ → String) (cap : Int) (randrange : String → Nat → Nat)

/-- One key of the loop of `_run_sync` -/
def observeKey (scan : Scan κ) (key : κ) : Scan κ :=
  let domain := classifyKey (name key)
  let seen := scan.counts domain + 1
  ⟨Function.update scan.counts domain seen,
    Function.update scan.reservoirs domain
      (reservoirObserve (randrange domain) (scan.reservoirs domain) key seen cap)⟩

def scanKeys (keys : List κ) : Scan κ :=
  keys.foldl (observeKey name cap randrange) ⟨fun _ => 0, fun _ => []⟩

/-- The keys of a domain, as they come. -/
def stream (domain : String) (keys : List κ) : List κ :=
  keys.filter fun key => classifyKey (name key) = domain

section Streams

variable {name cap randrange} {keys : List κ} {domain : String}

theorem scanKeys_concat (key : κ) : scanKeys name cap randrange (keys ++ [key]) =
    observeKey name cap randrange (scanKeys name cap randrange keys) key := by
  simp [scanKeys]

theorem stream_concat (key : κ) : stream name domain (keys ++ [key]) =
    stream name domain keys ++ if classifyKey (name key) = domain then [key] else [] := by
  rw [stream, List.filter_append, stream]
  split_ifs with h <;> simp [h]

theorem scanKeys_counts :
    (scanKeys name cap randrange keys).counts domain = (stream name domain keys).length := by
  induction keys using List.reverseRecOn with
  | nil => rfl
  | append_singleton keys key ih =>
    rw [scanKeys_concat, stream_concat]
    split_ifs with h
    · subst h
      simp [observeKey, ih]
    · simp [observeKey, Function.update_of_ne (Ne.symm h), ih]

theorem reservoirObserve_eq {n : Nat} (h : 1 ≤ n) (slots : Nat → Nat) (sample : List κ) (key : κ)
    (seen : Nat) : reservoirObserve slots sample key seen n = observe n sample key (slots seen) := by
  have hcap : ¬ (n : Int) ≤ 0 := by omega
  simp only [reservoirObserve, observe, hcap, false_or, Nat.cast_lt]

/-- The sample of a domain is that of its own stream. -/
theorem scanKeys_reservoirs {n : Nat} (h : 1 ≤ n) :
    (scanKeys name n randrange keys).reservoirs domain =
      observeAll n (randrange domain) (stream name domain keys) := by
  induction keys using List.reverseRecOn with
  | nil => rfl
  | append_singleton keys key ih =>
    rw [scanKeys_concat, stream_concat]
    split_ifs with hdomain
    · subst hdomain
      rw [observeAll_concat, ← ih, ← @scanKeys_counts κ name n randrange]
      simp [observeKey, reservoirObserve_eq h]
    · simp [observeKey, Function.update_of_ne (Ne.symm hdomain), ih]

/-- The sample holds the keys at the positions that were drawn. -/
theorem reservoirs_eq_positions {n : Nat} (h : 1 ≤ n) :
    ((scanKeys name n randrange keys).reservoirs domain).map some =
      (positions n (stream name domain keys).length (randrange domain)).map
        ((stream name domain keys)[·]?) := by
  rw [scanKeys_reservoirs h, observeAll_eq_positions]

theorem mem_stream_of_mem_sample {n : Nat} (h : 1 ≤ n) {key : κ}
    (hkey : key ∈ (scanKeys name n randrange keys).reservoirs domain) :
    key ∈ stream name domain keys := by
  have hsome := List.mem_map_of_mem (f := some) hkey
  rw [reservoirs_eq_positions h] at hsome
  obtain ⟨p, -, hp⟩ := List.mem_map.mp hsome
  exact List.mem_of_getElem? hp

/-- A domain's sample stands at distinct positions of its stream, as many as fit; and of all that
can be drawn, `cap` in `n` keep a position. -/
theorem sampling_uniform {n : Nat} (h : 1 ≤ n) (keys : List κ) (domain : String) :
    let length := (stream name domain keys).length
    (∀ randrange : String → Nat → Nat,
      let sampled := positions n length (randrange domain)
      ((scanKeys name n randrange keys).reservoirs domain).map some =
          sampled.map ((stream name domain keys)[·]?) ∧
        sampled.Nodup ∧ (∀ p ∈ sampled, p < length) ∧ sampled.length = min length n) ∧
    ∀ extra, length = n + extra →
      Fintype.card (Draws n extra) * n.factorial = length.factorial ∧
      ∀ p < length, length * #{draws : Draws n extra | p ∈ positions n length (slotsOf draws)} =
        n * Fintype.card (Draws n extra) := by
  dsimp only
  refine ⟨fun randrange => ⟨reservoirs_eq_positions h, nodup_positions,
    fun p => lt_of_mem_positions, length_positions⟩, ?_⟩
  intro extra hlength
  rw [hlength]
  exact ⟨card_draws n extra, fun p hp => kept_uniform hp⟩

/-- One of two keys is kept: each of them in half of the draws. -/
theorem sampling_uniform_two :
    (2 * #{draws : Draws 1 1 | 0 ∈ positions 1 2 (slotsOf draws)} = Fintype.card (Draws 1 1)) ∧
      2 * #{draws : Draws 1 1 | 1 ∈ positions 1 2 (slotsOf draws)} = Fintype.card (Draws 1 1) := by
  have hlength : (stream id "indexes" ["idx:sat:c13", "idx:wrf:products"]).length = 1 + 1 := by decide
  have huniform := ((@sampling_uniform String id 1 le_rfl ["idx:sat:c13", "idx:wrf:products"]
    "indexes").2 1 hlength).2
  rw [hlength] at huniform
  have hfirst := huniform 0 (by decide)
  have hsecond := huniform 1 (by decide)
  rw [Nat.one_mul] at hfirst hsecond
  exact ⟨hfirst, hsecond⟩

end Streams

end DataService.Metrics
