import Mathlib.Algebra.BigOperators.Field
import Mathlib.Algebra.Order.BigOperators.Group.Finset
import DataService.Lib.DoubleError
import DataService.Metrics.MemorySampling
import DataService.Metrics.MetricsStore

/-! What is recorded of the memory of a domain: the sizes of its sampled keys, scaled to all of its
keys in floating point. Over all draws of the sample it is right to within a byte. -/

namespace DataService.Metrics

open Doubles Finset Reservoir

/-- `_extrapolate`, with `measured / sampled * total` in doubles -/
def extrapolate (measured sampled total : Nat) : Int :=
  if total ≤ sampled then measured
  else if sampled = 0 then 0
  else roundEven (toDouble (toDouble ((measured : ℚ) / sampled) * toDouble total))

/-- `range(0, length, size)`; a step of zero raises. -/
def batchStarts (length : Nat) (size : Int) : Option (List Nat) :=
  if size = 0 then none
  else if size < 0 then some []
  else some ((List.range ((length + size.toNat - 1) / size.toNat)).map (· * size.toNat))

section Measure

variable {κ : Type} (usage : κ → Option Nat)

/-- What `MEMORY USAGE` says of each key; of one that has vanished, nothing. -/
def memoryUsageBatch (keys : List κ) : List (Option Nat) := keys.map usage

/-- `_measure_domain` -/
def measureDomain (batchSize : Int) (sample : List κ) (total : Nat) : Option Int :=
  (batchStarts sample.length batchSize).map fun starts =>
    let measured := (starts.map fun start =>
      ((memoryUsageBatch usage ((sample.drop start).take batchSize.toNat)).map (·.getD 0)).sum).sum
    extrapolate measured sample.length total

variable (name : κ → String) (cap : Int) (randrange : String → Nat → Nat) (batchSize : Int)

/-- The domains in the order in which `counts` has come to hold them. -/
def domainsOf (keys : List κ) : List String :=
  keys.foldl (fun domains key =>
    let domain := classifyKey (name key)
    if domain ∈ domains then domains else domains ++ [domain]) []

/-- The rows of one sample. -/
def memoryRows (keys : List κ) : Option (List (String × Int × Int)) :=
  let scan := scanKeys name cap randrange keys
  (domainsOf name keys).mapM fun domain =>
    (measureDomain usage batchSize (scan.reservoirs domain) (scan.counts domain)).map fun bytes =>
      (domain, (scan.counts domain : Int), bytes)

/-- `_record_sample` -/
def recordSample {τ ν : Type} (sampledAt cutoff : τ) (info : String → Option ν) (maxRows : Int)
    (rows : List (String × Int × Int)) : List (Statement τ ν) :=
  [.recordMemorySample sampledAt rows, .recordInfoSample sampledAt info, .prune cutoff,
    .pruneToMaxRows maxRows]

/-- `_run_sync` -/
def runSync {τ ν : Type} [LT τ] [DecidableLT τ] (sampledAt cutoff : τ) (info : String → Option ν)
    (maxRows : Int) (keys : List κ) (store : MetricsStore τ ν) : Option (MetricsStore τ ν) :=
  (memoryRows usage name cap randrange batchSize keys).map fun rows =>
    store.executeAll (recordSample sampledAt cutoff info maxRows rows)

/-- A cycle over these keys comes through, and records this row alone for the domain. -/
def RecordsRow (keys : List κ) (domain : String) (count bytes : Int) : Prop :=
  ∃ rows, rows.filter (fun row => row.1 = domain) = [(domain, count, bytes)] ∧
    ∀ (τ ν : Type) [LT τ] [DecidableLT τ] (sampledAt cutoff : τ) (info : String → Option ν)
      (maxRows : Int) (store : MetricsStore τ ν),
      runSync usage name cap randrange batchSize sampledAt cutoff info maxRows keys store =
        some (store.executeAll (recordSample sampledAt cutoff info maxRows rows))

end Measure

theorem extrapolate_of_le {measured sampled total : Nat} (h : total ≤ sampled) :
    extrapolate measured sampled total = measured := if_pos h

/-- Floating point costs less than a byte. -/
theorem extrapolate_error {measured sampled total : Nat} (hsampled : 0 < sampled)
    (hle : sampled ≤ total) (hsmall : measured = 0 ∨ sampled < 2 ^ 50)
    (hbytes : (measured : ℚ) / sampled * total < 2 ^ 50) :
    |(extrapolate measured sampled total : ℚ) - measured / sampled * total| < 1 := by
  have hpos : (0 : ℚ) < sampled := by exact_mod_cast hsampled
  obtain heq | hlt := hle.eq_or_lt
  · subst heq
    rw [extrapolate_of_le le_rfl, div_mul_cancel₀ _ hpos.ne']
    simp
  · have ha : (measured : ℚ) / sampled = 0 ∨ (1 / 2) ^ 100 ≤ (measured : ℚ) / sampled := by
      obtain rfl | hsmall := hsmall
      · exact .inl (by simp)
      obtain rfl | hmeasured := Nat.eq_zero_or_pos measured
      · exact .inl (by simp)
      refine .inr ?_
      have hone : (1 : ℚ) ≤ measured := by exact_mod_cast hmeasured
      have hbig : (sampled : ℚ) ≤ 2 ^ 50 := by exact_mod_cast hsmall.le
      calc ((1 : ℚ) / 2) ^ 100 ≤ 1 / 2 ^ 50 := by norm_num
        _ ≤ 1 / (sampled : ℚ) := one_div_le_one_div_of_le hpos hbig
        _ ≤ (measured : ℚ) / sampled := div_le_div_of_nonneg_right hone hpos.le
    have hb : (total : ℚ) = 0 ∨ 1 ≤ (total : ℚ) := .inr (by exact_mod_cast hsampled.trans hlt)
    have herror := abs_toDouble_mul_sub_le ha hb
    have hround := abs_roundEven_sub_le (toDouble (toDouble ((measured : ℚ) / sampled) *
      toDouble total))
    rw [extrapolate, if_neg (by omega), if_neg (by omega)]
    have hhalf : 4 * unitRoundoff * ((measured : ℚ) / sampled * total) < 1 / 2 := by
      rw [unitRoundoff]
      linarith
    obtain ⟨hlow, hhigh⟩ := abs_le.mp herror
    obtain ⟨hlow', hhigh'⟩ := abs_le.mp hround
    rw [abs_lt]
    constructor <;> linarith

section Batches

variable {κ : Type} (usage : κ → Option Nat)

/-- The size that is counted for a key. -/
def keySize (key : κ) : Nat := (usage key).getD 0

theorem sum_batches (f : κ → Nat) (size count : Nat) (keys : List κ) :
    ((List.range count).map fun i => (((keys.drop (i * size)).take size).map f).sum).sum =
      ((keys.take (count * size)).map f).sum := by
  induction count with
  | zero => simp
  | succ count ih =>
    rw [List.range_succ, List.map_append, List.sum_append, ih, Nat.succ_mul, List.take_add,
      List.map_append, List.sum_append]
    simp

/-- In whatever batches, each key of the sample is measured once. -/
theorem measureDomain_eq {batchSize : Int} (h : 1 ≤ batchSize) (sample : List κ) (total : Nat) :
    measureDomain usage batchSize sample total =
      some (extrapolate (sample.map (keySize usage)).sum sample.length total) := by
  obtain ⟨size, rfl⟩ : ∃ size : Nat, batchSize = size := ⟨batchSize.toNat, by omega⟩
  have hpos : 0 < size := by omega
  have hcover : sample.length ≤ (sample.length + size - 1) / size * size := by
    have hdiv := Nat.div_add_mod (sample.length + size - 1) size
    have hmod := Nat.mod_lt (sample.length + size - 1) hpos
    rw [Nat.mul_comm]
    omega
  have hsum := sum_batches (keySize usage) size ((sample.length + size - 1) / size) sample
  rw [List.take_of_length_le hcover] at hsum
  have hne : (size : Int) ≠ 0 := by omega
  have hnonneg : ¬ (size : Int) < 0 := by omega
  simp only [measureDomain, batchStarts, if_neg hne, if_neg hnonneg, Option.map_some,
    Int.toNat_natCast, memoryUsageBatch, List.map_map, ← hsum]
  rfl

end Batches

section Rows

variable {κ : Type} {usage : κ → Option Nat} {name : κ → String} {cap : Int}
  {randrange : String → Nat → Nat} {batchSize : Int} {keys : List κ} {domain : String}

theorem domainsOf_concat (key : κ) : domainsOf name (keys ++ [key]) =
    if classifyKey (name key) ∈ domainsOf name keys then domainsOf name keys
    else domainsOf name keys ++ [classifyKey (name key)] := by
  rw [domainsOf, List.foldl_append]
  rfl

theorem mem_domainsOf :
    domain ∈ domainsOf name keys ↔ ∃ key ∈ keys, classifyKey (name key) = domain := by
  induction keys using List.reverseRecOn with
  | nil => simp [domainsOf]
  | append_singleton keys key ih =>
    rw [domainsOf_concat]
    split_ifs with h
    · rw [ih]
      constructor
      · rintro ⟨k, hk, rfl⟩
        exact ⟨k, List.mem_append_left _ hk, rfl⟩
      · rintro ⟨k, hk, rfl⟩
        obtain hk | hk := List.mem_append.mp hk
        · exact ⟨k, hk, rfl⟩
        · obtain rfl := List.mem_singleton.mp hk
          exact ih.mp h
    · simp only [List.mem_append, List.mem_singleton, ih]
      constructor
      · rintro (⟨k, hk, rfl⟩ | rfl)
        · exact ⟨k, .inl hk, rfl⟩
        · exact ⟨key, .inr rfl, rfl⟩
      · rintro ⟨k, hk | rfl, rfl⟩
        · exact .inl ⟨k, hk, rfl⟩
        · exact .inr rfl

theorem nodup_domainsOf : (domainsOf name keys).Nodup := by
  induction keys using List.reverseRecOn with
  | nil => exact List.nodup_nil
  | append_singleton keys key ih =>
    rw [domainsOf_concat]
    split_ifs with h
    · exact ih
    · rw [List.nodup_append]
      refine ⟨ih, List.nodup_singleton _, ?_⟩
      rintro a ha b hb rfl
      exact h (List.mem_singleton.mp hb ▸ ha)

/-- The bytes of a domain, given its sample. -/
def domainBytes (usage : κ → Option Nat) (sample : List κ) (total : Nat) : Int :=
  extrapolate (sample.map (keySize usage)).sum sample.length total

theorem memoryRows_eq (h : 1 ≤ batchSize) :
    memoryRows usage name cap randrange batchSize keys =
      some ((domainsOf name keys).map fun domain =>
        (domain, ((stream name domain keys).length : Int),
          domainBytes usage ((scanKeys name cap randrange keys).reservoirs domain)
            (stream name domain keys).length)) := by
  simp only [memoryRows, measureDomain_eq usage h, Option.map_some, scanKeys_counts]
  exact List.mapM_pure

/-- A domain that has a key has one row. -/
theorem row_of_domain (h : 1 ≤ batchSize)
    (hdomain : ∃ key ∈ keys, classifyKey (name key) = domain) :
    RecordsRow usage name cap randrange batchSize keys domain (stream name domain keys).length
      (domainBytes usage ((scanKeys name cap randrange keys).reservoirs domain)
        (stream name domain keys).length) := by
  refine ⟨_, ?_, fun τ ν _ _ sampledAt cutoff info maxRows store => by
    rw [runSync, memoryRows_eq h, Option.map_some]⟩
  have hone : (domainsOf name keys).filter (fun d => d = domain) = [domain] := by
    rw [List.filter_eq, nodup_domainsOf.count, if_pos (mem_domainsOf.mpr hdomain)]
    rfl
  rw [List.filter_map]
  simp only [Function.comp_def, hone, List.map_cons, List.map_nil]

end Rows

section Means

variable {κ : Type} {usage : κ → Option Nat} {name : κ → String} {n bound : Nat}
  {randrange : String → Nat → Nat} {batchSize : Int} {keys : List κ} {domain : String}

/-- The size of the key at a position of a domain's stream. -/
def sizeAt (usage : κ → Option Nat) (keys : List κ) (p : Nat) : Nat :=
  (keys[p]?).elim 0 (keySize usage)

theorem sum_sizeAt (keys : List κ) :
    (keys.map (keySize usage)).sum = ∑ p ∈ range keys.length, sizeAt usage keys p := by
  have hmap : keys.map (keySize usage) = (List.range keys.length).map (sizeAt usage keys) := by
    apply List.ext_getElem
    · simp
    · intro i hi hi'
      simp only [List.length_map] at hi
      simp [sizeAt, hi]
  rw [hmap, ← List.sum_toFinset _ List.nodup_range, List.toFinset_range]

theorem sum_sample (h : 1 ≤ n) :
    (((scanKeys name n randrange keys).reservoirs domain).map (keySize usage)).sum =
      ((positions n (stream name domain keys).length (randrange domain)).map
        (sizeAt usage (stream name domain keys))).sum := by
  have hsample := @reservoirs_eq_positions κ name randrange keys domain n h
  have hmap := congrArg (List.map fun key? => key?.elim 0 (keySize usage)) hsample
  simp only [List.map_map] at hmap
  exact congrArg List.sum hmap

theorem length_sample (h : 1 ≤ n) :
    ((scanKeys name n randrange keys).reservoirs domain).length =
      min (stream name domain keys).length n := by
  have hlength := congrArg List.length (@reservoirs_eq_positions κ name randrange keys domain n h)
  rw [List.length_map, List.length_map] at hlength
  exact hlength.trans length_positions

theorem sum_le_of_bound {sample : List κ} (hbound : ∀ key ∈ sample, keySize usage key ≤ bound) :
    (sample.map (keySize usage)).sum ≤ sample.length * bound := by
  have hle := List.sum_le_card_nsmul (sample.map (keySize usage)) bound fun x hx => by
    obtain ⟨key, hkey, rfl⟩ := List.mem_map.mp hx
    exact hbound key hkey
  simpa using hle

/-- What is recorded is the scaled sample, but for less than a byte. -/
theorem domainBytes_error {sample : List κ} (hbound : ∀ key ∈ sample, keySize usage key ≤ bound)
    {total : Nat} (hne : sample ≠ []) (hle : sample.length ≤ total)
    (hfew : total * bound < 2 ^ 50) :
    |(domainBytes usage sample total : ℚ) -
      ((sample.map (keySize usage)).sum : ℚ) / sample.length * total| < 1 := by
  have hpos : 0 < sample.length := List.length_pos_of_ne_nil hne
  have hsum := sum_le_of_bound hbound
  refine extrapolate_error hpos hle ?_ ?_
  · obtain hzero | hbig := Nat.eq_zero_or_pos bound
    · rw [hzero, Nat.mul_zero] at hsum
      exact .inl (Nat.le_zero.mp hsum)
    · refine .inr (lt_of_le_of_lt hle (lt_of_le_of_lt ?_ hfew))
      exact Nat.le_mul_of_pos_right total hbig
  · have hlength : (0 : ℚ) < sample.length := by exact_mod_cast hpos
    have hsum' : ((sample.map (keySize usage)).sum : ℚ) ≤ sample.length * bound := by
      exact_mod_cast hsum
    calc ((sample.map (keySize usage)).sum : ℚ) / sample.length * total
        ≤ bound * total := by
          refine mul_le_mul_of_nonneg_right ?_ (Nat.cast_nonneg _)
          rw [div_le_iff₀ hlength, mul_comm]
          exact hsum'
      _ < 2 ^ 50 := by
          rw [mul_comm]
          exact_mod_cast hfew

/-- The sample of a domain for what is drawn. -/
def drawnSample (name : κ → String) (keys : List κ) (domain : String) {extra : Nat}
    (draws : Draws n extra) : List κ :=
  (scanKeys name n (fun _ => slotsOf draws) keys).reservoirs domain

/-- The scaled samples of all draws add up to the size of the domain, once for each draw. -/
theorem sum_scaled (h : 1 ≤ n) {extra : Nat}
    (hlength : (stream name domain keys).length = n + extra) :
    ∑ draws : Draws n extra, (((drawnSample name keys domain draws).map (keySize usage)).sum : ℚ) /
        n * ((stream name domain keys).length : ℚ) =
      Fintype.card (Draws n extra) *
        (((stream name domain keys).map (keySize usage)).sum : ℚ) := by
  have hn : (0 : ℚ) < n := by exact_mod_cast h
  have hshare := @sum_draws_positions n extra (sizeAt usage (stream name domain keys))
  simp only [drawnSample, sum_sample h, hlength]
  rw [sum_sizeAt, hlength, ← Finset.sum_mul, ← Finset.sum_div, div_mul_eq_mul_div,
    div_eq_iff hn.ne']
  have hcast := congrArg (Nat.cast : Nat → ℚ) hshare
  push_cast at hcast ⊢
  linarith

/-- A domain of few keys is measured in full, and of a sampled one the bytes recorded are right on
average, to within a byte. -/
theorem memory_unbiased (hcap : 1 ≤ n) (hbatch : 1 ≤ batchSize)
    (hdomain : ∃ key ∈ keys, classifyKey (name key) = domain) :
    let total := (stream name domain keys).length
    let actual := ((stream name domain keys).map (keySize usage)).sum
    (total ≤ n → ∀ randrange, RecordsRow usage name n randrange batchSize keys domain total actual) ∧
    ∀ bound extra, (∀ key ∈ stream name domain keys, keySize usage key ≤ bound) →
      total * bound < 2 ^ 50 → total = n + extra → ∃ bytes : Draws n extra → Int,
      (∀ draws, RecordsRow usage name n (fun _ => slotsOf draws) batchSize keys domain total
        (bytes draws)) ∧
      |∑ draws, bytes draws - Fintype.card (Draws n extra) * (actual : Int)| <
        Fintype.card (Draws n extra) := by
  dsimp only
  refine ⟨fun hle randrange => ?_, fun bound extra hbound hfew hlength => ?_⟩
  · have hrow := @row_of_domain κ usage name n randrange batchSize keys domain hbatch hdomain
    rwa [domainBytes, extrapolate_of_le (by rw [length_sample hcap]; omega), sum_sample hcap,
      positions_of_le hle, ← List.sum_toFinset _ List.nodup_range, List.toFinset_range,
      ← sum_sizeAt] at hrow
  · let bytes (draws : Draws n extra) : Int :=
      domainBytes usage (drawnSample name keys domain draws) (stream name domain keys).length
    refine ⟨bytes, fun draws => row_of_domain hbatch hdomain, ?_⟩
    have herror : ∀ draws : Draws n extra, |(bytes draws : ℚ) -
        ((drawnSample name keys domain draws).map (keySize usage)).sum / n *
          (stream name domain keys).length| < 1 := by
      intro draws
      have hsample : (drawnSample name keys domain draws).length = n := by
        rw [drawnSample, length_sample hcap, hlength]
        omega
      have hne : drawnSample name keys domain draws ≠ [] := by
        intro hnil
        rw [hnil, List.length_nil] at hsample
        omega
      have hkeys : ∀ key ∈ drawnSample name keys domain draws, keySize usage key ≤ bound :=
        fun key hkey => hbound key (mem_stream_of_mem_sample hcap hkey)
      have hle := domainBytes_error hkeys hne (by omega) hfew
      rwa [hsample] at hle
    have htotal : |∑ draws : Draws n extra, ((bytes draws : ℚ) -
        ((drawnSample name keys domain draws).map (keySize usage)).sum / n *
          (stream name domain keys).length)| < Fintype.card (Draws n extra) := by
      refine lt_of_le_of_lt (Finset.abs_sum_le_sum_abs _ _) ?_
      calc _ < ∑ _draws : Draws n extra, (1 : ℚ) :=
            Finset.sum_lt_sum_of_nonempty univ_nonempty fun draws _ => herror draws
        _ = Fintype.card (Draws n extra) := by simp
    rw [Finset.sum_sub_distrib, sum_scaled hcap hlength] at htotal
    rw [← Int.cast_lt (R := ℚ), Int.cast_abs, Int.cast_sub, Int.cast_sum, Int.cast_mul,
      Int.cast_natCast, Int.cast_natCast]
    exact htotal

/-- Two indexes, and one that has vanished. -/
def indexUsage (key : String) : Option Nat :=
  if key = "idx:sat:c13" then some 500 else if key = "idx:wrf:products" then some 200 else none

def indexKeys : List String := ["idx:sat:c13", "tile:wrf:a", "idx:wrf:products", "idx:radar:radars"]

/-- One of three keys is measured: over all draws, 700 bytes on average. -/
theorem memory_unbiased_indexes : ∃ bytes : Draws 1 2 → Int,
    (∀ draws, RecordsRow indexUsage id 1 (fun _ => slotsOf draws) 500 indexKeys "indexes" 3
      (bytes draws)) ∧
    |∑ draws, bytes draws - Fintype.card (Draws 1 2) * (700 : Int)| < Fintype.card (Draws 1 2) := by
  have hbound : ∀ key ∈ stream id "indexes" indexKeys, keySize indexUsage key ≤ 500 := by decide
  have hlength : (stream id "indexes" indexKeys).length = 1 + 2 := by decide
  have hactual : ((stream id "indexes" indexKeys).map (keySize indexUsage)).sum = 700 := by decide
  have hmean := (memory_unbiased (n := 1) le_rfl (show (1 : Int) ≤ 500 by decide)
    ⟨"idx:sat:c13", by decide, by decide⟩).2 500 2 hbound (by rw [hlength]; decide) hlength
  rw [hlength, hactual] at hmean
  exact hmean

end Means

end DataService.Metrics
