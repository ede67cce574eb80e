import DataService.Basemap.World
import DataService.Lib.SlidingWindow
import Mathlib.Algebra.Order.Field.Rat
import Mathlib.Data.List.Infix
import Mathlib.Tactic.Positivity

/-! The breaker of a provider over the answers of one sweep, against its reference: the
share of UNAVAILABLE among the newest OK and UNAVAILABLE answers that fit the window. -/

namespace DataService

def Ratio.toRat (r : Ratio) : ℚ := r.num / r.den

theorem Ratio.exceededBy_iff (r : Ratio) {part whole : Nat} (h : 0 < whole) :
    r.exceededBy part whole = true ↔ r.toRat < (part : ℚ) / whole := by
  have hden : (0 : ℚ) < r.den := by exact_mod_cast r.den_pos
  have hwhole : (0 : ℚ) < whole := by exact_mod_cast h
  rw [Ratio.toRat, div_lt_div_iff₀ hden hwhole, Ratio.exceededBy, decide_eq_true_iff]
  exact_mod_cast Iff.rfl

/-- An answer as `_update_sweep_state` gets it. -/
structure TileReport where
  outcome : TileOutcome
  tile : Tile
  s3Exhausted : Bool

/-- OK and UNAVAILABLE speak of the provider; true is UNAVAILABLE. -/
def TileOutcome.verdict : TileOutcome → Option Bool
  | ok => some false
  | unavailable => some true
  | _ => none

def verdicts (os : List TileReport) : List Bool := os.filterMap (·.outcome.verdict)

/-- The sweep state after these answers. -/
def sweepAfter (cfg : ScraperSettings) (os : List TileReport) : SweepState :=
  os.foldl (fun s o => s.update cfg o.s3Exhausted o.outcome o.tile) .new

/-- At least `m` of the last `size` answers are there, and more than the share `t` of them
is UNAVAILABLE. -/
def Exceeds (m size : Nat) (t : ℚ) (vs : List Bool) : Prop :=
  m ≤ (vs.rtake size).length ∧
    t < ((vs.rtake size).count true : ℚ) / ((vs.rtake size).length : ℚ)

instance (m size : Nat) (t : ℚ) (vs : List Bool) : Decidable (Exceeds m size t vs) :=
  inferInstanceAs (Decidable (_ ∧ _))

abbrev ScraperSettings.Exceeded (cfg : ScraperSettings) (vs : List Bool) : Prop :=
  Exceeds cfg.errorRateMinSamples cfg.errorRateWindow cfg.errorRateThreshold.toRat vs

/-- How many answers spoke of the provider when the breaker of the code tripped. -/
def tripsAt (cfg : ScraperSettings) (os : List TileReport) : Option Nat :=
  (os.inits.find? fun p => (sweepAfter cfg p).tripped).map fun p => (verdicts p).length

/-- The first number of answers at which the window exceeds the threshold. -/
def firstExceeded (cfg : ScraperSettings) (vs : List Bool) : Option Nat :=
  (vs.inits.find? fun p => decide (cfg.Exceeded p)).map List.length

section

variable {cfg : ScraperSettings} {os : List TileReport} {o : TileReport} {vs : List Bool} {v : Bool}

theorem sweepAfter_snoc : sweepAfter cfg (os ++ [o]) =
    (sweepAfter cfg os).update cfg o.s3Exhausted o.outcome o.tile := by
  simp [sweepAfter]

theorem verdicts_snoc : verdicts (os ++ [o]) = verdicts os ++ o.outcome.verdict.toList := by
  cases h : o.outcome.verdict <;> simp [verdicts, h]

namespace SweepState

variable {s : SweepState} {t : Tile}

theorem observe_recent : (s.observe cfg v t).recent =
    SlidingWindow.push cfg.errorRateWindow s.recent v := rfl

@[simp] theorem judge_recent : (s.judge cfg).recent = s.recent := by
  unfold judge
  split_ifs <;> rfl

theorem judge_tripped : (s.judge cfg).tripped = true ↔ s.tripped = true ∨
    (cfg.errorRateMinSamples ≤ s.recent.length ∧
      cfg.errorRateThreshold.toRat < (s.recent.count true : ℚ) / (s.recent.length : ℚ)) := by
  have hpos := cfg.minSamples_pos
  have hrate (hm : cfg.errorRateMinSamples ≤ s.recent.length) :
      cfg.errorRateThreshold.exceededBy (s.recent.count true) s.recent.length = true ↔
        cfg.errorRateThreshold.toRat < (s.recent.count true : ℚ) / (s.recent.length : ℚ) :=
    cfg.errorRateThreshold.exceededBy_iff (by omega)
  unfold judge
  split_ifs with h
  · simp only [Bool.and_eq_true, Bool.not_eq_true', decide_eq_true_iff] at h
    simp only [true_iff]
    exact .inr ⟨h.1.2, (hrate h.1.2).mp h.2⟩
  · constructor
    · exact .inl
    · rintro (ht | ⟨hm, ht⟩)
      · exact ht
      · by_contra hno
        have hno' : s.tripped = false := by simpa using hno
        exact h (by simp [hno', hm, (hrate hm).mpr ht])

end SweepState

theorem sweepAfter_recent : (sweepAfter cfg os).recent = (verdicts os).rtake cfg.errorRateWindow := by
  induction os using List.reverseRecOn with
  | nil => simp [sweepAfter, verdicts, SweepState.new]
  | append_singleton os o ih =>
    rw [sweepAfter_snoc, verdicts_snoc]
    cases h : o.outcome <;>
      simp only [SweepState.update, SweepState.judge_recent, SweepState.observe_recent, ih,
        TileOutcome.verdict, Option.toList, List.append_nil, SlidingWindow.push_rtake]

theorem tripped_snoc : (sweepAfter cfg (os ++ [o])).tripped = true ↔
    (sweepAfter cfg os).tripped = true ∨
      (o.outcome.verdict.isSome = true ∧ cfg.Exceeded (verdicts (os ++ [o]))) := by
  have hrecent := @sweepAfter_recent cfg (os ++ [o])
  rw [sweepAfter_snoc] at hrecent ⊢
  rw [ScraperSettings.Exceeded, Exceeds, ← hrecent]
  cases h : o.outcome <;>
    simp [SweepState.update, SweepState.judge_tripped, TileOutcome.verdict, SweepState.observe]

theorem tripped_iff_exists : (sweepAfter cfg os).tripped = true ↔
    ∃ p, p <+: verdicts os ∧ cfg.Exceeded p := by
  have hpos := cfg.minSamples_pos
  induction os using List.reverseRecOn with
  | nil =>
    refine iff_of_false (by simp [sweepAfter, SweepState.new]) ?_
    rintro ⟨p, hp, he, -⟩
    obtain rfl := List.prefix_nil.mp hp
    simp at he
    omega
  | append_singleton os o ih =>
    refine tripped_snoc.trans ((or_congr_left ih).trans ?_)
    rw [verdicts_snoc]
    cases hv : o.outcome.verdict with
    | none => simp
    | some v =>
      simp only [Option.isSome_some, Option.toList_some, true_and, List.prefix_concat_iff,
        or_and_right, exists_or, exists_eq_left]
      exact or_comm

/-- The answer at which the breaker trips is the first at which the window exceeds. -/
theorem trips_now_iff :
    ((sweepAfter cfg os).tripped = false ∧ (sweepAfter cfg (os ++ [o])).tripped = true) ↔
      (o.outcome.verdict.isSome = true ∧ cfg.Exceeded (verdicts (os ++ [o])) ∧
        ∀ p, p <+: verdicts os → ¬ cfg.Exceeded p) := by
  rw [tripped_snoc, ← Bool.not_eq_true, tripped_iff_exists]
  constructor
  · rintro ⟨hno, hyes | ⟨hv, he⟩⟩
    · exact absurd hyes hno
    · exact ⟨hv, he, fun p hp hep => hno ⟨p, hp, hep⟩⟩
  · rintro ⟨hv, he, hno⟩
    exact ⟨fun ⟨p, hp, hep⟩ => hno p hp hep, .inr ⟨hv, he⟩⟩

theorem tripped_append {rest : List TileReport} (h : (sweepAfter cfg os).tripped = true) :
    (sweepAfter cfg (os ++ rest)).tripped = true := by
  obtain ⟨p, hp, he⟩ := tripped_iff_exists.mp h
  refine tripped_iff_exists.mpr ⟨p, hp.trans ?_, he⟩
  simp [verdicts]

theorem tripsAt_none : tripsAt cfg os = none ↔ (sweepAfter cfg os).tripped = false := by
  simp only [tripsAt, Option.map_eq_none_iff, List.find?_eq_none, List.mem_inits,
    Bool.not_eq_true]
  constructor
  · exact fun h => h os (List.prefix_refl os)
  · rintro h p ⟨rest, rfl⟩
    by_contra hp
    have ht := @tripped_append cfg p rest (by simpa using hp)
    simp [h] at ht

theorem firstExceeded_none : firstExceeded cfg vs = none ↔ ∀ p, p <+: vs → ¬ cfg.Exceeded p := by
  simp [firstExceeded, List.find?_eq_none]

theorem inits_snoc {α : Type} (l : List α) (a : α) : (l ++ [a]).inits = l.inits ++ [l ++ [a]] := by
  simp [List.inits_append]

theorem tripsAt_snoc : tripsAt cfg (os ++ [o]) =
    (tripsAt cfg os).or (if (sweepAfter cfg (os ++ [o])).tripped then
      some (verdicts (os ++ [o])).length else none) := by
  simp only [tripsAt, inits_snoc, List.find?_append, List.find?_cons, List.find?_nil]
  cases List.find? (fun p => (sweepAfter cfg p).tripped) os.inits <;>
    cases (sweepAfter cfg (os ++ [o])).tripped <;> rfl

theorem firstExceeded_snoc : firstExceeded cfg (vs ++ [v]) =
    (firstExceeded cfg vs).or (if cfg.Exceeded (vs ++ [v]) then some (vs ++ [v]).length else none) := by
  simp only [firstExceeded, inits_snoc, List.find?_append, List.find?_cons, List.find?_nil]
  cases List.find? (fun p => decide (cfg.Exceeded p)) vs.inits <;>
    by_cases h : cfg.Exceeded (vs ++ [v]) <;> simp [h]

theorem tripsAt_eq_firstExceeded : tripsAt cfg os = firstExceeded cfg (verdicts os) := by
  induction os using List.reverseRecOn with
  | nil =>
    have hnone : firstExceeded cfg [] = none := by
      refine firstExceeded_none.mpr fun p hp he => ?_
      have hpos := cfg.minSamples_pos
      obtain rfl := List.prefix_nil.mp hp
      have hlen := he.1
      simp at hlen
      omega
    have htrip : tripsAt cfg [] = none := tripsAt_none.mpr rfl
    rw [htrip, verdicts, List.filterMap_nil, hnone]
  | append_singleton os o ih =>
    rw [tripsAt_snoc, ih]
    cases hf : firstExceeded cfg (verdicts os) with
    | some n =>
      rw [verdicts_snoc]
      cases o.outcome.verdict with
      | none => simp [hf]
      | some v => simp [firstExceeded_snoc, hf]
    | none =>
      have hno : (sweepAfter cfg os).tripped = false := tripsAt_none.mp (ih.trans hf)
      have hsnoc := @tripped_snoc cfg os o
      rw [verdicts_snoc] at hsnoc ⊢
      cases hv : o.outcome.verdict with
      | none =>
        have htrip : (sweepAfter cfg (os ++ [o])).tripped = false := by
          simpa [hv, hno] using hsnoc
        simp [hf, htrip]
      | some v =>
        have htrip : (sweepAfter cfg (os ++ [o])).tripped = true ↔
            cfg.Exceeded (verdicts os ++ [v]) := by
          simpa [hv, hno] using hsnoc
        simp [firstExceeded_snoc, hf, htrip]

end

/-- For every sequence of answers: the breaker trips exactly at the first OK or UNAVAILABLE
answer at which the window exceeds the threshold, it stays tripped, and the other answers
have no say in when it trips. -/
theorem breaker_equals_reference (cfg : ScraperSettings) (os : List TileReport) :
    (∀ o, ((sweepAfter cfg os).tripped = false ∧ (sweepAfter cfg (os ++ [o])).tripped = true) ↔
      (o.outcome.verdict.isSome = true ∧ cfg.Exceeded (verdicts (os ++ [o])) ∧
        ∀ p, p <+: verdicts os → ¬ cfg.Exceeded p)) ∧
    (∀ rest, (sweepAfter cfg os).tripped = true → (sweepAfter cfg (os ++ rest)).tripped = true) ∧
    tripsAt cfg os = firstExceeded cfg (verdicts os) ∧
    ∀ os', verdicts os' = verdicts os → tripsAt cfg os' = tripsAt cfg os := by
  refine ⟨fun o => trips_now_iff, fun rest => tripped_append, tripsAt_eq_firstExceeded, ?_⟩
  intro os' h
  rw [tripsAt_eq_firstExceeded, tripsAt_eq_firstExceeded, h]

end DataService
