import DataService.Basemap.SettingsValidation

/-! What a dead provider does to the breakers of an accepted configuration: every fetch of
a sweep, or of the reader, ends without an answer of the host. -/

namespace DataService

/-- The relay circuit of a provider after fetches that all failed, answered at these times. -/
def relayAfter (cfg : ReaderConfig) (answers : List Nat) : Option StorageCircuit :=
  answers.foldl (fun circuit now =>
    (downloadFromProvider .unavailable (relayCircuit cfg ⟨circuit, now, now⟩) now).2) none

/-- Nothing but UNAVAILABLE comes back, or the storage circuit keeps the fetch from being made. -/
def AllUnavailable (os : List TileReport) : Prop :=
  ∀ o ∈ os, o.outcome = .unavailable ∨ o.outcome = .storageSkipped

/-- The sweep trips once that many fetches were made. -/
def SweepTripsAfter (cfg : ScraperSettings) (m : Int) : Prop :=
  ∀ os, AllUnavailable os → ((sweepAfter cfg os).tripped = true ↔ m ≤ ((verdicts os).length : Int))

/-- The relay circuit is closed until that many fetches have failed, and then open. -/
def RelayOpensAfter (cfg : ReaderConfig) (m : Int) : Prop :=
  ∃ n : Nat, (n : Int) = m ∧ ∀ answers : List Nat, answers.length ≤ n →
    ((relayAfter cfg answers).any (·.isOpen) = true ↔ answers.length = n)

section Windows

theorem rtake_replicate {α : Type} (size n : Nat) (x : α) :
    (List.replicate n x).rtake size = List.replicate (min size n) x := by
  rw [List.rtake, List.length_replicate, List.drop_replicate]
  congr 1
  omega

theorem rate_of_failures {n : Nat} (h : 0 < n) : (n : ℚ) / n = 1 :=
  div_self (by exact_mod_cast h.ne')

theorem below_one_iff (t : FloatSetting) : t.below 1 = true ↔ t.ratio.toRat < 1 := by
  have h := @FloatSetting.ratio_exceededBy t 1 1 Nat.one_pos (Nat.le_refl 1)
  have h' := @Ratio.exceededBy_iff t.ratio 1 1 Nat.one_pos
  simp only [Nat.cast_one, div_one] at h h'
  rw [← h, h']

theorem verdicts_allUnavailable {os : List TileReport} (h : AllUnavailable os) :
    verdicts os = List.replicate (verdicts os).length true := by
  refine List.eq_replicate_iff.mpr ⟨rfl, fun v hv => ?_⟩
  obtain ⟨o, ho, hov⟩ := List.mem_filterMap.mp hv
  rcases h o ho with he | he <;> simp [he, TileOutcome.verdict] at hov
  exact hov.symm ▸ rfl

theorem exceeded_replicate (cfg : ScraperSettings) (n : Nat) :
    cfg.Exceeded (List.replicate n true) ↔
      cfg.errorRateMinSamples ≤ n ∧ cfg.errorRateThreshold.toRat < 1 := by
  have hpos := cfg.minSamples_pos
  have hwindow := cfg.minSamples_le_window
  rw [ScraperSettings.Exceeded, Exceeds, rtake_replicate, List.length_replicate,
    List.count_replicate_self]
  constructor
  · rintro ⟨hm, ht⟩
    rw [rate_of_failures (by omega)] at ht
    exact ⟨by omega, ht⟩
  · rintro ⟨hm, ht⟩
    refine ⟨by omega, ?_⟩
    rw [rate_of_failures (by omega)]
    exact ht

theorem tripped_allUnavailable {cfg : ScraperSettings} {os : List TileReport}
    (h : AllUnavailable os) : (sweepAfter cfg os).tripped = true ↔
      cfg.errorRateMinSamples ≤ (verdicts os).length ∧ cfg.errorRateThreshold.toRat < 1 := by
  have hall := verdicts_allUnavailable h
  rw [tripped_iff_exists]
  constructor
  · rintro ⟨p, hp, he⟩
    have hlen := hp.length_le
    have hpall : p = List.replicate p.length true := by
      refine List.eq_replicate_iff.mpr ⟨rfl, fun v hv => ?_⟩
      exact (List.eq_replicate_iff.mp hall).2 v (hp.subset hv)
    rw [hpall, exceeded_replicate] at he
    exact ⟨by omega, he.2⟩
  · intro he
    refine ⟨verdicts os, List.prefix_refl _, ?_⟩
    rw [hall, exceeded_replicate]
    exact he

end Windows

section Relay

variable {cfg : ReaderConfig} {answers : List Nat} {now : Nat}

/-- A closed circuit that has seen nothing but this many failures. -/
def failing (settings : CircuitSettings) (n : Nat) : StorageCircuit :=
  ⟨settings, List.replicate (min settings.window n) true, 0, settings.baseCooldown, 0, n, 0⟩

theorem relayAfter_snoc (h : cfg.relayCircuitEnabled = true) : relayAfter cfg (answers ++ [now]) =
    some (((relayAfter cfg answers).getD (.new cfg.relaySettings)).recordFailure now).1 := by
  rw [relayAfter, List.foldl_append, ← relayAfter]
  simp [relayCircuit, h, downloadFromProvider]

/-- The window of a circuit judges this many failures to be an outage. -/
def Judged (settings : CircuitSettings) (n : Nat) : Prop :=
  settings.minSamples ≤ min settings.window n ∧
    settings.threshold.exceededBy (min settings.window n) (min settings.window n) = true

theorem observe_failing (settings : CircuitSettings) (n counted : Nat) :
    (⟨settings, List.replicate (min settings.window n) true, 0, settings.baseCooldown, 0, counted,
      0⟩ : StorageCircuit).observe true =
        ⟨settings, List.replicate (min settings.window (n + 1)) true, 0, settings.baseCooldown, 0,
          counted, 0⟩ := by
  have hpush := SlidingWindow.push_rtake settings.window (List.replicate n true) true
  rw [← List.replicate_succ', rtake_replicate, rtake_replicate] at hpush
  exact congrArg (fun recent => (⟨settings, recent, 0, settings.baseCooldown, 0, counted, 0⟩ :
    StorageCircuit)) hpush

theorem recordFailure_failing (settings : CircuitSettings) (n : Nat) :
    ((failing settings n).recordFailure now).1 =
      if (failing settings (n + 1)).shouldOpen then ((failing settings (n + 1)).trip now).1
      else failing settings (n + 1) := by
  have hobserved := observe_failing settings n (n + 1)
  simp only [failing, StorageCircuit.recordFailure, StorageCircuit.isOpen, Nat.lt_irrefl,
    decide_false, Bool.false_eq_true, if_false, hobserved]
  exact apply_ite Prod.fst _ _ _

theorem shouldOpen_failing (settings : CircuitSettings) (n : Nat) :
    (failing settings n).shouldOpen = true ↔ Judged settings n := by
  simp [StorageCircuit.shouldOpen, failing, Judged]

/-- Failures that are not judged leave the circuit closed. -/
theorem relayAfter_unjudged (h : cfg.relayCircuitEnabled = true)
    (hno : ∀ n, n ≤ answers.length → 0 < n → ¬ Judged cfg.relaySettings n) :
    (relayAfter cfg answers).getD (.new cfg.relaySettings) =
      failing cfg.relaySettings answers.length := by
  induction answers using List.reverseRecOn with
  | nil => simp [relayAfter, failing, StorageCircuit.new]
  | append_singleton answers now ih =>
    have hlen : (answers ++ [now]).length = answers.length + 1 := by simp
    have hprev := ih fun n hn => hno n (by omega)
    have hnot := hno (answers.length + 1) (by omega) (by omega)
    rw [relayAfter_snoc h, Option.getD_some, hprev, recordFailure_failing, hlen,
      if_neg (fun hs => hnot ((shouldOpen_failing _ _).mp hs))]

theorem isOpen_relayAfter_unjudged (h : cfg.relayCircuitEnabled = true)
    (hno : ∀ n, n ≤ answers.length → 0 < n → ¬ Judged cfg.relaySettings n) :
    (relayAfter cfg answers).any (·.isOpen) = false := by
  have hstate := relayAfter_unjudged h hno
  cases hr : relayAfter cfg answers with
  | none => rfl
  | some c =>
    rw [hr, Option.getD_some] at hstate
    rw [Option.any_some, hstate]
    rfl

/-- The first judged failure opens the circuit. -/
theorem isOpen_relayAfter_judged (h : cfg.relayCircuitEnabled = true)
    (hbase : 0 < cfg.relaySettings.baseCooldown)
    (hno : ∀ n, n ≤ answers.length → 0 < n → ¬ Judged cfg.relaySettings n)
    (hyes : Judged cfg.relaySettings (answers.length + 1)) :
    (relayAfter cfg (answers ++ [now])).any (·.isOpen) = true := by
  rw [relayAfter_snoc h, relayAfter_unjudged h hno, recordFailure_failing,
    if_pos ((shouldOpen_failing _ _).mpr hyes), Option.any_some]
  change decide (0 < now + cfg.relaySettings.baseCooldown) = true
  exact decide_eq_true (by omega)

end Relay

section Accepted

variable (a : AcceptedSettings)

theorem sweepTripsAfter_iff :
    SweepTripsAfter a.scraperSettings a.1.basemapProviderErrorRateMinSamples ↔
      a.1.basemapProviderErrorRateThreshold.below 1 = true := by
  have hmin : 1 ≤ a.1.basemapProviderErrorRateMinSamples := a.accepted.2.1
  have hsamples : (a.scraperSettings.errorRateMinSamples : Int) =
      a.1.basemapProviderErrorRateMinSamples := Int.toNat_of_nonneg (by omega)
  rw [below_one_iff]
  constructor
  · intro h
    -- as many failed fetches as the breaker wants to see
    let os : List TileReport := List.replicate a.scraperSettings.errorRateMinSamples
      ⟨.unavailable, ⟨0, 0, 0⟩, false⟩
    have hos : AllUnavailable os := fun o ho => .inl (by rw [List.eq_of_mem_replicate ho])
    have hlen : (verdicts os).length = a.scraperSettings.errorRateMinSamples := by
      simp [os, verdicts, TileOutcome.verdict]
    have htrip := (h os hos).mpr (by rw [hlen, hsamples])
    exact ((tripped_allUnavailable hos).mp htrip).2
  · intro ht os hos
    rw [tripped_allUnavailable hos, ← hsamples]
    constructor
    · exact fun h => by exact_mod_cast h.1
    · exact fun h => ⟨by exact_mod_cast h, ht⟩

theorem judged_iff {n : Nat} (hn : 0 < n) : Judged a.relaySettings n ↔
    a.1.basemapRelayCircuitMinSamples ≤ min 20 (n : Int) ∧
      a.1.basemapRelayCircuitThreshold.below 1 = true := by
  have hrate := @FloatSetting.ratio_exceededBy a.1.basemapRelayCircuitThreshold (min 20 n)
    (min 20 n) (by omega) (Nat.le_refl _)
  rw [rate_of_failures (by omega)] at hrate
  have hcount : a.relaySettings.minSamples ≤ min 20 n ↔
      a.1.basemapRelayCircuitMinSamples ≤ min 20 (n : Int) := by
    change a.1.basemapRelayCircuitMinSamples.toNat ≤ min 20 n ↔ _
    omega
  change a.relaySettings.minSamples ≤ min 20 n ∧
    a.1.basemapRelayCircuitThreshold.ratio.exceededBy (min 20 n) (min 20 n) = true ↔ _
  rw [hcount, hrate]

theorem relayOpensAfter_iff (known : Bool) (h : a.1.basemapRelayCircuitEnabled = true) :
    RelayOpensAfter (a.readerConfig known) a.1.basemapRelayCircuitMinSamples ↔
      (a.1.basemapRelayCircuitThreshold.below 1 = true ∧
        1 ≤ a.1.basemapRelayCircuitMinSamples ∧ a.1.basemapRelayCircuitMinSamples ≤ 20) := by
  have hjudged {n : Nat} (hn : 0 < n) : Judged (a.readerConfig known).relaySettings n ↔ _ :=
    judged_iff a hn
  constructor
  · rintro ⟨n, hn, hopens⟩
    have hpos : 0 < n := by
      by_contra hzero
      have hnil := (hopens [] (by simp)).mpr (by simp; omega)
      simp [relayAfter] at hnil
    by_contra hcond
    -- no number of failures up to the minimum is judged
    have hno : ∀ k, k ≤ (List.replicate n 0).length → 0 < k →
        ¬ Judged (a.readerConfig known).relaySettings k := by
      intro k hk hk' hj
      obtain ⟨hm, hb⟩ := (hjudged hk').mp hj
      exact hcond ⟨hb, by omega, by omega⟩
    have hclosed := @isOpen_relayAfter_unjudged (a.readerConfig known) _ h hno
    have hopen := (hopens (List.replicate n 0) (by simp)).mpr (by simp)
    rw [hclosed] at hopen
    cases hopen
  · rintro ⟨hb, hlow, hhigh⟩
    refine ⟨a.1.basemapRelayCircuitMinSamples.toNat, Int.toNat_of_nonneg (by omega), ?_⟩
    intro answers hlen
    have hno : ∀ k, k < a.1.basemapRelayCircuitMinSamples.toNat → 0 < k →
        ¬ Judged (a.readerConfig known).relaySettings k := by
      intro k hk hk' hj
      have hm := ((hjudged hk').mp hj).1
      omega
    rcases List.eq_nil_or_concat answers with rfl | ⟨front, now, rfl⟩
    · simp [relayAfter]
      omega
    · rw [List.concat_eq_append, List.length_append, List.length_singleton] at hlen ⊢
      have hfront : ∀ k, k ≤ front.length → 0 < k →
          ¬ Judged (a.readerConfig known).relaySettings k := fun k hk => hno k (by omega)
      by_cases hfull : front.length + 1 = a.1.basemapRelayCircuitMinSamples.toNat
      · refine iff_of_true (isOpen_relayAfter_judged h ?_ hfront ?_) hfull
        · change 0 < 1000
          omega
        · exact (hjudged (by omega)).mpr ⟨by omega, hb⟩
      · refine iff_of_false ?_ hfull
        have hall : ∀ k, k ≤ (front ++ [now]).length → 0 < k →
            ¬ Judged (a.readerConfig known).relaySettings k := by
          intro k hk
          rw [List.length_append, List.length_singleton] at hk
          exact hno k (by omega)
        simp [@isOpen_relayAfter_unjudged (a.readerConfig known) _ h hall]

end Accepted

/-- For every accepted configuration: a dead provider trips the breaker of its sweep, and
opens its relay circuit if there is one, after exactly as many fetches as configured, iff
both thresholds are below 1 and the relay circuit wants between 1 and 20 samples. -/
theorem dead_upstream_trips_iff (a : AcceptedSettings) (known : Bool) :
    (SweepTripsAfter a.scraperSettings a.1.basemapProviderErrorRateMinSamples ∧
      (a.1.basemapRelayCircuitEnabled = true →
        RelayOpensAfter (a.readerConfig known) a.1.basemapRelayCircuitMinSamples)) ↔
    (a.1.basemapProviderErrorRateThreshold.below 1 = true ∧
      (a.1.basemapRelayCircuitEnabled = true →
        a.1.basemapRelayCircuitThreshold.below 1 = true ∧
          1 ≤ a.1.basemapRelayCircuitMinSamples ∧ a.1.basemapRelayCircuitMinSamples ≤ 20)) :=
  and_congr (sweepTripsAfter_iff a) (imp_congr_right fun h => relayOpensAfter_iff a known h)

/-- The settings as they ship. -/
def defaultSettings : Settings where
  basemapBackupMode := "backup_and_prefetch"
  basemapOnlineFallbackEnabled := true
  basemapScrapeParallelismMode := "sequential"
  basemapScrapePerHostConcurrent := 8
  basemapScrapeConcurrent := 20
  basemapProviderErrorRateThreshold := .number (1 / 20)
  basemapProviderErrorRateMinSamples := 50
  basemapProviderErrorRateWindow := 200
  basemapNegativeCacheEnabled := true
  basemapNegativeCacheTtl := 300
  basemapProviderCooldownSchedule := [300, 900, 3600, 10800, 21600]
  syncPrefetch := some true
  weatherStationsSyncEnabled := some true
  appRole := "all"
  gfsCyclesToKeep := 2
  gfsTileTtl := 64800
  gfsGeojsonTtl := 64800
  basemapCacheMaxZoom := 11
  basemapScrapeIntervalSeconds := 604800
  basemapScrapeCheckpointEvery := 200
  basemapScrapeCheckpointMillis := 5000
  basemapScrapeFanoutWindow := 500
  basemapRelayCircuitEnabled := true
  basemapRelayCircuitMinSamples := 5
  basemapRelayCircuitThreshold := .number (4 / 5)
  basemapRelayCircuitMaxCooldownMillis := 30000

/-- A threshold of 1 is accepted, and no error rate exceeds it. -/
theorem dead_upstream_never_trips : ¬ ∀ (a : AcceptedSettings) (known : Bool),
    SweepTripsAfter a.scraperSettings a.1.basemapProviderErrorRateMinSamples ∧
      (a.1.basemapRelayCircuitEnabled = true →
        RelayOpensAfter (a.readerConfig known) a.1.basemapRelayCircuitMinSamples) := by
  intro h
  have hsweep := (h ⟨{ defaultSettings with basemapProviderErrorRateThreshold := .number 1 },
    by decide +kernel⟩ true).1
  have hbelow := (sweepTripsAfter_iff _).mp hsweep
  simp [FloatSetting.below] at hbelow

end DataService
