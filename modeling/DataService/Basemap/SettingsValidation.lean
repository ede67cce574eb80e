import DataService.Basemap.ProviderBreaker
import DataService.Basemap.TileReader

/-! `Settings._validate`, and the two breakers as an accepted configuration sets them up: the
one of a scraper sweep and the one of the reader's relay to a provider. -/

namespace DataService

/-- A setting that is read with `float`, which also takes infinities and nan. -/
inductive FloatSetting where
  | number (q : ℚ)
  | infinity (negative : Bool)
  | nan
  deriving DecidableEq, Repr

namespace FloatSetting

/-- `t < q` -/
def below (t : FloatSetting) (q : ℚ) : Bool :=
  match t with
  | number r => decide (r < q)
  | infinity negative => negative
  | nan => false

/-- `0 < t <= 1` -/
def inUnitInterval : FloatSetting → Bool
  | number q => decide (0 < q ∧ q ≤ 1)
  | _ => false

/-- The same threshold for rates of at least one failure: below 0 it is 0, and what no rate
exceeds is 2. -/
def ratio : FloatSetting → Ratio
  | number q => ⟨q.num.toNat, q.den, q.den_pos⟩
  | infinity true => ⟨0, 1, Nat.one_pos⟩
  | infinity false | nan => ⟨2, 1, Nat.one_pos⟩

theorem ratio_exceededBy (t : FloatSetting) {part whole : Nat} (hpart : 0 < part)
    (hle : part ≤ whole) : t.ratio.exceededBy part whole = t.below ((part : ℚ) / whole) := by
  have hwhole : (0 : ℚ) < whole := by exact_mod_cast Nat.lt_of_lt_of_le hpart hle
  have hrate : 0 < (part : ℚ) / whole := div_pos (by exact_mod_cast hpart) hwhole
  have hone : (part : ℚ) / whole ≤ 1 := (div_le_one hwhole).mpr (by exact_mod_cast hle)
  rw [Bool.eq_iff_iff, t.ratio.exceededBy_iff (by omega)]
  cases t with
  | number q =>
    simp only [ratio, Ratio.toRat, below, decide_eq_true_iff]
    rcases Int.le_total 0 q.num with hpos | hneg
    · have hnum : ((q.num.toNat : ℕ) : ℚ) = q.num := by exact_mod_cast Int.toNat_of_nonneg hpos
      rw [hnum, Rat.num_div_den]
    · have hq : q ≤ 0 := Rat.num_nonpos.mp hneg
      rw [Int.toNat_of_nonpos hneg, Nat.cast_zero, zero_div]
      exact iff_of_true hrate (lt_of_le_of_lt hq hrate)
  | infinity negative =>
    cases negative with
    | true => simpa [ratio, Ratio.toRat, below] using hrate
    | false =>
      simp only [ratio, Ratio.toRat, below, Bool.false_eq_true, iff_false, not_lt]
      exact hone.trans (by norm_num)
  | nan =>
    simp only [ratio, Ratio.toRat, below, Bool.false_eq_true, iff_false, not_lt]
    exact hone.trans (by norm_num)

end FloatSetting

/-- What `_validate` reads, and what else the scraper and the reader take from it. A flag
that is no boolean is none. Times are whole seconds, or milliseconds where the name says so. -/
structure Settings where
  basemapBackupMode : String
  basemapOnlineFallbackEnabled : Bool
  basemapScrapeParallelismMode : String
  basemapScrapePerHostConcurrent : Int
  basemapScrapeConcurrent : Int
  basemapProviderErrorRateThreshold : FloatSetting
  basemapProviderErrorRateMinSamples : Int
  basemapProviderErrorRateWindow : Int
  basemapNegativeCacheEnabled : Bool
  basemapNegativeCacheTtl : Int
  basemapProviderCooldownSchedule : List Int
  syncPrefetch : Option Bool
  weatherStationsSyncEnabled : Option Bool
  appRole : String
  gfsCyclesToKeep : Int
  gfsTileTtl : Int
  gfsGeojsonTtl : Int
  basemapCacheMaxZoom : Nat
  basemapScrapeIntervalSeconds : Nat
  basemapScrapeCheckpointEvery : Nat
  basemapScrapeCheckpointMillis : Nat
  basemapScrapeFanoutWindow : Nat
  basemapRelayCircuitEnabled : Bool
  basemapRelayCircuitMinSamples : Int
  basemapRelayCircuitThreshold : FloatSetting
  basemapRelayCircuitMaxCooldownMillis : Nat

/-- The `ValueError`s of `_validate`, with what their texts are formatted from. -/
inductive SettingsError where
  | notOneOf (field got : String) (expected : List String)
  | relayOnlyWithoutFallback
  | belowOne (field : String) (got : Int)
  | perHostExceedsGlobal (perHost total : Int)
  | thresholdOutOfRange (field : String) (got : FloatSetting)
  | windowBelowMinSamples (window minSamples : Int)
  | scheduleEmpty
  | scheduleNotPositive (got : List Int)
  | scheduleDecreasing (got : List Int)
  | notBoolean (field : String)
  deriving DecidableEq

namespace Settings

def basemapBackupModes : List String :=
  ["backup_and_prefetch", "backup_and_cache_on_read", "backup_only", "relay_only"]

def basemapParallelismModes : List String := ["sequential", "per_origin", "full"]

def appRoles : List String := ["web", "worker", "all"]

/-- Raise the error unless the check passes. -/
def ensure (check : Bool) (e : SettingsError) : Except SettingsError Unit :=
  if check then .ok () else .error e

def isOneOf (field got : String) (expected : List String) : Except SettingsError Unit :=
  ensure (expected.contains got) (.notOneOf field got expected)

def atLeastOne (field : String) (got : Int) : Except SettingsError Unit :=
  ensure (1 ≤ got) (.belowOne field got)

def isBoolean (field : String) (got : Option Bool) : Except SettingsError Unit :=
  ensure got.isSome (.notBoolean field)

/-- `_validate` -/
def validate (s : Settings) : Except SettingsError Unit := do
  isOneOf "basemap_backup_mode" s.basemapBackupMode basemapBackupModes
  ensure (s.basemapBackupMode ≠ "relay_only" || s.basemapOnlineFallbackEnabled)
    .relayOnlyWithoutFallback
  isOneOf "basemap_scrape_parallelism_mode" s.basemapScrapeParallelismMode basemapParallelismModes
  atLeastOne "basemap_scrape_per_host_concurrent" s.basemapScrapePerHostConcurrent
  ensure (s.basemapScrapePerHostConcurrent ≤ s.basemapScrapeConcurrent)
    (.perHostExceedsGlobal s.basemapScrapePerHostConcurrent s.basemapScrapeConcurrent)
  ensure s.basemapProviderErrorRateThreshold.inUnitInterval
    (.thresholdOutOfRange "basemap_provider_error_rate_threshold"
      s.basemapProviderErrorRateThreshold)
  atLeastOne "basemap_provider_error_rate_min_samples" s.basemapProviderErrorRateMinSamples
  ensure (s.basemapProviderErrorRateMinSamples ≤ s.basemapProviderErrorRateWindow)
    (.windowBelowMinSamples s.basemapProviderErrorRateWindow s.basemapProviderErrorRateMinSamples)
  atLeastOne "basemap_negative_cache_ttl" s.basemapNegativeCacheTtl
  ensure (!s.basemapProviderCooldownSchedule.isEmpty) .scheduleEmpty
  ensure (s.basemapProviderCooldownSchedule.all (0 < ·))
    (.scheduleNotPositive s.basemapProviderCooldownSchedule)
  ensure ((s.basemapProviderCooldownSchedule.zip s.basemapProviderCooldownSchedule.tail).all
    fun p => p.1 ≤ p.2) (.scheduleDecreasing s.basemapProviderCooldownSchedule)
  isBoolean "sync_prefetch" s.syncPrefetch
  isBoolean "weather_stations_sync_enabled" s.weatherStationsSyncEnabled
  isOneOf "app_role" s.appRole appRoles
  atLeastOne "gfs_cycles_to_keep" s.gfsCyclesToKeep
  atLeastOne "gfs_tile_ttl" s.gfsTileTtl
  atLeastOne "gfs_geojson_ttl" s.gfsGeojsonTtl

theorem ensure_ok {check : Bool} {e : SettingsError} : ensure check e = .ok () ↔ check = true := by
  unfold ensure
  split_ifs with h <;> simp [h]

theorem then_ok {a b : Except SettingsError Unit} :
    (do a; b) = .ok () ↔ a = .ok () ∧ b = .ok () := by
  cases a with
  | error e => simp [bind, Except.bind]
  | ok u => simp [bind, Except.bind]

end Settings

/-- Settings that `_validate` lets through. -/
abbrev AcceptedSettings := { s : Settings // s.validate = .ok () }

namespace AcceptedSettings

variable (a : AcceptedSettings)

/-- What an accepted configuration promises of the breaker and the cooldowns. -/
theorem accepted : a.1.basemapProviderErrorRateThreshold.inUnitInterval = true ∧
    1 ≤ a.1.basemapProviderErrorRateMinSamples ∧
    a.1.basemapProviderErrorRateMinSamples ≤ a.1.basemapProviderErrorRateWindow ∧
    a.1.basemapProviderCooldownSchedule ≠ [] ∧
    (∀ c ∈ a.1.basemapProviderCooldownSchedule, 0 < c) ∧
    ∀ p ∈ a.1.basemapProviderCooldownSchedule.zip a.1.basemapProviderCooldownSchedule.tail,
      p.1 ≤ p.2 := by
  have h := a.2
  simp only [Settings.validate, Settings.then_ok, Settings.isOneOf, Settings.atLeastOne,
    Settings.ensure_ok, decide_eq_true_eq, List.all_eq_true, Bool.not_eq_true',
    List.isEmpty_eq_false_iff] at h
  obtain ⟨-, -, -, -, -, hthreshold, hmin, hwindow, -, hne, hpos, hmono, -⟩ := h
  exact ⟨hthreshold, hmin, hwindow, hne, hpos, hmono⟩

/-- What the scraper keeps of the settings. -/
def scraperSettings : ScraperSettings where
  cacheMaxZoom := a.1.basemapCacheMaxZoom
  scrapeInterval := a.1.basemapScrapeIntervalSeconds
  checkpointEvery := a.1.basemapScrapeCheckpointEvery
  checkpointMillis := a.1.basemapScrapeCheckpointMillis
  fanoutWindow := a.1.basemapScrapeFanoutWindow
  errorRateThreshold := a.1.basemapProviderErrorRateThreshold.ratio
  errorRateMinSamples := a.1.basemapProviderErrorRateMinSamples.toNat
  errorRateWindow := a.1.basemapProviderErrorRateWindow.toNat
  cooldownSchedule := a.1.basemapProviderCooldownSchedule.map Int.toNat
  minSamples_pos := by
    have hmin := a.accepted.2.1
    omega
  minSamples_le_window := by
    have hwindow := a.accepted.2.2.1
    omega

/-- The relay circuit of a provider: three settings, the rest are defaults. -/
def relaySettings : CircuitSettings :=
  { CircuitSettings.default with
    minSamples := a.1.basemapRelayCircuitMinSamples.toNat
    threshold := a.1.basemapRelayCircuitThreshold.ratio
    maxCooldown := a.1.basemapRelayCircuitMaxCooldownMillis }

/-- The reader as `configure_basemap` sets it up. -/
def readerConfig (providerKnown : Bool) : ReaderConfig where
  onlineFallback := a.1.basemapOnlineFallbackEnabled
  providerKnown := providerKnown
  redisCacheEnabled := ["backup_and_prefetch", "backup_and_cache_on_read"].contains a.1.basemapBackupMode
  s3CacheEnabled := ["backup_and_prefetch", "backup_and_cache_on_read", "backup_only"].contains
    a.1.basemapBackupMode
  negativeCacheRequested := a.1.basemapNegativeCacheEnabled
  relayCircuitEnabled := a.1.basemapRelayCircuitEnabled
  relaySettings := a.relaySettings

end AcceptedSettings

end DataService
