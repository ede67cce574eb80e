import DataService.WeatherStations.RegistryPrecedence
import DataService.WeatherStations.RegistryText

/-! When a cycle gets past the registry: stored metadata that are no JSON object, or a new
registry text with a coordinate beyond the floats, end it before the observations. -/

namespace DataService.Registry

open StepSystem FloatText JsonValue RemoteStore

/-- What the bootstrap makes of the stored bytes: it expects two of the exceptions, and an object. -/
def MetaBody.ofLoads : Except LoadError Json → MetaBody String
  | .ok (.obj fields) =>
    match get fields "source_hash" with
    | .str hash => .object (some hash)
    | _ => .object none
  | .ok _ => .value
  | .error .unicodeDecodeError | .error .jsonDecodeError => .unreadable
  | .error .valueError | .error .recursionError => .value

/-- The settings of the scraper that the registry uses. -/
structure Settings where
  smnStationsRegistryUrl : String
  registryFallbackPath : String
  registryFallbackEnabled : Bool
  cacheEnabled : Bool

variable {η : Type*}

/-- The scraper with its own parser. -/
def scraper (sha256 : String → η) (R : FloatReader) (settings : Settings) :
    RegistryConfig η RegistryText.StationMetadata where
  sha256 := sha256
  parseEstacionesTxt text := (RegistryText.parseEstacionesTxt R text.toList).toOption
  smnStationsRegistryUrl := settings.smnStationsRegistryUrl
  registryFallbackPath := settings.registryFallbackPath
  registryFallbackEnabled := settings.registryFallbackEnabled
  cacheEnabled := settings.cacheEnabled

/-- The text is the one whose hash is remembered, or has no coordinate beyond the floats. -/
def Digestible (sha256 : String → η) (R : FloatReader)
    (s : State η RegistryText.StationMetadata) (text : String) : Prop :=
  some (sha256 text) = s.memory.registryHash ∨
    ∀ line ∈ RegistryText.dataLines text.toList, ¬ RegistryText.Overflows R line

/-- The bootstrap reads no JSON value that is no object, and the text is digestible. -/
def Unblocking (sha256 : String → η) (R : FloatReader)
    (s : State η RegistryText.StationMetadata) : Action → Prop
  | .downloaded ok => s.pc = .bootstrapping → ok → s.registryMeta ≠ some .value
  | .fetched (some text) _ => s.pc = .fetching → Digestible sha256 R s text
  | .bundleRead (some text) _ => s.pc = .readingBundle → Digestible sha256 R s text
  | _ => True

/-- No cycle has ended with an exception. -/
def NeverRaised {σ : Type*} (s : State η σ) : Prop := .raised ∉ s.log

section Logs

variable {σ : Type*} {cfg : RegistryConfig η σ} {s t : State η σ}

theorem NeverRaised.of_log (h : NeverRaised s) (hlog : t.log = s.log) : NeverRaised t := by
  rw [NeverRaised, hlog]
  exact h

theorem not_neverRaised_raise : ¬ NeverRaised s.raise := fun h => h List.mem_cons_self

theorem NeverRaised.scrape (h : NeverRaised s) : NeverRaised s.scrape := by
  simpa [NeverRaised, State.scrape] using h

theorem NeverRaised.land (h : NeverRaised s) : NeverRaised s.land := by
  rw [State.land]
  split
  · simpa [NeverRaised, State.storeRegistry] using h
  · exact h.of_log rfl
  · exact h

theorem NeverRaised.landIf (h : NeverRaised s) (landed : Bool) :
    NeverRaised (if landed then s.land else s) := by
  cases landed
  · exact h
  · exact h.land

theorem bootstrap_eq_none {body : Option (MetaBody η)} :
    bootstrap s body = none ↔ body = some .value := by
  rcases body with _ | m | hash | _ | _
  · simp [bootstrap]
  · simp [bootstrap]
  · cases hash <;> simp [bootstrap]
  · simp [bootstrap]
  · simp [bootstrap]

theorem NeverRaised.warm (h : NeverRaised s) : NeverRaised (warm cfg s) := by
  rw [Registry.warm]
  split
  · exact h.of_log rfl
  · exact h.scrape

variable [DecidableEq η]

theorem neverRaised_offer_iff (h : NeverRaised s) {source : Source} {text : String} {now : Int} :
    NeverRaised (offer cfg s source text now) ↔
      some (cfg.sha256 text) = s.memory.registryHash ∨ (cfg.parseEstacionesTxt text).isSome := by
  rw [offer]
  by_cases hsame : some (cfg.sha256 text) = s.memory.registryHash
  · simp only [hsame, if_true, true_or, iff_true]
    exact h.warm
  · simp only [hsame, if_false, false_or]
    cases hparse : cfg.parseEstacionesTxt text with
    | none => exact iff_of_false not_neverRaised_raise (by simp)
    | some stations =>
      cases stations with
      | nil => exact iff_of_true h.warm rfl
      | cons station stations => exact iff_of_true (h.of_log rfl) rfl

end Logs

section Steps

variable {sha256 : String → η} {R : FloatReader} {settings : Settings}
  {s t : State η RegistryText.StationMetadata} {a : Action}

theorem digestible_iff (settings : Settings) {text : String} : Digestible sha256 R s text ↔
    some ((scraper sha256 R settings).sha256 text) = s.memory.registryHash ∨
      ((scraper sha256 R settings).parseEstacionesTxt text).isSome := by
  have hraises := RegistryText.parse_raises_iff (R := R) text.toList
  rw [Digestible]
  refine or_congr Iff.rfl ?_
  have hall : (∀ line ∈ RegistryText.dataLines text.toList, ¬ RegistryText.Overflows R line) ↔
      ¬ ∃ e, RegistryText.parseEstacionesTxt R text.toList = .error e := by
    simp [hraises]
  rw [hall]
  cases hparse : RegistryText.parseEstacionesTxt R text.toList with
  | ok stations => simp [scraper, hparse, Except.toOption]
  | error e => simp [scraper, hparse, Except.toOption]

variable [DecidableEq η]

/-- A step ends a cycle with an exception exactly if it is not unblocking. -/
theorem unblocking_iff (h : NeverRaised s) : Unblocking sha256 R s a ↔
    ∀ t, registryStep (scraper sha256 R settings) s a = some t → NeverRaised t := by
  cases a with
  | begin =>
    refine iff_of_true trivial fun t ht => ?_
    simp only [registryStep] at ht
    split at ht
    · split at ht <;> cases ht <;> exact h.of_log rfl
    · cases ht
  | downloaded ok =>
    by_cases hpc : s.pc = .bootstrapping
    · simp only [Unblocking, registryStep, hpc, forall_const]
      cases hboot : bootstrap s (if ok then s.registryMeta else none) with
      | none =>
        have hvalue := bootstrap_eq_none.mp hboot
        refine iff_of_false (fun hun => ?_) fun hall => not_neverRaised_raise (hall _ rfl)
        cases ok
        · cases hvalue
        · exact hun rfl hvalue
      | some u =>
        have hlog : u.log = s.log := bootstrap_log hboot
        refine iff_of_true (fun hok hvalue => ?_) fun t ht => ?_
        · rw [if_pos hok, bootstrap_eq_none.mpr hvalue] at hboot
          cases hboot
        · cases ht
          exact NeverRaised.of_log (t := u.goTo .fetching) h hlog
    · refine iff_of_true (fun h => absurd h hpc) fun t ht => ?_
      simp only [registryStep] at ht
      split at ht
      · contradiction
      · split at ht <;> cases ht
        · exact NeverRaised.scrape (h.of_log rfl)
        · exact h.scrape
      · cases ht
  | fetched text now =>
    by_cases hpc : s.pc = .fetching
    · cases text with
      | some text =>
        simp only [Unblocking, registryStep, hpc, forall_const, Option.some.injEq, forall_eq']
        rw [digestible_iff settings, neverRaised_offer_iff h]
      | none =>
        refine iff_of_true trivial fun t ht => ?_
        simp only [registryStep, hpc] at ht
        split at ht <;> cases ht
        · exact h.of_log rfl
        · exact h.warm
    · refine iff_of_true ?_ fun t ht => ?_
      · cases text with
        | some text => exact fun h => absurd h hpc
        | none => trivial
      · simp only [registryStep] at ht
        split at ht
        · contradiction
        · contradiction
        · cases ht
  | bundleRead text now =>
    by_cases hpc : s.pc = .readingBundle
    · cases text with
      | some text =>
        simp only [Unblocking, registryStep, hpc, forall_const, Option.some.injEq, forall_eq']
        rw [digestible_iff settings, neverRaised_offer_iff h]
      | none =>
        refine iff_of_true trivial fun t ht => ?_
        simp only [registryStep, hpc] at ht
        cases ht
        exact h.warm
    · refine iff_of_true ?_ fun t ht => ?_
      · cases text with
        | some text => exact fun h => absurd h hpc
        | none => trivial
      · simp only [registryStep] at ht
        split at ht
        · contradiction
        · contradiction
        · cases ht
  | uploaded o =>
    refine iff_of_true trivial fun t ht => ?_
    have hland := h.landIf o.landed
    simp only [registryStep] at ht
    split at ht
    · split at ht <;> cases ht
      · exact hland.of_log rfl
      · exact hland.warm
    · split at ht <;> cases ht
      · exact NeverRaised.warm (hland.of_log rfl)
      · exact hland.warm
    · cases ht
  | scrapeDone =>
    refine iff_of_true trivial fun t ht => ?_
    simp only [registryStep] at ht
    split at ht <;> cases ht
    exact h.of_log rfl
  | registryLost =>
    refine iff_of_true trivial fun t ht => ?_
    cases ht
    exact h.of_log rfl
  | metaLost =>
    refine iff_of_true trivial fun t ht => ?_
    cases ht
    exact h.of_log rfl
  | cancel landed =>
    refine iff_of_true trivial fun t ht => ?_
    cases ht
    exact (h.landIf landed).of_log rfl
  | restart landed =>
    refine iff_of_true trivial fun t ht => ?_
    cases ht
    exact (h.landIf landed).of_log rfl

end Steps

section Progress

variable {σ : Type*} {cfg : RegistryConfig η σ} {s t : State η σ} {a : Action}

/-- The answers that a cycle still awaits at most before it turns to the observations. -/
def Pc.remaining : Pc η σ → Nat
  | .bootstrapping => 6
  | .fetching => 5
  | .readingBundle => 4
  | .puttingRegistry _ _ => 3
  | .puttingMeta _ => 2
  | .warming => 1
  | .idle | .scraping => 0

/-- The action answers what the cycle awaits. -/
def Awaited : Pc η σ → Action → Prop
  | .bootstrapping, .downloaded _ | .warming, .downloaded _ => True
  | .fetching, .fetched _ _ | .readingBundle, .bundleRead _ _ => True
  | .puttingRegistry _ _, .uploaded _ | .puttingMeta _, .uploaded _ => True
  | _, _ => False

/-- The cycle goes on, with fewer answers to come, or has ended with an exception. -/
def Advanced (before : Nat) (t : State η σ) : Prop :=
  ¬ NeverRaised t ∨ t.pc = .scraping ∨ 0 < t.pc.remaining ∧ t.pc.remaining < before

theorem advanced_warm {before : Nat} (h : 1 < before) : Advanced before (warm cfg s) := by
  rw [warm]
  split
  · exact .inr (.inr ⟨Nat.one_pos, h⟩)
  · exact .inr (.inl rfl)

variable [DecidableEq η]

theorem advanced_offer {before : Nat} (h : 3 < before) {source : Source} {text : String}
    {now : Int} : Advanced before (offer cfg s source text now) := by
  rw [offer]
  by_cases hsame : some (cfg.sha256 text) = s.memory.registryHash
  · simp only [hsame, if_true]
    exact advanced_warm (by omega)
  · simp only [hsame, if_false]
    cases cfg.parseEstacionesTxt text with
    | none => exact .inl not_neverRaised_raise
    | some stations =>
      cases stations with
      | nil => exact advanced_warm (by omega)
      | cons station stations => exact .inr (.inr ⟨by simp [State.goTo, Pc.remaining], h⟩)

variable (cfg) in
/-- Whatever the answer, the cycle takes it. -/
theorem awaited_step (h : Awaited s.pc a) :
    ∃ t, registryStep cfg s a = some t ∧ Advanced s.pc.remaining t := by
  cases a with
  | downloaded ok =>
    cases hpc : s.pc with
    | bootstrapping =>
      cases hboot : bootstrap s (if ok then s.registryMeta else none) with
      | none =>
        refine ⟨s.raise, ?_, .inl not_neverRaised_raise⟩
        simp [registryStep, hpc, hboot]
      | some u =>
        refine ⟨u.goTo .fetching, ?_, .inr (.inr ?_)⟩
        · simp [registryStep, hpc, hboot]
        · simp [State.goTo, Pc.remaining]
    | warming =>
      cases hbody : (if ok then s.registry else none) with
      | none => exact ⟨(s.setHash none).scrape, by simp [registryStep, hpc, hbody], .inr (.inl rfl)⟩
      | some payload => exact ⟨s.scrape, by simp [registryStep, hpc, hbody], .inr (.inl rfl)⟩
    | idle => simp [hpc, Awaited] at h
    | fetching => simp [hpc, Awaited] at h
    | readingBundle => simp [hpc, Awaited] at h
    | puttingRegistry payload m => simp [hpc, Awaited] at h
    | puttingMeta m => simp [hpc, Awaited] at h
    | scraping => simp [hpc, Awaited] at h
  | fetched text now =>
    obtain hpc : s.pc = .fetching := by cases hpc : s.pc <;> simp [hpc, Awaited] at h ⊢
    cases text with
    | some text =>
      refine ⟨offer cfg s .remote text now, by simp [registryStep, hpc], ?_⟩
      rw [hpc]
      exact advanced_offer (by simp [Pc.remaining])
    | none =>
      by_cases hseed : shouldSeedFromBundle cfg s.memory
      · refine ⟨s.goTo .readingBundle, by simp [registryStep, hpc, hseed], .inr (.inr ?_)⟩
        simp [hpc, State.goTo, Pc.remaining]
      · refine ⟨warm cfg s, by simp [registryStep, hpc, hseed], ?_⟩
        rw [hpc]
        exact advanced_warm (by simp [Pc.remaining])
  | bundleRead text now =>
    obtain hpc : s.pc = .readingBundle := by cases hpc : s.pc <;> simp [hpc, Awaited] at h ⊢
    rw [hpc]
    cases text with
    | some text =>
      exact ⟨offer cfg s .bundled text now, by simp [registryStep, hpc],
        advanced_offer (by simp [Pc.remaining])⟩
    | none => exact ⟨warm cfg s, by simp [registryStep, hpc], advanced_warm (by simp [Pc.remaining])⟩
  | uploaded o =>
    cases hpc : s.pc with
    | puttingRegistry payload m =>
      by_cases ho : o = .ok
      · refine ⟨(if o.landed then s.land else s).goTo (.puttingMeta m), ?_, .inr (.inr ?_)⟩
        · rw [registryStep, hpc]
          exact if_pos ho
        · simp [State.goTo, Pc.remaining]
      · refine ⟨warm cfg (if o.landed then s.land else s), ?_, advanced_warm ?_⟩
        · rw [registryStep, hpc]
          exact if_neg ho
        · simp [Pc.remaining]
    | puttingMeta m =>
      by_cases ho : o = .ok
      · refine ⟨warm cfg ((if o.landed then s.land else s).setHash (some m.sourceHash)), ?_,
          advanced_warm ?_⟩
        · rw [registryStep, hpc]
          exact if_pos ho
        · simp [Pc.remaining]
      · refine ⟨warm cfg (if o.landed then s.land else s), ?_, advanced_warm ?_⟩
        · rw [registryStep, hpc]
          exact if_neg ho
        · simp [Pc.remaining]
    | idle => simp [hpc, Awaited] at h
    | bootstrapping => simp [hpc, Awaited] at h
    | fetching => simp [hpc, Awaited] at h
    | readingBundle => simp [hpc, Awaited] at h
    | warming => simp [hpc, Awaited] at h
    | scraping => simp [hpc, Awaited] at h
  | begin => cases hpc : s.pc <;> simp [hpc, Awaited] at h
  | scrapeDone => cases hpc : s.pc <;> simp [hpc, Awaited] at h
  | registryLost => cases hpc : s.pc <;> simp [hpc, Awaited] at h
  | metaLost => cases hpc : s.pc <;> simp [hpc, Awaited] at h
  | cancel landed => cases hpc : s.pc <;> simp [hpc, Awaited] at h
  | restart landed => cases hpc : s.pc <;> simp [hpc, Awaited] at h

end Progress

section Cycles

variable [DecidableEq η] {sha256 : String → η} {R : FloatReader} {settings : Settings}

/-- A cycle whose answers are all unblocking reaches the observations. -/
theorem cycle_reaches_observations {answer : State η RegistryText.StationMetadata → Action}
    (hanswer : ∀ s, 0 < s.pc.remaining →
      Awaited s.pc (answer s) ∧ Unblocking sha256 R s (answer s))
    (n : Nat) (s : State η RegistryText.StationMetadata) (hn : s.pc.remaining = n) (hpos : 0 < n)
    (h : NeverRaised s) :
    ∃ as t, run (registryStep (scraper sha256 R settings)) s as = some t ∧ as.length ≤ n ∧
      t.pc = .scraping ∧ NeverRaised t := by
  induction n using Nat.strong_induction_on generalizing s with
  | _ n ih =>
    obtain ⟨hawaited, hunblocking⟩ := hanswer s (by omega)
    obtain ⟨t, ht, hadvanced⟩ := awaited_step (scraper sha256 R settings) hawaited
    have hnever := (unblocking_iff h).mp hunblocking t ht
    rcases hadvanced with hraised | hdone | ⟨hpos', hless⟩
    · exact absurd hnever hraised
    · exact ⟨[answer s], t, run_cons.mpr ⟨t, ht, rfl⟩, hpos, hdone, hnever⟩
    · obtain ⟨as, u, hrun, hlength, hu⟩ := ih _ (by omega) t rfl hpos' hnever
      refine ⟨answer s :: as, u, run_cons.mpr ⟨t, ht, hrun⟩, ?_, hu⟩
      simp only [List.length_cons]
      omega

/-- No cycle of a run ends with an exception exactly if each step is unblocking; and wherever in a
cycle a run has come to, unblocking answers bring that cycle to the observations. -/
theorem registry_never_raises_iff (sha256 : String → η) (R : FloatReader) (settings : Settings)
    (registry : Option (RegistryPayload RegistryText.StationMetadata))
    (registryMeta : Option (MetaBody η)) (as : List Action) :
    (Always (registryStep (scraper sha256 R settings)) NeverRaised
        (State.boot registry registryMeta) as ↔
      Along (registryStep (scraper sha256 R settings)) (Unblocking sha256 R)
        (State.boot registry registryMeta) as) ∧
    ∀ s, run (registryStep (scraper sha256 R settings)) (State.boot registry registryMeta) as =
        some s → 0 < s.pc.remaining → NeverRaised s →
      ∀ answer : State η RegistryText.StationMetadata → Action,
        (∀ t, 0 < t.pc.remaining → Awaited t.pc (answer t) ∧ Unblocking sha256 R t (answer t)) →
        ∃ bs t, run (registryStep (scraper sha256 R settings)) s bs = some t ∧
          bs.length ≤ s.pc.remaining ∧ t.pc = .scraping ∧ NeverRaised t :=
  ⟨always_iff_along (I := fun _ => True) (fun _ _ _ _ _ => trivial)
    (fun _ _ _ h => unblocking_iff h) trivial List.not_mem_nil,
    fun s _ hpos hnever _ hanswer => cycle_reaches_observations hanswer _ s rfl hpos hnever⟩

end Cycles

/-- Two header lines and a row whose minutes of latitude have 310 digits. -/
def longRow : List Char :=
  ['\n', '\n'] ++ List.replicate 30 'A' ++ ['C', ' ', ' ', '3', '4', ' ', '1'] ++
    List.replicate 309 '0' ++ [' ', '5', ' ', '2', ' ', '6', ' ', '8']

def quietSettings : Settings := ⟨"http://smn", "resources/estaciones_smn.txt", true, true⟩

/-- A first cycle that gets a text on which the parser fails. -/
theorem first_cycle_raises {R : FloatReader} {content : List Char}
    (h : (RegistryText.parseEstacionesTxt R content).toOption = none) :
    ∃ s, run (registryStep (scraper id R quietSettings)) (State.boot none none)
      [.begin, .downloaded true, .fetched (some (String.ofList content)) 0] = some s ∧
        s.log = [.raised] := by
  let u : State String RegistryText.StationMetadata :=
    (((State.boot none none).goTo .bootstrapping).setBootstrapped).goTo .fetching
  have hparse : (scraper (η := String) id R quietSettings).parseEstacionesTxt
      (String.ofList content) = none := by
    simp [scraper, h]
  have hraise : offer (scraper id R quietSettings) u .remote (String.ofList content) 0 = u.raise := by
    rw [offer, hparse]
    rfl
  refine ⟨u.raise, run_cons.mpr ⟨_, rfl, run_cons.mpr ⟨u, rfl, run_cons.mpr ⟨u.raise, ?_, rfl⟩⟩⟩, rfl⟩
  exact congrArg some hraise

/-- Metadata that are a JSON list end every cycle that reads them, and such a row ends a cycle. -/
theorem registry_blocks_observations :
    (∃ s, run (registryStep (scraper id .asciiOnly quietSettings))
      (State.boot none (some (MetaBody.ofLoads (.ok (.arr [])))))
      [.begin, .downloaded true, .begin, .downloaded true] = some s ∧ s.log = [.raised, .raised]) ∧
    ∃ s, run (registryStep (scraper id .asciiOnly quietSettings)) (State.boot none none)
      [.begin, .downloaded true, .fetched (some (String.ofList longRow)) 0] = some s ∧
        s.log = [.raised] :=
  ⟨⟨_, rfl, rfl⟩, first_cycle_raises (by decide +kernel)⟩

end DataService.Registry
