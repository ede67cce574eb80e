import DataService.Lib.StepSystem
import DataService.WeatherStations.Registry

/-! Which copy of the registry stays in the bucket. The process keeps the stored one only
as long as it remembers a hash, and a single failed read makes it forget. -/

namespace DataService.Registry

open StepSystem RemoteStore

variable {η σ : Type*} {cfg : RegistryConfig η σ} {s t : State η σ}

def FromRemote (registry : Option (RegistryPayload σ)) : Prop :=
  ∃ p, registry = some p ∧ p.source = .remote

/-- No bundled copy was written over one from the remote registry. -/
def KeepsRemote (s : State η σ) : Prop :=
  ∀ before payload, .stored before payload ∈ s.log → FromRemote before →
    payload.source ≠ .bundled

/-- If the upstream registry fails in this step while a copy of it is stored, the process
remembers a registry hash. -/
def RemembersStored (cfg : RegistryConfig η σ) (s : State η σ) : Action → Prop
  | .fetched none _ =>
    s.pc = .fetching → cfg.registryFallbackEnabled → FromRemote s.registry →
      s.memory.registryHash ≠ none
  | _ => True

/-- A cycle that has turned to the bundle does so over no remote copy. -/
def Pc.SeedsOnly (registry : Option (RegistryPayload σ)) : Pc η σ → Prop
  | .readingBundle => ¬ FromRemote registry
  | .puttingRegistry payload _ => payload.source = .bundled → ¬ FromRemote registry
  | _ => True

structure Seeding (s : State η σ) : Prop where
  kept : KeepsRemote s
  pc : s.pc.SeedsOnly s.registry

theorem seeding_boot (registry : Option (RegistryPayload σ)) (registryMeta : Option (MetaBody η)) :
    Seeding (State.boot registry registryMeta) :=
  ⟨fun _ _ h => absurd h List.not_mem_nil, trivial⟩

theorem KeepsRemote.of_log (h : KeepsRemote s) (hl : t.log = s.log) : KeepsRemote t := by
  intro before payload hm
  exact h before payload (hl ▸ hm)

theorem KeepsRemote.scrape (h : KeepsRemote s) : KeepsRemote s.scrape := by
  intro before payload hm
  have hm' : .stored before payload ∈ s.log := by simpa [State.scrape] using hm
  exact h before payload hm'

theorem KeepsRemote.raise (h : KeepsRemote s) : KeepsRemote s.raise := by
  intro before payload hm
  have hm' : .stored before payload ∈ s.log := by simpa [State.raise] using hm
  exact h before payload hm'

/-- An upload that lands leaves no bundled copy over a remote one. -/
theorem Seeding.land (h : Seeding s) : KeepsRemote s.land := by
  have hpc := h.pc
  unfold State.land
  split
  · rename_i payload m he
    rw [he] at hpc
    intro before new hm hb
    rcases List.mem_cons.mp hm with hm | hm
    · obtain ⟨rfl, rfl⟩ := Event.stored.inj hm
      exact fun hs => hpc hs hb
    · exact h.kept before new hm hb
  · exact h.kept.of_log rfl
  · exact h.kept

theorem seeding_warm (h : KeepsRemote s) : Seeding (warm cfg s) := by
  unfold warm
  by_cases hc : cfg.cacheEnabled
  · rw [if_pos hc]
    exact ⟨h.of_log rfl, trivial⟩
  · rw [if_neg hc]
    exact ⟨h.scrape, trivial⟩

theorem KeepsRemote.landIf (h : Seeding s) (landed : Bool) :
    KeepsRemote (if landed then s.land else s) := by
  cases landed
  · exact h.kept
  · exact h.land

theorem bootstrap_log {body : Option (MetaBody η)} (h : bootstrap s body = some t) :
    t.log = s.log := by
  rcases body with _ | m | _ | _ | _
  · cases h
    rfl
  · cases h
    rfl
  · rename_i hash
    cases hash <;> cases h <;> rfl
  · cases h
  · cases h
    rfl

variable [DecidableEq η]

theorem seeding_offer (h : KeepsRemote s) {source : Source} {text : String} {now : Int}
    (hs : source = .bundled → ¬ FromRemote s.registry) :
    Seeding (offer cfg s source text now) := by
  unfold offer
  by_cases he : some (cfg.sha256 text) = s.memory.registryHash
  · simp only [he, if_true]
    exact seeding_warm h
  · simp only [he, if_false]
    split
    · exact ⟨h.raise, trivial⟩
    · exact seeding_warm h
    · exact ⟨h.of_log rfl, hs⟩

theorem Seeding.step {a : Action} (h : Seeding s) (hg : RemembersStored cfg s a)
    (ha : registryStep cfg s a = some t) : Seeding t := by
  have hpc := h.pc
  cases a with
  | begin =>
    simp only [registryStep] at ha
    split at ha
    · split at ha <;> cases ha <;> exact ⟨h.kept.of_log rfl, trivial⟩
    · cases ha
  | downloaded ok =>
    simp only [registryStep] at ha
    split at ha
    · split at ha
      · rename_i u hb
        cases ha
        have hl : u.log = s.log := bootstrap_log hb
        exact ⟨h.kept.of_log (t := u.goTo .fetching) hl, trivial⟩
      · cases ha
        exact ⟨h.kept.raise, trivial⟩
    · split at ha
      · cases ha
        exact ⟨(h.kept.of_log (t := s.setHash none) rfl).scrape, trivial⟩
      · cases ha
        exact ⟨h.kept.scrape, trivial⟩
    · cases ha
  | fetched text now =>
    simp only [registryStep] at ha
    split at ha
    · cases ha
      exact seeding_offer h.kept (fun hs => by cases hs)
    · rename_i he
      split at ha
      · rename_i hseed
        cases ha
        refine ⟨h.kept.of_log rfl, ?_⟩
        intro hr
        have hse : cfg.registryFallbackEnabled = true ∧ s.memory.registryHash = none := by
          simpa [shouldSeedFromBundle] using hseed
        exact hg he hse.1 hr hse.2
      · cases ha
        exact seeding_warm h.kept
    · cases ha
  | bundleRead text now =>
    simp only [registryStep] at ha
    split at ha
    · rename_i he
      cases ha
      rw [he] at hpc
      exact seeding_offer h.kept fun _ => hpc
    · cases ha
      exact seeding_warm h.kept
    · cases ha
  | uploaded o =>
    have hl := KeepsRemote.landIf h o.landed
    simp only [registryStep] at ha
    split at ha
    · split at ha <;> cases ha
      · exact ⟨hl.of_log rfl, trivial⟩
      · exact seeding_warm hl
    · split at ha <;> cases ha
      · exact seeding_warm (hl.of_log rfl)
      · exact seeding_warm hl
    · cases ha
  | scrapeDone =>
    simp only [registryStep] at ha
    split at ha
    · cases ha
      exact ⟨h.kept.of_log rfl, trivial⟩
    · cases ha
  | registryLost =>
    cases ha
    refine ⟨h.kept.of_log rfl, ?_⟩
    have hnone : ¬ FromRemote (none : Option (RegistryPayload σ)) := by
      rintro ⟨p, hp, -⟩
      cases hp
    cases hp : s.pc <;> simp [Pc.SeedsOnly, hnone]
  | metaLost =>
    cases ha
    exact ⟨h.kept.of_log rfl, hpc⟩
  | cancel landed =>
    cases ha
    exact ⟨(KeepsRemote.landIf h landed).of_log rfl, trivial⟩
  | restart landed =>
    cases ha
    exact ⟨(KeepsRemote.landIf h landed).of_log rfl, trivial⟩

/-- Where the process has forgotten the hash of a stored copy, a failed upstream and a readable
bundle are enough to lose the copy. -/
theorem loses_remote_of_forgotten {text : String} {now : Int} {station : σ} {stations : List σ}
    (hpc : s.pc = .fetching) (hf : cfg.registryFallbackEnabled) (hr : FromRemote s.registry)
    (hn : s.memory.registryHash = none)
    (hp : cfg.parseEstacionesTxt text = some (station :: stations)) :
    ∃ t, run (registryStep cfg) s [.fetched none now, .bundleRead (some text) now, .uploaded .ok] =
      some t ∧ ¬ KeepsRemote t := by
  have hseed : shouldSeedFromBundle cfg s.memory = true := by simp [shouldSeedFromBundle, hf, hn]
  let payload := registryPayload cfg .bundled (station :: stations) now
  let m : RegistryMeta η := ⟨cfg.sha256 text, payload.stations.length, payload.fetchedAt, .bundled⟩
  let u := (s.goTo .readingBundle).goTo (.puttingRegistry payload m)
  have h1 : registryStep cfg s (.fetched none now) = some (s.goTo .readingBundle) := by
    simp [registryStep, hpc, hseed]
  have h2 : registryStep cfg (s.goTo .readingBundle) (.bundleRead (some text) now) = some u := by
    simp [registryStep, State.goTo, offer, hn, hp, u, payload, m]
  have h3 : registryStep cfg u (.uploaded .ok) = some (u.land.goTo (.puttingMeta m)) := rfl
  refine ⟨u.land.goTo (.puttingMeta m), ?_, ?_⟩
  · exact run_cons.mpr ⟨_, h1, run_cons.mpr ⟨_, h2, run_cons.mpr ⟨_, h3, rfl⟩⟩⟩
  · intro hk
    exact hk s.registry payload (List.mem_cons_self ..) hr rfl

/-- In every run in which the process remembers a hash whenever the upstream registry fails
over a stored copy of it, no bundled copy is written over a remote one; and a run that has come to
where it does not remember one is three answers away from losing the copy. -/
theorem keeps_remote_of_remembered {registry : Option (RegistryPayload σ)}
    {registryMeta : Option (MetaBody η)} {as : List Action}
    (h : run (registryStep cfg) (State.boot registry registryMeta) as = some s) :
    (Along (registryStep cfg) (RemembersStored cfg) (State.boot registry registryMeta) as →
      KeepsRemote s) ∧
    ∀ text now station stations, s.pc = .fetching → cfg.registryFallbackEnabled →
      FromRemote s.registry → s.memory.registryHash = none →
      cfg.parseEstacionesTxt text = some (station :: stations) →
      ∃ t, run (registryStep cfg) s [.fetched none now, .bundleRead (some text) now, .uploaded .ok] =
        some t ∧ ¬ KeepsRemote t := by
  refine ⟨fun hg => ?_, fun _ _ _ _ hpc hf hr hn hp => loses_remote_of_forgotten hpc hf hr hn hp⟩
  have hs : Seeding s :=
    run_invariant_along (P := Seeding) (fun u a v hu hgu ha => hu.step hgu ha)
      (seeding_boot registry registryMeta) hg h
  exact hs.kept

/-- A registry of one station for each line of text, with the text as its own hash. -/
def lineConfig : RegistryConfig String String where
  sha256 := id
  parseEstacionesTxt text := if text = "" then some [] else some [text]
  smnStationsRegistryUrl := "http://smn"
  registryFallbackPath := "resources/estaciones_smn.txt"
  registryFallbackEnabled := true
  cacheEnabled := true

/-- A cycle stores the upstream registry. -/
def storeCycle : List Action :=
  [.begin, .downloaded true, .fetched (some "live") 0, .uploaded .ok, .uploaded .ok,
    .downloaded true, .scrapeDone]

/-- After a restart the upstream registry fails, and the stored hash was read. -/
def keptRun : List Action :=
  storeCycle ++ [Action.restart false, .begin, .downloaded true, .fetched none 1, .downloaded true]

/-- After a restart the read of the stored hash fails, and so does the upstream registry. -/
def forgottenRun : List Action :=
  storeCycle ++ [Action.restart false, .begin, .downloaded false, .fetched none 1,
    .bundleRead (some "old") 1, .uploaded .ok]

instance (registry : Option (RegistryPayload σ)) : Decidable (FromRemote registry) :=
  match registry with
  | none => isFalse (by rintro ⟨p, hp, -⟩; cases hp)
  | some p => decidable_of_iff (p.source = .remote) (by simp [FromRemote])

instance [DecidableEq σ] (s : State η σ) (a : Action) : Decidable (RemembersStored cfg s a) := by
  unfold RemembersStored
  split <;> infer_instance

theorem keeps_remote_after_restart : ∃ s : State String String,
    run (registryStep lineConfig) (State.boot none none) keptRun = some s ∧
      FromRemote s.registry ∧ KeepsRemote s := by
  have hr : ((run (registryStep lineConfig) (State.boot none none) keptRun).map
      fun s => decide (FromRemote s.registry)) = some true := by decide
  obtain ⟨s, hs, hf⟩ := Option.map_eq_some_iff.mp hr
  exact ⟨s, hs, of_decide_eq_true hf, (keeps_remote_of_remembered hs).1 (by decide)⟩

/-- One failed read of the stored hash is enough for the bundle to replace the stored
registry of the upstream. -/
theorem bundle_overwrites_remote : ¬ ∀ (as : List Action) (s : State String String),
    run (registryStep lineConfig) (State.boot none none) as = some s → KeepsRemote s := by
  intro h
  have hr : ((run (registryStep lineConfig) (State.boot none none) forgottenRun).map
      fun s => s.log.head?) = some (some (.stored
        (some ⟨0, "http://smn", .remote, ["live"]⟩)
        ⟨1, "resources/estaciones_smn.txt", .bundled, ["old"]⟩)) := by decide
  obtain ⟨s, hs, hl⟩ := Option.map_eq_some_iff.mp hr
  exact h forgottenRun s hs _ _ (List.mem_of_mem_head? hl) ⟨_, rfl, rfl⟩ rfl

end DataService.Registry
