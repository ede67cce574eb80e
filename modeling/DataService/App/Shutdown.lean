import DataService.App.Lifespan

/-! Whatever the deployment and whatever raises: the shutdown closes what the start-up has opened,
once, and nothing before what uses it. -/

namespace DataService.App

open Teardown

section Openings

/-- What a computation opens when it does not raise. -/
def Opens {α : Type} (x : Starting α) (a : α) (rs : List Resource) : Prop :=
  x.Yields a (rs.map .opened)

variable {α β : Type} {x : Starting α} {f : α → Starting β} {a : α} {b : β}
variable {rs rs' : List Resource}

theorem Opens.bind (hx : Opens x a rs) (hf : Opens (f a) b rs') :
    Opens (x >>= f) b (rs ++ rs') := by
  rw [Opens, List.map_append]
  exact Startup.Yields.bind hx hf

theorem opens_pure (a : α) : Opens (pure a) a [] := Startup.yields_pure a

theorem opens_openResource (r : Resource) : Opens (openResource r) () [r] :=
  (Startup.yields_attempt (Step.open r)).bind (Startup.yields_note (Event.opened r))

theorem opens_openIf (b : Bool) (r : Resource) : Opens (openIf b r) b (present b r) := by
  cases b with
  | false => exact opens_pure false
  | true => exact (opens_openResource r).bind (opens_pure true)

theorem opens_openEach (rs : List Resource) : Opens (openEach rs) () rs := by
  induction rs with
  | nil => exact opens_pure ()
  | cons r rs ih => exact (opens_openResource r).bind ih

theorem opens_attempt (step : Step) : Opens (Startup.attempt step) () [] :=
  Startup.yields_attempt step

theorem opens_raise (step : Step) : Opens (Startup.raise step) () [] :=
  Startup.yields_raise step ()

theorem yields_onlyIf {x : Starting Unit} {es : List Event} (hx : x.Yields () es) (b : Bool) :
    (onlyIf b x).Yields () (if b then es else []) := by
  cases b with
  | false => exact opens_pure ()
  | true => exact hx

theorem opens_onlyIf {x : Starting Unit} (hx : Opens x () rs) (b : Bool) :
    Opens (onlyIf b x) () (if b then rs else []) := by
  rw [Opens, apply_ite (List.map Event.opened)]
  exact yields_onlyIf hx b

theorem yields_probeS3 : probeS3.Yields () [.opened .s3Probe, .closed .s3Probe] := by
  have hbody : Opens (do openResource .s3Probe; Startup.attempt .s3Reachable) () [.s3Probe] :=
    (opens_openResource .s3Probe).bind (opens_attempt .s3Reachable)
  have hfin : (do Startup.note (.closed .s3Probe); Startup.attempt .probeClosed :
      Starting Unit).Yields () [.closed .s3Probe] :=
    (Startup.yields_note _).bind (Startup.yields_attempt _)
  exact hbody.tryFinally hfin

end Openings

section Handover

variable (d : Deployment)

def startedSyncServices : List Resource :=
  if d.syncPrefetch && d.runsBackgroundJobs then syncServices.map .syncService else []

theorem opens_configureStrategies : Opens (configureStrategies d) d.s3Configured
    (present d.s3Configured .s3Client ++ (startedSyncServices d ++ [])) :=
  (opens_openIf d.s3Configured .s3Client).bind <|
    (opens_onlyIf (opens_openEach _) _).bind (opens_pure _)

/-- The runtime holds what was opened, and the loops are left to the roles that run them. -/
def HandsOver {α : Type} (x : Starting α) (held : α → List Resource) : Prop :=
  ∃ runtime rs, Opens x runtime rs ∧ rs.Perm (held runtime) ∧
    ∀ r ∈ rs, r.isJob = true → d.runsBackgroundJobs = true

theorem handsOver_configureBasemap : HandsOver d (configureBasemap d) shutdownBasemap := by
  rw [configureBasemap]
  split
  · exact ⟨none, [], opens_pure none, .nil, by simp⟩
  split
  · exact ⟨none, [], opens_pure none, .nil, by simp⟩
  generalize d.basemapBackupMode.s3Backed = s3Backed
  generalize hjobs : d.runsBackgroundJobs = jobs
  refine ⟨_, _, (opens_openIf s3Backed .basemapS3Client).bind <|
    (opens_openResource .readerHttpClient).bind <| (opens_openResource .reader).bind <|
    (opens_openIf s3Backed .stateStore).bind <|
    (opens_openIf (s3Backed && jobs) .scraperHttpClient).bind <|
    (opens_onlyIf (opens_raise .assertion) _).bind <|
    (opens_openIf (s3Backed && jobs) .basemapScraper).bind (opens_pure _), ?held, ?loops⟩
  case held => cases s3Backed <;> cases jobs <;> decide
  case loops => cases s3Backed <;> cases jobs <;> simp [present, Resource.isJob, hjobs]

theorem opens_configureStationsSync (runtime : WeatherStationsRuntime) :
    Opens (configureStationsSync d runtime) runtime [] ∨
      Opens (configureStationsSync d runtime)
        { runtime with s3Client := true, smnClient := d.runsBackgroundJobs,
                       registryClient := d.runsBackgroundJobs, scraper := d.runsBackgroundJobs }
        ([.weatherS3Client] ++ (present d.runsBackgroundJobs .smnClient ++
          (present d.runsBackgroundJobs .registryClient ++
            (present d.runsBackgroundJobs .weatherScraper ++ [])))) := by
  rw [configureStationsSync]
  split
  · exact .inl (opens_pure runtime)
  split
  · exact .inl (opens_pure runtime)
  · exact .inr <| (opens_openResource .weatherS3Client).bind <|
      (opens_openIf _ .smnClient).bind <| (opens_openIf _ .registryClient).bind <|
      (opens_openIf _ .weatherScraper).bind (opens_pure _)

theorem handsOver_configureWeatherStations :
    HandsOver d (configureWeatherStations d) shutdownWeatherStations := by
  have hkeystore {runtime rs} (h : Opens (configureStationsSync d
      ⟨d.s3Configured, d.s3Configured, false, false, false, false⟩) runtime rs) :
      Opens (configureWeatherStations d) runtime (present d.s3Configured .apiKeysS3Client ++
        ((if d.s3Configured then [] else []) ++ (present d.s3Configured .keystore ++ rs))) :=
    (opens_openIf _ .apiKeysS3Client).bind <| (opens_onlyIf (opens_attempt .bucket) _).bind <|
      (opens_openIf _ .keystore).bind h
  rcases opens_configureStationsSync d
    ⟨d.s3Configured, d.s3Configured, false, false, false, false⟩ with hoff | hon
  · refine ⟨_, _, hkeystore hoff, ?held, ?loops⟩
    case held => cases d.s3Configured <;> decide
    case loops => cases d.s3Configured <;> simp [present, Resource.isJob]
  · refine ⟨_, _, hkeystore hon, ?held, ?loops⟩
    case held => cases d.s3Configured <;> cases d.runsBackgroundJobs <;> decide
    case loops =>
      cases d.s3Configured <;> cases d.runsBackgroundJobs <;> simp [present, Resource.isJob]

/-- What is open once the start-up is through. -/
def held (runtime : Runtime) : List Resource :=
  present runtime.redisMetricsService .redisMetricsService ++
    shutdownWeatherStations runtime.weatherStations ++ shutdownBasemap runtime.basemap ++
    startedSyncServices d ++ present runtime.s3Client .s3Client ++ [.metricsStore, .redisClient]

section Log

variable {log log' : List Event} {rs : List Resource}

@[simp] theorem openedOf_nil : openedOf [] = [] := rfl

@[simp] theorem closedOf_nil : closedOf [] = [] := rfl

@[simp] theorem openedOf_append : openedOf (log ++ log') = openedOf log ++ openedOf log' :=
  List.filterMap_append

@[simp] theorem closedOf_append : closedOf (log ++ log') = closedOf log ++ closedOf log' :=
  List.filterMap_append

@[simp] theorem openedOf_map_opened : openedOf (rs.map .opened) = rs := by
  induction rs with
  | nil => rfl
  | cons r rs ih => exact congrArg (r :: ·) ih

@[simp] theorem closedOf_map_opened : closedOf (rs.map .opened) = [] := by
  induction rs with
  | nil => rfl
  | cons r rs ih => exact ih

end Log

variable {d} {fails : Step → Bool} {rt : Runtime} {log : List Event}

theorem startup_log (h : startup d fails [] = (.ok rt, log)) :
    (openedOf log).Perm (closedOf log ++ held d rt) ∧
      closedOf log = present d.s3Configured .s3Probe ∧
      ∀ r ∈ openedOf log, r.isJob = true → d.runsBackgroundJobs = true := by
  obtain ⟨basemap, bs, hbasemap, hbs, hbjobs⟩ := handsOver_configureBasemap d
  obtain ⟨weatherStations, ws, hweather, hws, hwjobs⟩ := handsOver_configureWeatherStations d
  have hyields : (startup d).Yields ⟨d.s3Configured, basemap, weatherStations, _⟩ _ :=
    Startup.Yields.bind (opens_openResource .redisClient) <|
    Startup.Yields.bind (opens_attempt .migrations) <|
    Startup.Yields.bind (opens_openResource .metricsStore) <|
    Startup.Yields.bind (yields_onlyIf yields_probeS3 d.s3Configured) <|
    (opens_configureStrategies d).bind <| hbasemap.bind <| hweather.bind <|
    (opens_openIf (d.metricsEnabled && d.runsBackgroundJobs) .redisMetricsService).bind <|
    opens_pure _
  obtain ⟨rfl, rfl⟩ := hyields fails [] rt log h
  have hprobe : openedOf (if d.s3Configured then [.opened .s3Probe, .closed .s3Probe] else []) =
        present d.s3Configured .s3Probe ∧
      closedOf (if d.s3Configured then [.opened .s3Probe, .closed .s3Probe] else []) =
        present d.s3Configured .s3Probe := by
    cases d.s3Configured <;> decide
  simp only [openedOf_append, closedOf_append, openedOf_nil, closedOf_nil, openedOf_map_opened,
    closedOf_map_opened, hprobe]
  refine ⟨?held, ?probe, ?loops⟩
  case held =>
    rw [List.perm_iff_count] at hbs hws ⊢
    intro r
    simp only [held, List.count_append, List.count_cons, List.count_nil, hbs r, hws r]
    omega
  case probe => simp
  case loops =>
    intro r hr hjob
    simp only [startedSyncServices, present, List.mem_append, List.mem_ite_nil_right,
      List.mem_singleton, List.not_mem_nil, or_false, false_or] at hr
    rcases hr with rfl | rfl | ⟨-, rfl⟩ | (⟨-, rfl⟩ | ⟨hjobs, -⟩) | hr | hr | ⟨hjobs, -⟩
    · cases hjob
    · cases hjob
    · cases hjob
    · cases hjob
    · exact (Bool.and_eq_true_iff.mp hjobs).2
    · exact hbjobs r hr hjob
    · exact hwjobs r hr hjob
    · exact (Bool.and_eq_true_iff.mp hjobs).2

theorem held_sublist : (held d rt).Sublist (shutdownOrder d rt) := by
  have hservices : (startedSyncServices d).Sublist (shutdownServices d) := by
    unfold startedSyncServices shutdownServices
    cases d.syncPrefetch <;> cases d.runsBackgroundJobs <;> simp
  exact .append (.append (.append (.refl _) hservices) (.refl _)) (.refl _)

theorem mem_held_or_idle {r : Resource} (hr : r ∈ shutdownOrder d rt) :
    r ∈ held d rt ∨ d.runsBackgroundJobs = false ∧ ∃ loop, r = .syncService loop := by
  by_cases hservice : r ∈ shutdownServices d
  · obtain ⟨hprefetch, hloop⟩ := (List.mem_ite_nil_right).mp hservice
    cases hjobs : d.runsBackgroundJobs with
    | false =>
      obtain ⟨loop, -, rfl⟩ := List.mem_map.mp hloop
      exact .inr ⟨rfl, loop, rfl⟩
    | true =>
      have hstarted : r ∈ startedSyncServices d := by
        simpa [startedSyncServices, hprefetch, hjobs] using hloop
      simp [held, hstarted]
  · simp only [shutdownOrder, List.mem_append, hservice, or_false] at hr
    left
    simp only [held, List.mem_append]
    tauto

end Handover

section Order

variable {d : Deployment} {rt : Runtime}

open Resource in
def weatherStationsOrder : List Resource :=
  [weatherScraper] ++ [smnClient] ++ [registryClient] ++ [weatherS3Client] ++ [keystore] ++
    [apiKeysS3Client]

open Resource in
def basemapOrder : List Resource :=
  [basemapScraper] ++ [stateStore] ++ [reader, readerHttpClient] ++ [scraperHttpClient] ++
    [basemapS3Client]

open Resource in
/-- Every step of the shutdown. -/
def fullOrder : List Resource :=
  [redisMetricsService] ++ weatherStationsOrder ++ basemapOrder ++ syncServices.map syncService ++
    [s3Client] ++ [metricsStore, redisClient]

theorem present_sublist (b : Bool) (r : Resource) : (present b r).Sublist [r] := by
  cases b with
  | false => exact List.nil_sublist [r]
  | true => exact List.Sublist.refl [r]

theorem shutdownWeatherStations_sublist (runtime : WeatherStationsRuntime) :
    (shutdownWeatherStations runtime).Sublist weatherStationsOrder :=
  (((((present_sublist _ .weatherScraper).append (present_sublist _ .smnClient)).append
    (present_sublist _ .registryClient)).append (present_sublist _ .weatherS3Client)).append
      (present_sublist _ .keystore)).append (present_sublist _ .apiKeysS3Client)

theorem shutdownBasemap_sublist (runtime : Option BasemapRuntime) :
    (shutdownBasemap runtime).Sublist basemapOrder := by
  cases runtime with
  | none => exact List.nil_sublist basemapOrder
  | some runtime =>
    exact ((((present_sublist _ .basemapScraper).append (present_sublist _ .stateStore)).append
      (.refl _)).append (present_sublist _ .scraperHttpClient)).append
        (present_sublist _ .basemapS3Client)

theorem shutdownServices_sublist :
    (shutdownServices d).Sublist (syncServices.map .syncService) := by
  unfold shutdownServices
  cases d.syncPrefetch with
  | false => exact List.nil_sublist _
  | true => exact List.Sublist.refl _

theorem shutdownOrder_sublist : (shutdownOrder d rt).Sublist fullOrder :=
  (((((present_sublist _ .redisMetricsService).append (shutdownWeatherStations_sublist _)).append
    (shutdownBasemap_sublist _)).append shutdownServices_sublist).append
      (present_sublist _ .s3Client)).append (.refl _)

/-- No step closes what a later one still uses, and none closes twice. -/
theorem fullOrder_sound : (.s3Probe :: fullOrder).Nodup ∧
    (.s3Probe :: fullOrder).Pairwise fun earlier later => earlier ∉ later.uses := by
  decide

end Order

theorem shutdownOrder_eq_concat (d : Deployment) (rt : Runtime) :
    ∃ steps, shutdownOrder d rt = steps ++ [.redisClient] := by
  rw [shutdownOrder, List.append_cons]
  exact ⟨_, rfl⟩

/-- Behind a start-up that came through: the shutdown closes once, and nothing that what is still to
be closed uses; it closes only what was opened and the idle loops of the web role; and it closes all
of it if and only if none of its steps is cancelled. -/
theorem shutdown_closes_opened (d : Deployment) (fails : Step → Bool) {runtime : Runtime}
    {log : List Event} (h : startup d fails [] = (.ok runtime, log)) (ends : Resource → CloseEnd) :
    (closedOf log ++ shutdown d runtime ends).Nodup ∧
      (closedOf log ++ shutdown d runtime ends).Pairwise
        (fun earlier later => earlier ∉ later.uses) ∧
      (∀ r ∈ closedOf log ++ shutdown d runtime ends, r ∈ openedOf log ∨
        d.runsBackgroundJobs = false ∧ ∃ loop, r = .syncService loop) ∧
      ((∀ r ∈ openedOf log, r ∈ closedOf log ++ shutdown d runtime ends) ↔
        ∀ r ∈ shutdownOrder d runtime, r ≠ .redisClient → ends r ≠ .cancelled) ∧
      ∀ r ∈ openedOf log, r.isJob = true → d.runsBackgroundJobs = true := by
  obtain ⟨hopened, hprobe, hjobs⟩ := startup_log h
  have hsublist : (closedOf log ++ shutdown d runtime ends).Sublist (.s3Probe :: fullOrder) := by
    rw [hprobe]
    exact (present_sublist _ _).append (run_sublist.trans shutdownOrder_sublist)
  have hnodup := hsublist.nodup fullOrder_sound.1
  refine ⟨hnodup, fullOrder_sound.2.sublist hsublist, ?_, ?_, hjobs⟩
  · intro r hr
    rw [hopened.mem_iff, List.mem_append]
    rcases List.mem_append.mp hr with hr | hr
    · exact .inl (.inl hr)
    · exact (mem_held_or_idle (run_sublist.subset hr)).imp_left .inr
  · obtain ⟨steps, horder⟩ := shutdownOrder_eq_concat d runtime
    have hsteps : (steps ++ [Resource.redisClient]).Nodup := by
      rw [← horder]
      exact (shutdownOrder_sublist.cons Resource.s3Probe).nodup fullOrder_sound.1
    have hne : ∀ r ∈ steps, r ≠ .redisClient := by
      rintro r hr rfl
      exact (List.nodup_append.mp hsteps).2.2 _ hr _ (List.mem_singleton_self _) rfl
    rw [horder, List.forall_mem_append]
    constructor
    · intro hall
      have hredis : .redisClient ∈ openedOf log :=
        hopened.mem_iff.mpr (by simp [held])
      have hclosed : .redisClient ∈ shutdown d runtime ends := by
        simpa [hprobe, present] using hall .redisClient hredis
      rw [shutdown, horder, last_mem_run_iff hsteps] at hclosed
      exact ⟨fun r hr _ => hclosed r hr, by simp⟩
    · rintro ⟨hends, -⟩ r hr
      have hrun : shutdown d runtime ends = shutdownOrder d runtime := by
        rw [shutdown, horder]
        refine run_eq_of_no_cancel fun x hx => ?_
        rw [List.dropLast_concat] at hx
        exact hends x hx (hne x hx)
      rw [hopened.mem_iff, List.mem_append] at hr
      rw [hrun, List.mem_append]
      exact hr.imp_right fun hheld => held_sublist.subset hheld

theorem shutdown_closes_opened_worker :
    [Resource.redisClient, .metricsStore, .s3Probe, .s3Client, .apiKeysS3Client, .keystore,
      .weatherS3Client, .smnClient, .registryClient, .weatherScraper, .redisMetricsService] ⊆
      [Resource.s3Probe] ++ shutdown ⟨.worker, true, false, true, false, .relayOnly, true⟩
        ⟨true, none, ⟨true, true, true, true, true, true⟩, true⟩ (fun _ => .raised) := by
  have hstartup : startup ⟨.worker, true, false, true, false, .relayOnly, true⟩
      (fun _ => false) [] = (.ok ⟨true, none, ⟨true, true, true, true, true, true⟩, true⟩,
        [.opened .redisClient, .opened .metricsStore, .opened .s3Probe, .closed .s3Probe,
          .opened .s3Client, .opened .apiKeysS3Client, .opened .keystore, .opened .weatherS3Client,
          .opened .smnClient, .opened .registryClient, .opened .weatherScraper,
          .opened .redisMetricsService]) := rfl
  obtain ⟨-, -, -, hclosed, -⟩ := shutdown_closes_opened _ _ hstartup (fun _ => .raised)
  have hends : ∀ r ∈ shutdownOrder ⟨.worker, true, false, true, false, .relayOnly, true⟩
      ⟨true, none, ⟨true, true, true, true, true, true⟩, true⟩, r ≠ .redisClient →
        CloseEnd.raised ≠ .cancelled := fun _ _ _ => by decide
  exact hclosed.mpr hends

section Failures

/-- Nothing is closed but the probe, and the probe is closed if it was opened. -/
def ClosesProbeOnly (log : List Event) : Prop :=
  (∀ r ∈ closedOf log, r = .s3Probe) ∧ (.s3Probe ∈ openedOf log → .s3Probe ∈ closedOf log)

theorem closesProbeOnly_nil : ClosesProbeOnly [] := by simp [ClosesProbeOnly]

theorem closesProbeOnly_append (es es' : List Event) (h : ClosesProbeOnly es)
    (h' : ClosesProbeOnly es') : ClosesProbeOnly (es ++ es') := by
  simp only [ClosesProbeOnly, openedOf_append, closedOf_append, List.mem_append]
  exact ⟨fun r => Or.rec (h.1 r) (h'.1 r), Or.imp h.2 h'.2⟩

variable {α β : Type} {x : Starting α} {f : α → Starting β}

theorem notes_bind (hx : x.Notes ClosesProbeOnly) (hf : ∀ a, (f a).Notes ClosesProbeOnly) :
    (x >>= f).Notes ClosesProbeOnly :=
  hx.bind hf closesProbeOnly_append

theorem notes_pure (a : α) : (pure a : Starting α).Notes ClosesProbeOnly :=
  Startup.notes_pure a closesProbeOnly_nil

theorem notes_attempt (step : Step) :
    (Startup.attempt step : Starting Unit).Notes ClosesProbeOnly :=
  Startup.notes_attempt step closesProbeOnly_nil

theorem notes_onlyIf {x : Starting Unit} (hx : x.Notes ClosesProbeOnly) (b : Bool) :
    (onlyIf b x).Notes ClosesProbeOnly := by
  cases b with
  | false => exact notes_pure ()
  | true => exact hx

theorem notes_openResource {r : Resource} (hr : r ≠ .s3Probe) :
    (openResource r).Notes ClosesProbeOnly :=
  notes_bind (notes_attempt _) fun _ => Startup.notes_note _ <| by
    simp [ClosesProbeOnly, openedOf, closedOf, hr.symm]

theorem notes_openIf (b : Bool) {r : Resource} (hr : r ≠ .s3Probe) :
    (openIf b r).Notes ClosesProbeOnly := by
  cases b with
  | false => exact notes_pure false
  | true => exact notes_bind (notes_openResource hr) fun _ => notes_pure true

theorem notes_openEach {rs : List Resource} (hrs : .s3Probe ∉ rs) :
    (openEach rs).Notes ClosesProbeOnly := by
  induction rs with
  | nil => exact notes_pure ()
  | cons r rs ih =>
    rw [List.mem_cons, not_or] at hrs
    exact notes_bind (notes_openResource (Ne.symm hrs.1)) fun _ => ih hrs.2

theorem notes_probeS3 : probeS3.Notes ClosesProbeOnly := by
  have hbody : (do openResource .s3Probe; Startup.attempt .s3Reachable : Starting Unit).Notes
      fun es => closedOf es = [] := by
    have happend (es es' : List Event) (h : closedOf es = []) (h' : closedOf es' = []) :
        closedOf (es ++ es') = [] := by
      rw [closedOf_append, h, h', List.append_nil]
    have hopen : (openResource .s3Probe).Notes fun es => closedOf es = [] :=
      Startup.Notes.bind (Startup.notes_attempt _ rfl) (fun _ => Startup.notes_note _ rfl) happend
    exact hopen.bind (fun _ => Startup.notes_attempt _ rfl) happend
  have hfin : (do Startup.note (.closed .s3Probe); Startup.attempt .probeClosed :
      Starting Unit).Notes fun es => es = [.closed .s3Probe] := by
    intro fails log
    refine ⟨_, ?_, rfl⟩
    change ((if fails .probeClosed then _ else _, log ++ [Event.closed .s3Probe]) : _ × _).2 = _
    rfl
  refine hbody.tryFinally hfin fun es es' hes hes' => ?_
  have hclosed : closedOf (es ++ es') = [.s3Probe] := by
    rw [closedOf_append, hes, hes']
    rfl
  simp [ClosesProbeOnly, hclosed]

variable (d : Deployment)

theorem notes_configureBasemap : (configureBasemap d).Notes ClosesProbeOnly := by
  rw [configureBasemap]
  split
  · exact notes_pure none
  split
  · exact notes_pure none
  refine notes_bind (notes_openIf _ (by decide)) fun _ => ?_
  refine notes_bind (notes_openResource (by decide)) fun _ => ?_
  refine notes_bind (notes_openResource (by decide)) fun _ => ?_
  refine notes_bind (notes_openIf _ (by decide)) fun _ => ?_
  refine notes_bind (notes_openIf _ (by decide)) fun _ => ?_
  refine notes_bind (notes_onlyIf (Startup.notes_raise _ closesProbeOnly_nil) _) fun _ => ?_
  exact notes_bind (notes_openIf _ (by decide)) fun _ => notes_pure _

theorem notes_configureStationsSync (runtime : WeatherStationsRuntime) :
    (configureStationsSync d runtime).Notes ClosesProbeOnly := by
  rw [configureStationsSync]
  split
  · exact notes_pure runtime
  split
  · exact notes_pure runtime
  refine notes_bind (notes_openResource (by decide)) fun _ => ?_
  refine notes_bind (notes_openIf _ (by decide)) fun _ => ?_
  refine notes_bind (notes_openIf _ (by decide)) fun _ => ?_
  exact notes_bind (notes_openIf _ (by decide)) fun _ => notes_pure _

theorem notes_startup : (startup d).Notes ClosesProbeOnly := by
  have hservices : Resource.s3Probe ∉ syncServices.map .syncService := by decide
  refine notes_bind (notes_openResource (by decide)) fun _ => ?_
  refine notes_bind (notes_attempt _) fun _ => ?_
  refine notes_bind (notes_openResource (by decide)) fun _ => ?_
  refine notes_bind (notes_onlyIf notes_probeS3 _) fun _ => ?_
  refine notes_bind ?strategies fun _ => ?_
  case strategies =>
    refine notes_bind (notes_openIf _ (by decide)) fun _ => ?_
    exact notes_bind (notes_onlyIf (notes_openEach hservices) _) fun _ => notes_pure _
  refine notes_bind (notes_configureBasemap d) fun _ => ?_
  refine notes_bind ?weatherStations fun _ => ?_
  case weatherStations =>
    refine notes_bind (notes_openIf _ (by decide)) fun _ => ?_
    refine notes_bind (notes_onlyIf (notes_attempt _) _) fun _ => ?_
    refine notes_bind (notes_openIf _ (by decide)) fun _ => ?_
    exact notes_configureStationsSync d _
  exact notes_bind (notes_openIf _ (by decide)) fun _ => notes_pure _

/-- Whether it raises or not, the start-up itself closes the probe only: one that raises leaves open
whatever else it has opened. -/
theorem startup_closes_probe_only (fails : Step → Bool) {r : Resource}
    (hr : r ∈ openedOf (startup d fails []).2) :
    r ∈ closedOf (startup d fails []).2 ↔ r = .s3Probe := by
  obtain ⟨es, hlog, honly, hprobe⟩ := notes_startup d fails []
  rw [List.nil_append] at hlog
  rw [hlog] at hr ⊢
  constructor
  · exact honly r
  · rintro rfl
    exact hprobe hr

end Failures

section Wait

variable {backoff waited w : Nat} {probes : List Bool}

theorem unreachable_of_lt (h : waitForS3 true backoff waited probes = .unreachable w)
    (hlt : waited < s3StartupWaitMaxSeconds) : ∃ later, probes = false :: later ∧
      waitForS3 true (min (backoff * 2) 30) (waited + backoff) later = .unreachable w := by
  cases probes with
  | nil => simp [waitForS3] at h
  | cons answer later =>
    cases answer with
    | true => simp [waitForS3] at h
    | false =>
      rw [waitForS3, if_neg (by simp [hlt])] at h
      exact ⟨later, rfl, h⟩

theorem unreachable_of_le (h : waitForS3 true backoff waited probes = .unreachable w)
    (hle : s3StartupWaitMaxSeconds ≤ waited) : (∃ later, probes = false :: later) ∧ w = waited := by
  cases probes with
  | nil => simp [waitForS3] at h
  | cons answer later =>
    cases answer with
    | true => simp [waitForS3] at h
    | false =>
      rw [waitForS3, if_pos (by simp [hle])] at h
      exact ⟨⟨later, rfl⟩, (WaitEnd.unreachable.inj h).symm⟩

/-- Production gives up on the ninth probe in a row that S3 does not answer. -/
theorem waitForS3_unreachable_iff : waitForS3 true 1 0 probes = .unreachable w ↔
    (∃ later, probes = List.replicate 9 false ++ later) ∧ w = 121 := by
  constructor
  · intro h₀
    obtain ⟨_, rfl, h₁⟩ := unreachable_of_lt h₀ (by decide)
    obtain ⟨_, rfl, h₂⟩ := unreachable_of_lt h₁ (by decide)
    obtain ⟨_, rfl, h₃⟩ := unreachable_of_lt h₂ (by decide)
    obtain ⟨_, rfl, h₄⟩ := unreachable_of_lt h₃ (by decide)
    obtain ⟨_, rfl, h₅⟩ := unreachable_of_lt h₄ (by decide)
    obtain ⟨_, rfl, h₆⟩ := unreachable_of_lt h₅ (by decide)
    obtain ⟨_, rfl, h₇⟩ := unreachable_of_lt h₆ (by decide)
    obtain ⟨_, rfl, h₈⟩ := unreachable_of_lt h₇ (by decide)
    obtain ⟨⟨later, rfl⟩, rfl⟩ := unreachable_of_le h₈ (by decide)
    exact ⟨⟨later, rfl⟩, rfl⟩
  · rintro ⟨⟨later, rfl⟩, rfl⟩
    rfl

theorem waitForS3_unbounded :
    waitForS3 false backoff waited probes = .reachable ↔ true ∈ probes := by
  induction probes generalizing backoff waited with
  | nil => simp [waitForS3]
  | cons answer later ih => cases answer <;> simp [waitForS3, ih]
end Wait

end DataService.App
