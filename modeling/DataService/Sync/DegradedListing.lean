import DataService.Sync.OnDemandListing

/-! An outage of S3 seen by the on-demand listings: the empty listing that stands for a LIST
that failed is cached like any other, and is served until its entry is gone. -/

namespace DataService.Sync

open ExpiringStore StepSystem

variable {cfg : OnDemandConfig} {s t u : OnDemandState} {key : OnDemandKey} {site : S3Site}

/-- The listing whose LIST is not made tolerant. -/
def OnDemandKey.raises : OnDemandKey → Bool
  | .wrfLayers .. => true
  | _ => false

theorem discover_down (h : site.up = false) :
    key.discover cfg site = if key.raises then none else some key.nothing := by
  have hnames (path : S3Key) : site.trySubdirectoryNames path = [] := by
    simp [S3Site.trySubdirectoryNames, h]
  cases key with
  | shared key =>
    have hentries : key.entries cfg.toListingConfig [] = [] := by
      cases key <;> simp [ListingKey.entries, sortAscending, sortDescending]
    simp [OnDemandKey.discover, hnames, hentries, OnDemandKey.raises, OnDemandKey.nothing]
  | satTilesets channelDir =>
    simp [OnDemandKey.discover, hnames, OnDemandKey.raises, OnDemandKey.nothing, sortAscending]
  | ecmwfTpForecasts =>
    simp [OnDemandKey.discover, hnames, OnDemandKey.raises, OnDemandKey.nothing, sortDescending]
  | ecmwfTpPeriods forecastTs =>
    simp [OnDemandKey.discover, hnames, OnDemandKey.raises, OnDemandKey.nothing, sortAscending]
  | wrfSteps productId initTag =>
    simp [OnDemandKey.discover, hnames, OnDemandKey.raises, OnDemandKey.nothing, sortAscending]
  | wrfLayers productId initTag fxxx =>
    simp [OnDemandKey.discover, S3Site.listObjectBasenames, h, OnDemandKey.raises]
  | gfsCycles productId =>
    simp [OnDemandKey.discover, h, OnDemandKey.raises, OnDemandKey.nothing, cogCycles,
      subdirectoryNames, DirectoryListing.subdirectories, sortDescending, capped]
  | gfsSteps productId cycle =>
    simp [OnDemandKey.discover, h, OnDemandKey.raises, OnDemandKey.nothing, cogSteps,
      DirectoryListing.basenames, sortAscending]
  | gfsLayers productId cycle =>
    simp [OnDemandKey.discover, S3Site.tryListObjectBasenames, h, OnDemandKey.raises,
      OnDemandKey.nothing, layersByStep]

/-- What is cached under the key, if anything, stands for a LIST that failed. -/
def OnlyDegraded (key : OnDemandKey) (s : OnDemandState) : Prop :=
  ∀ listed, s.listings.get s.now key = some listed → listed = key.nothing

/-- The key is not requested while S3 answers. -/
def NotRequestedUp (key : OnDemandKey) (s : OnDemandState) : OnDemandAction → Prop
  | .request r => r.idle = false → r.key = key → ∀ site ∈ s.s3, site.up = false
  | _ => True

theorem onlyDegraded_put {key' : OnDemandKey} {listed : Listed} (h : OnlyDegraded key s)
    (hlisted : key = key' → listed = key.nothing) (deadline : Option Nat) :
    OnlyDegraded key { s with listings := s.listings.put key' listed deadline } := by
  intro found hfound
  by_cases hkey : key = key'
  · subst hkey
    rw [Store.get_put_self] at hfound
    split_ifs at hfound
    obtain rfl := Option.some.inj hfound
    exact hlisted rfl
  · rw [Store.get_put_ne hkey] at hfound
    exact h found hfound

theorem onlyDegraded_onDemand {key' : OnDemandKey} (h : OnlyDegraded key s)
    (hdown : key' = key → ∀ site ∈ s.s3, site.up = false) :
    OnlyDegraded key (onDemand cfg key' s).2 := by
  cases hget : s.listings.get s.now key' with
  | some listed =>
    rw [onDemand_cached hget]
    exact h
  | none =>
    cases hknown : key'.known with
    | false =>
      rw [onDemand_unknown hget hknown]
      exact h
    | true =>
      cases hs : s.s3 with
      | none =>
        have hrun : onDemand cfg key' s = (some key'.nothing, s) := by
          simp only [onDemand, hget, hs]
        rw [hrun]
        exact h
      | some site =>
        rw [onDemand_missed hget hs hknown]
        cases hdiscover : key'.discover cfg site with
        | none => exact h
        | some listed =>
          refine onlyDegraded_put h ?_ _
          intro hkey
          subst hkey
          have hup := hdown rfl site (by simp [hs])
          rw [discover_down hup] at hdiscover
          split_ifs at hdiscover
          exact (Option.some.inj hdiscover).symm

theorem onlyDegraded_step {a : OnDemandAction} (h : OnlyDegraded key s)
    (hquiet : NotRequestedUp key s a) (hstep : onDemandStep cfg s a = some t) :
    OnlyDegraded key t := by
  cases a with
  | request r =>
    cases hstep
    unfold serve
    split_ifs with hidle
    · exact h
    · have hidle' : r.idle = false := by simpa using hidle
      exact onlyDegraded_onDemand h (hquiet hidle')
  | tick seconds =>
    cases hstep
    exact fun listed hl => h listed (Store.get_later (Nat.le_add_right _ _) hl)
  | evict key' =>
    cases hstep
    intro listed hl
    by_cases hkey : key = key'
    · subst hkey
      simp [Store.get_del_self] at hl
    · rw [Store.get_del_ne hkey] at hl
      exact h listed hl
  | s3 site =>
    cases hstep
    exact h

/-- A request whose LIST fails is answered with an empty listing. The next request for the
same listing, made once S3 is back, is answered from S3 if and only if nothing is cached any
more, or there is nothing in S3. -/
theorem degraded_listing_forgotten_iff (cfg : OnDemandConfig) {s t : OnDemandState}
    {r r' : ListingRequest} {down up : S3Site} {as : List OnDemandAction}
    (hidle : r.idle = false) (hidle' : r'.idle = false) (hkey : r'.key = r.key)
    (hknown : r.key.known = true) (hmiss : s.listings.get s.now r.key = none)
    (hs : s.s3 = some down) (hdown : down.up = false) (hanswered : (serve cfg r s).1 ≠ none)
    (hquiet : Along (onDemandStep cfg) (NotRequestedUp r.key) (serve cfg r s).2 as)
    (hrun : run (onDemandStep cfg) (serve cfg r s).2 as = some t)
    (ht : t.s3 = some up) :
    (serve cfg r s).1 = some (r.view r.key.nothing) ∧
    ((serve cfg r' t).1 = (r.key.discover cfg up).map r'.view ↔
      t.listings.get t.now r.key = none ∨
        (r.key.discover cfg up).map r'.view = some (r'.view r.key.nothing)) := by
  have hserve : serve cfg r s = ((onDemand cfg r.key s).1.map r.view, (onDemand cfg r.key s).2) := by
    simp [serve, hidle]
  have hempty : r.key.discover cfg down = some r.key.nothing := by
    rw [discover_down hdown]
    by_cases hraises : r.key.raises = true
    · have hnone : (serve cfg r s).1 = none := by
        rw [hserve, onDemand_missed hmiss hs hknown, discover_down hdown, if_pos hraises]
        rfl
      exact absurd hnone hanswered
    · rw [if_neg hraises]
  have hstart : OnlyDegraded r.key (serve cfg r s).2 := by
    have hbefore : OnlyDegraded r.key s := fun listed hl => by simp [hmiss] at hl
    rw [hserve]
    refine onlyDegraded_onDemand hbefore fun _ site hsite => ?_
    obtain rfl : down = site := by simpa [hs] using hsite
    exact hdown
  have hend : OnlyDegraded r.key t :=
    run_invariant_along (fun _ _ _ h hq hstep => onlyDegraded_step h hq hstep) hstart hquiet hrun
  refine ⟨?_, ?_⟩
  · rw [hserve, onDemand_missed hmiss hs hknown, hempty]
    rfl
  · have hserve' : (serve cfg r' t).1 = (onDemand cfg r.key t).1.map r'.view := by
      simp [serve, hidle', hkey]
    rw [hserve']
    cases hget : t.listings.get t.now r.key with
    | none =>
      refine iff_of_true ?_ (.inl rfl)
      rw [onDemand_missed hget ht hknown]
      cases r.key.discover cfg up <;> rfl
    | some listed =>
      rw [onDemand_cached hget, hend listed hget]
      simp [eq_comm]

def listingSettings : OnDemandConfig :=
  { syncPrefetch := false, tilesetListingTtl := 60, tilesetListingTtl_pos := minute_pos,
    wrfInitsToKeep := 2, gfsCyclesToKeep := 2, digits := .asciiOnly }

/-- One tileset of one satellite channel. -/
def oneTileset (up : Bool) : S3Site := ⟨["tiles/C13/20260101T0000Z/3/1/2.webp".toList], up⟩

def satelliteRequest : ListingRequest := .list (.satTilesets "C13")

/-- The entry of the failed LIST has run out when S3 is asked again. -/
theorem degraded_listing_forgotten_late :
    ∃ t, run (onDemandStep listingSettings)
        (serve listingSettings satelliteRequest ⟨100, ∅, some (oneTileset false)⟩).2
        [.s3 (oneTileset true), .tick 60] = some t ∧
      (serve listingSettings satelliteRequest t).1 =
        (satelliteRequest.key.discover listingSettings (oneTileset true)).map satelliteRequest.view := by
  refine ⟨_, rfl, ?_⟩
  have hquiet : Along (onDemandStep listingSettings) (NotRequestedUp satelliteRequest.key)
      (serve listingSettings satelliteRequest ⟨100, ∅, some (oneTileset false)⟩).2
      [.s3 (oneTileset true), .tick 60] :=
    ⟨trivial, fun _ _ => ⟨trivial, fun _ _ => trivial⟩⟩
  refine (degraded_listing_forgotten_iff listingSettings rfl rfl rfl rfl rfl rfl rfl ?_ hquiet rfl
    rfl).2.mpr (.inl ?_)
  · decide
  · decide

/-- S3 is back after a second, and the empty listing is still served. -/
theorem degraded_listing_is_served :
    (serve listingSettings satelliteRequest ⟨100, ∅, some (oneTileset false)⟩).1 =
      some (.names []) ∧
    ∃ t, run (onDemandStep listingSettings)
        (serve listingSettings satelliteRequest ⟨100, ∅, some (oneTileset false)⟩).2
        [.s3 (oneTileset true), .tick 1] = some t ∧
      (serve listingSettings satelliteRequest t).1 = some (.names []) ∧
      (satelliteRequest.key.discover listingSettings (oneTileset true)).map satelliteRequest.view =
        some (.names ["20260101T0000Z"]) :=
  ⟨by decide, _, rfl, by decide, by decide⟩

end DataService.Sync
