import DataService.Sync.Availability
import DataService.Sync.MirroredIndex

/-! Products with data that the snapshot leaves out. A probe looks at one index; the
snapshot finds its way there through the indexes above, each of which hides what S3 has
once it has any member. -/

namespace DataService.Sync

open DirectoryListing ExpiringStore StableLookup

namespace Backend

/-- The listing has the entry: in what Redis holds, or in S3, which has it. -/
def Shows (cfg : ListingConfig) (b : Backend) (key : ListingKey) (name : String) : Prop :=
  match b.held cfg key with
  | some names => name ∈ names
  | none => key.serves name

def HasEntries (cfg : ListingConfig) (b : Backend) (key : ListingKey) : Prop :=
  match b.held cfg key with
  | some names => names ≠ []
  | none => ∃ objects, b.s3 = some objects ∧ HasSubdirectory objects key.directory

/-- S3 has objects of this radar, variable and elevation. -/
structure RadarInS3 (b : Backend) (network : RadarNetwork) (r v e : String) : Prop where
  names : IsName r.toList ∧ IsName v.toList ∧ IsName e.toList
  stored : ∃ objects, b.s3 = some objects ∧
    HasDirectory objects (ListingKey.radarTilesets network.name r v e).directory

/-- S3 has objects of this product. -/
structure WrfInS3 (b : Backend) (productId : String) : Prop where
  name : IsName productId.toList
  stored : ∃ objects, b.s3 = some objects ∧
    HasDirectory objects (ListingKey.wrfInitRuns productId).directory

/-- Nothing in S3 that has data is missing from a listing above it. -/
structure AxesComplete (cfg : ListingConfig) (b : Backend) : Prop where
  radar : ∀ network r v e, b.RadarInS3 network r v e →
    b.HasEntries cfg (.radarTilesets (RadarNetwork.name network) r v e) →
    b.Shows cfg (.radars network.name) r ∧ b.Shows cfg (.radarVariables network.name r) v ∧
      b.Shows cfg (.radarElevations network.name r v) e
  wrf : ∀ p, b.WrfInS3 p → b.HasEntries cfg (.wrfInitRuns p) → b.Shows cfg .wrfProducts p

end Backend

/-- The snapshot says of all that S3 has what a probe says. -/
structure ProductAvailabilitySnapshot.Agrees (snapshot : ProductAvailabilitySnapshot)
    (cfg : ListingConfig) (b : Backend) : Prop where
  radar : ∀ network r v e, b.RadarInS3 network r v e →
    (radarPath network ((r, v), e) ∈ snapshot.available ↔
      (listTilesets cfg network.name r v e b).1 ≠ [])
  wrf : ∀ p, b.WrfInS3 p → (wrfPath p ∈ snapshot.available ↔ (listInitRuns cfg p b).1 ≠ [])

section Answers

variable {cfg : ListingConfig} {b : Backend} {key : ListingKey} {objects : List S3Key}
  {path m : List Char} {name : String}

theorem held_of_members (hp : cfg.syncPrefetch = true ∧ members b.redis b.now key.index ≠ []) :
    b.held cfg key = some (memberNames b.redis b.now key.index) := if_pos hp

theorem held_of_no_members
    (hp : ¬ (cfg.syncPrefetch = true ∧ members b.redis b.now key.index ≠ [])) :
    b.held cfg key = b.listings.get b.now key := if_neg hp

theorem answer_of_no_members (hs : b.s3 = some objects)
    (hp : ¬ (cfg.syncPrefetch = true ∧ members b.redis b.now key.index ≠ [])) :
    b.answer cfg key = (b.listings.get b.now key).getD (s3Listing cfg objects key) := by
  rw [Backend.answer, if_neg hp, if_neg (by simp [hs]), Backend.fallback, hs]
  rfl

/-- Of a directory that S3 has, the listing above serves the name iff it shows it. -/
theorem mem_answer (hs : b.s3 = some objects) (hkey : key.isParent)
    (hdir : key.directory = path ++ '/' :: m) (hm : IsName m) (hn : IsName name.toList)
    (hstored : HasDirectory objects (path ++ '/' :: m ++ '/' :: name.toList)) :
    name ∈ b.answer cfg key ↔ b.Shows cfg key name := by
  unfold Backend.Shows
  by_cases hp : cfg.syncPrefetch = true ∧ members b.redis b.now key.index ≠ []
  · rw [held_of_members hp, Backend.answer, if_pos hp]
    exact mem_indexed
  · rw [held_of_no_members hp, answer_of_no_members hs hp]
    cases hget : b.listings.get b.now key with
    | some cached => rfl
    | none =>
      have hne : name ≠ "" := by
        intro h
        exact hn.1 (by simp [h])
      have hlisted : name ∈ (subdirectories objects key.directory).map
          fun d => String.ofList (lastName d) := by
        have hmem := mem_names_of_hasDirectory hm hn hstored
        rw [← hdir] at hmem
        have hofList := List.mem_map_of_mem (f := String.ofList) hmem
        rwa [String.ofList_toList, List.map_map] at hofList
      rw [Option.getD_none, s3Listing, mem_entries hkey hne]
      exact ⟨fun h => h.2, fun h => ⟨hlisted, h⟩⟩

/-- A listing at the last level is empty iff it has no entry. -/
theorem answer_ne_nil (hs : b.s3 = some objects) (hkey : key.isParent = false)
    (hdir : key.directory = path ++ '/' :: m) (hm : IsName m) :
    b.answer cfg key ≠ [] ↔ b.HasEntries cfg key := by
  unfold Backend.HasEntries
  by_cases hp : cfg.syncPrefetch = true ∧ members b.redis b.now key.index ≠ []
  · have hnames : memberNames b.redis b.now key.index ≠ [] := by
      rw [memberNames, Ne, List.map_eq_nil_iff]
      exact hp.2
    obtain ⟨n, hn⟩ := List.exists_mem_of_ne_nil _ hnames
    rw [held_of_members hp, Backend.answer, if_pos hp]
    exact ⟨fun _ => hnames, fun _ => List.ne_nil_of_mem (mem_indexed.mpr hn)⟩
  · rw [held_of_no_members hp, answer_of_no_members hs hp]
    cases hget : b.listings.get b.now key with
    | some cached => rfl
    | none =>
      obtain ⟨c, hc⟩ := List.exists_mem_of_ne_nil m hm.1
      have hcne : c ≠ '/' := ne_of_mem_of_not_mem hc hm.2
      have hname : ∀ d ∈ subdirectories objects key.directory, String.ofList (lastName d) ≠ "" := by
        intro d hd hempty
        have hcd : c ∈ d := mem_of_mem_subdirectories hd (by simp [hdir, hc])
        apply lastName_ne_nil hcd hcne
        simpa using congrArg String.toList hempty
      have hany : (∃ n ∈ (subdirectories objects key.directory).map
          fun d => String.ofList (lastName d), n ≠ "") ↔
            subdirectories objects key.directory ≠ [] := by
        constructor
        · intro h
          obtain ⟨n, hn, -⟩ := h
          obtain ⟨d, hd, -⟩ := List.mem_map.mp hn
          exact List.ne_nil_of_mem hd
        · intro h
          obtain ⟨d, hd⟩ := List.exists_mem_of_ne_nil _ h
          exact ⟨_, List.mem_map_of_mem hd, hname d hd⟩
      rw [Option.getD_none, s3Listing, entries_ne_nil hkey, hany, hdir, subdirectories_ne_nil hm]
      simp [hs]

end Answers

section Agreement

variable {cfg : ListingConfig} {b : Backend} {network : RadarNetwork} {r v e p : String}

theorem isName_network (network : RadarNetwork) : IsName network.name.toList := by
  cases network <;> decide

theorem mem_radarPaths_iff (h : b.RadarInS3 network r v e) :
    radarPath network ((r, v), e) ∈ b.radarPaths cfg network ↔
      (b.Shows cfg (.radars network.name) r ∧ b.Shows cfg (.radarVariables network.name r) v ∧
        b.Shows cfg (.radarElevations network.name r v) e) ∧
      b.HasEntries cfg (.radarTilesets network.name r v e) := by
  obtain ⟨⟨hr, hv, he⟩, objects, hs, hstored⟩ := h
  have helevation := hasDirectory_parent hstored
  have hvariable := hasDirectory_parent helevation
  rw [mem_radarPaths, mem_answer hs rfl rfl (isName_network network) hr hvariable,
    mem_answer hs rfl rfl hr hv helevation, mem_answer hs rfl rfl hv he hstored,
    answer_ne_nil hs rfl rfl he]
  simp only [and_assoc]

theorem mem_wrfPaths_iff (h : b.WrfInS3 p) :
    wrfPath p ∈ b.wrfPaths cfg ↔
      b.Shows cfg .wrfProducts p ∧ b.HasEntries cfg (.wrfInitRuns p) := by
  obtain ⟨hp, objects, hs, hstored⟩ := h
  have hroot : IsName "wrf-arg4k".toList := by decide
  rw [mem_wrfPaths, mem_answer hs rfl rfl hroot hp hstored, answer_ne_nil hs rfl rfl hp]

theorem listTilesets_ne_nil (h : b.RadarInS3 network r v e) :
    (listTilesets cfg network.name r v e b).1 ≠ [] ↔
      b.HasEntries cfg (.radarTilesets network.name r v e) := by
  obtain ⟨⟨-, -, he⟩, objects, hs, -⟩ := h
  have hans : (listTilesets cfg network.name r v e b).1 =
      b.answer cfg (.radarTilesets network.name r v e) := (listing_spec b).1
  rw [hans, answer_ne_nil hs rfl rfl he]

theorem listInitRuns_ne_nil (h : b.WrfInS3 p) :
    (listInitRuns cfg p b).1 ≠ [] ↔ b.HasEntries cfg (.wrfInitRuns p) := by
  obtain ⟨hp, objects, hs, -⟩ := h
  have hans : (listInitRuns cfg p b).1 = b.answer cfg (.wrfInitRuns p) := (listing_spec b).1
  rw [hans, answer_ne_nil hs rfl rfl hp]

theorem snapshot_of_stale (others : OtherDomains) (service : ProductAvailabilityService)
    (start finish : Nat) (b : Backend) (hstale : service.fresh start = none) :
    (service.snapshot cfg others start finish b).1.1 = assemble (b.contributions cfg others) := by
  have hrun : (service.snapshot cfg others start finish b).1.1 = (gather cfg others b).1 := by
    rw [ProductAvailabilityService.snapshot, hstale]
    rfl
  rw [hrun]
  exact (gives_gather b others b (agree_refl b)).1

end Agreement

section Example

def prefetchListings : ListingConfig := ⟨true, 300, by decide, 3⟩

def noOthers : OtherDomains := ⟨[], fun _ => [], [], [], fun _ => []⟩

def newService : ProductAvailabilityService := ⟨10000, none, 0⟩

/-- Two radars, each with one tile. -/
def twoRadars : List S3Key :=
  ["tiles/radar/sinarame/RMA1/dbzh/elev0/20260114T170328Z/3/2/1.webp".toList,
    "tiles/radar/sinarame/RMA2/dbzh/elev0/20260114T170328Z/3/2/1.webp".toList]

/-- No listing is cached. -/
def uncached (now : Nat) (redis : Redis) : Backend := ⟨now, redis, ∅, some twoRadars⟩

/-- The radar loop has copied the first radar and has not come to the second. -/
def halfSyncedRun : List Action :=
  [.begin, .resume (.names ["RMA1", "RMA2"]), .resume (.names ["dbzh"]),
    .resume (.names ["elev0"]), .resume .ok, .resume (.names ["20260114T170328Z"]),
    .resume (.names ["tiles/3/2/1.webp"]), .tile 0 .bytes, .tile 0 .stored, .resume .ok,
    .resume .ok]

theorem rma2_inS3 (now : Nat) (redis : Redis) :
    (uncached now redis).RadarInS3 .sinarame "RMA2" "dbzh" "elev0" where
  names := by decide
  stored := by
    refine ⟨twoRadars, rfl, _, List.mem_cons_of_mem _ List.mem_cons_self, ?_⟩
    exact ⟨"20260114T170328Z/3/2/1.webp".toList, by decide⟩

theorem rma2_hasEntries {now : Nat} {redis : Redis}
    (h : members redis now (.radarTilesets "sinarame" "RMA2" "dbzh" "elev0") = []) :
    (uncached now redis).HasEntries prefetchListings
      (.radarTilesets "sinarame" "RMA2" "dbzh" "elev0") := by
  have hheld : (uncached now redis).held prefetchListings
      (.radarTilesets "sinarame" "RMA2" "dbzh" "elev0") = none :=
    held_of_no_members fun hp => hp.2 h
  rw [Backend.HasEntries, hheld]
  refine ⟨twoRadars, rfl, _, List.mem_cons_of_mem _ List.mem_cons_self, ?_⟩
  exact ⟨"20260114T170328Z/3/2/1.webp".toList, by decide, by decide⟩

/-- The tilesets of the second radar are there for a probe and not in the snapshot. -/
theorem half_synced_disagrees {now : Nat} {redis : Redis}
    (hradars : members redis now (.radars "sinarame") = [("RMA1", 0)])
    (htilesets : members redis now (.radarTilesets "sinarame" "RMA2" "dbzh" "elev0") = []) :
    ¬ (newService.snapshot prefetchListings noOthers 0 5
      ⟨now, redis, ∅, some twoRadars⟩).1.1.Agrees prefetchListings
        ⟨now, redis, ∅, some twoRadars⟩ := by
  intro hagrees
  rw [snapshot_of_stale noOthers newService 0 5 _ rfl] at hagrees
  have hs3 := rma2_inS3 now redis
  have hlisted : radarPath .sinarame (("RMA2", "dbzh"), "elev0") ∈
      (assemble ((uncached now redis).contributions prefetchListings noOthers)).available :=
    (hagrees.radar .sinarame "RMA2" "dbzh" "elev0" hs3).mpr
      ((listTilesets_ne_nil hs3).mpr (rma2_hasEntries htilesets))
  rw [mem_available, mem_contributions_radar, mem_radarPaths_iff hs3] at hlisted
  have hmembers : members (uncached now redis).redis (uncached now redis).now
      (ListingKey.radars "sinarame").index = [("RMA1", 0)] := hradars
  have hheld : (uncached now redis).held prefetchListings (.radars "sinarame") = some ["RMA1"] := by
    rw [held_of_members ⟨rfl, by simp [hmembers]⟩, memberNames, hmembers]
    rfl
  have hshows : (uncached now redis).Shows prefetchListings (.radars "sinarame") "RMA2" :=
    hlisted.1.1
  rw [Backend.Shows, hheld] at hshows
  simp at hshows

end Example

end DataService.Sync
