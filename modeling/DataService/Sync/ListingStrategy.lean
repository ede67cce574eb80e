import DataService.Lib.DirectoryListing
import DataService.Lib.StableLookup
import DataService.Sync.Loops

/-! The listings that the radar and WRF endpoints serve: from an index in Redis, else from
a cached listing, else from S3. -/

namespace DataService.Sync

open DirectoryListing ExpiringStore StableLookup

abbrev S3Key := List Char

/-- The keys below `cache:listing:`. -/
inductive ListingKey where
  | radars (network : String)
  | radarVariables (network radarId : String)
  | radarElevations (network radarId variableId : String)
  | radarTilesets (network radarId variableId elevationId : String)
  | wrfProducts
  | wrfInitRuns (productId : String)
  deriving DecidableEq, Repr

/-- The settings; Redis refuses a zero expiry. -/
structure ListingConfig where
  syncPrefetch : Bool
  tilesetListingTtl : Nat
  tilesetListingTtl_pos : 0 < tilesetListingTtl
  wrfInitsToKeep : Nat

theorem minute_pos : 0 < 60 := by decide

/-- What a strategy reads. `s3` is none without a client. -/
structure Backend where
  now : Nat
  redis : Redis
  listings : Store ListingKey (List String)
  s3 : Option (List S3Key)

abbrev Lookup := StateM Backend

namespace ListingKey

/-- The index that is asked first. -/
def index : ListingKey → IndexKey
  | .radars network => .radars network
  | .radarVariables network radarId => .radarVariables network radarId
  | .radarElevations network radarId variableId => .radarElevations network radarId variableId
  | .radarTilesets network radarId variableId elevationId =>
    .radarTilesets network radarId variableId elevationId
  | .wrfProducts => .wrfProducts
  | .wrfInitRuns productId => .wrfInitRuns productId

/-- The prefix that is listed in S3. -/
def directory : ListingKey → S3Key
  | .radars network => "tiles/radar".toList ++ '/' :: network.toList
  | .radarVariables network radarId =>
    "tiles/radar".toList ++ '/' :: network.toList ++ '/' :: radarId.toList
  | .radarElevations network radarId variableId =>
    "tiles/radar".toList ++ '/' :: network.toList ++ '/' :: radarId.toList ++
      '/' :: variableId.toList
  | .radarTilesets network radarId variableId elevationId =>
    "tiles/radar".toList ++ '/' :: network.toList ++ '/' :: radarId.toList ++
      '/' :: variableId.toList ++ '/' :: elevationId.toList
  | .wrfProducts => "tiles".toList ++ '/' :: "wrf-arg4k".toList
  | .wrfInitRuns productId => "tiles".toList ++ '/' :: "wrf-arg4k".toList ++ '/' :: productId.toList

/-- `ZREVRANGE` -/
def byRank (l : List (String × Int)) : List String :=
  (l.insertionSort fun a b => b.2 < a.2 ∨ (a.2 = b.2 ∧ b.1 ≤ a.1)).map Prod.fst

/-- The members of the index, in the order in which they are served. -/
def indexed (l : List (String × Int)) : ListingKey → List String
  | .radarTilesets .. => sortDescending (l.map Prod.fst)
  | .wrfInitRuns _ => byRank l
  | _ => sortAscending (l.map Prod.fst)

def startsWithElev (name : String) : Bool := "elev".toList.isPrefixOf name.toList

/-- The names of the directories that are served. -/
def entries (cfg : ListingConfig) (names : List String) : ListingKey → List String
  | .radars _ | .radarVariables .. => sortAscending names
  | .radarElevations .. => sortAscending (names.filter startsWithElev).eraseDups
  | .radarTilesets .. => sortDescending (names.filter (· ≠ ""))
  | .wrfProducts => sortAscending (names.filter (· ≠ ""))
  | .wrfInitRuns _ =>
    if 0 < cfg.wrfInitsToKeep then
      (sortDescending (names.filter (· ≠ ""))).take cfg.wrfInitsToKeep
    else sortDescending (names.filter (· ≠ ""))

end ListingKey

variable (cfg : ListingConfig)

/-- `try_get_subdirectories`, and what the strategy makes of it. -/
def s3Listing (objects : List S3Key) (key : ListingKey) : List String :=
  key.entries cfg ((subdirectories objects key.directory).map fun d => String.ofList (lastName d))

/-- `cache_listing` -/
def cacheListing (key : ListingKey) (names : List String) : Lookup Unit :=
  fun b =>
    ((), { b with listings := b.listings.put key names (some (b.now + cfg.tilesetListingTtl)) })

/-- The listings of the on-demand strategies. -/
def onDemandListing (key : ListingKey) : Lookup (List String) := do
  let b ← get
  match b.listings.get b.now key with
  | some cached => pure cached
  | none =>
    match b.s3 with
    | none => pure []
    | some objects => do
      cacheListing cfg key (s3Listing cfg objects key)
      pure (s3Listing cfg objects key)

/-- The listings of the full-sync strategies. -/
def fullSyncListing (key : ListingKey) : Lookup (List String) := do
  let b ← get
  if members b.redis b.now key.index = [] then
    match b.s3 with
    | none => pure []
    | some _ => onDemandListing cfg key
  else pure (key.indexed (members b.redis b.now key.index))

/-- The strategy that the settings choose. -/
def listing (key : ListingKey) : Lookup (List String) :=
  if cfg.syncPrefetch then fullSyncListing cfg key else onDemandListing cfg key

def listRadars (network : String) : Lookup (List String) := listing cfg (.radars network)

def listVariables (network radarId : String) : Lookup (List String) :=
  listing cfg (.radarVariables network radarId)

def listElevations (network radarId variableId : String) : Lookup (List String) :=
  listing cfg (.radarElevations network radarId variableId)

def listTilesets (network radarId variableId elevationId : String) : Lookup (List String) :=
  listing cfg (.radarTilesets network radarId variableId elevationId)

def listProducts : Lookup (List String) := listing cfg .wrfProducts

def listInitRuns (productId : String) : Lookup (List String) :=
  listing cfg (.wrfInitRuns productId)

namespace Backend

/-- What Redis holds for a listing, if S3 is not asked: an index with members, or a cached
listing. -/
def held (b : Backend) (key : ListingKey) : Option (List String) :=
  if cfg.syncPrefetch ∧ members b.redis b.now key.index ≠ [] then
    some (memberNames b.redis b.now key.index)
  else b.listings.get b.now key

/-- The answer of the on-demand strategies. -/
def fallback (b : Backend) (key : ListingKey) : List String :=
  (b.listings.get b.now key).getD ((b.s3.map fun objects => s3Listing cfg objects key).getD [])

/-- What a listing is answered with. -/
def answer (b : Backend) (key : ListingKey) : List String :=
  if cfg.syncPrefetch ∧ members b.redis b.now key.index ≠ [] then
    key.indexed (members b.redis b.now key.index)
  else if cfg.syncPrefetch ∧ b.s3 = none then []
  else b.fallback cfg key

/-- Two states in which all listings are answered alike. -/
structure Agree (b b' : Backend) : Prop where
  now : b'.now = b.now
  redis : b'.redis = b.redis
  s3 : b'.s3 = b.s3
  answer : ∀ key, b'.answer cfg key = b.answer cfg key

end Backend

variable {cfg} {b b' : Backend} {key : ListingKey}

theorem agree_refl (b : Backend) : b.Agree cfg b := ⟨rfl, rfl, rfl, fun _ => rfl⟩

theorem Backend.Agree.trans {b'' : Backend} (h : b.Agree cfg b') (h' : b'.Agree cfg b'') :
    b.Agree cfg b'' :=
  ⟨h'.now.trans h.now, h'.redis.trans h.redis, h'.s3.trans h.s3,
    fun key => (h'.answer key).trans (h.answer key)⟩

/-- To cache what S3 answers changes no answer. -/
theorem agree_cacheListing {objects : List S3Key} (hs : b.s3 = some objects)
    (hnone : b.listings.get b.now key = none) :
    b.Agree cfg (cacheListing cfg key (s3Listing cfg objects key) b).2 := by
  refine ⟨rfl, rfl, rfl, fun key' => ?_⟩
  have hlive : (some (b.now + cfg.tilesetListingTtl)).all (b.now < ·) = true := by
    have hpos := cfg.tilesetListingTtl_pos
    simp only [Option.all_some, decide_eq_true_eq]
    omega
  have hfallback : (cacheListing cfg key (s3Listing cfg objects key) b).2.fallback cfg key' =
      b.fallback cfg key' := by
    by_cases hkey : key' = key
    · subst hkey
      simp [Backend.fallback, cacheListing, Store.get_put_self, hlive, hnone, hs]
    · simp [Backend.fallback, cacheListing, Store.get_put_ne hkey]
  unfold Backend.answer
  rw [hfallback]
  rfl

theorem onDemandListing_spec (b : Backend) : (onDemandListing cfg key b).1 = b.fallback cfg key ∧
    b.Agree cfg (onDemandListing cfg key b).2 := by
  have hrun : onDemandListing cfg key b =
      (match b.listings.get b.now key with
      | some cached => (pure cached : Lookup (List String))
      | none =>
        match b.s3 with
        | none => pure []
        | some objects => do
          cacheListing cfg key (s3Listing cfg objects key)
          pure (s3Listing cfg objects key)) b := rfl
  rw [hrun, Backend.fallback]
  cases hget : b.listings.get b.now key with
  | some cached => exact ⟨rfl, agree_refl b⟩
  | none =>
    cases hs : b.s3 with
    | none => exact ⟨rfl, agree_refl b⟩
    | some objects => exact ⟨rfl, agree_cacheListing hs hget⟩

theorem listing_spec (b : Backend) : (listing cfg key b).1 = b.answer cfg key ∧
    b.Agree cfg (listing cfg key b).2 := by
  unfold listing Backend.answer
  by_cases hp : cfg.syncPrefetch = true
  · have hrun : fullSyncListing cfg key b =
        (if members b.redis b.now key.index = [] then
          match b.s3 with
          | none => (pure [] : Lookup (List String))
          | some _ => onDemandListing cfg key
        else pure (key.indexed (members b.redis b.now key.index))) b := rfl
    rw [if_pos hp, hrun]
    by_cases hm : members b.redis b.now key.index = []
    · rw [if_pos hm, if_neg (fun h => h.2 hm)]
      cases hs : b.s3 with
      | none => exact ⟨by simp [hp]; rfl, agree_refl b⟩
      | some objects =>
        rw [if_neg (by simp)]
        exact onDemandListing_spec b
    · rw [if_neg hm, if_pos ⟨hp, hm⟩]
      exact ⟨rfl, agree_refl b⟩
  · rw [if_neg hp, if_neg (fun h => hp h.1), if_neg (fun h => hp h.1)]
    exact onDemandListing_spec b

/-- Every listing of a gather is answered from the state in which it began. -/
theorem gives_listing (b : Backend) (key : ListingKey) :
    Gives (Backend.Agree cfg) b (listing cfg key) (b.answer cfg key) := by
  intro t ht
  have hlisting := @listing_spec cfg key t
  exact ⟨hlisting.1.trans (ht.answer key), ht.trans hlisting.2⟩

section Entries

theorem mem_byRank {l : List (String × Int)} {name : String} :
    name ∈ ListingKey.byRank l ↔ name ∈ l.map Prod.fst :=
  ((List.perm_insertionSort _ l).map Prod.fst).mem_iff

theorem mem_sortAscending {l : List String} {name : String} : name ∈ sortAscending l ↔ name ∈ l :=
  (List.perm_insertionSort _ l).mem_iff

theorem mem_sortDescending {l : List String} {name : String} : name ∈ sortDescending l ↔ name ∈ l :=
  (List.perm_insertionSort _ l).mem_iff

theorem mem_indexed {l : List (String × Int)} {name : String} :
    name ∈ key.indexed l ↔ name ∈ l.map Prod.fst := by
  cases key with
  | radarTilesets => exact mem_sortDescending
  | wrfInitRuns => exact mem_byRank
  | radars | radarVariables | radarElevations | wrfProducts => exact mem_sortAscending

/-- What a listing makes of the name of a directory that S3 has. -/
def ListingKey.serves (name : String) : ListingKey → Bool
  | .radarElevations .. => startsWithElev name
  | _ => true

/-- The listings above the last level. -/
def ListingKey.isParent : ListingKey → Bool
  | .radarTilesets .. | .wrfInitRuns _ => false
  | _ => true

theorem mem_entries {names : List String} {name : String} (hkey : key.isParent) (hname : name ≠ "") :
    name ∈ key.entries cfg names ↔ name ∈ names ∧ key.serves name := by
  cases key with
  | radars | radarVariables => simp [ListingKey.entries, ListingKey.serves, mem_sortAscending]
  | radarElevations => simp [ListingKey.entries, ListingKey.serves, mem_sortAscending]
  | wrfProducts => simp [ListingKey.entries, ListingKey.serves, mem_sortAscending, hname]
  | radarTilesets | wrfInitRuns => cases hkey

theorem entries_ne_nil {names : List String} (hkey : key.isParent = false) :
    key.entries cfg names ≠ [] ↔ ∃ name ∈ names, name ≠ "" := by
  have hsort : sortDescending (names.filter (· ≠ "")) ≠ [] ↔ ∃ name ∈ names, name ≠ "" := by
    constructor
    · intro h
      obtain ⟨name, hn⟩ := List.exists_mem_of_ne_nil _ h
      have hn' := List.mem_filter.mp (mem_sortDescending.mp hn)
      exact ⟨name, hn'.1, of_decide_eq_true hn'.2⟩
    · rintro ⟨name, hn, hne⟩
      exact List.ne_nil_of_mem (mem_sortDescending.mpr (List.mem_filter.mpr ⟨hn, decide_eq_true hne⟩))
  cases key with
  | radarTilesets => exact hsort
  | wrfInitRuns =>
    by_cases hkeep : 0 < cfg.wrfInitsToKeep
    · have htake : (sortDescending (names.filter (· ≠ ""))).take cfg.wrfInitsToKeep ≠ [] ↔
          sortDescending (names.filter (· ≠ "")) ≠ [] := by
        rw [Ne, List.take_eq_nil_iff, not_or]
        exact ⟨fun h => h.2, fun h => ⟨by omega, h⟩⟩
      rw [ListingKey.entries, if_pos hkeep]
      exact htake.trans hsort
    · rw [ListingKey.entries, if_neg hkeep]
      exact hsort
  | radars | radarVariables | radarElevations | wrfProducts => cases hkey

end Entries

end DataService.Sync
