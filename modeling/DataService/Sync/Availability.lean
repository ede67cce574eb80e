import DataService.Sync.ListingStrategy

/-! The availability snapshot: the paths of the products that have data, gathered through
the listings of the endpoints. -/

namespace DataService.Sync

open DirectoryListing ExpiringStore StableLookup

/-- A path, by the names between its slashes. -/
abbrev ProductPath := List String

inductive RadarNetwork where
  | sinarame
  | inta
  deriving DecidableEq, Repr

def RadarNetwork.name : RadarNetwork → String
  | .sinarame => "sinarame"
  | .inta => "inta"

def RadarNetwork.domain : RadarNetwork → String
  | .sinarame => "radar-sinarame"
  | .inta => "radar-inta"

/-- What the strategies of the other domains answer. -/
structure OtherDomains where
  channelDirs : List ProductPath
  satelliteTilesets : ProductPath → List String
  ecmwfForecasts : List String
  gfsProductIds : List String
  gfsCycles : String → List String

/-- Pair each item with what was found for it. -/
def crossing {α β : Type} (items : List α) (found : List (List β)) : List (α × β) :=
  (items.zip found).flatMap fun p => p.2.map (p.1, ·)

/-- The items for which something was found. -/
def withData {α : Type} (items : List α) (found : List (List String)) : List α :=
  ((items.zip found).filter fun p => decide (p.2 ≠ [])).map Prod.fst

variable (cfg : ListingConfig)

/-- `RadarAvailability._combinations` -/
def radarCombinations (network : RadarNetwork) : Lookup (List ((String × String) × String)) := do
  let radars ← listRadars cfg network.name
  let found ← radars.mapM (listVariables cfg network.name)
  let elevations ← (crossing radars found).mapM fun p => listElevations cfg network.name p.1 p.2
  pure (crossing (crossing radars found) elevations)

def radarPath (network : RadarNetwork) (c : (String × String) × String) : ProductPath :=
  [network.domain, c.1.1, c.1.2, c.2]

/-- `RadarAvailability.available` -/
def radarAvailable (network : RadarNetwork) : Lookup (List ProductPath) := do
  let combos ← radarCombinations cfg network
  let tilesets ← combos.mapM fun c => listTilesets cfg network.name c.1.1 c.1.2 c.2
  pure ((withData combos tilesets).map (radarPath network))

def wrfPath (productId : String) : ProductPath := ["wrf-arg4k", productId]

/-- `WrfAvailability.available` -/
def wrfAvailable : Lookup (List ProductPath) := do
  let products ← listProducts cfg
  let initRuns ← products.mapM (listInitRuns cfg)
  pure ((withData products initRuns).map wrfPath)

namespace OtherDomains

variable (others : OtherDomains)

/-- `SatelliteAvailability.available`; the channel directory is the product path. -/
def satelliteAvailable : List ProductPath :=
  (withData others.channelDirs (others.channelDirs.map others.satelliteTilesets)).map ("goes19" :: ·)

/-- `EcmwfTpAvailability.available` -/
def ecmwfAvailable : List ProductPath :=
  if others.ecmwfForecasts = [] then [] else [["ecmwf-ifs", "total-precipitation"]]

/-- `GfsAvailability.available` -/
def gfsAvailable : List ProductPath :=
  (withData others.gfsProductIds (others.gfsProductIds.map others.gfsCycles)).map (["gfs", ·])

end OtherDomains

/-- `build_contributors`: a domain, and how to ask for its paths. -/
def buildContributors (others : OtherDomains) : List (String × Lookup (List ProductPath)) :=
  [(RadarNetwork.sinarame.domain, radarAvailable cfg .sinarame),
    (RadarNetwork.inta.domain, radarAvailable cfg .inta),
    ("goes19", pure others.satelliteAvailable), ("ecmwf-ifs", pure others.ecmwfAvailable),
    ("wrf-arg4k", wrfAvailable cfg), ("gfs", pure others.gfsAvailable)]

structure ProductAvailabilitySnapshot where
  available : List ProductPath
  domains : List String
  deriving DecidableEq, Repr

def pathText (path : ProductPath) : String := "/".intercalate path

/-- The paths in the order of their text, and the domains that have some. -/
def assemble (results : List (String × List ProductPath)) : ProductAvailabilitySnapshot where
  available :=
    (results.flatMap Prod.snd).insertionSort fun a b => pathText a ≤ pathText b
  domains := sortAscending ((results.filter fun r => decide (r.2 ≠ [])).map Prod.fst)

def ask (c : String × Lookup (List ProductPath)) : Lookup (String × List ProductPath) := do
  let paths ← c.2
  pure (c.1, paths)

/-- `_gather` -/
def gather (others : OtherDomains) : Lookup ProductAvailabilitySnapshot := do
  let results ← (buildContributors cfg others).mapM ask
  pure (assemble results)

/-- The service and its memo; times are in milliseconds. -/
structure ProductAvailabilityService where
  ttl : Nat
  cached : Option ProductAvailabilitySnapshot
  cachedAt : Nat

namespace ProductAvailabilityService

/-- `_fresh` -/
def fresh (service : ProductAvailabilityService) (now : Nat) :
    Option ProductAvailabilitySnapshot :=
  if service.ttl ≤ now - service.cachedAt then none else service.cached

/-- A call that gets the lock at `start`; a gather ends at `finish`. -/
def snapshot (service : ProductAvailabilityService) (others : OtherDomains) (start finish : Nat) :
    Lookup (ProductAvailabilitySnapshot × ProductAvailabilityService) :=
  match service.fresh start with
  | some cached => pure (cached, service)
  | none => do
    let gathered ← gather cfg others
    pure (gathered, { service with cached := some gathered, cachedAt := finish })

end ProductAvailabilityService

section Gathered

variable {cfg} {b : Backend}

theorem mem_crossing {α β : Type} {items : List α} {f : α → List β} {a : α} {x : β} :
    (a, x) ∈ crossing items (items.map f) ↔ a ∈ items ∧ x ∈ f a := by
  have hzip : items.zip (items.map f) = items.map fun a => (a, f a) := by
    simpa using List.zip_map' (f := id) (g := f) (l := items)
  rw [crossing, hzip]
  simp only [List.mem_flatMap, List.mem_map, Prod.mk.injEq]
  constructor
  · rintro ⟨p, ⟨c, hc, rfl⟩, y, hy, rfl, rfl⟩
    exact ⟨hc, hy⟩
  · rintro ⟨ha, hx⟩
    exact ⟨_, ⟨a, ha, rfl⟩, x, hx, rfl, rfl⟩

theorem mem_withData {α : Type} {items : List α} {f : α → List String} {a : α} :
    a ∈ withData items (items.map f) ↔ a ∈ items ∧ f a ≠ [] := by
  have hzip : items.zip (items.map f) = items.map fun a => (a, f a) := by
    simpa using List.zip_map' (f := id) (g := f) (l := items)
  rw [withData, hzip]
  simp only [List.mem_map, List.mem_filter, decide_eq_true_eq]
  constructor
  · rintro ⟨p, ⟨⟨c, hc, rfl⟩, hf⟩, rfl⟩
    exact ⟨hc, hf⟩
  · rintro ⟨ha, hf⟩
    exact ⟨_, ⟨⟨a, ha, rfl⟩, hf⟩, rfl⟩

namespace Backend

/-- The radars with their variables, as one state answers. -/
def radarPairs (cfg : ListingConfig) (b : Backend) (network : RadarNetwork) :
    List (String × String) :=
  crossing (b.answer cfg (.radars network.name))
    ((b.answer cfg (.radars network.name)).map fun r =>
      b.answer cfg (.radarVariables network.name r))

def combinations (cfg : ListingConfig) (b : Backend) (network : RadarNetwork) :
    List ((String × String) × String) :=
  crossing (b.radarPairs cfg network)
    ((b.radarPairs cfg network).map fun p => b.answer cfg (.radarElevations network.name p.1 p.2))

def radarPaths (cfg : ListingConfig) (b : Backend) (network : RadarNetwork) : List ProductPath :=
  (withData (b.combinations cfg network) ((b.combinations cfg network).map fun c =>
    b.answer cfg (.radarTilesets network.name c.1.1 c.1.2 c.2))).map (radarPath network)

def wrfPaths (cfg : ListingConfig) (b : Backend) : List ProductPath :=
  (withData (b.answer cfg .wrfProducts) ((b.answer cfg .wrfProducts).map fun p =>
    b.answer cfg (.wrfInitRuns p))).map wrfPath

def contributions (cfg : ListingConfig) (b : Backend) (others : OtherDomains) :
    List (String × List ProductPath) :=
  [(RadarNetwork.sinarame.domain, b.radarPaths cfg .sinarame),
    (RadarNetwork.inta.domain, b.radarPaths cfg .inta), ("goes19", others.satelliteAvailable),
    ("ecmwf-ifs", others.ecmwfAvailable), ("wrf-arg4k", b.wrfPaths cfg),
    ("gfs", others.gfsAvailable)]

end Backend

theorem gives_radarAvailable (b : Backend) (network : RadarNetwork) :
    Gives (Backend.Agree cfg) b (radarAvailable cfg network) (b.radarPaths cfg network) := by
  have hcombos : Gives (Backend.Agree cfg) b (radarCombinations cfg network)
      (b.combinations cfg network) :=
    gives_bind (gives_listing b _)
      (gives_bind (gives_mapM_map (fun _ => gives_listing b _) _)
        (gives_bind (gives_mapM_map (fun _ => gives_listing b _) _) (gives_pure _)))
  exact gives_bind hcombos
    (gives_bind (gives_mapM_map (fun _ => gives_listing b _) _) (gives_pure _))

theorem gives_wrfAvailable (b : Backend) :
    Gives (Backend.Agree cfg) b (wrfAvailable cfg) (b.wrfPaths cfg) :=
  gives_bind (gives_listing b _)
    (gives_bind (gives_mapM_map (fun _ => gives_listing b _) _) (gives_pure _))

theorem gives_ask {R : Backend → Backend → Prop} {domain : String}
    {c : Lookup (List ProductPath)} {paths : List ProductPath} (h : Gives R b c paths) :
    Gives R b (ask (domain, c)) (domain, paths) :=
  gives_bind h (gives_pure _)

/-- A gather answers from the state in which it began. -/
theorem gives_gather (b : Backend) (others : OtherDomains) :
    Gives (Backend.Agree cfg) b (gather cfg others) (assemble (b.contributions cfg others)) := by
  refine gives_bind (gives_mapM ?_) (gives_pure _)
  exact .cons (gives_ask (gives_radarAvailable b .sinarame)) <|
    .cons (gives_ask (gives_radarAvailable b .inta)) <|
    .cons (gives_ask (gives_pure _)) <| .cons (gives_ask (gives_pure _)) <|
    .cons (gives_ask (gives_wrfAvailable b)) <| .cons (gives_ask (gives_pure _)) .nil

theorem mem_available {results : List (String × List ProductPath)} {path : ProductPath} :
    path ∈ (assemble results).available ↔ ∃ r ∈ results, path ∈ r.2 :=
  (List.perm_insertionSort _ _).mem_iff.trans List.mem_flatMap

theorem radarPath_inj {network network' : RadarNetwork} {c c' : (String × String) × String} :
    radarPath network c = radarPath network' c' ↔ network = network' ∧ c = c' := by
  constructor
  · intro h
    obtain ⟨⟨r, v⟩, e⟩ := c
    obtain ⟨⟨r', v'⟩, e'⟩ := c'
    simp only [radarPath, List.cons.injEq, and_true] at h
    obtain ⟨hd, rfl, rfl, rfl⟩ := h
    refine ⟨?_, rfl⟩
    cases network <;> cases network' <;> first | rfl | exact absurd hd (by decide)
  · rintro ⟨rfl, rfl⟩
    rfl

theorem domain_ne_wrf (network : RadarNetwork) : network.domain ≠ "wrf-arg4k" := by
  cases network <;> decide

/-- No domain but its own contributes the path of a radar product. -/
theorem mem_contributions_radar {others : OtherDomains} {network : RadarNetwork}
    {c : (String × String) × String} :
    (∃ r ∈ b.contributions cfg others, radarPath network c ∈ r.2) ↔
      radarPath network c ∈ b.radarPaths cfg network := by
  have hwrf : radarPath network c ∉ b.wrfPaths cfg := by
    intro h
    obtain ⟨p, -, hp⟩ := List.mem_map.mp h
    exact domain_ne_wrf network (List.cons.inj hp).1.symm
  have hsatellite : radarPath network c ∉ others.satelliteAvailable := by
    intro h
    obtain ⟨p, -, hp⟩ := List.mem_map.mp h
    have hd : "goes19" = network.domain := (List.cons.inj hp).1
    cases network <;> exact absurd hd (by decide)
  have hecmwf : radarPath network c ∉ others.ecmwfAvailable := by
    unfold OtherDomains.ecmwfAvailable radarPath
    split_ifs <;> simp
  have hgfs : radarPath network c ∉ others.gfsAvailable := by
    intro h
    obtain ⟨p, -, hp⟩ := List.mem_map.mp h
    have hd : "gfs" = network.domain := (List.cons.inj hp).1
    cases network <;> exact absurd hd (by decide)
  have hother : ∀ other, radarPath network c ∈ b.radarPaths cfg other → other = network := by
    intro other h
    obtain ⟨c', -, hc⟩ := List.mem_map.mp h
    exact (radarPath_inj.mp hc).1
  simp only [Backend.contributions, List.mem_cons, List.not_mem_nil, or_false, exists_eq_or_imp,
    exists_eq_left, hwrf, hsatellite, hecmwf, hgfs]
  constructor
  · rintro (h | h)
    · exact hother _ h ▸ h
    · exact hother _ h ▸ h
  · intro h
    cases network with
    | sinarame => exact .inl h
    | inta => exact .inr h

theorem mem_contributions_wrf {others : OtherDomains} {productId : String} :
    (∃ r ∈ b.contributions cfg others, wrfPath productId ∈ r.2) ↔
      wrfPath productId ∈ b.wrfPaths cfg := by
  have hradar : ∀ network, wrfPath productId ∉ b.radarPaths cfg network := by
    intro network h
    obtain ⟨c, -, hc⟩ := List.mem_map.mp h
    exact domain_ne_wrf network (List.cons.inj hc).1
  have hsatellite : wrfPath productId ∉ others.satelliteAvailable := by
    intro h
    obtain ⟨p, -, hp⟩ := List.mem_map.mp h
    exact absurd (List.cons.inj hp).1 (by decide)
  have hecmwf : wrfPath productId ∉ others.ecmwfAvailable := by
    unfold OtherDomains.ecmwfAvailable wrfPath
    split_ifs <;> simp
  have hgfs : wrfPath productId ∉ others.gfsAvailable := by
    intro h
    obtain ⟨p, -, hp⟩ := List.mem_map.mp h
    exact absurd (List.cons.inj hp).1 (by decide)
  simp [Backend.contributions, hradar, hsatellite, hecmwf, hgfs]

theorem mem_radarPaths {network : RadarNetwork} {r v e : String} :
    radarPath network ((r, v), e) ∈ b.radarPaths cfg network ↔
      ((r ∈ b.answer cfg (.radars network.name) ∧
        v ∈ b.answer cfg (.radarVariables network.name r)) ∧
        e ∈ b.answer cfg (.radarElevations network.name r v)) ∧
        b.answer cfg (.radarTilesets network.name r v e) ≠ [] := by
  have hinj : Function.Injective (radarPath network) := fun c c' h => (radarPath_inj.mp h).2
  rw [Backend.radarPaths, List.mem_map_of_injective hinj, mem_withData, Backend.combinations,
    mem_crossing, Backend.radarPairs, mem_crossing]

theorem mem_wrfPaths {productId : String} :
    wrfPath productId ∈ b.wrfPaths cfg ↔
      productId ∈ b.answer cfg .wrfProducts ∧ b.answer cfg (.wrfInitRuns productId) ≠ [] := by
  have hinj : Function.Injective wrfPath := by
    intro p p' h
    simpa [wrfPath] using h
  rw [Backend.wrfPaths, List.mem_map_of_injective hinj, mem_withData]

end Gathered

end DataService.Sync
