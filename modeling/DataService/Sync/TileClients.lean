import DataService.Sync.TileRoutes

/-! What the clients of the tile routes show, over every order of views, requests and answers. -/

namespace DataService.Sync

open Revalidation

namespace TileRoute

/-- The gap has an `ETag` of its own. -/
def Distinguishes (r : TileRoute) : Prop := ∀ g, r.gap = some g → g.etag ≠ r.etag

/-- What the route has to answer cannot be written: its `ETag` comes from the URL, where any
character may stand. -/
def Unwritable (r : TileRoute) (found : ServiceAnswer) : Prop :=
  (found.tile.isSome ∧ ¬ (Latin1 r.etag ∧ Latin1 r.cacheControl.toList)) ∨
    ∃ g, r.gap = some g ∧ found.Missing ∧ ¬ (Latin1 g.etag ∧ Latin1 g.cacheControl.toList)

/-- The statuses of the answers that have neither a tile nor a gap. -/
def Fails (r : TileRoute) (found : ServiceAnswer) (status : Nat) : Prop :=
  (∃ refusal, r.refusal = some refusal ∧ status = refusal.status) ∨
    found = .notConfigured ∧ status = 503 ∨
    (found = .raised ∨ r.Unwritable found) ∧ status = 500 ∨
    found.Missing ∧ r.gap = none ∧ status = 404

def Right (r : TileRoute) (found : ServiceAnswer) (tag : ETag) (body : TileData) : Prop :=
  (tag = r.etag ∧ found.tile = some body) ∨
    ∃ g, r.gap = some g ∧ tag = g.etag ∧ body = g.content ∧ found.Missing

def lifetimeOf (r : TileRoute) (maxAge : String → Nat) (tag : ETag) : Nat :=
  if tag = r.etag then maxAge r.cacheControl
  else ((r.gap.map (·.cacheControl)).map maxAge).getD 0

variable {r : TileRoute} {maxAge : String → Nat} {sent : Option ETag} {found : ServiceAnswer}

theorem Fails.ne_notModified {status : Nat} (h : r.Fails found status) : status ≠ 304 := by
  obtain ⟨refusal, -, rfl⟩ | ⟨-, rfl⟩ | ⟨-, rfl⟩ | ⟨-, -, rfl⟩ := h
  · cases refusal <;> decide
  all_goals decide

/-- The cases of `respond`. -/
theorem respond_cases (r : TileRoute) (sent : Option ETag) (found : ServiceAnswer) :
    (∃ status, r.Fails found status ∧ r.respond sent found = statusOnly status) ∨
    (sent = some r.etag ∧ r.respond sent found = statusOnly 304) ∨
    (∃ body, found.tile = some body ∧
      r.respond sent found = createTileResponse body r.etag r.cacheControl) ∨
    ∃ g, r.gap = some g ∧ found.Missing ∧
      ((sent = some g.etag ∧ r.respond sent found = notModified g.cacheControl) ∨
        r.respond sent found = createTileResponse g.content g.etag g.cacheControl) := by
  cases hrefusal : r.refusal with
  | some refusal =>
    exact .inl ⟨refusal.status, .inl ⟨refusal, hrefusal, rfl⟩, by simp [respond, hrefusal]⟩
  | none =>
    by_cases hsent : sent = some r.etag
    · exact .inr (.inl ⟨hsent, by simp [respond, hrefusal, hsent]⟩)
    · cases htile : found.tile with
      | some body =>
        exact .inr (.inr (.inl ⟨body, rfl, by simp [respond, hrefusal, hsent, htile]⟩))
      | none =>
        cases found with
        | notConfigured =>
          refine .inl ⟨503, .inr (.inl ⟨rfl, rfl⟩), ?_⟩
          simp [respond, hrefusal, hsent, htile]
        | raised =>
          refine .inl ⟨500, .inr (.inr (.inl ⟨.inl rfl, rfl⟩)), ?_⟩
          simp [respond, hrefusal, hsent, htile]
        | data bytes =>
          have hmissing : (ServiceAnswer.data bytes).Missing := htile
          cases hgap : r.gap with
          | none =>
            refine .inl ⟨404, .inr (.inr (.inr ⟨hmissing, hgap, rfl⟩)), ?_⟩
            simp [respond, hrefusal, hsent, htile, hgap]
          | some g =>
            refine .inr (.inr (.inr ⟨g, rfl, hmissing, ?_⟩))
            by_cases hmiss : sent = some g.etag
            · have hne : g.etag ≠ r.etag := fun heq => hsent (hmiss.trans (congrArg some heq))
              exact .inl ⟨hmiss, by simp [respond, hrefusal, htile, hgap, hmiss, hne]⟩
            · exact .inr (by simp [respond, hrefusal, hsent, htile, hgap, hmiss])

theorem fails_of_unwritable (h : r.Unwritable found) : r.Fails found 500 :=
  .inr (.inr (.inl ⟨.inr h, rfl⟩))

theorem answer_createTileResponse (maxAge : String → Nat) (body : TileData) (etag : ETag)
    (cacheControl : String) :
    (Latin1 etag ∧ Latin1 cacheControl.toList) ∧
        (createTileResponse body etag cacheControl).answer maxAge =
          .full etag body (maxAge cacheControl) ∨
      ¬ (Latin1 etag ∧ Latin1 cacheControl.toList) ∧
        (createTileResponse body etag cacheControl).answer maxAge = .error 500 := by
  by_cases hw : Latin1 etag ∧ Latin1 cacheControl.toList
  · exact .inl ⟨hw, by simp [createTileResponse, hw, HttpResponse.answer]⟩
  · exact .inr ⟨hw, by simp [createTileResponse, hw, HttpResponse.answer, statusOnly]⟩

theorem answer_notModified (maxAge : String → Nat) (cacheControl : String) :
    (notModified cacheControl).answer maxAge = .notModified (some (maxAge cacheControl)) ∨
      ¬ Latin1 cacheControl.toList ∧ (notModified cacheControl).answer maxAge = .error 500 := by
  by_cases hw : Latin1 cacheControl.toList
  · exact .inl (by simp [notModified, hw, HttpResponse.answer])
  · exact .inr ⟨hw, by simp [notModified, hw, HttpResponse.answer, statusOnly]⟩

/-- What a cache makes of them. -/
theorem answer_cases (r : TileRoute) (maxAge : String → Nat) (sent : Option ETag)
    (found : ServiceAnswer) :
    (∃ status, r.Fails found status ∧ (r.respond sent found).answer maxAge = .error status) ∨
    (sent = some r.etag ∧ (r.respond sent found).answer maxAge = .notModified none) ∨
    (∃ body, found.tile = some body ∧
      (r.respond sent found).answer maxAge = .full r.etag body (maxAge r.cacheControl)) ∨
    ∃ g, r.gap = some g ∧ found.Missing ∧
      ((sent = some g.etag ∧
          (r.respond sent found).answer maxAge = .notModified (some (maxAge g.cacheControl))) ∨
        (r.respond sent found).answer maxAge = .full g.etag g.content (maxAge g.cacheControl)) := by
  obtain ⟨status, hfails, hr⟩ | ⟨hsent, hr⟩ | ⟨body, htile, hr⟩ | ⟨g, hg, hmissing, hr⟩ :=
    r.respond_cases sent found
  · refine .inl ⟨status, hfails, ?_⟩
    simp [hr, HttpResponse.answer, statusOnly, hfails.ne_notModified]
  · exact .inr (.inl ⟨hsent, by simp [hr, HttpResponse.answer, statusOnly]⟩)
  · obtain ⟨hw, ha⟩ | ⟨hw, ha⟩ := answer_createTileResponse maxAge body r.etag r.cacheControl
    · exact .inr (.inr (.inl ⟨body, htile, by rw [hr, ha]⟩))
    · exact .inl ⟨500, fails_of_unwritable (.inl ⟨by simp [htile], hw⟩), by rw [hr, ha]⟩
  · obtain ⟨hsent, hr⟩ | hr := hr
    · obtain ha | ⟨hw, ha⟩ := answer_notModified maxAge g.cacheControl
      · exact .inr (.inr (.inr ⟨g, hg, hmissing, .inl ⟨hsent, by rw [hr, ha]⟩⟩))
      · have hboth : ¬ (Latin1 g.etag ∧ Latin1 g.cacheControl.toList) := fun h => hw h.2
        exact .inl ⟨500, fails_of_unwritable (.inr ⟨g, hg, hmissing, hboth⟩), by rw [hr, ha]⟩
    · obtain ⟨hw, ha⟩ | ⟨hw, ha⟩ := answer_createTileResponse maxAge g.content g.etag g.cacheControl
      · exact .inr (.inr (.inr ⟨g, hg, hmissing, .inr (by rw [hr, ha])⟩))
      · exact .inl ⟨500, fails_of_unwritable (.inr ⟨g, hg, hmissing, hw⟩), by rw [hr, ha]⟩

theorem lifetimeOf_gap (h : r.Distinguishes) {g : Gap} (hg : r.gap = some g) :
    r.lifetimeOf maxAge g.etag = maxAge g.cacheControl := by
  simp [lifetimeOf, h g hg, hg]

theorem full_right (h : r.Distinguishes) {tag : ETag} {body : TileData} {lifetime : Nat}
    (hfull : (r.respond sent found).answer maxAge = .full tag body lifetime) :
    r.Right found tag body ∧ lifetime = r.lifetimeOf maxAge tag := by
  obtain ⟨status, -, hr⟩ | ⟨-, hr⟩ | ⟨tile, htile, hr⟩ | ⟨g, hg, hmissing, ⟨-, hr⟩ | hr⟩ :=
    r.answer_cases maxAge sent found <;> cases hr.symm.trans hfull
  · exact ⟨.inl ⟨rfl, htile⟩, by simp [lifetimeOf]⟩
  · exact ⟨.inr ⟨g, hg, rfl, rfl, hmissing⟩, (lifetimeOf_gap h hg).symm⟩

/-- The tile is confirmed unseen, the gap only where the tile is still missing. -/
theorem notModified_cases {tag : ETag} {lifetime : Option Nat}
    (hkept : (r.respond (some tag) found).answer maxAge = .notModified lifetime) :
    (tag = r.etag ∧ lifetime = none) ∨
      ∃ g, r.gap = some g ∧ tag = g.etag ∧ found.Missing ∧
        lifetime = some (maxAge g.cacheControl) := by
  obtain ⟨status, -, hr⟩ | ⟨htag, hr⟩ | ⟨tile, -, hr⟩ | ⟨g, hg, hmissing, ⟨htag, hr⟩ | hr⟩ :=
    r.answer_cases maxAge (some tag) found <;> cases hr.symm.trans hkept
  · exact .inl ⟨Option.some.inj htag, rfl⟩
  · exact .inr ⟨g, hg, Option.some.inj htag, hmissing, rfl⟩

theorem fails_of_error {status : Nat}
    (herror : (r.respond sent found).answer maxAge = .error status) : r.Fails found status := by
  obtain ⟨status', hfails, hr⟩ | ⟨-, hr⟩ | ⟨tile, -, hr⟩ | ⟨g, -, -, ⟨-, hr⟩ | hr⟩ :=
    r.answer_cases maxAge sent found <;> cases hr.symm.trans herror
  exact hfails

theorem validates {κ : Type*} {routes : κ → TileRoute} (maxAge : String → Nat)
    (h : ∀ k, (routes k).Distinguishes) :
    Validates (answerOf routes maxAge) (fun k => (routes k).Right)
      (fun k tag => tag = (routes k).etag) (fun k => (routes k).lifetimeOf maxAge) where
  full hfull := full_right (h _) hfull
  kept {k tag d lifetime} hkept := by
    obtain ⟨rfl, -⟩ | ⟨g, hg, rfl, hmissing, -⟩ := notModified_cases hkept
    · exact .inl rfl
    · refine .inr fun d' body hright => ?_
      obtain ⟨heq, -⟩ | ⟨g', hg', -, hbody, -⟩ := hright
      · exact absurd heq (h k g hg)
      · obtain rfl : g = g' := Option.some.inj (hg.symm.trans hg')
        exact .inr ⟨g, hg, rfl, hbody, hmissing⟩
  restated {k tag d lifetime} hrestated := by
    obtain ⟨-, hnone⟩ | ⟨g, hg, rfl, -, hlifetime⟩ := notModified_cases hrestated
    · cases hnone
    · rw [lifetimeOf_gap (h k) hg]
      exact Option.some.inj hlifetime

theorem refusedIf_etag (refusal : Refusal) (refused : Bool) :
    (r.refusedIf refusal refused).etag = r.etag ∧ (r.refusedIf refusal refused).gap = r.gap := by
  cases refused <;> exact ⟨rfl, rfl⟩

theorem distinguishes_refusedIf (h : r.Distinguishes) (refusal : Refusal) (refused : Bool) :
    (r.refusedIf refusal refused).Distinguishes := by
  obtain ⟨hetag, hgap⟩ := r.refusedIf_etag refusal refused
  intro g hg
  rw [hetag]
  exact h g (hgap ▸ hg)

end TileRoute

theorem etagPair_ne (identity : List Char) : (etagPair identity).2 ≠ (etagPair identity).1 := by
  intro heq
  have hlength := congrArg List.length heq
  simp [etagPair] at hlength

theorem distinguishes_withGap (identity : List Char) (content : TileData)
    (cacheControlMiss cacheControl : String) :
    (TileRoute.withGap identity content cacheControlMiss cacheControl).Distinguishes := by
  intro g hg
  obtain rfl := Option.some.inj hg
  exact etagPair_ne identity

theorem distinguishes_orNotFound (identity : List Char) (cacheControl : String) :
    (TileRoute.orNotFound identity cacheControl).Distinguishes := by
  intro g hg
  cases hg

theorem distinguishes_route (c : RouteSettings) (k : Resource) : (route c k).Distinguishes := by
  cases k with
  | satelliteTile productId instrumentId channelId tilesetId z x y =>
    simp only [route, getSatelliteTile]
    split <;> exact TileRoute.distinguishes_refusedIf (distinguishes_orNotFound _ _) _ _
  | basemapTile providerId z x y =>
    refine TileRoute.distinguishes_refusedIf ?_ _ _
    exact TileRoute.distinguishes_refusedIf (distinguishes_withGap _ _ _ _) _ _
  | ecmwfTpTile forecastTs periodTs z x y =>
    exact TileRoute.distinguishes_refusedIf (distinguishes_orNotFound _ _) _ _
  | radarTile => exact distinguishes_withGap _ _ _ _
  | wrfTile | wrfBarbTile | gfsTile | gfsBarbTile =>
    exact TileRoute.distinguishes_refusedIf (distinguishes_withGap _ _ _ _) _ _
  | wrfLayer | gfsLayer | isobars => exact distinguishes_orNotFound _ _

theorem distinguishes_routeAt {Url : Type*} (c : RouteSettings) (resource : Url → Option Resource)
    (url : Url) : (routeAt c resource url).Distinguishes := by
  simp only [routeAt]
  split
  · exact distinguishes_route c _
  · exact TileRoute.distinguishes_refusedIf (distinguishes_orNotFound _ _) _ _

section Clients

variable {κ : Type*} {routes : κ → TileRoute} {maxAge : String → Nat}

/-- A client shows the tile that the service has given at some time, the gap only where the service
had no tile a short while ago or when asked for this very view, and an error only where the service
has just given rise to it. -/
def AccountedFor (routes : κ → TileRoute) (maxAge : String → Nat)
    (exchanges : List (Exchange κ ServiceAnswer)) (v : Shown κ ETag TileData) : Prop :=
  match v.outcome with
  | .ok (tag, body) =>
    (tag = (routes v.key).etag ∧ ∃ x ∈ exchanges, x.key = v.key ∧ x.time ≤ v.time ∧
      x.found.tile = some body) ∨
    ∃ g, (routes v.key).gap = some g ∧ tag = g.etag ∧ body = g.content ∧
      ∃ x ∈ exchanges, x.key = v.key ∧ x.time ≤ v.time ∧
        (v.time < x.time + maxAge g.cacheControl ∨ v.launched ≤ x.time) ∧ x.found.Missing
  | .error status => ∃ x ∈ exchanges, x.key = v.key ∧ v.launched ≤ x.time ∧ x.time ≤ v.time ∧
      (routes v.key).Fails x.found status

theorem accounted_of_justified (h : ∀ k, (routes k).Distinguishes)
    {exchanges : List (Exchange κ ServiceAnswer)} {v : Shown κ ETag TileData}
    (hv : Cache.Justified (answerOf routes maxAge) (fun k => (routes k).Right)
      (fun k tag => tag = (routes k).etag) (fun k => (routes k).lifetimeOf maxAge) exchanges v) :
    AccountedFor routes maxAge exchanges v := by
  cases hout : v.outcome with
  | error status =>
    simp only [Cache.Justified, AccountedFor, hout] at hv ⊢
    obtain ⟨x, hx, hkey, hlaunched, htime, sent, herror⟩ := hv
    exact ⟨x, hx, hkey, hlaunched, htime, TileRoute.fails_of_error herror⟩
  | ok shown =>
    simp only [Cache.Justified, AccountedFor, hout] at hv ⊢
    obtain ⟨x, hx, hkey, hright, htime, hlast⟩ := hv
    obtain ⟨htag, htile⟩ | ⟨g, hg, htag, hbody, hmissing⟩ := hright
    · exact .inl ⟨htag, x, hx, hkey, htime, htile⟩
    · refine .inr ⟨g, hg, htag, hbody, x, hx, hkey, htime, ?_, hmissing⟩
      obtain hlasts | hrecent := hlast
      · exact absurd (htag.symm.trans hlasts) (h v.key g hg)
      · rw [htag, TileRoute.lifetimeOf_gap (h v.key) hg] at hrecent
        exact hrecent

theorem accounted_of_distinguishes [DecidableEq κ] (h : ∀ k, (routes k).Distinguishes)
    {as : List (ClientAction κ)} {t : Client κ}
    (ht : StepSystem.run (clientStep routes maxAge) .new as = some t)
    {v : Shown κ ETag TileData} (hv : v ∈ t.shown) :
    AccountedFor routes maxAge t.exchanges v :=
  accounted_of_justified h (Cache.shown_justified (TileRoute.validates maxAge h) ht hv)

/-- With one tag for both, the route confirms the gap when the tile is there. -/
theorem masked_gap [DecidableEq κ] {k : κ} {g : Gap} (hopen : (routes k).refusal = none)
    (hg : (routes k).gap = some g) (hwritten : Latin1 g.etag ∧ Latin1 g.cacheControl.toList)
    (hsame : g.etag = (routes k).etag) :
    ∃ (as : List (ClientAction κ)) (t : Client κ) (v : Shown κ ETag TileData),
      StepSystem.run (clientStep routes maxAge) .new as = some t ∧ v ∈ t.shown ∧
        ¬ AccountedFor routes maxAge t.exchanges v := by
  let tile : TileData := 0 :: g.content
  have hfirst : answerOf routes maxAge k none (.data none) =
      .full g.etag g.content (maxAge g.cacheControl) := by
    simp [answerOf, TileRoute.respond, hopen, hg, ServiceAnswer.tile, HttpResponse.answer,
      createTileResponse, hwritten]
  have hlater : answerOf routes maxAge k (some g.etag) (.data (some tile)) = .notModified none := by
    simp [answerOf, TileRoute.respond, hopen, hsame, HttpResponse.answer, statusOnly]
  let late := maxAge g.cacheControl + 1
  let v : Shown κ ETag TileData := ⟨k, late, late, .ok (g.etag, g.content)⟩
  obtain ⟨t, ht, hexchanges, hshown⟩ : ∃ t : Client κ,
      StepSystem.run (clientStep routes maxAge) .new [.view k, .serve 0 (.data none), .deliver 0,
        .wait late, .view k, .serve 1 (.data (some tile)), .deliver 1] = some t ∧
      t.exchanges = [⟨k, late, .data (some tile)⟩, ⟨k, 0, .data none⟩] ∧ v ∈ t.shown := by
    simp [StepSystem.run, clientStep, Cache.step, Cache.new, Cache.fresh, Option.filter,
      Stage.isSent, Cache.setStage, hfirst, hlater, Cache.onAnswer, Cache.store, Cache.display,
      Request.freshened, late, v]
  refine ⟨_, t, v, ht, hshown, ?_⟩
  simp only [AccountedFor, v, hexchanges, List.mem_cons, List.not_mem_nil]
  rintro (⟨-, x, rfl | rfl | hx, -, -, htile⟩ |
    ⟨g', hg', -, -, x, rfl | rfl | hx, -, -, hrecent, hmissing⟩)
  · simp [ServiceAnswer.tile, tile] at htile
  · simp [ServiceAnswer.tile] at htile
  · exact hx
  · simp [ServiceAnswer.Missing, tile] at hmissing
  · obtain rfl : g = g' := Option.some.inj (hg.symm.trans hg')
    simp only [late] at hrecent
    omega
  · exact hx

/-- "They must differ": the clients of open routes are accounted for in every run if and only if
each gap has a tag of its own. -/
theorem accounted_iff_distinguishes [DecidableEq κ] (hopen : ∀ k, (routes k).refusal = none)
    (hwritten : ∀ k g, (routes k).gap = some g →
      Latin1 g.etag ∧ Latin1 g.cacheControl.toList) :
    (∀ (as : List (ClientAction κ)) (t : Client κ),
      StepSystem.run (clientStep routes maxAge) .new as = some t →
        ∀ v ∈ t.shown, AccountedFor routes maxAge t.exchanges v) ↔
      ∀ k, (routes k).Distinguishes := by
  refine ⟨fun h k g hg hsame => ?_, fun h as t ht v hv => accounted_of_distinguishes h ht hv⟩
  obtain ⟨as, t, v, ht, hv, hmasked⟩ := masked_gap (hopen k) hg (hwritten k g hg) hsame
  exact hmasked (h as t ht v hv)

end Clients

/-- No gap outlives its lifetime, and no tile is made up. -/
theorem shown_tiles_accounted {Url : Type} [DecidableEq Url] (c : RouteSettings)
    (resource : Url → Option Resource) (maxAge : String → Nat) {as : List (ClientAction Url)}
    {t : Client Url} (ht : StepSystem.run (clientStep (routeAt c resource) maxAge) .new as = some t)
    {v : Shown Url ETag TileData} (hv : v ∈ t.shown) :
    AccountedFor (routeAt c resource) maxAge t.exchanges v :=
  accounted_of_distinguishes (distinguishes_routeAt c resource) ht hv

def sampleRoutes : RouteSettings where
  cacheControlTile := "public, max-age=86400"
  radarCacheControlTileMiss := "public, max-age=300"
  wrfCacheControlTileMiss := "public, max-age=300"
  gfsCacheControlTileMiss := "public, max-age=300"
  basemapCacheControlTileMiss := "public, max-age=300"
  basemapCacheControlTile := "public, max-age=2592000, immutable"
  zoomLevels _ _ _ := none
  validateProvider _ := false
  transparentTile := [0]
  transparentPngTile := [0]

def sampleMaxAge (cacheControl : String) : Nat :=
  if cacheControl = "public, max-age=300" then 300 else 86400

def sampleResource (radarId : String) : Option Resource :=
  some (.radarTile "inta" radarId "dbzh" "elev0" "20260114T170328Z" 4 5 9)

/-- A gap is shown for five minutes, and once more by an answer that was under way when the tile
arrived. A radar whose name no header can carry is a `500`. -/
theorem shown_tiles_accounted_arrival :
    ∃ t, StepSystem.run (clientStep (routeAt sampleRoutes sampleResource) sampleMaxAge) .new
        [.view "RMA1", .serve 0 (.data none), .deliver 0, .wait 299, .view "RMA1", .wait 1,
          .view "RMA1", .view "RMA1", .serve 1 (.data none), .wait 400,
          .serve 2 (.data (some [7])), .deliver 2, .deliver 1, .view "☂",
          .serve 3 (.data none), .deliver 3] = some t ∧
      t.shown.length = 5 ∧ ∀ v ∈ t.shown,
        AccountedFor (routeAt sampleRoutes sampleResource) sampleMaxAge t.exchanges v :=
  ⟨_, rfl, rfl, fun _ hv => @shown_tiles_accounted String _ sampleRoutes sampleResource sampleMaxAge
    [.view "RMA1", .serve 0 (.data none), .deliver 0, .wait 299, .view "RMA1", .wait 1,
      .view "RMA1", .view "RMA1", .serve 1 (.data none), .wait 400,
      .serve 2 (.data (some [7])), .deliver 2, .deliver 1, .view "☂",
      .serve 3 (.data none), .deliver 3] _ rfl _ hv⟩

end DataService.Sync
