import DataService.Basemap.TileReader
import DataService.Basemap.SingleFlight

/-! `get_tile` while Redis fails with its own errors. The wrappers of the reader list httpx,
timeout and socket errors, and the errors of redis-py are none of these. -/

namespace DataService

open StepSystem

inductive ReaderTier where
  | miss
  | provider
  | redis
  | s3
  deriving DecidableEq, Repr

/-- A tier is passed, or the chain ends there. -/
inductive TierEnd where
  | goesOn
  | ends (e : ChainEnd TileBytes ReaderExn)

def TierEnd.orElse (t : TierEnd) (next : ChainEnd TileBytes ReaderExn) :
    ChainEnd TileBytes ReaderExn :=
  match t with
  | goesOn => next
  | ends e => e

/-- What a wrapper hands to the chain. -/
def TierEnd.ofGet : Except ReaderExn (Option TileBytes) → TierEnd
  | .error e => ends (.raised e)
  | .ok (some data) => ends (.returned (some data))
  | .ok none => goesOn

/-- A request of one tile: what the tiers answer, if they are asked, and at which of them the
deadline strikes, if the chain waits there. -/
structure ReadRequest where
  replies : TierReplies
  late : Option ReaderTier

namespace ReadRequest

variable (cfg : ReaderConfig) (q : ReadRequest)

/-- The chain asks this tier if it gets there. -/
def asked : ReaderTier → Bool
  | .miss => cfg.negativeCacheEnabled
  | .provider => cfg.onlineFallback && cfg.providerKnown && relayAllows cfg q.replies.relay
  | .redis => cfg.redisCacheEnabled
  | .s3 => cfg.s3CacheEnabled

/-- A tier behind the deadline. -/
def timed (tier : ReaderTier) (answer : TierEnd) : TierEnd :=
  if q.asked cfg tier then if q.late = some tier then .ends .deadline else answer else .goesOn

def missTier : TierEnd :=
  q.timed cfg .miss
    (match q.replies.miss.safeGet false with
      | .error e => .ends (.raised e)
      | .ok true => .ends (.returned none)
      | .ok false => .goesOn)

def providerTier : TierEnd :=
  q.timed cfg .provider
    (.ofGet (downloadFromProvider q.replies.provider (relayCircuit cfg q.replies.relay)
      q.replies.relay.answeredAt).1)

def redisTier : TierEnd := q.timed cfg .redis (.ofGet (q.replies.redis.safeGet none))

def s3Tier : TierEnd := q.timed cfg .s3 (.ofGet q.replies.s3.safeGet)

/-- `_resolve_tile` under `asyncio.wait_for` -/
def getTile : ChainEnd TileBytes ReaderExn :=
  (q.missTier cfg).orElse <| (q.providerTier cfg).orElse <| (q.redisTier cfg).orElse <|
    (q.s3Tier cfg).orElse (.returned none)

end ReadRequest

/-- The end of a chain that runs to its end. -/
def chainEndOf : Except ReaderExn (Option TileBytes) → ChainEnd TileBytes ReaderExn
  | .ok v => .returned v
  | .error e => .raised e

/-- Before the deadline the request ends as its chain does. -/
theorem getTile_in_time (cfg : ReaderConfig) (a : TierReplies) :
    (⟨a, none⟩ : ReadRequest).getTile cfg = chainEndOf (resolveTile cfg a).result := by
  have hcaches (relay : Option StorageCircuit) :
      ((⟨a, none⟩ : ReadRequest).redisTier cfg).orElse
        (((⟨a, none⟩ : ReadRequest).s3Tier cfg).orElse (.returned none)) =
          chainEndOf (resolveFromCaches cfg a relay).result := by
    have hs3 : ((⟨a, none⟩ : ReadRequest).s3Tier cfg).orElse (.returned none) =
        chainEndOf (tryS3 cfg a) := by
      unfold ReadRequest.s3Tier ReadRequest.timed ReadRequest.asked tryS3
      cases cfg.s3CacheEnabled <;> rcases a.s3.safeGet with e | _ | data <;> rfl
    rw [hs3]
    unfold ReadRequest.redisTier ReadRequest.timed ReadRequest.asked resolveFromCaches tryRedis
    cases cfg.redisCacheEnabled <;> rcases a.redis.safeGet none with e | _ | data <;>
      rcases tryS3 cfg a with e | _ | data <;> rfl
  unfold ReadRequest.getTile resolveTile
  have hmiss : (⟨a, none⟩ : ReadRequest).missTier cfg =
      match tryMiss cfg a with
      | .error e => .ends (.raised e)
      | .ok true => .ends (.returned none)
      | .ok false => .goesOn := by
    unfold ReadRequest.missTier ReadRequest.timed ReadRequest.asked tryMiss
    cases cfg.negativeCacheEnabled <;> rfl
  have hprovider : (⟨a, none⟩ : ReadRequest).providerTier cfg = .ofGet (tryProvider cfg a).1 := by
    unfold ReadRequest.providerTier ReadRequest.timed ReadRequest.asked tryProvider
    cases cfg.onlineFallback && cfg.providerKnown <;> cases relayAllows cfg a.relay <;> rfl
  rw [hmiss, hprovider]
  cases tryMiss cfg a with
  | error e => rfl
  | ok found =>
    cases found with
    | true => rfl
    | false =>
      obtain ⟨result, relay⟩ := tryProvider cfg a
      rcases result with e | _ | data
      · rfl
      · exact hcaches relay
      · rfl

/-- Which of the two Redis commands of a chain fail; the other finds nothing. -/
structure RedisOutage where
  missFails : Bool
  tileFails : Bool
  deriving DecidableEq, Repr

def RedisOutage.nothingFails : RedisOutage := ⟨false, false⟩

namespace ReadRequest

/-- The same request, with Redis in this state. -/
def under (q : ReadRequest) (o : RedisOutage) : ReadRequest :=
  { q with replies := { q.replies with
      miss := if o.missFails then .raised .redisError else .value false
      redis := if o.tileFails then .raised .redisError else .value none } }

/-- The tier is asked and answers before the deadline. -/
def Hears (q : ReadRequest) (cfg : ReaderConfig) (tier : ReaderTier) : Prop :=
  q.asked cfg tier = true ∧ q.late ≠ some tier

/-- The deadline strikes while this tier is asked. -/
def Cut (q : ReadRequest) (cfg : ReaderConfig) (tier : ReaderTier) : Prop :=
  q.asked cfg tier = true ∧ q.late = some tier

/-- The chain goes on past the provider: it is not asked, or has no tile. -/
def ProviderSilent (q : ReadRequest) (cfg : ReaderConfig) : Prop :=
  q.asked cfg .provider = true → q.late ≠ some .provider ∧
    (q.replies.provider = .missing ∨ q.replies.provider = .unavailable)

/-- No Redis command fails where the chain waits for it, and nothing unlisted comes from the
provider or from S3 there. -/
structure Spared (q : ReadRequest) (cfg : ReaderConfig) (o : RedisOutage) : Prop where
  miss : q.Hears cfg .miss → o.missFails = false
  provider : ¬ q.Cut cfg .miss → q.Hears cfg .provider → ∀ e, q.replies.provider ≠ .raised e
  redis : ¬ q.Cut cfg .miss → q.ProviderSilent cfg → q.Hears cfg .redis → o.tileFails = false
  s3 : ¬ q.Cut cfg .miss → q.ProviderSilent cfg → ¬ q.Cut cfg .redis → q.Hears cfg .s3 →
    ∀ e, q.replies.s3 ≠ .raised e

section Tiers

variable {cfg : ReaderConfig} {q : ReadRequest} {o : RedisOutage}

/-- A Redis tier of which nothing is known but whether its command fails. -/
theorem timed_redis_cases (cfg : ReaderConfig) (q : ReadRequest) (tier : ReaderTier) (fails : Bool)
    (t t' : TierEnd)
    (ht : t = q.timed cfg tier (if fails then .ends (.raised .redisError) else .goesOn))
    (ht' : t' = q.timed cfg tier .goesOn) :
    (t = .goesOn ∧ t' = .goesOn ∧ ¬ q.Cut cfg tier ∧ (q.Hears cfg tier → fails = false)) ∨
    (t = .ends .deadline ∧ t' = .ends .deadline ∧ q.Cut cfg tier ∧ ¬ q.Hears cfg tier) ∨
    (t = .ends (.raised .redisError) ∧ t' = .goesOn ∧ ¬ q.Cut cfg tier ∧ q.Hears cfg tier ∧
      fails = true) := by
  subst ht ht'
  unfold timed Hears Cut
  by_cases hasked : q.asked cfg tier = true
  · by_cases hlate : q.late = some tier
    · exact .inr (.inl (by simp [hasked, hlate]))
    · cases fails with
      | false => exact .inl (by simp [hasked, hlate])
      | true => exact .inr (.inr (by simp [hasked, hlate]))
  · exact .inl (by simp [hasked])

theorem missTier_under : (q.under o).missTier cfg =
    q.timed cfg .miss (if o.missFails then .ends (.raised .redisError) else .goesOn) := by
  unfold missTier under timed asked
  cases o.missFails <;> rfl

theorem redisTier_under : (q.under o).redisTier cfg =
    q.timed cfg .redis (if o.tileFails then .ends (.raised .redisError) else .goesOn) := by
  unfold redisTier under timed asked
  cases o.tileFails <;> rfl

theorem providerTier_cases (cfg : ReaderConfig) (q : ReadRequest) : let t := q.providerTier cfg
    (t = .goesOn ∧ q.ProviderSilent cfg ∧
      (q.Hears cfg .provider → ∀ e, q.replies.provider ≠ .raised e)) ∨
    (∃ data, t = .ends (.returned (some data)) ∧ ¬ q.ProviderSilent cfg ∧
      ∀ e, q.replies.provider ≠ .raised e) ∨
    (t = .ends .deadline ∧ ¬ q.ProviderSilent cfg ∧ ¬ q.Hears cfg .provider) ∨
    (∃ e, t = .ends (.raised e) ∧ q.Hears cfg .provider ∧ q.replies.provider = .raised e) := by
  unfold providerTier timed ProviderSilent Hears
  by_cases hasked : q.asked cfg .provider = true
  · by_cases hlate : q.late = some .provider
    · exact .inr (.inr (.inl (by simp [hasked, hlate])))
    · cases hp : q.replies.provider with
      | bytes data =>
        exact .inr (.inl ⟨data, by simp [hasked, hlate, downloadFromProvider, TierEnd.ofGet]⟩)
      | missing => exact .inl (by simp [hasked, hlate, downloadFromProvider, TierEnd.ofGet])
      | unavailable => exact .inl (by simp [hasked, hlate, downloadFromProvider, TierEnd.ofGet])
      | raised e =>
        exact .inr (.inr (.inr ⟨e, by simp [hasked, hlate, downloadFromProvider, TierEnd.ofGet]⟩))
  · exact .inl (by simp [hasked])

theorem s3Tier_cases (cfg : ReaderConfig) (q : ReadRequest) : let e := (q.s3Tier cfg).orElse (.returned none)
    ((∀ x, e.callEnd ≠ .raised x) ∧ (q.Hears cfg .s3 → ∀ x, q.replies.s3 ≠ .raised x)) ∨
    (∃ x, e = .raised x ∧ q.Hears cfg .s3 ∧ q.replies.s3 = .raised x) := by
  unfold s3Tier timed Hears
  by_cases hasked : q.asked cfg .s3 = true
  · by_cases hlate : q.late = some .s3
    · exact .inl (by simp [hasked, hlate, TierEnd.orElse, ChainEnd.callEnd])
    · cases hs : q.replies.s3 with
      | raised x =>
        exact .inr ⟨x, by simp [hasked, hlate, S3Answer.safeGet, TierEnd.ofGet, TierEnd.orElse]⟩
      | _ =>
        exact .inl (by simp [hasked, hlate, S3Answer.safeGet, TierEnd.ofGet, TierEnd.orElse,
          ChainEnd.callEnd])
  · exact .inl (by simp [hasked, TierEnd.orElse, ChainEnd.callEnd])

/-- The chain under an outage and without one, tier by tier. -/
theorem getTile_under : (q.under o).getTile cfg = ((q.under o).missTier cfg).orElse
    ((q.providerTier cfg).orElse (((q.under o).redisTier cfg).orElse
      ((q.s3Tier cfg).orElse (.returned none)))) := rfl

theorem getTile_spared (h : q.Spared cfg o) :
    (q.under o).getTile cfg = (q.under .nothingFails).getTile cfg ∧
      ∀ e, ((q.under o).getTile cfg).callEnd ≠ .raised e := by
  rw [getTile_under, getTile_under]
  rcases timed_redis_cases cfg q .miss o.missFails _ _ missTier_under
    (missTier_under (o := .nothingFails)) with ⟨hm, hm', hcut, -⟩ | ⟨hm, hm', -, -⟩ | ⟨-, -, -, hhears, hfails⟩
  · rw [hm, hm']
    rcases providerTier_cases cfg q with ⟨hp, hsilent, -⟩ | ⟨data, hp, -⟩ | ⟨hp, -⟩ |
      ⟨e, -, hhears, hraised⟩
    · rw [hp]
      rcases timed_redis_cases cfg q .redis o.tileFails _ _ redisTier_under
        (redisTier_under (o := .nothingFails)) with ⟨hr, hr', hcut', -⟩ | ⟨hr, hr', -, -⟩ |
          ⟨-, -, -, hhears, hfails⟩
      · rw [hr, hr']
        refine ⟨rfl, ?_⟩
        rcases s3Tier_cases cfg q with ⟨hs, -⟩ | ⟨x, -, hhears, hraised⟩
        · exact hs
        · exact absurd hraised (h.s3 hcut hsilent hcut' hhears x)
      · rw [hr, hr']
        exact ⟨rfl, by simp [TierEnd.orElse, ChainEnd.callEnd]⟩
      · simp [h.redis hcut hsilent hhears] at hfails
    · rw [hp]
      exact ⟨rfl, by simp [TierEnd.orElse, ChainEnd.callEnd]⟩
    · rw [hp]
      exact ⟨rfl, by simp [TierEnd.orElse, ChainEnd.callEnd]⟩
    · exact absurd hraised (h.provider hcut hhears e)
  · rw [hm, hm']
    exact ⟨rfl, by simp [TierEnd.orElse, ChainEnd.callEnd]⟩
  · simp [h.miss hhears] at hfails

theorem getTile_raises (h : ¬ q.Spared cfg o) :
    ∃ e, ((q.under o).getTile cfg).callEnd = .raised e := by
  by_contra hno
  simp only [not_exists] at hno
  rw [getTile_under] at hno
  refine h ?_
  rcases timed_redis_cases cfg q .miss o.missFails _ _ missTier_under
    (missTier_under (o := .nothingFails)) with ⟨hm, -, -, hmiss⟩ | ⟨-, -, hcut, hnot⟩ | ⟨hm, -⟩
  · rw [hm] at hno
    rcases providerTier_cases cfg q with ⟨hp, -, hprov⟩ | ⟨data, -, hnot, hprov⟩ |
      ⟨-, hnot, hdeaf⟩ | ⟨e, hp, -⟩
    · rw [hp] at hno
      rcases timed_redis_cases cfg q .redis o.tileFails _ _ redisTier_under
        (redisTier_under (o := .nothingFails)) with ⟨hr, -, -, htile⟩ | ⟨-, -, hcut, hnot⟩ | ⟨hr, -⟩
      · rw [hr] at hno
        rcases s3Tier_cases cfg q with ⟨-, hs⟩ | ⟨x, hs, -⟩
        · exact ⟨hmiss, fun _ => hprov, fun _ _ => htile, fun _ _ _ => hs⟩
        · exact absurd (congrArg ChainEnd.callEnd hs) (hno x)
      · exact ⟨hmiss, fun _ => hprov, fun _ _ hh => absurd hh hnot, fun _ _ hh => absurd hcut hh⟩
      · rw [hr] at hno
        exact absurd rfl (hno .redisError)
    · exact ⟨hmiss, fun _ _ => hprov, fun _ hs => absurd hs hnot, fun _ hs => absurd hs hnot⟩
    · exact ⟨hmiss, fun _ hh => absurd hh hdeaf, fun _ hs => absurd hs hnot,
        fun _ hs => absurd hs hnot⟩
    · rw [hp] at hno
      exact absurd rfl (hno e)
  · exact ⟨fun hh => absurd hh hnot, fun hh => absurd hcut hh, fun hh => absurd hcut hh,
      fun hh => absurd hcut hh⟩
  · rw [hm] at hno
    exact absurd rfl (hno .redisError)

end Tiers

end ReadRequest

namespace SingleFlight

variable {V E : Type} {s t : SingleFlight V E} {i : Nat}

/-- The same schedule of calls, with the chain of each leader ending like this. -/
def withEnds (ends : Nat → ChainEnd V E) : FlightAction V E → FlightAction V E
  | .chain l _ => .chain l (ends l)
  | a => a

def raises : Option (CallEnd V E) → Bool
  | some (.raised _) => true
  | _ => false

/-- No future holds an exception, and no call has ended with one. -/
structure Unraised (s : SingleFlight V E) : Prop where
  futures : ∀ l fl, s.flights l = some fl → raises fl.future = false
  calls : ∀ i c, s.calls i = some c → raises c.ended = false

theorem raises_settle {fl : Flight V E} {r : CallEnd V E} (hfl : raises fl.future = false)
    (hr : raises (some r) = false) : raises (settle fl r).future = false := by
  unfold settle
  cases hf : fl.future with
  | none => exact hr
  | some r' => simpa [hf] using hfl

theorem Unraised.setCall (h : s.Unraised) {c : TileCall V E} (hc : raises c.ended = false) :
    (s.setCall i c).Unraised := by
  refine ⟨h.futures, fun j c' hc' => ?_⟩
  rw [setCall_calls] at hc'
  split at hc'
  · cases hc'
    exact hc
  · exact h.calls j c' hc'

theorem Unraised.setFlight (h : s.Unraised) {fl : Flight V E} (hfl : raises fl.future = false) :
    (s.setFlight i fl).Unraised := by
  refine ⟨fun l fl' hfl' => ?_, h.calls⟩
  rw [setFlight_flights] at hfl'
  split at hfl'
  · cases hfl'
    exact hfl
  · exact h.futures l fl' hfl'

theorem Unraised.leave (h : s.Unraised) {c : TileCall V E} {fl : Flight V E} {r : CallEnd V E}
    (hfl : raises fl.future = false) (hr : raises (some r) = false) :
    (s.leave i c fl r).Unraised := by
  have hboth := (h.setFlight (i := i) (raises_settle hfl hr)).setCall (i := i)
    (c := { c with ended := some r }) hr
  exact ⟨hboth.futures, hboth.calls⟩

theorem unraised_step {a : FlightAction V E} (h : s.Unraised)
    (ha : ∀ l e, a = .chain l e → raises (some e.callEnd) = false) (hs : flightStep s a = some t) :
    t.Unraised := by
  have hfuture (l : Nat) : raises ((s.flights l).bind (·.future)) = false := by
    cases hfl : s.flights l with
    | none => rfl
    | some fl => exact h.futures l fl hfl
  cases a with
  | arrive i =>
    cases hc : s.calls i with
    | some c => simp [flightStep, hc] at hs
    | none =>
      cases hin : s.inflight with
      | none =>
        obtain rfl : s.lead i = t := by simpa [flightStep, hc, hin] using hs
        have hflight : (s.setFlight i ⟨none, none⟩).Unraised := h.setFlight rfl
        have hboth : ((s.setFlight i ⟨none, none⟩).setCall i ⟨i, none, false⟩).Unraised :=
          hflight.setCall rfl
        exact ⟨hboth.futures, hboth.calls⟩
      | some l =>
        obtain rfl : s.follow i l = t := by simpa [flightStep, hc, hin] using hs
        exact h.setCall (hfuture l)
  | chain i e =>
    simp only [flightStep] at hs
    split at hs
    · next l cancelled fl hc hfl =>
      split_ifs at hs with hl
      cases hs
      exact h.leave (h.futures i fl hfl) (ha i e rfl)
    · cases hs
  | unwind i =>
    simp only [flightStep] at hs
    split at hs
    · next l fl hc hfl =>
      split_ifs at hs with hl
      cases hs
      exact h.leave (h.futures i fl hfl) rfl
    · cases hs
  | cancel i =>
    simp only [flightStep] at hs
    split at hs
    · next l cancelled hc =>
      split_ifs at hs with hl
      · cases hs
        exact h.setCall rfl
      · obtain ⟨fl, hfl, rfl⟩ := Option.map_eq_some_iff.mp hs
        exact (h.setFlight (raises_settle (h.futures l fl hfl) rfl)).setCall rfl
    · cases hs
  | resume i =>
    simp only [flightStep] at hs
    split at hs
    · next l cancelled hc =>
      by_cases hl : l = i
      · rw [if_pos hl] at hs
        cases hs
      rw [if_neg hl] at hs
      obtain ⟨r, hr, rfl⟩ := Option.map_eq_some_iff.mp hs
      have hquiet := hfuture l
      rw [hr] at hquiet
      refine h.setCall ?_
      cases cancelled with
      | true => rfl
      | false => exact hquiet
    · cases hs

/-- Where no chain raises, no call does, however the calls meet. -/
theorem unraised_run {ends : Nat → ChainEnd V E} (hends : ∀ l, raises (some (ends l).callEnd) = false)
    {as : List (FlightAction V E)} (h : run flightStep empty (as.map (withEnds ends)) = some s) :
    s.Unraised := by
  refine run_invariant_along (P := Unraised) (G := fun _ a => (∀ l e, a = .chain l e →
    raises (some e.callEnd) = false) ∧ True) (fun u a t hu ha hs => unraised_step hu ha.1 hs) ?_ ?_ h
  · constructor <;> simp [empty]
  · refine (along_true _ _).restrict fun a ha => ?_
    obtain ⟨b, -, rfl⟩ := List.mem_map.mp ha
    intro l e he
    cases b <;> simp only [withEnds, FlightAction.chain.injEq, reduceCtorEq] at he
    obtain ⟨rfl, rfl⟩ := he
    exact hends _

theorem run_alone (ends : Nat → ChainEnd V E) (l : Nat) (e : ChainEnd V E) :
    ∃ s, run flightStep empty ([.arrive l, .chain l e].map (withEnds ends)) = some s ∧
      s.calls l = some ⟨l, some (ends l).callEnd, false⟩ := by
  refine ⟨(lead empty l).leave l ⟨l, none, false⟩ ⟨none, some (ends l)⟩ (ends l).callEnd, ?_, ?_⟩
  · simp [run, withEnds, flightStep, empty, lead, SingleFlight.setCall, SingleFlight.setFlight]
  · exact setCall_calls.trans (if_pos rfl)

end SingleFlight

open SingleFlight in
/-- In every schedule of calls, each call returns what it returns when Redis has neither
tombstone nor tile, and none raises. -/
def OutageIsAMiss (cfg : ReaderConfig) (requests : Nat → ReadRequest)
    (outages : Nat → RedisOutage) : Prop :=
  ∀ (as : List (FlightAction TileBytes ReaderExn)) s,
    run flightStep empty
      (as.map (withEnds fun l => ((requests l).under (outages l)).getTile cfg)) = some s →
    ∃ s', run flightStep empty
        (as.map (withEnds fun l => ((requests l).under .nothingFails).getTile cfg)) = some s' ∧
      ∀ i c r, s.calls i = some c → c.ended = some r → (∀ e, r ≠ .raised e) ∧
        ∃ c', s'.calls i = some c' ∧ c'.ended = some r

open SingleFlight in
/-- For every configuration, every answer of the provider and S3 to each request and every
failure of its Redis commands: the outage is no more than a cache miss iff no chain gets the
error of a Redis command before its deadline, and nothing unlisted from the other tiers. A request
whose deadline does not strike ends as its chain does. -/
theorem outage_is_a_miss_iff (cfg : ReaderConfig) (requests : Nat → ReadRequest)
    (outages : Nat → RedisOutage) :
    (OutageIsAMiss cfg requests outages ↔ ∀ l, (requests l).Spared cfg (outages l)) ∧
      ∀ a, (⟨a, none⟩ : ReadRequest).getTile cfg = chainEndOf (resolveTile cfg a).result := by
  refine ⟨?_, getTile_in_time cfg⟩
  constructor
  · intro h l
    by_contra hl
    obtain ⟨e, he⟩ := ReadRequest.getTile_raises hl
    obtain ⟨s, hs, hc⟩ := run_alone
      (fun l => ((requests l).under (outages l)).getTile cfg) l .deadline
    obtain ⟨s', -, hsame⟩ := h _ s hs
    exact (hsame l _ _ hc rfl).1 e he
  · intro h as s hs
    have hends : (fun l => ((requests l).under (outages l)).getTile cfg) =
        fun l => ((requests l).under .nothingFails).getTile cfg :=
      funext fun l => (ReadRequest.getTile_spared (h l)).1
    have hquiet := unraised_run (fun l => by
      have hl := (ReadRequest.getTile_spared (h l)).2
      cases he : (((requests l).under (outages l)).getTile cfg).callEnd with
      | raised e => exact absurd he (hl e)
      | returned v => rfl
      | cancelled => rfl) hs
    refine ⟨s, hends ▸ hs, fun i c r hc hr => ⟨?_, c, hc, hr⟩⟩
    rintro e rfl
    have hno := hquiet.calls i c hc
    simp [hr, raises] at hno

/-- The host is down, and the backup has the tile. -/
def backedUp : ReadRequest := ⟨{ providerDown with s3 := .bytes ⟨[1], by decide⟩ }, none⟩

open SingleFlight in
/-- While Redis is down the tile of the backup is not served: the call raises. -/
theorem redis_outage_reaches_caller : ¬ ∀ cfg requests outages,
    OutageIsAMiss cfg requests outages := by
  intro h
  obtain ⟨s, hs, hc⟩ := run_alone (fun _ => (backedUp.under ⟨true, true⟩).getTile fullReader) 0
    .deadline
  obtain ⟨s', -, hsame⟩ := h fullReader (fun _ => backedUp) (fun _ => ⟨true, true⟩) _ s hs
  exact (hsame 0 _ _ hc rfl).1 .redisError (by decide)

end DataService
