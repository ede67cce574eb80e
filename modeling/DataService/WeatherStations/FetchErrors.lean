import DataService.Lib.Culprit
import DataService.Lib.JsonValue
import DataService.WeatherStations.SmnApiClient

/-! What a call of the SMN client raises. Each of its requests expects some exceptions of httpx,
and the bodies of its answers are decoded outside every `try`. -/

namespace DataService.SmnApiClient

open Coroutine Coro JsonValue

/-- The exceptions of httpx by class. A timeout is a transport error too. -/
inductive HttpxError where
  | timeoutException
  | transportError
  | decodingError
  | tooManyRedirects
  | httpStatusError
  | invalidUrl
  | cookieConflict
  | streamError
  deriving DecidableEq, Repr

/-- What a request can raise. The header of a token that is not ASCII cannot be encoded. -/
inductive RequestError where
  | httpx (e : HttpxError) (text : String)
  | unicodeEncodeError (text : String)
  deriving DecidableEq, Repr

/-- `str(exc)` of `httpx.TimeoutException` or `httpx.TransportError` -/
def RequestError.expected : RequestError → Option String
  | httpx .timeoutException text | httpx .transportError text => some text
  | _ => none

/-- How a request ends. The text of a body replaces what cannot be decoded; its JSON does not. -/
inductive Answer where
  | response (statusCode : Nat) (text : String) (json : Except LoadError Json)
  | raised (e : RequestError)

inductive Raised where
  | smnApiError (message : String)
  | unauthorized (body : String)
  | request (e : RequestError)
  | notLoaded (e : LoadError)
  deriving DecidableEq, Repr

inductive Reply where
  | acquired
  | woken
  | answered (answer : Answer)

abbrev Code (α : Type) := Coro (Client String) Reply Raised α

def acquire : Code Unit :=
  .await (fun s r => match r with | .acquired => some ((), s) | _ => none) .ret

/-- `asyncio.sleep` -/
def sleep : Code Unit :=
  .await (fun s r => match r with | .woken => some ((), s) | _ => none) .ret

def awaitAnswer : Code Answer :=
  .await (fun s r => match r with | .answered answer => some (answer, s) | _ => none) .ret

def send (event : ℚ → Event String) : Code Answer := do
  act fun s => ((), { s with log := event s.now :: s.log })
  awaitAnswer

/-- `text[:n]` -/
def firstChars (n : Nat) (text : String) : String := String.ofList (text.toList.take n)

/-- `type(payload).__name__` -/
def typeName : Json → String
  | .null => "NoneType"
  | .bool _ => "bool"
  | .int _ => "int"
  | .float _ => "float"
  | .str _ => "str"
  | .arr _ => "list"
  | .obj _ => "dict"

/-- The token of a payload, if it is a text that is not empty. -/
def tokenOf : Json → Option String
  | .obj fields =>
    match get fields "token" with
    | .str token => if token = "" then none else some token
    | _ => none
  | _ => none

variable (cfg : Settings)

/-- The loop of `_get_stations` with so many attempts left. -/
def attemptStations (token : String) : Nat → Option String → Code (List Json)
  | 0, lastExc =>
    let last := lastExc.getD "None"
    raise (.smnApiError s!"SMN /weather/station failed after {cfg.maxRetries} attempts: {last}")
  | left + 1, _ => do
    match ← send (.get token) with
    | .raised e =>
      match e.expected with
      | some text => do
        sleep
        attemptStations token left (some text)
      | none => raise (.request e)
    | .response statusCode text json =>
      if statusCode = 401 then raise (.unauthorized (firstChars 500 text))
      else if 500 ≤ statusCode ∧ statusCode < 600 then do
        sleep
        attemptStations token left (some s!"SMN /weather/station upstream {statusCode}")
      else if statusCode ≠ 200 then
        let shown := firstChars 200 text
        raise (.smnApiError s!"SMN /weather/station unexpected status {statusCode}: {shown}")
      else
        match json with
        | .error e => raise (.notLoaded e)
        | .ok (.arr stations) => pure stations
        | .ok payload =>
          let name := typeName payload
          raise (.smnApiError s!"SMN /weather/station returned non-list payload: {name}")

/-- `_get_stations` -/
def getStationsList (token : String) : Code (List Json) :=
  attemptStations cfg token cfg.maxRetries none

def mintedToken : Answer → Code String
  | .raised e =>
    match e.expected with
    | some text => raise (.smnApiError s!"SMN /api-token/auth network error: {text}")
    | none => raise (.request e)
  | .response statusCode text json =>
    if statusCode ≠ 200 then
      let shown := firstChars 200 text
      raise (.smnApiError s!"SMN /api-token/auth returned {statusCode}: {shown}")
    else
      match json with
      | .error e => raise (.notLoaded e)
      | .ok payload =>
        match tokenOf payload with
        | some token => pure token
        | none =>
          let name := typeName payload
          raise (.smnApiError s!"SMN /api-token/auth response missing 'token' field: {name}")

/-- `_refresh_token`. The lock is free again however it ends. -/
def refreshToken (invalidate : Option String) : Code String := do
  acquire
  let cached ← act fun s => ((fresh cfg s).filter fun token => invalidate ≠ some token, s)
  match cached with
  | some token => pure token
  | none => do
    let token ← (send fun _ => .post invalidate) >>= mintedToken
    act fun s => ((), s.publish token)
    if 0 < cfg.settlingDelay then do
      sleep
      pure token
    else pure token

/-- `_get_token` -/
def getToken : Code String := do
  match ← act fun s => (fresh cfg s, s) with
  | some token => pure token
  | none => refreshToken cfg none

variable (repr : String → String)

def rejectedAgain (body : String) : Raised :=
  let shown := repr body
  .smnApiError (s!"SMN /weather/station rejected the freshly-minted token " ++
    s!"(401 after refresh). Upstream body: {shown}. " ++
    s!"Check SMN_API_USERNAME / SMN_API_PASSWORD and the account's API access.")

/-- `fetch_current_weather_stations`, with the `repr` of a text. -/
def fetchCurrentWeatherStations : Code (List Json) := do
  let token ← getToken cfg
  (getStationsList cfg token).tryCatch fun
    | .unauthorized _ => do
      let renewed ← refreshToken cfg (some token)
      (getStationsList cfg renewed).tryCatch fun
        | .unauthorized body => raise (rejectedAgain repr body)
        | e => raise e
    | e => raise e

/-- The fetch in `_run_sync`: a cycle without observations is skipped. -/
def observationsOrSkip : Code (Option (List Json)) :=
  (do
    let rawObservations ← fetchCurrentWeatherStations cfg repr
    pure (some rawObservations)).tryCatch fun
      | .smnApiError _ => pure none
      | e => raise e

/-- A 200 whose body is no JSON, or an exception that no request expects. -/
def Unexpected : Reply → Prop
  | .answered (.response statusCode _ json) => statusCode = 200 ∧ ∃ e, json = .error e
  | .answered (.raised e) => e.expected = none
  | _ => False

def Raised.IsSmn : Raised → Prop
  | smnApiError _ => True
  | _ => False

def Raised.IsUnauthorized : Raised → Prop
  | unauthorized _ => True
  | _ => False

section Blame

variable {Foul : Raised → Prop} {cfg repr}

/-- An exception that comes from outside is foul, and an error of the client is not. -/
structure Outer (Foul : Raised → Prop) : Prop where
  smn : ∀ message, ¬ Foul (.smnApiError message)
  request : ∀ e, Foul (.request e)
  notLoaded : ∀ e, Foul (.notLoaded e)

theorem blames_acquire : acquire.Blames Unexpected Foul := by
  intro s r b t hf
  cases r with
  | acquired => exact ⟨False.elim, fun _ => trivial⟩
  | woken => cases hf
  | answered answer => cases hf

theorem blames_sleep : sleep.Blames Unexpected Foul := by
  intro s r b t hf
  cases r with
  | acquired => cases hf
  | woken => exact ⟨False.elim, fun _ => trivial⟩
  | answered answer => cases hf

theorem blames_send {α : Type} {event : ℚ → Event String} {k : Answer → Code α}
    (hbad : ∀ answer, Unexpected (.answered answer) → ∃ e, k answer = raise e ∧ Foul e)
    (hgood : ∀ answer, ¬ Unexpected (.answered answer) → (k answer).Blames Unexpected Foul) :
    (send event >>= k).Blames Unexpected Foul := by
  intro _ s r b t hf
  cases r with
  | acquired => cases hf
  | woken => cases hf
  | answered answer =>
    obtain ⟨rfl, rfl⟩ := Prod.mk.inj (Option.some.inj hf)
    exact ⟨hbad answer, hgood answer⟩

theorem blames_attemptStations (h : Outer Foul) (hunauthorized : ∀ body, ¬ Foul (.unauthorized body))
    (token : String) (left : Nat) (lastExc : Option String) :
    (attemptStations cfg token left lastExc).Blames Unexpected Foul := by
  induction left generalizing lastExc with
  | zero => exact h.smn _
  | succ left ih =>
    refine blames_send ?_ ?_
    · rintro (⟨statusCode, text, json⟩ | e) hbad
      · obtain ⟨rfl, e, rfl⟩ := hbad
        exact ⟨.notLoaded e, rfl, h.notLoaded e⟩
      · have hnone : e.expected = none := hbad
        exact ⟨.request e, by simp only [hnone], h.request e⟩
    · rintro (⟨statusCode, text, json⟩ | e) hgood
      · simp only
        split_ifs with hrejected hupstream hother
        · exact hunauthorized _
        · exact blames_bind blames_sleep fun _ => ih _
        · exact h.smn _
        · cases json with
          | error e => exact absurd ⟨not_not.mp hother, e, rfl⟩ hgood
          | ok payload => cases payload <;> first | exact h.smn _ | trivial
      · cases hexpected : e.expected with
        | none => exact absurd hexpected hgood
        | some text =>
          simp only [hexpected]
          exact blames_bind blames_sleep fun _ => ih _

theorem blames_mintedToken (h : Outer Foul) {answer : Answer}
    (hgood : ¬ Unexpected (.answered answer)) : (mintedToken answer).Blames Unexpected Foul := by
  obtain ⟨statusCode, text, json⟩ | e := answer
  · simp only [mintedToken]
    split_ifs with hother
    · exact h.smn _
    · cases json with
      | error e => exact absurd ⟨not_not.mp hother, e, rfl⟩ hgood
      | ok payload =>
        cases htoken : tokenOf payload with
        | some token => simp [htoken]
        | none => simpa [htoken] using h.smn _
  · cases hexpected : e.expected with
    | none => exact absurd hexpected hgood
    | some text =>
      simp only [mintedToken, hexpected]
      exact h.smn _

theorem mintedToken_raises (h : Outer Foul) {answer : Answer}
    (hbad : Unexpected (.answered answer)) : ∃ e, mintedToken answer = raise e ∧ Foul e := by
  obtain ⟨statusCode, text, json⟩ | e := answer
  · obtain ⟨rfl, e, rfl⟩ := hbad
    exact ⟨.notLoaded e, rfl, h.notLoaded e⟩
  · have hnone : e.expected = none := hbad
    exact ⟨.request e, by simp only [mintedToken, hnone], h.request e⟩

theorem blames_refreshToken (h : Outer Foul) (invalidate : Option String) :
    (refreshToken cfg invalidate).Blames Unexpected Foul := by
  refine blames_bind blames_acquire fun _ => blames_bind (blames_act _) fun cached => ?_
  cases cached with
  | some token => trivial
  | none =>
    have hminted : ((send fun _ => .post invalidate) >>= mintedToken).Blames Unexpected Foul :=
      blames_send (fun _ => mintedToken_raises h) fun _ => blames_mintedToken h
    refine blames_bind hminted fun token => blames_bind (blames_act _) fun _ => ?_
    split
    · exact blames_bind blames_sleep fun _ => trivial
    · trivial

theorem outer_foreign : Outer fun e => ¬ e.IsSmn :=
  ⟨fun _ h => h trivial, fun _ h => h, fun _ h => h⟩

theorem blames_getToken : (getToken cfg).Blames Unexpected fun e => ¬ e.IsSmn := by
  refine blames_bind (blames_act _) fun cached => ?_
  cases cached with
  | some token => trivial
  | none => exact blames_refreshToken outer_foreign none

/-- A round of requests may also end with a 401, which its handler takes. -/
theorem blames_stations (token : String) {handler : Raised → Code (List Json)}
    (hother : ∀ e, ¬ e.IsUnauthorized → handler e = raise e)
    (hrejected : ∀ body, (handler (.unauthorized body)).Blames Unexpected fun e => ¬ e.IsSmn) :
    ((getStationsList cfg token).tryCatch handler).Blames Unexpected fun e => ¬ e.IsSmn := by
  have houter : Outer fun e => ¬ e.IsSmn ∧ ¬ e.IsUnauthorized :=
    ⟨fun _ h => h.1 trivial, fun _ => ⟨id, id⟩, fun _ => ⟨id, id⟩⟩
  refine blames_tryCatch
    (blames_attemptStations houter (fun _ h => h.2 trivial) token cfg.maxRetries none) ?_ ?_
  · rintro e ⟨hsmn, hunauthorized⟩
    exact ⟨e, hother e hunauthorized, hsmn⟩
  · intro e hexpected
    by_cases hunauthorized : e.IsUnauthorized
    · cases e with
      | unauthorized body => exact hrejected body
      | smnApiError message => exact hunauthorized.elim
      | request e => exact hunauthorized.elim
      | notLoaded e => exact hunauthorized.elim
    · rw [hother e hunauthorized]
      exact fun hsmn => hexpected ⟨hsmn, hunauthorized⟩

theorem blames_fetch :
    (fetchCurrentWeatherStations cfg repr).Blames Unexpected fun e => ¬ e.IsSmn := by
  have hpass : ∀ {first : String → Code (List Json)} (e : Raised), ¬ e.IsUnauthorized →
      (match e with | .unauthorized body => first body | e => raise e) = raise e := by
    intro first e he
    cases e <;> first | rfl | exact absurd trivial he
  refine blames_bind blames_getToken fun token => blames_stations token hpass fun _ => ?_
  refine blames_bind (blames_refreshToken outer_foreign _) fun renewed => ?_
  exact blames_stations renewed hpass fun _ => not_not.mpr trivial

theorem blames_observationsOrSkip :
    (observationsOrSkip cfg repr).Blames Unexpected fun _ => True := by
  refine blames_tryCatch (blames_bind blames_fetch fun _ => trivial) ?_ ?_
  · intro e hforeign
    cases e with
    | smnApiError message => exact absurd trivial hforeign
    | unauthorized body => exact ⟨_, rfl, trivial⟩
    | request e => exact ⟨_, rfl, trivial⟩
    | notLoaded e => exact ⟨_, rfl, trivial⟩
  · intro e hsmn
    cases e with
    | smnApiError message => trivial
    | unauthorized body => exact absurd id hsmn
    | request e => exact absurd id hsmn
    | notLoaded e => exact absurd id hsmn

end Blame

section Answers

variable {cfg repr}

theorem takes_acquire : acquire.Takes 1 := ⟨Nat.one_pos, fun _ => trivial⟩

theorem takes_sleep : sleep.Takes 1 := ⟨Nat.one_pos, fun _ => trivial⟩

theorem takes_send (event : ℚ → Event String) : (send event).Takes 1 :=
  fun _ => ⟨Nat.one_pos, fun _ => trivial⟩

theorem takes_attemptStations (token : String) (left : Nat) (lastExc : Option String) :
    (attemptStations cfg token left lastExc).Takes (2 * left) := by
  induction left generalizing lastExc with
  | zero => trivial
  | succ left ih =>
    have hagain : ∀ lastExc, (do sleep; attemptStations cfg token left lastExc).Takes
        (1 + 2 * left) := fun lastExc => takes_bind takes_sleep fun _ => ih lastExc
    rw [show 2 * (left + 1) = 1 + (1 + 2 * left) by omega]
    refine takes_bind (takes_send _) ?_
    rintro (⟨statusCode, text, json⟩ | e)
    · simp only
      split_ifs
      · trivial
      · exact hagain _
      · trivial
      · cases json with
        | error e => trivial
        | ok payload => cases payload <;> trivial
    · cases hexpected : e.expected with
      | none =>
        simp only [hexpected]
        trivial
      | some text =>
        simp only [hexpected]
        exact hagain _

theorem takes_mintedToken (answer : Answer) : (mintedToken answer).Takes 0 := by
  obtain ⟨statusCode, text, json⟩ | e := answer
  · simp only [mintedToken]
    split_ifs
    · trivial
    · cases json with
      | error e => trivial
      | ok payload => cases htoken : tokenOf payload <;> simp [htoken]
  · cases hexpected : e.expected <;> simp [mintedToken, hexpected]

theorem takes_refreshToken (invalidate : Option String) :
    (refreshToken cfg invalidate).Takes 3 := by
  refine takes_bind (m := 1) (n := 2) takes_acquire fun _ => ?_
  refine takes_bind (m := 0) (n := 2) (takes_act _) fun cached => ?_
  cases cached with
  | some token => trivial
  | none =>
    refine takes_bind (m := 1) (n := 1) (takes_bind (m := 1) (n := 0) (takes_send _) takes_mintedToken) ?_
    refine fun token => takes_bind (m := 0) (n := 1) (takes_act _) fun _ => ?_
    split
    · exact takes_bind (m := 1) (n := 0) takes_sleep fun _ => trivial
    · trivial

/-- The lock, the POST and the pause of each refresh, and the GETs with their pauses. -/
def answersAtMost (cfg : Settings) : Nat := 2 * (3 + 2 * cfg.maxRetries)

theorem takes_fetch : (fetchCurrentWeatherStations cfg repr).Takes (answersAtMost cfg) := by
  have hround : ∀ token, (getStationsList cfg token).Takes (2 * cfg.maxRetries) := fun token =>
    takes_attemptStations token cfg.maxRetries none
  have htoken : (getToken cfg).Takes 3 := by
    refine takes_bind (m := 0) (n := 3) (takes_act _) fun cached => ?_
    cases cached with
    | some token => trivial
    | none => exact takes_refreshToken none
  have hagain : ∀ (token : String) (e : Raised), (match e with
      | .unauthorized _ => do
        let renewed ← refreshToken cfg (some token)
        (getStationsList cfg renewed).tryCatch fun
          | .unauthorized body => raise (rejectedAgain repr body)
          | e => raise e
      | e => raise e : Code (List Json)).Takes (3 + (2 * cfg.maxRetries + 0)) := by
    intro token e
    cases e with
    | unauthorized body =>
      refine takes_bind (takes_refreshToken _) fun renewed => takes_tryCatch (hround renewed) ?_
      intro e
      cases e <;> trivial
    | smnApiError message => trivial
    | request e => trivial
    | notLoaded e => trivial
  have hwhole := takes_bind htoken fun token => takes_tryCatch (hround token) (hagain token)
  refine takes_mono ?_ hwhole
  rw [answersAtMost]
  omega

theorem takes_observationsOrSkip : (observationsOrSkip cfg repr).Takes (answersAtMost cfg) := by
  refine takes_tryCatch (n := 0) (takes_bind (n := 0) takes_fetch fun _ => trivial) fun e => ?_
  cases e <;> trivial

end Answers

variable {cfg repr} {μ : Type} {other : Client String → μ → Option (Client String)}

/-- A fetch takes a bounded number of answers and raises nothing but `SmnApiError` exactly if all
of them are expected. What raises nothing else is skipped by the cycle, and what does, ends it. -/
theorem fetch_errors_iff (s : Client String) (turns : List (Turn Reply μ)) :
    (∀ p, Process.run other (fetchCurrentWeatherStations cfg repr) s turns = some p →
      turns.countP Turn.isAnswer ≤ answersAtMost cfg ∧
      ((∀ e, p.code.exception = some e → e.IsSmn) ↔ ∀ r, .answer r ∈ turns → ¬ Unexpected r)) ∧
    (∀ p, Process.run other (observationsOrSkip cfg repr) s turns = some p →
      turns.countP Turn.isAnswer ≤ answersAtMost cfg ∧
      (p.code.exception = none ↔ ∀ r, .answer r ∈ turns → ¬ Unexpected r)) := by
  constructor
  · intro p hrun
    refine ⟨Process.answers_le takes_fetch hrun, ?_⟩
    have hfoul := Process.foul_iff blames_fetch hrun
    simpa using not_congr hfoul
  · intro p hrun
    refine ⟨Process.answers_le takes_observationsOrSkip hrun, ?_⟩
    have hfoul := Process.foul_iff blames_observationsOrSkip hrun
    rw [Option.eq_none_iff_forall_ne_some]
    simpa using not_congr hfoul

/-- A page of HTML as the answer to the POST. -/
def maintenance : Answer := .response 200 "<html>" (.error .jsonDecodeError)

def maintained : List (Turn Reply Unit) := [.answer .acquired, .answer (.answered maintenance)]

/-- It is decoded outside the `try`, and neither the client nor the scraper expects what that
raises. -/
theorem maintenance_escapes :
    (∃ p, Process.run (fun t _ => some t) (fetchCurrentWeatherStations hourly id) (.boot 0)
      maintained = some p ∧ ∃ e, p.code.exception = some e ∧ ¬ e.IsSmn) ∧
    ∃ p, Process.run (fun t _ => some t) (observationsOrSkip hourly id) (.boot 0) maintained =
      some p ∧ p.code.exception ≠ none := by
  have hfetch : (Process.run (fun t _ => some t) (fetchCurrentWeatherStations hourly id) (.boot 0)
      maintained).bind (·.code.exception) = some (.notLoaded .jsonDecodeError) := by
    decide +kernel
  have hcycle : (Process.run (fun t _ => some t) (observationsOrSkip hourly id) (.boot 0)
      maintained).bind (·.code.exception) = some (.notLoaded .jsonDecodeError) := by
    decide +kernel
  obtain ⟨p, hp, he⟩ := Option.bind_eq_some_iff.mp hfetch
  obtain ⟨q, hq, he'⟩ := Option.bind_eq_some_iff.mp hcycle
  exact ⟨⟨p, hp, _, he, id⟩, q, hq, by simp [he']⟩

end DataService.SmnApiClient
