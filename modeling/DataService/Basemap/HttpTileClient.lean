import DataService.Lib.Doubles
import DataService.Lib.FloatText
import DataService.Lib.Retry
import Mathlib.Algebra.Ring.Nat
import Mathlib.Tactic.SplitIfs

/-! `HttpTileClient.download_tile` of a client that is connected: attempts under tenacity,
which retries the listed exceptions until a stop condition holds, and what they are turned
into. The semaphores and the pauses between attempts only take time. The budget is computed
before the first attempt, and is a float. -/

namespace DataService

open Doubles FloatText

/-- How one GET ends. The timeouts of httpx are among its errors. -/
inductive HttpAnswer where
  | response (statusCode : Nat) (contentType : Option String) (content : List UInt8)
  | httpError (detail : String)
  | timeoutError (detail : String)
  deriving DecidableEq, Repr

/-- The exceptions of an attempt, all of them on the list that is retried. -/
inductive AttemptError where
  | retryableHttpStatus (detail : String)
  | httpError (detail : String)
  | timeoutError (detail : String)
  deriving DecidableEq, Repr

/-- `str(exc)` -/
def AttemptError.text : AttemptError → String
  | retryableHttpStatus detail | httpError detail | timeoutError detail => detail

structure ProviderUnavailableError where
  url : String
  cause : String
  deriving DecidableEq, Repr

/-- What a download raises; the second is not caught. -/
inductive DownloadError where
  | providerUnavailable (e : ProviderUnavailableError)
  | overflowError
  deriving DecidableEq, Repr

structure HttpTileClient where
  timeoutSeconds : Nat
  maxRetries : Nat
  maxRetries_pos : 1 ≤ maxRetries

/-- `value.startswith(start)` -/
def startsWith (start value : String) : Bool := start.toList.isPrefixOf value.toList

/-- `_fetch_once` -/
def fetchOnce (url : String) : HttpAnswer → Except AttemptError (Option (List UInt8))
  | .response statusCode contentType content =>
    if statusCode = 200 then
      if content = [] ∨ startsWith "text/" (contentType.getD "") = true then .ok none
      else .ok (some content)
    else if statusCode = 404 ∨ statusCode = 403 then .ok none
    else if statusCode = 429 ∨ 500 ≤ statusCode then
      .error (.retryableHttpStatus s!"HTTP {statusCode} for {url}")
    else .ok none
  | .httpError detail => .error (.httpError detail)
  | .timeoutError detail => .error (.timeoutError detail)

namespace HttpTileClient

variable (c : HttpTileClient)

/-- The summands of the budget that are integers. -/
def retrySeconds : Nat :=
  c.timeoutSeconds * c.maxRetries + ((List.range (c.maxRetries - 1)).map (2 ^ ·)).sum

/-- `_overall_budget_seconds`; none where it raises: the sum of the integers is turned into a
float when 1.0 is added. -/
def overallBudgetSeconds : Option ℚ :=
  if overflowBound ≤ c.retrySeconds then none
  else some (toDouble (toDouble c.retrySeconds + 1))

/-- `stop_after_attempt | stop_after_delay`, asked after a failed attempt. -/
def stops (secondsSinceStart : Nat → ℚ) (attempt : Nat) : Bool :=
  decide (c.maxRetries ≤ attempt) ||
    c.overallBudgetSeconds.any fun budget => decide (budget ≤ secondsSinceStart attempt)

/-- The attempt at which the series ends. -/
def lastAttempt (url : String) (answers : Nat → HttpAnswer) (secondsSinceStart : Nat → ℚ) : Nat :=
  Retry.last (fun n => (fetchOnce url (answers n)).isOk || c.stops secondsSinceStart n)
    (c.maxRetries - 1) 1

/-- The number of attempts that are made. -/
def attempts (url : String) (answers : Nat → HttpAnswer) (secondsSinceStart : Nat → ℚ) : Nat :=
  if c.overallBudgetSeconds.isSome then c.lastAttempt url answers secondsSinceStart else 0

/-- `download_tile`, given how each attempt would end and how much time has passed by then:
the last exception is raised again and turned into one of the provider. -/
def downloadTile (url : String) (answers : Nat → HttpAnswer) (secondsSinceStart : Nat → ℚ) :
    Except DownloadError (Option (List UInt8)) :=
  match c.overallBudgetSeconds with
  | none => .error .overflowError
  | some _ =>
    match fetchOnce url (answers (c.lastAttempt url answers secondsSinceStart)) with
    | .ok data => .ok data
    | .error e => .error (.providerUnavailable ⟨url, e.text⟩)

end HttpTileClient

/-- 429, 5xx, a network error or a timeout. -/
def HttpAnswer.Retryable : HttpAnswer → Prop
  | response statusCode _ _ => statusCode = 429 ∨ 500 ≤ statusCode
  | httpError _ | timeoutError _ => True

/-- The media type is a text type; the case of its letters does not matter. -/
def isTextType (contentType : Option String) : Bool :=
  "text/".toList.isPrefixOf ((contentType.getD "").toList.map Char.toLower)

/-- A 200 with a body that is not of a text type. -/
def HttpAnswer.IsTile (a : HttpAnswer) (data : List UInt8) : Prop :=
  ∃ contentType, a = response 200 contentType data ∧ data ≠ [] ∧ isTextType contentType = false

/-- A 200 with a body of a text type whose name is not in lower case. -/
def HttpAnswer.IsShoutedText (a : HttpAnswer) : Prop :=
  ∃ contentType data, a = response 200 contentType data ∧ data ≠ [] ∧
    isTextType contentType = true ∧ startsWith "text/" (contentType.getD "") = false

section

variable {c : HttpTileClient} {url : String} {answers : Nat → HttpAnswer}
  {secondsSinceStart : Nat → ℚ} {a : HttpAnswer} {data : List UInt8}

/-- The first attempt that is not retryable, when the budget lasts that long. -/
structure HttpTileClient.Decisive (c : HttpTileClient) (answers : Nat → HttpAnswer)
    (secondsSinceStart : Nat → ℚ) (k : Nat) : Prop where
  pos : 1 ≤ k
  before : ∀ j, 1 ≤ j → j < k → (answers j).Retryable ∧ c.stops secondsSinceStart j = false
  decides : ¬ (answers k).Retryable

/-- What is promised of a download. -/
structure HttpTileClient.Classified (c : HttpTileClient) (url : String)
    (answers : Nat → HttpAnswer) (secondsSinceStart : Nat → ℚ) : Prop where
  attempts_le : c.attempts url answers secondsSinceStart ≤ c.maxRetries
  tile : ∀ data, c.downloadTile url answers secondsSinceStart = .ok (some data) ↔
    ∃ k, c.Decisive answers secondsSinceStart k ∧ (answers k).IsTile data
  missing : c.downloadTile url answers secondsSinceStart = .ok none ↔
    ∃ k, c.Decisive answers secondsSinceStart k ∧ ∀ data, ¬ (answers k).IsTile data
  unavailable :
    (∃ e, c.downloadTile url answers secondsSinceStart = .error (.providerUnavailable e)) ↔
      ¬ ∃ k, c.Decisive answers secondsSinceStart k

theorem fetchOnce_isOk : (fetchOnce url a).isOk = true ↔ ¬ a.Retryable := by
  cases a with
  | response statusCode contentType content =>
    simp only [fetchOnce, HttpAnswer.Retryable]
    split_ifs with hok htext hgone hretry
    · simp only [Except.isOk, Except.toBool, true_iff]
      omega
    · simp only [Except.isOk, Except.toBool, true_iff]
      omega
    · simp only [Except.isOk, Except.toBool, true_iff]
      omega
    · simp [Except.isOk, Except.toBool, hretry]
    · simp [Except.isOk, Except.toBool, hretry]
  | httpError detail => simp [fetchOnce, HttpAnswer.Retryable, Except.isOk, Except.toBool]
  | timeoutError detail => simp [fetchOnce, HttpAnswer.Retryable, Except.isOk, Except.toBool]

theorem fetchOnce_some : fetchOnce url a = .ok (some data) ↔ ∃ contentType,
    a = .response 200 contentType data ∧ data ≠ [] ∧
      startsWith "text/" (contentType.getD "") = false := by
  cases a with
  | response statusCode contentType content =>
    simp only [fetchOnce]
    split_ifs with hok htext hgone hretry
    · refine iff_of_false (by simp) ?_
      rintro ⟨ct, he, hne, hct⟩
      cases he
      rcases htext with hnil | htext
      · exact hne hnil
      · simp [hct] at htext
    · simp only [not_or, Bool.not_eq_true] at htext
      constructor
      · intro h
        cases h
        exact ⟨contentType, by rw [hok], htext⟩
      · rintro ⟨ct, he, -, -⟩
        cases he
        rfl
    all_goals
      refine iff_of_false (by simp) ?_
      rintro ⟨ct, he, -, -⟩
      cases he
      exact hok rfl
  | httpError detail => simp [fetchOnce]
  | timeoutError detail => simp [fetchOnce]

/-- What the code takes for a text type is one. -/
theorem isTextType_of_startsWith {contentType : Option String}
    (h : startsWith "text/" (contentType.getD "") = true) : isTextType contentType = true := by
  obtain ⟨rest, hrest⟩ := List.isPrefixOf_iff_prefix.mp h
  refine List.isPrefixOf_iff_prefix.mpr ⟨rest.map Char.toLower, ?_⟩
  have hlower : "text/".toList.map Char.toLower = "text/".toList := by decide
  rw [← hrest, List.map_append, hlower]

/-- The code returns the body of a tile, and that of a text type it does not recognise. -/
theorem fetchOnce_some_iff_isTile (h : ¬ a.IsShoutedText) :
    fetchOnce url a = .ok (some data) ↔ a.IsTile data := by
  rw [fetchOnce_some]
  constructor
  · rintro ⟨ct, he, hne, hct⟩
    refine ⟨ct, he, hne, ?_⟩
    by_contra htext
    exact h ⟨ct, data, he, hne, by simpa using htext, hct⟩
  · rintro ⟨ct, he, hne, htext⟩
    refine ⟨ct, he, hne, ?_⟩
    by_contra hct
    have htrue := isTextType_of_startsWith (by simpa using hct)
    simp [htext] at htrue

namespace HttpTileClient

theorem lastAttempt_le_maxRetries : c.lastAttempt url answers secondsSinceStart ≤ c.maxRetries := by
  have hle : c.lastAttempt url answers secondsSinceStart ≤ 1 + (c.maxRetries - 1) := Retry.last_le
  have hpos := c.maxRetries_pos
  omega

theorem attempts_le_maxRetries : c.attempts url answers secondsSinceStart ≤ c.maxRetries := by
  rw [attempts]
  split
  · exact lastAttempt_le_maxRetries
  · omega

/-- The attempts before the last failed with the budget unspent. -/
theorem before_last {j : Nat} (hj : 1 ≤ j) (hlt : j < c.lastAttempt url answers secondsSinceStart) :
    (answers j).Retryable ∧ c.stops secondsSinceStart j = false := by
  have hends := Retry.not_ends_of_lt_last hj hlt
  simp only [Bool.or_eq_false_iff] at hends
  refine ⟨?_, hends.2⟩
  by_contra hretry
  simp [fetchOnce_isOk.mpr hretry] at hends

theorem last_ends :
    (fetchOnce url (answers (c.lastAttempt url answers secondsSinceStart))).isOk = true ∨
      c.stops secondsSinceStart (c.lastAttempt url answers secondsSinceStart) = true := by
  rcases @Retry.ends_last
    (fun n => (fetchOnce url (answers n)).isOk || c.stops secondsSinceStart n)
    (c.maxRetries - 1) 1 with hends | hmax
  · exact (Bool.or_eq_true _ _).mp hends
  · have hpos := c.maxRetries_pos
    have hfull : c.maxRetries ≤ c.lastAttempt url answers secondsSinceStart := by
      rw [lastAttempt, hmax]
      omega
    exact .inr (by simp [stops, hfull])

variable (url) in
/-- The last attempt is the decisive one, if it is not retryable. -/
theorem decisive_iff {k : Nat} : c.Decisive answers secondsSinceStart k ↔
    k = c.lastAttempt url answers secondsSinceStart ∧ ¬ (answers k).Retryable := by
  constructor
  · intro h
    refine ⟨?_, h.decides⟩
    rcases Nat.lt_trichotomy k (c.lastAttempt url answers secondsSinceStart) with hlt | heq | hgt
    · exact absurd (before_last h.pos hlt).1 h.decides
    · exact heq
    · have hpos : 1 ≤ c.lastAttempt url answers secondsSinceStart := Retry.le_last
      obtain ⟨hretry, hstops⟩ := h.before _ hpos hgt
      rcases last_ends with hok | hstop
      · exact absurd hretry (fetchOnce_isOk.mp hok)
      · simp [hstops] at hstop
  · rintro ⟨rfl, hdecides⟩
    exact ⟨Retry.le_last, fun j hj hlt => before_last hj hlt, hdecides⟩

variable (url) in
theorem exists_decisive_iff {P : Nat → Prop} :
    (∃ k, c.Decisive answers secondsSinceStart k ∧ P k) ↔
      (fetchOnce url (answers (c.lastAttempt url answers secondsSinceStart))).isOk = true ∧
        P (c.lastAttempt url answers secondsSinceStart) := by
  rw [fetchOnce_isOk]
  constructor
  · rintro ⟨k, hk, hp⟩
    obtain ⟨rfl, hdecides⟩ := (decisive_iff url).mp hk
    exact ⟨hdecides, hp⟩
  · rintro ⟨hdecides, hp⟩
    exact ⟨_, (decisive_iff url).mpr ⟨rfl, hdecides⟩, hp⟩

theorem overallBudgetSeconds_isSome :
    c.overallBudgetSeconds.isSome = true ↔ c.retrySeconds < overflowBound := by
  rw [overallBudgetSeconds]
  split
  · rename_i h
    exact iff_of_false (by simp) (by omega)
  · rename_i h
    exact iff_of_true rfl (by omega)

end HttpTileClient

theorem isOk_of_eq_ok {ε α : Type} {x : Except ε α} {v : α} (h : x = .ok v) : x.isOk = true := by
  rw [h]
  rfl

/-- With a budget, what a download returns is what its last attempt returned. -/
theorem downloadTile_iff (hbudget : c.overallBudgetSeconds.isSome = true) :
    (∀ data, c.downloadTile url answers secondsSinceStart = .ok (some data) ↔
      fetchOnce url (answers (c.lastAttempt url answers secondsSinceStart)) = .ok (some data)) ∧
    (c.downloadTile url answers secondsSinceStart = .ok none ↔
      fetchOnce url (answers (c.lastAttempt url answers secondsSinceStart)) = .ok none) ∧
    ((∃ e, c.downloadTile url answers secondsSinceStart = .error (.providerUnavailable e)) ↔
      (fetchOnce url (answers (c.lastAttempt url answers secondsSinceStart))).isOk = false) := by
  obtain ⟨budget, hsome⟩ := Option.isSome_iff_exists.mp hbudget
  rw [HttpTileClient.downloadTile, hsome]
  cases fetchOnce url (answers (c.lastAttempt url answers secondsSinceStart)) with
  | ok data => simp [Except.isOk, Except.toBool]
  | error e => simp [Except.isOk, Except.toBool]

/-- Without one, no answer is classified: the error is none of the provider. -/
theorem not_classified_of_overflow (hbudget : c.overallBudgetSeconds = none) :
    ¬ c.Classified url answers secondsSinceStart := by
  intro h
  have hraises : c.downloadTile url answers secondsSinceStart = .error .overflowError := by
    rw [HttpTileClient.downloadTile, hbudget]
  have hdecisive : ∃ k, c.Decisive answers secondsSinceStart k := by
    by_contra hnone
    obtain ⟨e, he⟩ := h.unavailable.mpr hnone
    rw [hraises] at he
    cases he
  obtain ⟨k, hk⟩ := hdecisive
  by_cases htile : ∃ data, (answers k).IsTile data
  · obtain ⟨data, hdata⟩ := htile
    have hreturned := (h.tile data).mpr ⟨k, hk, hdata⟩
    rw [hraises] at hreturned
    cases hreturned
  · have hreturned := h.missing.mpr ⟨k, hk, not_exists.mp htile⟩
    rw [hraises] at hreturned
    cases hreturned

/-- With a budget, a download keeps its promises iff its decisive answer is no text whose
type is spelled with capitals. -/
theorem classified_iff_of_budget (hbudget : c.overallBudgetSeconds.isSome = true) :
    c.Classified url answers secondsSinceStart ↔
      ∀ k, c.Decisive answers secondsSinceStart k → ¬ (answers k).IsShoutedText := by
  obtain ⟨hsome, hnone, herror⟩ :=
    @downloadTile_iff c url answers secondsSinceStart hbudget
  constructor
  · rintro h k hk ⟨contentType, data, he, hne, htext, hstart⟩
    obtain ⟨rfl, -⟩ := (HttpTileClient.decisive_iff url).mp hk
    have hreturned := (hsome data).mpr (fetchOnce_some.mpr ⟨contentType, he, hne, hstart⟩)
    obtain ⟨k', hk', contentType', he', -, htext'⟩ := (h.tile data).mp hreturned
    obtain ⟨rfl, -⟩ := (HttpTileClient.decisive_iff url).mp hk'
    cases he.symm.trans he'
    simp [htext] at htext'
  · intro h
    have hquiet :
        (fetchOnce url (answers (c.lastAttempt url answers secondsSinceStart))).isOk = true →
        ¬ (answers (c.lastAttempt url answers secondsSinceStart)).IsShoutedText :=
      fun hok => h _ ((HttpTileClient.decisive_iff url).mpr ⟨rfl, fetchOnce_isOk.mp hok⟩)
    refine ⟨HttpTileClient.attempts_le_maxRetries, fun data => ?_, ?_, ?_⟩
    · rw [hsome, HttpTileClient.exists_decisive_iff url]
      constructor
      · intro hf
        have hok := isOk_of_eq_ok hf
        exact ⟨hok, (fetchOnce_some_iff_isTile (hquiet hok)).mp hf⟩
      · rintro ⟨hok, htile⟩
        exact (fetchOnce_some_iff_isTile (hquiet hok)).mpr htile
    · rw [hnone, HttpTileClient.exists_decisive_iff url]
      constructor
      · intro hf
        have hok := isOk_of_eq_ok hf
        refine ⟨hok, fun data htile => ?_⟩
        have hbytes := hf.symm.trans ((fetchOnce_some_iff_isTile (hquiet hok)).mpr htile)
        cases hbytes
      · rintro ⟨hok, hno⟩
        cases hf : fetchOnce url (answers (c.lastAttempt url answers secondsSinceStart)) with
        | error e => simp [hf, Except.isOk, Except.toBool] at hok
        | ok data =>
          cases data with
          | none => rfl
          | some data =>
            exact absurd ((fetchOnce_some_iff_isTile (hquiet hok)).mp hf) (hno data)
    · have hdecided := @HttpTileClient.exists_decisive_iff c url answers secondsSinceStart
        fun _ => True
      simp only [and_true] at hdecided
      rw [herror, hdecided, Bool.not_eq_true]

end

/-- For every client, sequence of attempts and passing of time: a download keeps its
promises iff its budget is a float and its decisive answer is no text whose type is spelled
with capitals. -/
theorem download_classified_iff (c : HttpTileClient) (url : String) (answers : Nat → HttpAnswer)
    (secondsSinceStart : Nat → ℚ) : c.Classified url answers secondsSinceStart ↔
      c.retrySeconds < overflowBound ∧
        ∀ k, c.Decisive answers secondsSinceStart k → ¬ (answers k).IsShoutedText := by
  rw [← HttpTileClient.overallBudgetSeconds_isSome]
  cases hbudget : c.overallBudgetSeconds with
  | none => exact iff_of_false (not_classified_of_overflow hbudget) (by simp)
  | some budget =>
    have hsome : c.overallBudgetSeconds.isSome = true := by
      rw [hbudget]
      rfl
    rw [classified_iff_of_budget hsome]
    simp

/-- One attempt, which is answered with an error page. -/
def errorPage : Nat → HttpAnswer := fun _ => .response 200 (some "Text/HTML") [60]

/-- An error page is returned as a tile when its type is spelled with capitals. -/
theorem error_page_taken_for_tile : ¬ ∀ (c : HttpTileClient) (url : String)
    (answers : Nat → HttpAnswer) (secondsSinceStart : Nat → ℚ),
    c.Classified url answers secondsSinceStart := by
  intro h
  obtain ⟨k, -, contentType, he, -, htext⟩ :=
    ((h ⟨10, 1, Nat.le_refl 1⟩ "" errorPage fun _ => 0).tile [60]).mp (by decide +kernel)
  cases he
  exact absurd htext (by decide)

end DataService
