import Mathlib.Order.Bounds.Basic
import DataService.WeatherStations.CacheWorld

/-! What the log of a run says of two moments in it. -/

namespace DataService.WeatherCache

open HourBuckets

namespace Event

def isUpload : Event → Bool
  | uploaded _ _ => true
  | _ => false

def isUploadOf (object : S3Key) : Event → Bool
  | uploaded key _ => decide (key = object)
  | _ => false

def completes (key : CacheKey) : Event → Bool
  | wroteThrough key' _ => decide (key' = key)
  | _ => false

def answer? : Event → Option LatestAnswer
  | returned answer => some answer
  | _ => none

end Event

section Log

variable (log : List Event)

/-- The uploads that S3 had taken at a moment: they number the states of S3. -/
def uploadsBefore (moment : Nat) : Nat := (log.take moment).countP Event.isUpload

/-- Nothing of a kind has happened from one moment to another. -/
def Without (p : Event → Bool) (since till : Nat) : Prop :=
  ∀ e ∈ (log.take till).drop since, p e = false

instance (p : Event → Bool) (since till : Nat) : Decidable (Without log p since till) :=
  inferInstanceAs (Decidable (∀ _ ∈ _, _))

/-- Since the moment at which the bytes were read S3 has taken no upload after which a
write-through of the key was completed and, if this is the key of the latest snapshot, no
latest.json that was then read for a request that has its answer. -/
def Punctual (key : CacheKey) (moment : Nat) : Prop :=
  (∀ i < log.length, ∀ e ∈ log[i]?, e.completes key → Without log Event.isUpload moment i) ∧
  (key = .latest → ∀ e ∈ log, ∀ answer ∈ e.answer?,
    Without log (Event.isUploadOf latestObject) moment answer.read)

instance (key : CacheKey) (moment : Nat) : Decidable (Punctual log key moment) :=
  inferInstanceAs (Decidable (_ ∧ _))

end Log

section Log

variable {log log' : List Event} {p : Event → Bool} {since till : Nat}

theorem filter_take_of_without (h : Without log p since till) :
    (log.take till).filter p <+: (log.take since).filter p := by
  rcases Nat.le_total till since with hle | hle
  · exact (List.take_prefix_take_left hle).filter p
  · have hsplit : log.take till = log.take since ++ (log.take till).drop since := by
      have htake : (log.take till).take since = log.take since := by
        rw [List.take_take, min_eq_left hle]
      rw [← htake, List.take_append_drop]
    have hnone : ((log.take till).drop since).filter p = [] :=
      List.filter_eq_nil_iff.mpr fun e he => by simp [h e he]
    rw [hsplit, List.filter_append, hnone, List.append_nil]

theorem Without.mono {till' : Nat} (h : Without log p since till) (hle : till' ≤ till) :
    Without log p since till' := by
  intro e he
  refine h e ?_
  have hinitial : (log.take till').drop since <+: (log.take till).drop since :=
    (List.take_prefix_take_left hle).drop since
  exact hinitial.subset he

theorem uploadsBefore_le_of_without (h : Without log Event.isUpload since till) :
    uploadsBefore log till ≤ uploadsBefore log since := by
  rw [uploadsBefore, uploadsBefore, List.countP_eq_length_filter, List.countP_eq_length_filter]
  exact (filter_take_of_without h).length_le

theorem take_later (hlog : log <+: log') {moment : Nat} (hle : moment ≤ log.length) :
    log'.take moment = log.take moment := by
  obtain ⟨more, rfl⟩ := hlog
  exact List.take_append_of_le_length hle

theorem uploadsBefore_later (hlog : log <+: log') {moment : Nat} (hle : moment ≤ log.length) :
    uploadsBefore log' moment = uploadsBefore log moment := by
  rw [uploadsBefore, uploadsBefore, take_later hlog hle]

theorem uploadsBefore_mono (hlog : log <+: log') (moment : Nat) :
    uploadsBefore log moment ≤ uploadsBefore log' moment :=
  (hlog.take moment).sublist.countP_le

theorem uploadsBefore_le (moment : Nat) : uploadsBefore log moment ≤ log.countP Event.isUpload :=
  (List.take_sublist moment log).countP_le

/-- The stamp is the one of latest.json at a moment. -/
structure Dated (log : List Event) (moment stamp : Nat) : Prop where
  past : moment ≤ log.length
  newest : IsGreatest {t | Event.uploaded latestObject t ∈ log.take moment} stamp

theorem Dated.later {moment stamp : Nat} (h : Dated log moment stamp) (hlog : log <+: log') :
    Dated log' moment stamp := by
  refine ⟨h.past.trans hlog.length_le, ?_⟩
  rw [take_later hlog h.past]
  exact h.newest

theorem dated_now {stamp : Nat} (h : IsGreatest {t | Event.uploaded latestObject t ∈ log} stamp) :
    Dated log log.length stamp := by
  refine ⟨le_rfl, ?_⟩
  rw [List.take_length]
  exact h

theorem Dated.note {e : Event} {stamp : Nat} (h : Dated log log.length stamp)
    (he : ∀ t, .uploaded latestObject t ∈ log ++ [e] → .uploaded latestObject t ∈ log) :
    Dated (log ++ [e]) (log ++ [e]).length stamp := by
  have hnewest := h.newest
  rw [List.take_length] at hnewest
  exact dated_now ⟨List.mem_append_left _ hnewest.1, fun t ht => hnewest.2 (he t ht)⟩

/-- If latest.json was not written in between, what was read later is no newer. -/
theorem Dated.le {stamp stamp' : Nat} (h : Dated log since stamp) (h' : Dated log till stamp')
    (hnone : Without log (Event.isUploadOf latestObject) since till) : stamp' ≤ stamp := by
  have hmem : Event.uploaded latestObject stamp' ∈
      (log.take till).filter (Event.isUploadOf latestObject) :=
    List.mem_filter.mpr ⟨h'.newest.1, by simp [Event.isUploadOf]⟩
  exact h.newest.2 (List.mem_filter.mp ((filter_take_of_without hnone).subset hmem)).1

/-- A value in Redis, in the order of the writes. -/
structure Slot.InOrder {α : Type} (slot : Slot α) (key : CacheKey) (log : List Event) : Prop where
  past : slot.written ≤ log.length
  writes : ∀ moment, .wroteThrough key moment ∈ log.take slot.written →
    moment ≤ slot.written ∧ uploadsBefore log moment ≤ uploadsBefore log slot.origin.moment

theorem Slot.InOrder.later {α : Type} {slot : Slot α} {key : CacheKey} (h : slot.InOrder key log)
    (hlog : log <+: log') : slot.InOrder key log' := by
  refine ⟨h.past.trans hlog.length_le, fun moment hmoment => ?_⟩
  rw [take_later hlog h.past] at hmoment
  obtain ⟨hle, huploads⟩ := h.writes moment hmoment
  refine ⟨hle, ?_⟩
  rw [uploadsBefore_later hlog (hle.trans h.past)]
  exact huploads.trans (uploadsBefore_mono hlog _)

/-- A write-through is of a state that S3 has had. -/
def Completed (log : List Event) : Prop :=
  ∀ (i : Nat) (key : CacheKey) (moment : Nat),
    log[i]? = some (Event.wroteThrough key moment) → moment ≤ i

/-- What is written now, if it is punctual. -/
theorem inOrder_of_punctual {α : Type} {v : Sourced α} {key : CacheKey} (hlog : Completed log)
    (h : ∀ i < log.length, ∀ e ∈ log[i]?, e.completes key →
      Without log Event.isUpload v.origin.moment i) :
    (⟨v, log.length⟩ : Slot α).InOrder key log := by
  refine ⟨le_rfl, fun moment hmoment => ?_⟩
  obtain ⟨i, hi⟩ := List.mem_iff_getElem?.mp (List.mem_of_mem_take hmoment)
  have hlt : i < log.length := (List.getElem?_eq_some_iff.mp hi).1
  have hle : moment ≤ i := hlog i key moment hi
  have hnone := h i hlt _ hi (by simp [Event.completes])
  exact ⟨hle.trans hlt.le, uploadsBefore_le_of_without (hnone.mono hle)⟩

/-- What was made of the state that S3 is in. -/
structure Origin.Current (origin : Origin) (log : List Event) : Prop where
  past : origin.moment ≤ log.length
  uploads : log.countP Event.isUpload ≤ uploadsBefore log origin.moment

theorem Origin.Current.later {origin : Origin} (h : origin.Current log) (hlog : log <+: log')
    (hnone : log'.countP Event.isUpload = log.countP Event.isUpload) : origin.Current log' :=
  ⟨h.past.trans hlog.length_le, (hnone.le.trans h.uploads).trans (uploadsBefore_mono hlog _)⟩

theorem current_now (failed : Bool) : Origin.Current ⟨log.length, failed⟩ log := by
  refine ⟨le_rfl, ?_⟩
  rw [uploadsBefore, List.take_length]

theorem inOrder_of_current {α : Type} {v : Sourced α} (key : CacheKey) (hlog : Completed log)
    (h : v.origin.Current log) : (⟨v, log.length⟩ : Slot α).InOrder key log := by
  refine ⟨le_rfl, fun moment hmoment => ?_⟩
  obtain ⟨i, hi⟩ := List.mem_iff_getElem?.mp (List.mem_of_mem_take hmoment)
  have hlt : i < log.length := (List.getElem?_eq_some_iff.mp hi).1
  exact ⟨(hlog i key moment hi).trans hlt.le, (uploadsBefore_le moment).trans h.uploads⟩

theorem completed_note (h : Completed log) {e : Event}
    (he : ∀ key moment, e = .wroteThrough key moment → moment ≤ log.length) :
    Completed (log ++ [e]) := by
  intro i key moment hi
  rcases Nat.lt_or_ge i log.length with hlt | hge
  · rw [List.getElem?_append_left hlt] at hi
    exact h i key moment hi
  · rw [List.getElem?_append_right hge, List.getElem?_singleton] at hi
    split at hi
    · exact (he key moment (Option.some.inj hi)).trans hge
    · cases hi

end Log

end DataService.WeatherCache
