import DataService.Basemap.World
import Mathlib.Data.List.TakeWhile

/-! The past of a provider as its log tells it: the events of the current cycle,
those of the current sweep (all cycles since one began with no cursor), and what
the log says about a tile. -/

namespace DataService

def Event.isCycleStart : Event → Bool
  | .cycleStart _ _ => true
  | _ => false

def Event.isSweepStart : Event → Bool
  | .cycleStart none _ => true
  | _ => false

/-- The two writes that declare a sweep complete. -/
def Event.isVerdict : Event → Bool
  | .stamped | .closed => true
  | _ => false

/-- Events of the cycle that is running or ran last. -/
def cycleEvents (log : List Event) : List Event := log.takeWhile (!·.isCycleStart)

/-- Events since the last cycle that began with no cursor. -/
def sweepEvents (log : List Event) : List Event := log.takeWhile (!·.isSweepStart)

def outcomeOf (t : Tile) : Event → Option TileOutcome
  | .outcome s o => if s = t then some o else none
  | _ => none

def lastOutcome (events : List Event) (t : Tile) : Option TileOutcome :=
  events.findSome? (outcomeOf t)

/-- The last answer for the tile was a storage failure. -/
def storageFailed (events : List Event) (t : Tile) : Bool :=
  (lastOutcome events t).any (·.isStorageFailure)

/-- The tile was attempted after it last entered the failed table. -/
def retriedSince : List Event → Tile → Bool
  | [], _ => false
  | .attempt s :: log, t => s = t || retriedSince log t
  | .queued s :: log, t => s ≠ t && retriedSince log t
  | _ :: log, t => retriedSince log t

/-- The tile was answered in this cycle. -/
def Answered (log : List Event) (t : Tile) : Prop := ∃ o, .outcome t o ∈ cycleEvents log

def Event.isUnknownSkip : Event → Bool
  | .passedOver _ known => !known
  | _ => false

/-- Every skipped tile that was counted as done was accounted for otherwise. -/
def SkipsKnown (log : List Event) : Prop := ∀ e ∈ log, e.isUnknownSkip = false

theorem cycleEvents_append {es log : List Event} (h : ∀ e ∈ es, e.isCycleStart = false) :
    cycleEvents (es ++ log) = es ++ cycleEvents log := by
  exact List.takeWhile_append_of_pos fun e he => by simp [h e he]

theorem sweepEvents_append {es log : List Event} (h : ∀ e ∈ es, e.isSweepStart = false) :
    sweepEvents (es ++ log) = es ++ sweepEvents log := by
  exact List.takeWhile_append_of_pos fun e he => by simp [h e he]

theorem isSweepStart_of_not_isCycleStart {e : Event} (h : e.isCycleStart = false) :
    e.isSweepStart = false := by
  cases e <;> simp_all [Event.isCycleStart, Event.isSweepStart]

@[simp] theorem cycleEvents_start (c : Option Cursor) (q : List Tile) (log : List Event) :
    cycleEvents (.cycleStart c q :: log) = [] := by
  simp [cycleEvents, Event.isCycleStart]

@[simp] theorem sweepEvents_fresh (q : List Tile) (log : List Event) :
    sweepEvents (.cycleStart none q :: log) = [] := by
  simp [sweepEvents, Event.isSweepStart]

@[simp] theorem sweepEvents_resumed (c : Cursor) (q : List Tile) (log : List Event) :
    sweepEvents (.cycleStart (some c) q :: log) = .cycleStart (some c) q :: sweepEvents log := by
  simp [sweepEvents, Event.isSweepStart]

theorem not_isCycleStart_of_mem {log : List Event} {e : Event} (h : e ∈ cycleEvents log) :
    e.isCycleStart = false := by
  simpa using List.mem_takeWhile_imp h

theorem cycleEvents_subset_sweepEvents {log : List Event} {e : Event} (h : e ∈ cycleEvents log) :
    e ∈ sweepEvents log := by
  induction log with
  | nil => simp [cycleEvents] at h
  | cons d log ih =>
    cases hd : d.isCycleStart with
    | true => simp [cycleEvents, hd] at h
    | false =>
      have hs := isSweepStart_of_not_isCycleStart hd
      simp only [cycleEvents, List.takeWhile_cons, hd, Bool.not_false, ↓reduceIte,
        List.mem_cons] at h
      simp only [sweepEvents, List.takeWhile_cons, hs, Bool.not_false, ↓reduceIte, List.mem_cons]
      exact h.imp_right ih

theorem lastOutcome_append (es fs : List Event) (t : Tile) :
    lastOutcome (es ++ fs) t = (lastOutcome es t).or (lastOutcome fs t) :=
  List.findSome?_append

theorem mem_of_lastOutcome {es : List Event} {t : Tile} {o : TileOutcome}
    (h : lastOutcome es t = some o) : .outcome t o ∈ es := by
  obtain ⟨e, he, ho⟩ := List.exists_of_findSome?_eq_some h
  cases e <;> simp only [outcomeOf, reduceCtorEq] at ho
  split_ifs at ho with hs
  cases ho
  exact hs ▸ he

theorem lastOutcome_isSome_of_mem {es : List Event} {t : Tile} {o : TileOutcome}
    (h : .outcome t o ∈ es) : (lastOutcome es t).isSome := by
  rw [lastOutcome, List.findSome?_isSome_iff]
  exact ⟨_, h, by simp [outcomeOf]⟩

@[simp] theorem retriedSince_attempt (s t : Tile) (log : List Event) :
    retriedSince (.attempt s :: log) t = true ↔ s = t ∨ retriedSince log t = true := by
  simp [retriedSince]

@[simp] theorem retriedSince_queued (s t : Tile) (log : List Event) :
    retriedSince (.queued s :: log) t = true ↔ s ≠ t ∧ retriedSince log t = true := by
  simp [retriedSince]

theorem attempt_or_retriedSince {es log : List Event} {t : Tile}
    (h : retriedSince (es ++ log) t = true) : .attempt t ∈ es ∨ retriedSince log t = true := by
  induction es with
  | nil => exact .inr h
  | cons e es ih =>
    have hh : e = .attempt t ∨ retriedSince (es ++ log) t = true := by
      cases e with
      | attempt s => exact ((retriedSince_attempt s t _).mp h).imp_left (congrArg _)
      | queued s => exact .inr ((retriedSince_queued s t _).mp h).2
      | _ => exact .inr h
    rcases hh with rfl | hh
    · exact .inl List.mem_cons_self
    · exact (ih hh).imp_left (List.mem_cons_of_mem e)

end DataService
