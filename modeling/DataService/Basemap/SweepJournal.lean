import DataService.Basemap.Recording
import DataService.Basemap.SweepWalk

/-! What the main sweep of a zoom did, by its journal: the indices it dispatched and folded,
the frontier after each fold, and the cursors it wrote. -/

namespace DataService

open Coroutine Coro

deriving instance DecidableEq for Frontier

/-- An exception came out of a write that reached the file. -/
def Reply.tears : Reply → Bool
  | .raised _ landed => landed
  | _ => false

/-- `inHand` is a collected index whose failed row is not written yet; with its row, or when
it needs none, the completion is folded. `fronts` are the frontiers in memory after each fold,
`cursors` the changes of the cursor row; one that was written by a call that raised leaves
the journal `torn`. -/
structure SweepJournal where
  dispatched : List Nat
  inHand : Option Nat
  folded : List Nat
  fronts : List Frontier
  cursors : List Cursor
  torn : Bool
  deriving DecidableEq

namespace SweepJournal

def new : SweepJournal := ⟨[], none, [], [], [], false⟩

def dispatch (j : SweepJournal) (before after : List TileTask) : SweepJournal :=
  if after = before then j else { j with dispatched := j.dispatched ++ after.map (·.idx) }

/-- A fold that has no frontier yet gets the one that is put into the memory. -/
def front (j : SweepJournal) (before after : Frontier) : SweepJournal :=
  if after = before ∨ j.folded.length ≤ j.fronts.length then j
  else { j with fronts := j.fronts ++ [after] }

def collect (j : SweepJournal) (d : DoneTile) : SweepJournal :=
  match d.result with
  | .ok .ok | .ok .storageSkipped => { j with folded := j.folded ++ [d.idx] }
  | .ok _ => { j with inHand := some d.idx }
  | .error _ => j

/-- The await after a collected completion was for its failed row. -/
def reply (j : SweepJournal) : Reply → SweepJournal
  | .ok => { j with folded := j.folded ++ j.inHand.toList, inHand := none }
  | .raised _ _ => { j with inHand := none }
  | .rows _ => j

def persist (j : SweepJournal) (r : Reply) (before after : Option Cursor) : SweepJournal :=
  if after = before then j
  else { j with cursors := j.cursors ++ after.toList, torn := j.torn || r.tears }

def note : Note World Reply SweepJournal := fun w r w' j =>
  match r with
  | none => (j.dispatch w.mem.tasks w'.mem.tasks).front w.mem.progress.frontier
      w'.mem.progress.frontier
  | some r =>
    (match w.mem.done with
      | d :: _ => if w'.mem.done.length < w.mem.done.length then j.collect d else j.reply r
      | [] => j.reply r).persist r w.rows.cursor w'.rows.cursor

variable {w w' : World} {j : SweepJournal} {r : Reply}

theorem note_quiet (htasks : w'.mem.tasks = w.mem.tasks)
    (hfront : w'.mem.progress.frontier = w.mem.progress.frontier) : note w none w' j = j := by
  simp [note, dispatch, front, htasks, hfront]

theorem note_tasks (done : List DoneTile) (tasks : List TileTask) :
    note w none (w.setTasks tasks done) j = j.dispatch w.mem.tasks tasks := by
  simp [note, front, World.setTasks]

/-- A frontier that moved is the one of the last fold. -/
theorem note_front {p : SweepProgress} (hp : p.frontier ≠ w.mem.progress.frontier)
    (hlag : j.fronts.length < j.folded.length) :
    note w none (w.setProgress p) j = { j with fronts := j.fronts ++ [p.frontier] } := by
  simp [note, dispatch, front, World.setProgress, hp, hlag]

theorem note_reply (hdone : w'.mem.done = w.mem.done) :
    note w (some r) w' j = (j.reply r).persist r w.rows.cursor w'.rows.cursor := by
  unfold note
  cases hd : w.mem.done with
  | nil => rfl
  | cons d done => simp [hdone, hd]

theorem reply_of_empty (h : j.inHand = none) : j.reply r = j := by
  obtain ⟨_, inHand, _, _, _, _⟩ := j
  obtain rfl : inHand = none := h
  cases r <;> simp [reply]

theorem note_idle (hdone : w'.mem.done = w.mem.done) (hcursor : w'.rows.cursor = w.rows.cursor)
    (h : j.inHand = none) : note w (some r) w' j = j := by
  rw [note_reply hdone, reply_of_empty h, persist, if_pos hcursor]

theorem note_collect {d : DoneTile} {done : List DoneTile} (hd : w.mem.done = d :: done) :
    note w (some r) (w.setTasks w.mem.tasks done) j = j.collect d := by
  simp [note, hd, World.setTasks, persist]

end SweepJournal

end DataService
