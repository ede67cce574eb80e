import DataService.Basemap.Recording

/-! What one call of `_scrape_provider` did, by its journal, and the sweep in terms of it:
the two counts that the sweep hands over count the outcomes it collected, and it leaves the
health row and the statistics alone. -/

namespace DataService

open Coroutine Coro

/-- The outcomes the call collected, whether it got past its gates, when it declared a trip,
whether it gave up on the storage, and whether it declared the sweep complete. -/
structure CycleJournal where
  outcomes : List TileOutcome
  swept : Bool
  trippedAt : Option Nat
  abandoned : Bool
  stamped : Bool
  deriving DecidableEq

namespace CycleJournal

def new : CycleJournal := ⟨[], false, none, false, false⟩

/-- The journal of a sweep that goes on. -/
def sweeping (outcomes : List TileOutcome) : CycleJournal := ⟨outcomes, true, none, false, false⟩

/-- The coroutine itself records an event. -/
def hear (j : CycleJournal) (now : Nat) : Event → CycleJournal
  | .cycleStart _ _ => { j with swept := true }
  | .tripped => { j with trippedAt := some now }
  | .abandoned => { j with abandoned := true }
  | .stamped => { j with stamped := true }
  | _ => j

def collect (j : CycleJournal) (d : DoneTile) : CycleJournal :=
  match d.result with
  | .ok o => { j with outcomes := j.outcomes ++ [o] }
  | .error _ => j

/-- An answer that takes a finished task away was awaited for its outcome. -/
def note : Note World Reply CycleJournal := fun w r w' j =>
  match r, w.mem.done with
  | some _, d :: _ => if w'.mem.done.length < w.mem.done.length then j.collect d else j
  | some _, [] => j
  | none, _ => if w.log.length < w'.log.length then w'.log.head?.elim j (j.hear w'.shared.wall) else j

variable {w w' : World} {j : CycleJournal}

theorem note_atom (h : w'.log = w.log) : note w none w' j = j := by
  simp [note, h]

theorem note_event {e : Event} (h : w'.log = e :: w.log) :
    note w none w' j = j.hear w'.shared.wall e := by
  simp [note, h]

theorem note_answer {r : Reply} (h : w'.mem.done = w.mem.done) : note w (some r) w' j = j := by
  unfold note
  cases hd : w.mem.done with
  | nil => rfl
  | cons d done => simp [h, hd]

theorem note_collect {r : Reply} {d : DoneTile} {done : List DoneTile}
    (hd : w.mem.done = d :: done) :
    note w (some r) (w.setTasks w.mem.tasks done) j = j.collect d := by
  simp [note, hd, World.setTasks]

end CycleJournal

open CycleJournal

/-- The counts of a sweep that has collected these outcomes. -/
def Tally (downloaded failed : Nat) (l : List TileOutcome) : Prop :=
  downloaded = l.count .ok ∧ failed = l.countP (· ≠ .ok)

theorem Tally.collect {d f : Nat} {l : List TileOutcome} (h : Tally d f l) (o : TileOutcome) :
    Tally (d + if o = .ok then 1 else 0) (f + if o = .ok then 0 else 1) (l ++ [o]) := by
  obtain ⟨rfl, rfl⟩ := h
  by_cases ho : o = .ok <;> simp [Tally, ho, List.countP_append, List.count_append]

/-- A sweep after these outcomes: the health row and the statistics are as they were, and
the storage errors are counted. `X` is about the counts of the zoom. -/
structure Kept (health : Option ProviderHealth) (stats : Option ScrapeStats)
    (X : Nat → Nat → Prop) (l : List TileOutcome) (w : World) : Prop where
  health : w.rows.health = health
  stats : w.rows.stats = stats
  errors : w.mem.sweep.storageErrors = l.countP TileOutcome.isStorageFailure
  abandoned : w.mem.sweep.storageAbandoned = true → 0 < w.mem.sweep.storageErrors
  counts : X w.mem.progress.ok w.mem.progress.failed

/-- Where an exception may leave the sweep, and the process die. -/
def Underway (health : Option ProviderHealth) (stats : Option ScrapeStats) (w : World)
    (j : CycleJournal) : Prop :=
  ∃ l m, j = sweeping m ∧ Kept health stats (fun _ _ => True) l w

abbrev Sweeps {α : Type} (health : Option ProviderHealth) (stats : Option ScrapeStats)
    (Q : α → World → List TileOutcome → Prop) (c : Code α) (w : World) (l : List TileOutcome) :
    Prop :=
  Records note (Underway health stats) (Underway health stats)
    (fun a u j => ∃ k, j = sweeping k ∧ Q a u k) c w (sweeping l)

section Sweeps

variable {cfg : ScrapeConfig} {health : Option ProviderHealth} {stats : Option ScrapeStats}
  {X : Nat → Nat → Prop} {l m : List TileOutcome} {w : World} {α β : Type}

theorem stable_kept : Stable (Kept health stats X l) := by
  intro w w' hn h
  obtain ⟨hrows, hsweep, hprogress⟩ := hn.frame
  exact ⟨by rw [hrows]; exact h.health, by rw [hrows]; exact h.stats, by rw [hsweep]; exact h.errors,
    by rw [hsweep]; exact h.abandoned, by rw [hprogress]; exact h.counts⟩

theorem Kept.mono {Y : Nat → Nat → Prop} (h : Kept health stats X l w)
    (hY : Y w.mem.progress.ok w.mem.progress.failed) : Kept health stats Y l w :=
  ⟨h.health, h.stats, h.errors, h.abandoned, hY⟩

theorem Kept.of_eq {w' : World} (h : Kept health stats X l w)
    (hhealth : w'.rows.health = w.rows.health) (hstats : w'.rows.stats = w.rows.stats)
    (hsweep : w'.mem.sweep = w.mem.sweep) (hprogress : w'.mem.progress = w.mem.progress) :
    Kept health stats X l w' :=
  ⟨hhealth.trans h.health, hstats.trans h.stats, by rw [hsweep]; exact h.errors,
    by rw [hsweep]; exact h.abandoned, by rw [hprogress]; exact h.counts⟩

theorem sweeps_bind {Q : α → World → List TileOutcome → Prop}
    {Q' : β → World → List TileOutcome → Prop} {c : Code α} {k : α → Code β}
    (h : Sweeps health stats Q c w l)
    (hk : ∀ a u m, Q a u m → Sweeps health stats Q' (k a) u m) :
    Sweeps health stats Q' (c >>= k) w l := by
  refine records_bind h ?_
  rintro a u j ⟨m, rfl, hm⟩
  exact hk a u m hm

theorem sweeps_pure {Q : α → World → List TileOutcome → Prop} {a : α} (h : Q a w l) :
    Sweeps health stats Q (pure a) w l := ⟨l, rfl, h⟩

theorem sweeps_look {Q : β → World → List TileOutcome → Prop} {f : World → α} {k : α → Code β}
    (h : Sweeps health stats Q (k (f w)) w l) : Sweeps health stats Q (look f >>= k) w l :=
  records_look (note_atom rfl) h

theorem sweeps_modify {Q : β → World → List TileOutcome → Prop} {f : World → World}
    {k : Unit → Code β} (hlog : (f w).log = w.log) (h : Sweeps health stats Q (k ()) (f w) l) :
    Sweeps health stats Q (modify f >>= k) w l :=
  records_modify (note_atom hlog) h

/-- What a piece of the sweep that collects nothing leaves: `l` are the outcomes counted,
`m` those collected. -/
abbrev Unmoved (health : Option ProviderHealth) (stats : Option ScrapeStats)
    (X : Nat → Nat → Prop) (l m : List TileOutcome) (_ : α) (w : World) (k : List TileOutcome) :
    Prop :=
  k = m ∧ Kept health stats X l w

theorem Kept.underway (h : Kept health stats X l w) (m : List TileOutcome) :
    Underway health stats w (sweeping m) :=
  ⟨l, m, rfl, h.mono trivial⟩

/-- No write to the rows is entered into the journal. -/
theorem records_write {I E : World → CycleJournal → Prop} {Q : Unit → World → CycleJournal → Prop}
    {P : World → Prop} {F : World → World} {j : CycleJournal} (hmem : ∀ u, (F u).mem = u.mem)
    (hs : Stable P) (hp : P w) (hI : ∀ u, P u → I u j) (hE : ∀ u, P u → E u j ∧ E (F u) j)
    (hQ : ∀ u, P u → Q () (F u) j) : Records note I E Q (commit F) w j := by
  have hnote : ∀ u r, note u (some r) (F u) j = j := fun u r => note_answer (by rw [hmem])
  refine records_commit hs hp hI ?_ ?_
  · intro u e hu
    rw [hnote, note_answer rfl]
    exact hE u hu
  · intro u hu
    rw [hnote]
    exact hQ u hu

/-- A write to a row that is neither the health row nor the statistics. -/
theorem sweeps_commit {f : World → World} (h : Kept health stats X l w)
    (hmem : ∀ u, (f u).mem = u.mem) (hhealth : ∀ u, (f u).rows.health = u.rows.health)
    (hstats : ∀ u, (f u).rows.stats = u.rows.stats) :
    Sweeps health stats (Unmoved health stats X l m) (commit f) w m := by
  have hkept : ∀ u, Kept health stats X l u → Kept health stats X l (f u) := fun u hu =>
    hu.of_eq (hhealth u) (hstats u) (by rw [hmem]) (by rw [hmem])
  exact records_write hmem stable_kept h (fun _ hu => hu.underway m)
    (fun u hu => ⟨hu.underway m, (hkept u hu).underway m⟩) fun u hu => ⟨m, rfl, rfl, hkept u hu⟩

theorem sweeps_listFailed (h : Kept health stats X l w) (zoom : Nat) :
    Sweeps health stats (Unmoved health stats X l m) (listFailed zoom) w m :=
  records_listFailed stable_kept h (fun _ hu => hu.underway m)
    (fun _ _ _ hu => by rw [note_answer rfl]; exact hu.underway m)
    fun _ _ hu _ => ⟨m, note_answer rfl, rfl, hu⟩

theorem sweeps_cooldown (h : Kept health stats X l w) :
    Sweeps health stats (Unmoved health stats X l m) awaitStorageCooldown w m :=
  records_cooldown stable_kept h (note_atom rfl) (fun _ hu => hu.underway m)
    (fun _ _ _ hu => by rw [note_answer rfl]; exact hu.underway m) (fun _ => note_answer rfl)
    fun _ hu => ⟨m, rfl, rfl, hu⟩

theorem sweeps_nextCompleted (h : Kept health stats X l w) :
    Sweeps health stats (fun d u k => k = m ++ [d.2.2] ∧ Kept health stats X l u)
      nextCompleted w m := by
  refine records_nextCompleted stable_kept h (fun _ hu => hu.underway m) ?_ ?_ ?_
  · intro u e landed hu
    rw [note_answer rfl]
    exact hu.underway m
  · intro u d done e hu hd hr
    rw [note_collect hd]
    have hj : (sweeping m).collect d = sweeping m := by simp [CycleJournal.collect, hr]
    have hkept : Kept health stats X l (u.setTasks u.mem.tasks done) := hu.of_eq rfl rfl rfl rfl
    rw [hj]
    exact hkept.underway m
  · intro u d done o hu hd hr
    refine ⟨m ++ [o], ?_, rfl, hu.of_eq rfl rfl rfl rfl⟩
    rw [note_collect hd]
    simp [CycleJournal.collect, hr, sweeping]

theorem records_cancelPending {I E : World → CycleJournal → Prop}
    {Q : Unit → World → CycleJournal → Prop} {P : World → Prop} {j : CycleJournal}
    (hs : Stable P) (hp : P (w.setTasks [] [])) (hI : ∀ u, P u → I u j) (hE : ∀ u, P u → E u j)
    (hQ : ∀ u, P u → Q () u j) : Records note I E Q cancelPending w j := by
  refine records_look (note_atom rfl) (records_modify (j := j) (note_atom rfl) ?_)
  cases !w.mem.tasks.isEmpty with
  | true =>
    exact records_pause hs hp hI (fun u _ _ hu => by rw [note_answer rfl]; exact hE u hu)
      fun u hu => by rw [note_answer rfl]; exact hQ u hu
  | false => exact hQ _ hp

/-- The tile tasks are cancelled on every way out. -/
theorem sweeps_tryCancel {P : α → List TileOutcome → World → Prop} {c : Code α}
    (hs : ∀ a k, Stable (P a k)) (hset : ∀ a k u, P a k u → P a k (u.setTasks [] []))
    (hP : ∀ a k u, P a k u → Underway health stats u (sweeping k))
    (h : Sweeps health stats (fun a u k => P a k u) c w m) :
    Sweeps health stats (fun a u k => P a k u) (c.tryFinally cancelPending) w m := by
  refine records_tryFinally h ?_ ?_
  · rintro a u j ⟨k, rfl, hk⟩
    exact records_cancelPending (hs a k) (hset a k u hk) (hP a k) (hP a k) fun v hv => ⟨k, rfl, hv⟩
  · rintro u j ⟨k, n, rfl, hk⟩
    exact records_cancelPending stable_kept (hk.of_eq rfl rfl rfl rfl) (fun v hv => hv.underway n)
      (fun v hv => hv.underway n) fun v hv => hv.underway n

end Sweeps

end DataService
