import DataService.Basemap.Scraper
import Mathlib.Logic.Relation
import Mathlib.Data.List.Perm.Basic

/-! What may happen while the sweep waits: its tile tasks move on and the shared
memory changes. The rows, the sweep state and the progress are its own. -/

namespace DataService

open Coroutine Coro

/-- The moves `_download_and_store` can make. -/
inductive TileMove : TileStage → TileProgress → Prop
  | admitted : TileMove .created (.waits .fetching)
  | skipped : TileMove .created (.returns .storageSkipped)
  | unavailable : TileMove .fetching (.returns .unavailable)
  | missing : TileMove .fetching (.returns .missing)
  | downloaded : TileMove .fetching (.waits .uploading)
  | fetchRaised (e : ScrapeExn) : TileMove .fetching (.raises e)
  | uploaded (issued : Bool) : TileMove .uploading (.waits (.warming issued))
  | notUploaded : TileMove .uploading (.returns .storageError)
  | uploadRaised (e : ScrapeExn) : TileMove .uploading (.raises e)
  | warmed (issued : Bool) : TileMove (.warming issued) (.returns .ok)
  | warmRaised (issued : Bool) (e : ScrapeExn) : TileMove (.warming issued) (.raises e)

theorem downloadAndStore_move {sh sh' : Shared} {stage : TileStage} {r : TileReply}
    {p : TileProgress} (h : sh.downloadAndStore stage r = some (sh', p)) : TileMove stage p := by
  unfold Shared.downloadAndStore at h
  split at h
  · split_ifs at h <;> cases h
    · exact .admitted
    · exact .skipped
  · cases h; exact .unavailable
  · cases h; exact .missing
  · cases h; exact .downloaded
  · cases h; exact .uploaded _
  · cases h; exact .notUploaded
  · rename_i issued r
    simp only [Option.some.injEq, Shared.writeThroughRedis] at h
    cases issued with
    | false => cases h; exact .warmed _
    | true => cases r <;> cases h <;> constructor
  · cases h; exact .fetchRaised _
  · cases h; exact .uploadRaised _
  · cases h

/-- Everything a step of a tile task does. -/
theorem tileStep_cases {w w' : World} {i : Nat} {r : TileReply} (h : w.tileStep i r = some w') :
    ∃ task sh p, w.mem.tasks[i]? = some task ∧ TileMove task.stage p ∧
      w.shared.downloadAndStore task.stage r = some (sh, p) ∧
      w' = { w with
        shared := sh
        mem := w.mem.move i task p
        log := tileEvents task.tile task.stage p ++ w.log } := by
  simp only [World.tileStep, Option.bind_eq_some_iff, Option.map_eq_some_iff] at h
  obtain ⟨task, ht, ⟨sh, p⟩, hp, rfl⟩ := h
  exact ⟨task, sh, p, ht, downloadAndStore_move hp, hp, rfl⟩

/-- Events that neither start a cycle nor declare a sweep complete. -/
def Event.routine (e : Event) : Bool := !e.isCycleStart && !e.isVerdict

theorem tileEvents_routine {t : Tile} {stage : TileStage} {p : TileProgress} {e : Event}
    (h : e ∈ tileEvents t stage p) : e.routine = true := by
  unfold tileEvents at h
  split at h <;> simp only [List.mem_cons, List.not_mem_nil, or_false] at h
  all_goals rcases h with rfl | rfl <;> rfl

theorem tileEvents_about {t : Tile} {stage : TileStage} {p : TileProgress} {e : Event}
    (hm : TileMove stage p) (h : e ∈ tileEvents t stage p) :
    (e = .attempt t ∧ stage = .created) ∨ (e = .fetch t ∧ p = .waits .fetching) ∨
      e = .stored t ∨ e = .redisRaised ∨ ∃ o, e = .outcome t o ∧ p = .returns o := by
  cases hm <;> simp [tileEvents] at h ⊢ <;> tauto

@[simp] theorem move_sweep (m : Memory) (i : Nat) (task : TileTask) (p : TileProgress) :
    (m.move i task p).sweep = m.sweep := by
  cases p <;> rfl

@[simp] theorem move_progress (m : Memory) (i : Nat) (task : TileTask) (p : TileProgress) :
    (m.move i task p).progress = m.progress := by
  cases p <;> rfl

theorem mem_tasks_move {m : Memory} {i : Nat} {task k : TileTask} {p : TileProgress}
    (h : k ∈ (m.move i task p).tasks) :
    k ∈ m.tasks ∨ ∃ stage, p = .waits stage ∧ k = { task with stage := stage } := by
  cases p with
  | waits stage =>
    rcases List.mem_or_eq_of_mem_set h with hk | hk
    · exact .inl hk
    · exact .inr ⟨stage, rfl, hk⟩
  | returns o => exact .inl (List.mem_of_mem_eraseIdx h)
  | raises e => exact .inl (List.mem_of_mem_eraseIdx h)

theorem mem_done_move {m : Memory} {i : Nat} {task : TileTask} {d : DoneTile} {p : TileProgress}
    {o : TileOutcome} (h : d ∈ (m.move i task p).done) (hd : d.result = .ok o) :
    d ∈ m.done ∨ (p = .returns o ∧ d.tile = task.tile) := by
  cases p with
  | waits stage => exact .inl h
  | returns o' =>
    rcases List.mem_append.mp h with h | h
    · exact .inl h
    · obtain rfl := List.mem_singleton.mp h
      cases hd
      exact .inr ⟨rfl, rfl⟩
  | raises e =>
    rcases List.mem_append.mp h with h | h
    · exact .inl h
    · obtain rfl := List.mem_singleton.mp h
      cases hd

theorem done_subset_move (m : Memory) (i : Nat) (task : TileTask) (p : TileProgress) :
    m.done ⊆ (m.move i task p).done := by
  cases p with
  | waits stage => exact fun _ h => h
  | returns o => exact List.subset_append_left _ _
  | raises e => exact List.subset_append_left _ _

/-- Index and tile of every task in flight or finished and not yet collected. -/
def pendingKeys (w : World) : List (Nat × Tile) :=
  w.mem.tasks.map (fun k => (k.idx, k.tile)) ++ w.mem.done.map fun d => (d.idx, d.tile)

theorem eraseIdx_map_perm {α β : Type} {f : α → β} {l : List α} {i : Nat} {a : α}
    (h : l[i]? = some a) : (f a :: (l.eraseIdx i).map f).Perm (l.map f) := by
  obtain ⟨hi, rfl⟩ := List.getElem?_eq_some_iff.mp h
  exact (List.getElem_cons_eraseIdx_perm hi).map f

theorem pendingKeys_move {m : Memory} {i : Nat} {task : TileTask} (p : TileProgress)
    (h : m.tasks[i]? = some task) {w w' : World} (hw : w.mem = m)
    (hw' : w'.mem = m.move i task p) : (pendingKeys w').Perm (pendingKeys w) := by
  have hfin : ∀ d : DoneTile, (d.idx, d.tile) = (task.idx, task.tile) →
      ((m.tasks.eraseIdx i).map (fun k => (k.idx, k.tile)) ++
        (m.done ++ [d]).map fun d => (d.idx, d.tile)).Perm (pendingKeys w) := by
    intro d hd
    have hp := eraseIdx_map_perm (f := fun k : TileTask => (k.idx, k.tile)) h
    simp only [pendingKeys, hw, List.map_append, List.map_cons, List.map_nil, hd]
    rw [← List.append_assoc]
    exact (List.perm_append_singleton _ _).trans (hp.append_right _)
  cases p with
  | waits stage =>
    have hset : (m.tasks.set i { task with stage := stage }).map (fun k => (k.idx, k.tile)) =
        m.tasks.map fun k => (k.idx, k.tile) := by
      refine List.ext_getElem? fun j => ?_
      simp only [List.getElem?_map, List.getElem?_set]
      split_ifs with hj hlt
      · subst hj
        simp [h]
      · subst hj
        simp [List.getElem?_eq_none (Nat.le_of_not_lt hlt)]
      · rfl
    simp only [pendingKeys, hw, hw', Memory.move, hset]
    exact .refl _
  | returns o =>
    simp only [pendingKeys, hw'] at hfin ⊢
    exact hfin ⟨task.idx, task.tile, .ok o⟩ rfl
  | raises e =>
    simp only [pendingKeys, hw'] at hfin ⊢
    exact hfin ⟨task.idx, task.tile, .error e⟩ rfl

/-- What may happen while the sweep waits. -/
inductive Nudge : World → World → Prop
  | env (w : World) (sh : Shared) : Nudge w { w with shared := sh }
  | tile {w w' : World} {i : Nat} {r : TileReply} (h : w.tileStep i r = some w') : Nudge w w'

abbrev Interferes : World → World → Prop := Relation.ReflTransGen Nudge

def Stable (P : World → Prop) : Prop := ∀ w w', Nudge w w' → P w → P w'

theorem Stable.interferes {P : World → Prop} (hs : Stable P) {w w' : World} (h : Interferes w w')
    (hp : P w) : P w' := by
  induction h with
  | refl => exact hp
  | tail _ hn ih => exact hs _ _ hn ih

theorem Stable.and {P Q : World → Prop} (hp : Stable P) (hq : Stable Q) :
    Stable fun w => P w ∧ Q w :=
  fun w w' hn h => ⟨hp w w' hn h.1, hq w w' hn h.2⟩

theorem Stable.imp {P Q : World → Prop} (hp : Stable fun w => ¬ P w) (hq : Stable Q) :
    Stable fun w => P w → Q w := by
  intro w w' hn h hp'
  by_cases hpw : P w
  · exact hq w w' hn (h hpw)
  · exact absurd hp' (hp w w' hn hpw)

theorem stable_const (p : Prop) : Stable fun _ => p := fun _ _ _ h => h

theorem Nudge.frame {w w' : World} (h : Nudge w w') : w'.rows = w.rows ∧
    w'.mem.sweep = w.mem.sweep ∧ w'.mem.progress = w.mem.progress := by
  cases h with
  | env sh => exact ⟨rfl, rfl, rfl⟩
  | tile h =>
    obtain ⟨task, sh, p, _, _, _, rfl⟩ := tileStep_cases h
    exact ⟨rfl, move_sweep _ _ _ _, move_progress _ _ _ _⟩

theorem Nudge.log {w w' : World} (h : Nudge w w') :
    ∃ es, w'.log = es ++ w.log ∧ ∀ e ∈ es, e.routine = true := by
  cases h with
  | env sh => exact ⟨[], rfl, by simp⟩
  | tile h =>
    obtain ⟨task, sh, p, _, _, _, rfl⟩ := tileStep_cases h
    exact ⟨_, rfl, fun e he => tileEvents_routine he⟩

theorem Nudge.pending {w w' : World} (h : Nudge w w') : (pendingKeys w').Perm (pendingKeys w) := by
  cases h with
  | env sh => exact .refl _
  | tile h =>
    obtain ⟨task, sh, p, ht, _, _, rfl⟩ := tileStep_cases h
    exact pendingKeys_move p ht rfl rfl

theorem stable_frame (P : ProviderRows → SweepState → SweepProgress → Prop) :
    Stable fun w => P w.rows w.mem.sweep w.mem.progress := by
  intro w w' hn h
  obtain ⟨hr, hs, hp⟩ := hn.frame
  rwa [hr, hs, hp]

/-- No task is in flight and no completion waits to be collected. -/
def Idle (w : World) : Prop := w.mem.tasks = [] ∧ w.mem.done = []

theorem stable_idle : Stable Idle := by
  intro w w' hn h
  cases hn with
  | env sh => exact h
  | tile ht =>
    obtain ⟨task, _, _, hk, _⟩ := tileStep_cases ht
    simp [h.1] at hk

/-- With no task in flight only the shared memory changes. -/
theorem stable_log_of_idle (P : List Event → Prop) : Stable fun w => Idle w ∧ P w.log := by
  intro w w' hn h
  refine ⟨stable_idle w w' hn h.1, ?_⟩
  cases hn with
  | env sh => exact h.2
  | tile ht =>
    obtain ⟨task, _, _, hk, _⟩ := tileStep_cases ht
    simp [h.1.1] at hk

/-- `Good` holds wherever the process may die, `Exn` where an exception comes out. -/
abbrev Meets {α : Type} (Good Exn : World → Prop) (Q : α → World → Prop) (c : Code α)
    (w : World) : Prop :=
  c.Safe Interferes Good Q (fun _ => Exn) w

section Rules

variable {α : Type} {Good E P : World → Prop}

theorem meets_query {Q : α → World → Prop} {f : ProviderRows → α} {w : World} (hs : Stable P)
    (hp : P w) (hgood : ∀ w, P w → Good w) (hexn : ∀ w, P w → E w)
    (hq : ∀ w, P w → Q (f w.rows) w) : Meets Good E Q (query f) w := by
  refine safe_call fun t ht => ?_
  have hpt := hs.interferes ht hp
  refine ⟨hgood t hpt, ?_, ?_⟩ <;> intro r a u hu <;> cases r <;> cases hu
  · exact hq t hpt
  · exact hexn t hpt

theorem meets_commit {Q : Unit → World → Prop} {f : World → World} {w : World} (hs : Stable P)
    (hp : P w) (hgood : ∀ w, P w → Good w) (hexn : ∀ w, P w → E w ∧ E (f w))
    (hq : ∀ w, P w → Q () (f w)) : Meets Good E Q (commit f) w := by
  refine safe_call fun t ht => ?_
  have hpt := hs.interferes ht hp
  refine ⟨hgood t hpt, ?_, ?_⟩ <;> intro r a u hu <;> cases r <;> cases hu
  · exact hq t hpt
  · split_ifs
    · exact (hexn t hpt).2
    · exact (hexn t hpt).1

theorem meets_pause {Q : Unit → World → Prop} {w : World} (hs : Stable P)
    (hp : P w) (hgood : ∀ w, P w → Good w) (hexn : ∀ w, P w → E w)
    (hq : ∀ w, P w → Q () w) : Meets Good E Q pause w := by
  refine safe_call fun t ht => ?_
  have hpt := hs.interferes ht hp
  refine ⟨hgood t hpt, ?_, ?_⟩ <;> intro r a u hu <;> cases r <;> cases hu
  · exact hq t hpt
  · exact hexn t hpt

theorem meets_listFailed {Q : List Tile → World → Prop} {zoom : Nat} {w : World} (hs : Stable P)
    (hp : P w) (hgood : ∀ w, P w → Good w) (hexn : ∀ w, P w → E w)
    (hq : ∀ w l, P w → l.Perm (w.rows.failed.atZoom zoom) → Q l w) :
    Meets Good E Q (listFailed zoom) w := by
  refine safe_call fun t ht => ?_
  have hpt := hs.interferes ht hp
  refine ⟨hgood t hpt, ?_, ?_⟩
  · intro r l u hu
    cases r with
    | ok => cases hu
    | raised e landed => cases hu
    | rows l' =>
      dsimp only at hu
      split_ifs at hu with hl
      cases hu
      exact hq t l hpt (List.isPerm_iff.mp hl)
  · intro r e u hu
    cases r with
    | ok => cases hu
    | raised e landed => cases hu; exact hexn t hpt
    | rows l =>
      dsimp only at hu
      split_ifs at hu
      cases hu

theorem meets_nextCompleted {Q : Nat × Tile × TileOutcome → World → Prop} {w : World}
    (hs : Stable P) (hp : P w) (hgood : ∀ w, P w → Good w) (hexn : ∀ w, P w → E w)
    (hpop : ∀ w d done, P w → w.mem.done = d :: done → E (w.setTasks w.mem.tasks done))
    (hq : ∀ w d done o, P w → w.mem.done = d :: done → d.result = .ok o →
      Q (d.idx, d.tile, o) (w.setTasks w.mem.tasks done)) :
    Meets Good E Q nextCompleted w := by
  refine safe_call fun t ht => ?_
  have hpt := hs.interferes ht hp
  refine ⟨hgood t hpt, ?_, ?_⟩
  · intro r a u hu
    split at hu
    · rename_i d done hd
      split at hu <;> cases hu
      exact hq t d done _ hpt hd ‹_›
    · cases hu
    · cases hu
  · intro r e u hu
    split at hu
    · rename_i d done hd
      split at hu <;> cases hu
      exact hpop t d done hpt hd
    · cases hu; exact hexn t hpt
    · cases hu

theorem meets_cooldown {Q : Unit → World → Prop} {w : World} (hs : Stable P)
    (hp : P w) (hgood : ∀ w, P w → Good w) (hexn : ∀ w, P w → E w)
    (hq : ∀ w, P w → Q () w) : Meets Good E Q awaitStorageCooldown w := by
  refine safe_bind ?_
  change Meets Good E Q (if _ then _ else _) w
  split_ifs
  · exact hq w hp
  · refine safe_call fun t ht => ?_
    have hpt := hs.interferes ht hp
    refine ⟨hgood t hpt, ?_, ?_⟩ <;> intro r a u hu <;> cases r <;>
      simp only [reduceCtorEq, Option.some.injEq, Prod.mk.injEq, Option.ite_none_right_eq_some,
        Except.error.injEq, false_and, and_false] at hu
    · exact hu.2.2 ▸ hq t hpt
    · exact hu.2 ▸ hexn t hpt

end Rules

end DataService
