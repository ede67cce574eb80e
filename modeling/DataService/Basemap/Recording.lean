import DataService.Basemap.Interference
import DataService.Lib.Journal

/-! The sweep with a journal beside its memory: what else moves while it waits, and the
rules for its awaits. A journal is written by the moves of the sweep alone. -/

namespace DataService

open Coroutine Coro

/-- What else may happen while the sweep waits. -/
inductive Bystander where
  | env (sh : Shared)
  | tile (i : Nat) (r : TileReply)

def World.bystander (w : World) : Bystander → Option World
  | .env sh => some { w with shared := sh }
  | .tile i r => w.tileStep i r

theorem nudge_of_bystander {w w' : World} {b : Bystander} (h : w.bystander b = some w') :
    Nudge w w' := by
  cases b with
  | env sh =>
    cases h
    exact .env w sh
  | tile i r => exact .tile h

variable {γ α β : Type} {note : Note World Reply γ}

/-- The rest of the world moves, the journal does not. -/
def InterferesBeside (p q : World × γ) : Prop := Interferes p.1 q.1 ∧ q.2 = p.2

/-- `I` holds wherever the process may die, `E` where an exception comes out. -/
abbrev Records (note : Note World Reply γ) (I E : World → γ → Prop) (Q : α → World → γ → Prop)
    (c : Code α) (w : World) (g : γ) : Prop :=
  (c.journaled note).Safe InterferesBeside (fun p => I p.1 p.2) (fun a p => Q a p.1 p.2)
    (fun _ p => E p.1 p.2) (w, g)

/-- A run of the sweep that keeps a journal. -/
abbrev recorded (note : Note World Reply γ) (c : Code α) (w : World) (g : γ)
    (turns : List (Turn Reply Bystander)) : Option (Process (World × γ) Reply ScrapeExn α) :=
  Process.run (beside World.bystander) (c.journaled note) (w, g) turns

section Rules

variable {I E : World → γ → Prop} {w : World} {g : γ} {P : World → Prop}

theorem Records.meets {Q : α → World → γ → Prop} {c : Code α} (h : Records note I E Q c w g)
    {turns : List (Turn Reply Bystander)} {p : Process (World × γ) Reply ScrapeExn α}
    (hrun : recorded note c w g turns = some p) :
    p.Meets (fun p => I p.1 p.2) (fun a p => Q a p.1 p.2) (fun _ p => E p.1 p.2) := by
  refine Process.meets_of_run (fun _ => ⟨.refl, rfl⟩) ?_ ?_ h hrun
  · exact fun s t u hst htu => ⟨hst.1.trans htu.1, htu.2.trans hst.2⟩
  · intro s b t ht
    obtain ⟨w', hw, rfl⟩ := Option.map_eq_some_iff.mp ht
    exact ⟨.single (nudge_of_bystander hw), rfl⟩

theorem records_pure {Q : α → World → γ → Prop} {a : α} (h : Q a w g) :
    Records note I E Q (pure a) w g := h

theorem records_mono {I' E' : World → γ → Prop} {Q Q' : α → World → γ → Prop} {c : Code α}
    (hI : ∀ u k, I u k → I' u k) (hE : ∀ u k, E u k → E' u k) (hQ : ∀ a u k, Q a u k → Q' a u k)
    (h : Records note I E Q c w g) : Records note I' E' Q' c w g :=
  safe_mono_crash (fun p => hI p.1 p.2) (safe_mono (fun a p => hQ a p.1 p.2)
    (fun _ p => hE p.1 p.2) h)

theorem records_bind {Q : α → World → γ → Prop} {Q' : β → World → γ → Prop} {c : Code α}
    {k : α → Code β} (h : Records note I E Q c w g)
    (hk : ∀ a u j, Q a u j → Records note I E Q' (k a) u j) :
    Records note I E Q' (c >>= k) w g := by
  rw [Records, journaled_bind]
  exact safe_bind (safe_mono (fun a p hp => hk a p.1 p.2 hp) (fun _ _ he => he) h)

theorem records_tryFinally {J : World → γ → Prop} {Q Q' : α → World → γ → Prop} {c : Code α}
    {fin : Code Unit} (h : Records note I J Q c w g)
    (hreturn : ∀ a u j, Q a u j → Records note I E (fun _ => Q' a) fin u j)
    (hraise : ∀ u j, J u j → Records note I E (fun _ => E) fin u j) :
    Records note I E Q' (c.tryFinally fin) w g := by
  rw [Records, journaled_tryFinally]
  exact safe_tryFinally (safe_mono (fun a p hp => hreturn a p.1 p.2 hp)
    (fun _ p hp => hraise p.1 p.2 hp) h)

theorem records_look {f : World → α} {k : α → Code β} {Q : β → World → γ → Prop}
    (hnote : note w none w g = g) (h : Records note I E Q (k (f w)) w g) :
    Records note I E Q (look f >>= k) w g := by
  have hlook : Records note I E (fun a u j => a = f w ∧ u = w ∧ j = g) (look f) w g :=
    ⟨rfl, rfl, hnote⟩
  refine records_bind hlook ?_
  rintro a u j ⟨rfl, rfl, rfl⟩
  exact h

theorem records_act {f : World → World} {Q : Unit → World → γ → Prop} {j : γ}
    (hnote : note w none (f w) g = j) (h : Q () (f w) j) :
    Records note I E Q (modify f) w g := by
  subst hnote
  exact h

theorem records_modify {f : World → World} {k : Unit → Code β} {Q : β → World → γ → Prop}
    {j : γ} (hnote : note w none (f w) g = j) (h : Records note I E Q (k ()) (f w) j) :
    Records note I E Q (modify f >>= k) w g := by
  have hmodify : Records note I E (fun _ u i => u = f w ∧ i = j) (modify f) w g :=
    ⟨rfl, hnote⟩
  refine records_bind hmodify ?_
  rintro _ u i ⟨rfl, rfl⟩
  exact h

theorem records_call {Q : α → World → γ → Prop}
    {f : World → Reply → Option (Except ScrapeExn α × World)} (hs : Stable P) (hp : P w)
    (hI : ∀ u, P u → I u g)
    (hok : ∀ u r a v, P u → f u r = some (.ok a, v) → Q a v (note u (some r) v g))
    (herror : ∀ u r e v, P u → f u r = some (.error e, v) → E v (note u (some r) v g)) :
    Records note I E Q (call f) w g := by
  rintro ⟨u, j⟩ ⟨hu, hj⟩
  obtain rfl : j = g := hj
  have hpu := hs.interferes hu hp
  refine ⟨hI u hpu, ?_⟩
  rintro r b ⟨v, i⟩ hv
  obtain ⟨⟨x, v'⟩, hx, heq⟩ := Option.map_eq_some_iff.mp hv
  cases heq
  cases x with
  | ok a => exact hok u r a v' hpu hx
  | error e => exact herror u r e v' hpu hx

theorem records_pause {Q : Unit → World → γ → Prop} (hs : Stable P) (hp : P w)
    (hI : ∀ u, P u → I u g)
    (hE : ∀ u e landed, P u → E u (note u (some (.raised e landed)) u g))
    (hQ : ∀ u, P u → Q () u (note u (some .ok) u g)) : Records note I E Q pause w g := by
  refine records_call hs hp hI ?_ ?_ <;> intro u r x v hu hv <;> cases r <;> cases hv
  · exact hQ u hu
  · exact hE u x _ hu

theorem records_query {Q : α → World → γ → Prop} {f : ProviderRows → α} (hs : Stable P)
    (hp : P w) (hI : ∀ u, P u → I u g)
    (hE : ∀ u e landed, P u → E u (note u (some (.raised e landed)) u g))
    (hQ : ∀ u, P u → Q (f u.rows) u (note u (some .ok) u g)) :
    Records note I E Q (query f) w g := by
  refine records_call hs hp hI ?_ ?_ <;> intro u r x v hu hv <;> cases r <;> cases hv
  · exact hQ u hu
  · exact hE u x _ hu

theorem records_commit {Q : Unit → World → γ → Prop} {f : World → World} (hs : Stable P)
    (hp : P w) (hI : ∀ u, P u → I u g)
    (hE : ∀ u e, P u → E u (note u (some (.raised e false)) u g) ∧
      E (f u) (note u (some (.raised e true)) (f u) g))
    (hQ : ∀ u, P u → Q () (f u) (note u (some .ok) (f u) g)) :
    Records note I E Q (commit f) w g := by
  refine records_call hs hp hI ?_ ?_ <;> intro u r x v hu hv
  · cases r <;> cases hv
    exact hQ u hu
  · cases r with
    | ok => cases hv
    | rows l => cases hv
    | raised e landed =>
      cases hv
      cases landed with
      | true => exact (hE u x hu).2
      | false => exact (hE u x hu).1

theorem records_listFailed {Q : List Tile → World → γ → Prop} {zoom : Nat} (hs : Stable P)
    (hp : P w) (hI : ∀ u, P u → I u g)
    (hE : ∀ u e landed, P u → E u (note u (some (.raised e landed)) u g))
    (hQ : ∀ u l, P u → l.Perm (u.rows.failed.atZoom zoom) → Q l u (note u (some (.rows l)) u g)) :
    Records note I E Q (listFailed zoom) w g := by
  refine records_call hs hp hI ?_ ?_ <;> intro u r x v hu hv
  · cases r with
    | ok => cases hv
    | raised e landed => cases hv
    | rows l =>
      dsimp only at hv
      split_ifs at hv with hl
      cases hv
      exact hQ u x hu (List.isPerm_iff.mp hl)
  · cases r with
    | ok => cases hv
    | raised e landed =>
      cases hv
      exact hE u x landed hu
    | rows l =>
      dsimp only at hv
      split_ifs at hv
      cases hv

theorem records_nextCompleted {Q : Nat × Tile × TileOutcome → World → γ → Prop} (hs : Stable P)
    (hp : P w) (hI : ∀ u, P u → I u g)
    (hE : ∀ u e landed, P u → E u (note u (some (.raised e landed)) u g))
    (hpop : ∀ u d done e, P u → u.mem.done = d :: done → d.result = .error e →
      E (u.setTasks u.mem.tasks done) (note u (some .ok) (u.setTasks u.mem.tasks done) g))
    (hQ : ∀ u d done o, P u → u.mem.done = d :: done → d.result = .ok o →
      Q (d.idx, d.tile, o) (u.setTasks u.mem.tasks done)
        (note u (some .ok) (u.setTasks u.mem.tasks done) g)) :
    Records note I E Q nextCompleted w g := by
  refine records_call hs hp hI ?_ ?_ <;> intro u r x v hu hv
  · split at hv
    · rename_i d done hd
      split at hv <;> cases hv
      exact hQ u d done _ hu hd ‹_›
    · cases hv
    · cases hv
  · split at hv
    · rename_i d done hd
      split at hv <;> cases hv
      exact hpop u d done _ hu hd ‹_›
    · cases hv
      exact hE u x _ hu
    · cases hv

theorem records_cooldown {Q : Unit → World → γ → Prop} (hs : Stable P) (hp : P w)
    (hlook : note w none w g = g) (hI : ∀ u, P u → I u g)
    (hE : ∀ u e landed, P u → E u (note u (some (.raised e landed)) u g))
    (hnote : ∀ u, note u (some .ok) u g = g) (hQ : ∀ u, P u → Q () u g) :
    Records note I E Q awaitStorageCooldown w g := by
  refine records_look hlook ?_
  by_cases hzero : w.shared.s3Circuit.cooldownRemaining w.shared.mono = 0
  · rw [if_pos hzero]
    exact hQ w hp
  · rw [if_neg hzero]
    refine records_call hs hp hI ?_ ?_ <;> intro u r x v hu hv <;> cases r <;>
      simp only [reduceCtorEq, Option.some.injEq, Prod.mk.injEq, Option.ite_none_right_eq_some,
        Except.error.injEq, false_and, and_false] at hv
    · obtain ⟨-, -, rfl⟩ := hv
      rw [hnote]
      exact hQ u hu
    · obtain ⟨rfl, rfl⟩ := hv
      exact hE u _ _ hu

end Rules

end DataService
