import DataService.Lib.Annotation
import DataService.Sync.Mirror

/-! Code of the loops that takes notes, and what is known at its awaits. -/

namespace DataService.Sync

open Coroutine Coro

variable {γ δ α : Type}

abbrev NotedCode (γ α : Type) := Coro (World × γ) Reply SyncExn α

/-- `except Exception` -/
def catchNoted (body handler : NotedCode γ α) : NotedCode γ α :=
  body.tryCatch fun e => if e = .cancelled then raise e else handler

def forEachNoted (f : δ → NotedCode γ Unit) : List δ → NotedCode γ Unit
  | [] => pure ()
  | a :: as => do
    f a
    forEachNoted f as

section Annotated

theorem annotates_catch {body' handler' : NotedCode γ α} {body handler : Code α}
    (h : body'.Annotates body) (hhandler : handler'.Annotates handler) :
    (catchNoted body' handler').Annotates (catchException body handler) := by
  apply annotates_tryCatch h
  intro e
  split
  · exact .raise e
  · exact hhandler

theorem annotates_forEach {f' : δ → NotedCode γ Unit} {f : δ → Code Unit}
    (h : ∀ a, (f' a).Annotates (f a)) (l : List δ) :
    (forEachNoted f' l).Annotates (forEach f l) := by
  induction l with
  | nil => exact .ret ()
  | cons a l ih => exact annotates_bind (h a) fun _ => ih

end Annotated

section Safe

variable {R : World × γ → World × γ → Prop} {I : World × γ → Prop}
  {E : SyncExn → World × γ → Prop} {p : World × γ}

theorem safe_notedNames {Q : List String → World × γ → Prop}
    (h : ∀ t, R p t → I t ∧ (∀ names, Q names t) ∧ ∀ e, E e t) :
    (silent listNames).Safe R I Q E p := by
  intro t ht
  obtain ⟨hI, hQ, hE⟩ := h t ht
  refine ⟨hI, fun r b u hu => ?_⟩
  cases r with
  | ok => cases hu
  | names l =>
    cases hu
    exact hQ l
  | raised e landed =>
    cases hu
    exact hE e

theorem safe_notedFetch {Q : Unit → World × γ → Prop}
    (h : ∀ t, R p t → I t ∧ Q () t ∧ ∀ e, E e t) : (silent fetchObject).Safe R I Q E p := by
  intro t ht
  obtain ⟨hI, hQ, hE⟩ := h t ht
  refine ⟨hI, fun r b u hu => ?_⟩
  cases r <;> cases hu
  · exact hQ
  · exact hE _

theorem safe_notedExists {Q : Bool → World × γ → Prop} {key : RedisKey}
    (h : ∀ t, R p t → I t ∧ (∀ found, Q found t) ∧ ∀ e, E e t) :
    (silent (readExists key)).Safe R I Q E p := by
  intro t ht
  obtain ⟨hI, hQ, hE⟩ := h t ht
  refine ⟨hI, fun r b u hu => ?_⟩
  cases r <;> cases hu
  · exact hQ _
  · exact hE _

/-- An index whose members are not units is read. -/
theorem safe_notedMembers {Q : List String → World × γ → Prop} {key : IndexKey}
    (hkey : key.listsUnits = false)
    (h : ∀ t, R p t → I t ∧ Q (t.1.memberNames key) t ∧ ∀ e, E e t) :
    (silent (readMembers key)).Safe R I Q E p := by
  intro t ht
  obtain ⟨hI, hQ, hE⟩ := h t ht
  refine ⟨hI, fun r b u hu => ?_⟩
  cases r with
  | ok =>
    obtain ⟨⟨x, w⟩, hx, hpair⟩ := Option.map_eq_some_iff.mp hu
    simp only [hkey, Bool.false_eq_true, if_false, Option.some.injEq, Prod.mk.injEq] at hx
    obtain ⟨rfl, rfl⟩ := hx
    cases hpair
    exact hQ
  | names l => cases hu
  | raised e landed =>
    cases hu
    exact hE e

theorem safe_notedCommand {Q : Unit → World × γ → Prop} {f : World → World}
    (h : ∀ t, R p t → I t ∧ Q () (f t.1, t.2) ∧ ∀ e, E e t ∧ E e (f t.1, t.2)) :
    (silent (command f)).Safe R I Q E p := by
  intro t ht
  obtain ⟨hI, hQ, hE⟩ := h t ht
  refine ⟨hI, fun r b u hu => ?_⟩
  cases r with
  | ok =>
    cases hu
    exact hQ
  | names l => cases hu
  | raised e landed =>
    cases landed <;> cases hu
    · exact (hE e).1
    · exact (hE e).2

theorem safe_catchNoted {Q : α → World × γ → Prop} {body handler : NotedCode γ α}
    (h : body.Safe R I Q (fun e t => E e t ∧ handler.Safe R I Q E t) p) :
    (catchNoted body handler).Safe R I Q E p := by
  apply safe_tryCatch
  refine safe_mono (fun _ _ hq => hq) (fun e t he => ?_) h
  split
  · exact he.1
  · exact he.2

end Safe

end DataService.Sync
