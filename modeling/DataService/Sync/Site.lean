import DataService.Lib.Focus
import DataService.Sync.Frame

/-! Loops that read a bucket: beside Redis the memory holds what S3 has, and a request that
S3 answers is answered with that. -/

namespace DataService.Sync

open Coroutine Coro

structure Site (β : Type) where
  world : World
  s3 : β

abbrev SiteCode (β : Type) := Coro (Site β) Reply SyncExn

def worldPart (β : Type) : Part (Site β) World where
  get := Site.world
  set s w := { s with world := w }
  get_set _ _ := rfl
  set_get _ := rfl
  set_set _ _ _ := rfl

def World.initial (now : Nat) : World := ⟨now, ∅, none, 0, []⟩

/-- What a prune of an index leaves. -/
def World.reconcile (key : IndexKey) (keep : List String) (w : World) : World :=
  if (w.memberNames key).filter (fun name => name ∉ keep) = [] then w
  else w.keep key fun p => decide (p.1 ∉ (w.memberNames key).filter fun name => name ∉ keep)

theorem mem_reconcile {w : World} {key : IndexKey} {keep : List String} {name : String} :
    name ∈ (w.reconcile key keep).memberNames key ↔ name ∈ w.memberNames key ∧ name ∈ keep := by
  have hstale : name ∈ (w.memberNames key).filter (fun name => name ∉ keep) ↔
      name ∈ w.memberNames key ∧ name ∉ keep := by simp [List.mem_filter]
  unfold World.reconcile
  split
  · rename_i hnone
    rw [hnone] at hstale
    constructor
    · intro h
      refine ⟨h, ?_⟩
      by_contra hnot
      exact List.not_mem_nil (hstale.mpr ⟨h, hnot⟩)
    · exact And.left
  · rw [mem_memberNames_remove, hstale]
    tauto

theorem get_reconcile_ne {w : World} {key : IndexKey} {keep : List String} {other : RedisKey}
    (h : other ≠ .index key) : (w.reconcile key keep).redis.get (w.reconcile key keep).now other =
      w.redis.get w.now other := by
  unfold World.reconcile
  split
  · rfl
  · exact get_keep_ne h

variable {α β : Type}

/-- The commands of a loop to Redis. -/
def onWorld (c : Code α) : SiteCode β α := c.onPart (worldPart β)

/-- A LIST; S3 answers or the request raises. -/
def askS3 (f : β → α) : SiteCode β α :=
  call fun s r =>
    match r with
    | .ok => some (.ok (f s.s3), s)
    | .raised e _ => some (.error e, s)
    | .names _ => none

/-- `download_tile`: every failure but a cancellation counts as a missing object. -/
def downloadTile (f : β → Option α) : SiteCode β (Option α) :=
  call fun s r =>
    match r with
    | .ok => some (.ok (f s.s3), s)
    | .raised .cancelled _ => some (.error .cancelled, s)
    | .raised .error _ => some (.ok none, s)
    | .names _ => none

/-- A GET that raises when the object is not there. -/
def getObject (f : β → Bool) : SiteCode β Unit :=
  call fun s r =>
    match r with
    | .ok => some (if f s.s3 then .ok () else .error .error, s)
    | .raised e _ => some (.error e, s)
    | .names _ => none

/-- `SET` with `EX`; Redis refuses a zero expiry. -/
def storeEx (key : RedisKey) (ttl : Nat) : SiteCode β Unit :=
  if ttl = 0 then raise .error else onWorld (command (World.setEx key ttl))

def each (f : α → SiteCode β Unit) : List α → SiteCode β Unit
  | [] => pure ()
  | a :: as => do
    f a
    each f as

/-- `except Exception` -/
def catchError (body handler : SiteCode β α) : SiteCode β α :=
  body.tryCatch fun e => if e = .cancelled then raise e else handler

section Within

variable {F : World → World → Prop}

/-- The moves of the commands to Redis; S3 is only read. -/
theorem within_onWorld {c : Code α} (h : c.Within F) :
    (onWorld c : SiteCode β α).Within fun s t => F s.world t.world := by
  refine within_mono ?_ (within_onPart (worldPart β) h)
  rintro s t ⟨w, hw, rfl⟩
  exact hw

theorem within_askS3 (hrefl : ∀ w, F w w) (f : β → α) :
    (askS3 f).Within fun s t => F s.world t.world := by
  apply within_call
  intro s r x t ht
  cases r <;> cases ht <;> exact hrefl s.world

theorem within_getObject (hrefl : ∀ w, F w w) (f : β → Bool) :
    (getObject f).Within fun s t => F s.world t.world := by
  apply within_call
  intro s r x t ht
  cases r <;> cases ht <;> exact hrefl s.world

theorem within_storeEx (hrefl : ∀ w, F w w) {key : RedisKey} {ttl : Nat}
    (h : ∀ w, F w (w.setEx key ttl)) :
    (storeEx key ttl : SiteCode β Unit).Within fun s t => F s.world t.world := by
  unfold storeEx
  split
  · trivial
  · exact within_onWorld (within_command hrefl h)

theorem within_catchError {G : Site β → Site β → Prop} {body handler : SiteCode β α}
    (h : body.Within G) (hhandler : handler.Within G) : (catchError body handler).Within G := by
  apply within_tryCatch h
  intro e
  split
  · trivial
  · exact hhandler

theorem within_each {G : Site β → Site β → Prop} {f : α → SiteCode β Unit} {l : List α}
    (h : ∀ a ∈ l, (f a).Within G) : (each f l).Within G := by
  induction l with
  | nil => trivial
  | cons a l ih =>
    exact within_bind (h a List.mem_cons_self) fun _ => ih fun b hb => h b (List.mem_cons_of_mem a hb)

end Within

section Safe

variable {R : Site β → Site β → Prop} {I : Site β → Prop} {E : SyncExn → Site β → Prop}
  {s : Site β}

theorem safe_askS3 {Q : α → Site β → Prop} {f : β → α}
    (h : ∀ t, R s t → I t ∧ Q (f t.s3) t ∧ ∀ e, E e t) : (askS3 f).Safe R I Q E s := by
  apply safe_call
  intro t ht
  obtain ⟨hI, hQ, hE⟩ := h t ht
  refine ⟨hI, fun r a u hu => ?_, fun r e u hu => ?_⟩
  · cases r <;> cases hu
    exact hQ
  · cases r <;> cases hu
    exact hE e

theorem safe_downloadTile {Q : Option α → Site β → Prop} {f : β → Option α}
    (h : ∀ t, R s t → I t ∧ Q (f t.s3) t ∧ Q none t ∧ ∀ e, E e t) :
    (downloadTile f).Safe R I Q E s := by
  apply safe_call
  intro t ht
  obtain ⟨hI, hfound, hnone, hE⟩ := h t ht
  refine ⟨hI, fun r a u hu => ?_, fun r e u hu => ?_⟩
  · cases r with
    | ok =>
      cases hu
      exact hfound
    | raised e landed =>
      cases e <;> cases hu
      exact hnone
    | names l => cases hu
  · cases r with
    | ok => cases hu
    | raised e' landed =>
      cases e' <;> cases hu
      exact hE _
    | names l => cases hu

theorem safe_onCommand {Q : Unit → Site β → Prop} {f : World → World}
    (h : ∀ t, R s t → I t ∧ Q () { t with world := f t.world } ∧
      ∀ e, E e t ∧ E e { t with world := f t.world }) :
    (onWorld (command f) : SiteCode β Unit).Safe R I Q E s := by
  intro t ht
  obtain ⟨hI, hQ, hE⟩ := h t ht
  refine ⟨hI, fun r b u hu => ?_⟩
  cases r with
  | ok =>
    cases hu
    exact hQ
  | raised e landed =>
    cases landed <;> cases hu
    · exact (hE e).1
    · exact (hE e).2
  | names l => cases hu

theorem safe_onReadExists {Q : Bool → Site β → Prop} {key : RedisKey}
    (h : ∀ t, R s t → I t ∧ Q (t.world.redis.get t.world.now key).isSome t ∧ ∀ e, E e t) :
    (onWorld (readExists key) : SiteCode β Bool).Safe R I Q E s := by
  intro t ht
  obtain ⟨hI, hQ, hE⟩ := h t ht
  refine ⟨hI, fun r b u hu => ?_⟩
  cases r <;> cases hu
  · exact hQ
  · exact hE _

theorem safe_catchError {Q : α → Site β → Prop} {body handler : SiteCode β α}
    (h : body.Safe R I Q (fun e t => E e t ∧ handler.Safe R I Q E t) s) :
    (catchError body handler).Safe R I Q E s := by
  apply safe_tryCatch
  refine safe_mono (fun _ _ hq => hq) (fun e t he => ?_) h
  split
  · exact he.1
  · exact he.2

end Safe

section Ends

variable {s : Site β} {E : SyncExn → Site β → Prop}

theorem ends_askS3 {Q : α → Site β → Prop} {f : β → α} (h : Q (f s.s3) s) :
    (askS3 f).Ends .ok Q E s :=
  ends_call rfl h

theorem ends_downloadTile {Q : Option α → Site β → Prop} {f : β → Option α} (h : Q (f s.s3) s) :
    (downloadTile f).Ends .ok Q E s :=
  ends_call rfl h

theorem ends_command {Q : Unit → Site β → Prop} {f : World → World}
    (h : Q () { s with world := f s.world }) :
    (onWorld (command f) : SiteCode β Unit).Ends .ok Q E s := by
  apply ends_onPart
  exact ends_call rfl h

theorem ends_readExists {Q : Bool → Site β → Prop} {key : RedisKey}
    (h : Q (s.world.redis.get s.world.now key).isSome s) :
    (onWorld (readExists key) : SiteCode β Bool).Ends .ok Q E s := by
  apply ends_onPart
  exact ends_call rfl h

theorem ends_readMembers {Q : List String → Site β → Prop} {key : IndexKey}
    (h : Q (s.world.memberNames key)
      (if key.listsUnits then
        { s with world := s.world.record (.found key (s.world.memberNames key)) } else s)) :
    (onWorld (readMembers key) : SiteCode β (List String)).Ends .ok Q E s := by
  apply ends_onPart
  refine ends_call rfl ?_
  split
  · rename_i hk
    rwa [if_pos hk] at h
  · rename_i hk
    rwa [if_neg hk] at h

theorem ends_pruneIndex {Q : Unit → Site β → Prop} {key : IndexKey} {keep : List String}
    (hkey : key.listsUnits = false)
    (h : Q () { s with world := s.world.reconcile key keep }) :
    (onWorld (pruneIndex key keep) : SiteCode β Unit).Ends .ok Q E s := by
  apply ends_onPart
  apply ends_bind
  refine ⟨.ok (s.world.memberNames key), s.world, by simp [worldPart, hkey], ?_⟩
  unfold World.reconcile at h
  show (removeMembers key ((s.world.memberNames key).filter fun name => name ∉ keep)).Ends _ _ _ _
  unfold removeMembers
  split
  · rename_i hnone
    rw [if_pos hnone] at h
    exact h
  · rename_i hsome
    rw [if_neg hsome] at h
    exact ends_call rfl h

theorem ends_getObject {Q : Unit → Site β → Prop} {f : β → Bool} (hok : f s.s3 → Q () s)
    (herror : f s.s3 = false → E .error s) : (getObject f).Ends .ok Q E s := by
  cases hf : f s.s3 with
  | true => exact ⟨.ok (), s, by simp [hf], hok hf⟩
  | false => exact ⟨.error .error, s, by simp [hf], herror hf⟩

/-- What holds of the elements that are done grows from element to element. -/
theorem ends_each {P : List α → Site β → Prop} {f : α → SiteCode β Unit} {l : List α}
    (h : ∀ before a after t, l = before ++ a :: after → P before t →
      (f a).Ends .ok (fun _ u => P (before ++ [a]) u) E t)
    (hs : P [] s) : (each f l).Ends .ok (fun _ t => P l t) E s := by
  suffices hall : ∀ after before t, l = before ++ after → P before t →
      (each f after).Ends .ok (fun _ u => P l u) E t from hall l [] s rfl hs
  intro after
  induction after with
  | nil =>
    rintro before t rfl ht
    rwa [List.append_nil]
  | cons a after ih =>
    rintro before t hl ht
    apply ends_bind
    refine ends_mono (fun _ u hu => ?_) (fun _ _ he => he) (h before a after t hl ht)
    exact ih (before ++ [a]) u (by rw [hl]; simp) hu

theorem ends_catchError {Q : α → Site β → Prop} {body handler : SiteCode β α}
    (h : body.Ends .ok Q (fun e t => e = .error ∧ handler.Ends .ok Q E t) s) :
    (catchError body handler).Ends .ok Q E s := by
  apply ends_tryCatch
  refine ends_mono (fun _ _ hq => hq) ?_ h
  rintro e t ⟨rfl, ht⟩
  exact ht

end Ends

end DataService.Sync
