import DataService.WeatherStations.OrderWalk

/-! Runs in which write-backs land late. -/

namespace DataService.WeatherCache

open Coroutine Coro HourBuckets Series UtcDateTime DataService.WeatherCache.World

variable {ρ π : Type} {cfg : CacheConfig ρ π} {w : World ρ π} {s t : CacheState ρ π}

/-- Every task and the cycle keep to their specification from here on. -/
structure CacheState.Paced (s : CacheState ρ π) : Prop where
  world : s.world.Ordered
  tasks : ∀ task ∈ s.tasks, task.code.Settled ∧
    Steady Later (Answer.Recent task.arrived task.request) task.code s.world
  cycle : ∀ c ∈ s.cycle, c.Settled ∧
    c.Honours Aside Later (fun _ _ => True) (fun _ _ => True) s.world

/-- What was left alone keeps its specification, what was started or resumed has one. -/
theorem CacheState.Paced.later (h : s.Paced) (hw : Later s.world t.world)
    (htasks : ∀ task ∈ t.tasks, task ∉ s.tasks → task.code.Settled ∧
      Steady Later (Answer.Recent task.arrived task.request) task.code t.world)
    (hcycle : ∀ c ∈ t.cycle, c.Settled ∧
      c.Honours Aside Later (fun _ _ => True) (fun _ _ => True) t.world) : t.Paced := by
  refine ⟨hw.ordered h.world, fun task htask => ?_, hcycle⟩
  by_cases hold : task ∈ s.tasks
  · obtain ⟨hsettled, hk⟩ := h.tasks task hold
    exact ⟨hsettled, honours_rely rely_later.trans hsettled hk hw (fun _ ha => ha.later hw) fun _ _ => trivial⟩
  · exact htasks task htask hold

theorem CacheState.Paced.cycle_aside (h : s.Paced) (hw : Aside s.world w) :
    ∀ c ∈ s.cycle, c.Settled ∧ c.Honours Aside Later (fun _ _ => True) (fun _ _ => True) w := by
  intro c hc
  obtain ⟨hsettled, hk⟩ := h.cycle c hc
  exact ⟨hsettled, honours_rely rely_aside.trans hsettled hk hw (fun _ _ => trivial) fun _ _ => trivial⟩

theorem CacheState.Paced.frame (h : s.Paced) (hw : Aside s.world t.world)
    (htasks : t.tasks ⊆ s.tasks) (hcycle : ∀ c ∈ t.cycle, c ∈ s.cycle) : t.Paced :=
  h.later hw.toLater (fun _ htask hnew => absurd (htasks htask) hnew)
    fun c hc => h.cycle_aside hw c (hcycle c hc)

theorem CacheState.Paced.setCycle (h : s.Paced) {p : Code ρ π Unit × World ρ π}
    (hw : Later s.world p.2) (hsettled : p.1.Settled)
    (hk : p.1.Honours Aside Later (fun _ _ => True) (fun _ _ => True) p.2) :
    (s.setCycle p).Paced := by
  obtain ⟨c, w⟩ := p
  cases c with
  | ret _ | raise _ =>
    exact h.later hw (fun _ htask hnew => absurd htask hnew) fun _ hc => by cases hc
  | atom _ _ => exact hsettled.elim
  | await _ _ =>
    refine h.later hw (fun _ htask hnew => absurd htask hnew) fun c hc => ?_
    cases hc
    exact ⟨trivial, hk⟩

/-- What answers have brought is no newer than a punctual write-back. -/
theorem answered_le (h : w.Ordered) {moment stamp : Nat} (hdated : Dated w.history.log moment stamp)
    (hpunctual : Punctual w.history.log .latest moment) {answer : LatestAnswer}
    (hanswer : .returned answer ∈ w.history.log) : answer.stamp ≤ stamp :=
  hdated.le (h.returned answer hanswer) (hpunctual.2 rfl _ hanswer answer rfl)

theorem aside_landed (w : World ρ π) (i : Nat) {p : CacheKey × Sourced (CacheValue ρ π)}
    (hp : w.writeBacks[i]? = some p) (landed : Bool)
    (hpunctual : landed = true → p.1.tracked = true →
      Punctual w.history.log p.1 p.2.origin.moment) :
    Aside w { (if landed then w.setRedis p.1 p.2 else w) with
      writeBacks := w.writeBacks.eraseIdx i } := by
  have hmem : p ∈ w.writeBacks := List.mem_of_getElem? hp
  have hsub : ∀ q ∈ w.writeBacks.eraseIdx i, q ∈ w.writeBacks := fun q hq =>
    List.mem_of_mem_eraseIdx hq
  cases landed with
  | true =>
    refine aside_of_ordered (fun h => ?_) rfl rfl rfl
    have hset : (w.setRedis p.1 p.2).Ordered := by
      refine h.setRedis (fun htracked => ?_) fun hkey body hbody => ?_
      · exact inOrder_of_punctual h.completed (hpunctual rfl htracked).1
      · have hdated := h.writeBacks p hmem hkey body hbody
        have hlatest := hpunctual rfl (by rw [hkey]; rfl)
        rw [hkey] at hlatest
        exact ⟨hdated, fun _ hanswer => answered_le h hdated hlatest hanswer⟩
    exact hset.frame rfl rfl rfl rfl fun q hq => .inl (hsub q hq)
  | false =>
    refine aside_of_ordered (fun h => ?_) rfl rfl rfl
    exact h.frame rfl rfl rfl rfl fun q hq => .inl (hsub q hq)

theorem aside_expire (w : World ρ π) (key : CacheKey) :
    Aside w { w with redis := w.redis.erase key } := by
  have hsub (key' : CacheKey) (slot : Slot (CacheValue ρ π))
      (hslot : (w.redis.erase key).lookup key' = some slot) : w.redis.lookup key' = some slot := by
    have hne : key' ≠ key := by
      rintro rfl
      rw [AList.lookup_erase key' w.redis] at hslot
      cases hslot
    exact (AList.lookup_erase_ne hne).symm.trans hslot
  refine aside_of_ordered (fun h => ?_) rfl rfl rfl
  exact
    { h with
      writes := fun key' slot htracked hslot => h.writes key' slot htracked (hsub key' slot hslot)
      cached := fun slot body hslot hbody => h.cached slot body (hsub CacheKey.latest slot hslot) hbody }

/-- The rule that deletes snapshots spares latest.json. -/
theorem aside_expireObject (w : World ρ π) {key : S3Key} (hkey : snapshotsPrefix <+: key) :
    Aside w { w with bucket := w.bucket.erase key } := by
  have hne : latestObject ≠ key := by
    rintro rfl
    exact absurd hkey (by decide)
  have hkept : (w.bucket.erase key).lookup latestObject = w.bucket.lookup latestObject :=
    AList.lookup_erase_ne hne
  refine ⟨⟨⟨fun h => ?_, List.prefix_refl _, le_rfl⟩, hkept, fun _ h => h⟩, rfl⟩
  exact { h with latest := fun body hbody => h.latest body (hkept.symm.trans hbody) }

theorem aside_tick (w : World ρ π) {now : DateTime} (elapsed : Nat) (hnow : w.now ≤ now) :
    Aside w { w with now := now, monotonic := w.monotonic + elapsed } := by
  have hstamp : w.now.stamp ≤ now.stamp := DateTime.le_def.mp hnow
  refine ⟨⟨⟨fun h => ?_, List.prefix_refl _, hstamp⟩, rfl, fun _ h => h⟩, rfl⟩
  exact { h with clock := fun stamp hs => (h.clock stamp hs).trans hstamp }

theorem aside_restart (w : World ρ π) :
    Aside w { w with listCache := ∅, listLocks := [], writeBacks := [] } :=
  aside_of_ordered (fun h => h.frame rfl rfl rfl rfl fun _ hp => absurd hp List.not_mem_nil)
    rfl rfl rfl

/-- A snapshot is answered that is no newer than what Redis has. -/
theorem aside_returned (h : w.Ordered) {task : ReadTask ρ π} {body : Sourced (Body ρ)}
    (hrequest : task.request = .latest)
    (hrecent : (Answer.snapshot (some body)).Recent task.arrived task.request w)
    (hcached : ∀ slot, w.redis.lookup .latest = some slot → Without w.history.log
      (Event.isUploadOf latestObject) slot.origin.moment body.origin.moment) :
    Aside w
      { w with
        history := w.history.note
          (.returned ⟨task.arrived, body.origin.moment, body.value.scrapedAt.stamp⟩) } := by
  have hdated := hrecent.dated hrequest body rfl
  refine aside_note w rfl ⟨fun _ _ he => (by cases he), fun answer he => ?_, fun answer he => ?_,
    fun answer he slot cached hslot hvalue => ?_⟩
  · cases he
    exact ⟨hdated, hrecent.past⟩
  · cases he
    exact hrecent.former hrequest body rfl
  · cases he
    exact (h.cached slot cached hslot hvalue).1.le hdated (hcached slot hslot)

theorem paced_respond (h : s.Paced) {i : Nat} (hG : Forward s (.respond i))
    (hstep : cacheStep cfg s (.respond i) = some t) : t.Paced := by
  obtain ⟨task, htask, hstep⟩ := Option.bind_eq_some_iff.mp hstep
  have hsub : s.tasks.eraseIdx i ⊆ s.tasks := (List.eraseIdx_sublist ..).subset
  have hleave : ({ s with tasks := s.tasks.eraseIdx i } : CacheState ρ π).Paced :=
    h.frame (aside_refl _) hsub fun _ hc => hc
  unfold CacheState.respond at hstep
  split at hstep
  · rename_i body hcode
    cases hstep
    split
    · rename_i hrequest
      have hk := (h.tasks task (List.mem_of_getElem? htask)).2
      rw [hcode] at hk
      have hread : task.latestRead = some body.origin.moment := by
        simp [ReadTask.latestRead, hrequest, hcode]
      have hw := aside_returned h.world hrequest hk fun slot hslot => hG task htask _ hread slot hslot
      exact h.frame hw hsub fun _ hc => hc
    · exact hleave
  · cases hstep
    exact hleave
  · cases hstep
    exact hleave
  · cases hstep

theorem paced_step (h : s.Paced) {a : CacheAction ρ} (hG : Forward s a)
    (hstep : cacheStep cfg s a = some t) : t.Paced := by
  cases a with
  | arrive worker request =>
    cases hstep
    obtain ⟨hw, hk⟩ := honours_settle aside_refl rely_aside.trans
      (steady_serve cfg h.world worker request)
    refine h.later hw.toLater (fun task htask hnew => ?_) (h.cycle_aside hw)
    rcases List.mem_append.mp htask with hold | hlast
    · exact absurd hold hnew
    · obtain rfl := List.mem_singleton.mp hlast
      exact ⟨settled_settle _ _, hk⟩
  | resume i r =>
    obtain ⟨task, htask, hstep⟩ := Option.bind_eq_some_iff.mp hstep
    obtain ⟨p, hp, rfl⟩ := Option.map_eq_some_iff.mp hstep
    obtain ⟨hw, hk⟩ := honours_answer aside_refl rely_aside.trans
      (h.tasks task (List.mem_of_getElem? htask)).2 (later_refl _) hp
    refine h.later hw.toLater (fun other hother hnew => ?_) (h.cycle_aside hw)
    rcases List.mem_or_eq_of_mem_set hother with hold | rfl
    · exact absurd hold hnew
    · exact ⟨settled_answer hp, hk⟩
  | respond i => exact paced_respond h hG hstep
  | beginCycle =>
    cases hcycle : s.cycle with
    | none =>
      simp only [cacheStep, hcycle, Option.some.injEq] at hstep
      subst hstep
      obtain ⟨hw, hk⟩ := honours_settle later_refl rely_later.trans
        (honours_runSync cfg h.world)
      exact h.setCycle hw (settled_settle _ _) hk
    | some c => simp [cacheStep, hcycle] at hstep
  | resumeCycle r =>
    obtain ⟨c, hc, hstep⟩ := Option.bind_eq_some_iff.mp hstep
    obtain ⟨p, hp, rfl⟩ := Option.map_eq_some_iff.mp hstep
    obtain ⟨hw, hk⟩ := honours_answer later_refl rely_later.trans (h.cycle c hc).2 (aside_refl _) hp
    exact h.setCycle hw (settled_answer hp) hk
  | writeBack i landed =>
    obtain ⟨p, hp, rfl⟩ := Option.map_eq_some_iff.mp hstep
    have hw := aside_landed s.world i hp landed fun hl => hG hl p hp
    exact h.frame hw (fun _ ht => ht) fun _ hc => hc
  | expire key =>
    cases hstep
    exact h.frame (aside_expire s.world key) (fun _ ht => ht) fun _ hc => hc
  | expireObject key =>
    by_cases hkey : snapshotsPrefix <+: key
    · simp only [cacheStep, if_pos hkey, Option.some.injEq] at hstep
      subst hstep
      exact h.frame (aside_expireObject s.world hkey) (fun _ ht => ht) fun _ hc => hc
    · simp [cacheStep, hkey] at hstep
  | tick now elapsed =>
    cases hstep
    exact h.frame (aside_tick s.world elapsed hG) (fun _ ht => ht) fun _ hc => hc
  | restart =>
    cases hstep
    exact h.frame (aside_restart s.world) (fun _ ht => absurd ht List.not_mem_nil) fun _ hc => hc
  | kill =>
    cases hstep
    exact h.frame (aside_refl _) (fun _ ht => ht) fun _ hc => by cases hc

theorem paced_boot (now : DateTime) : (CacheState.boot now : CacheState ρ π).Paced where
  world :=
    { completed := fun _ _ _ h => by cases h
      returned := fun _ h => absurd h List.not_mem_nil
      answers := fun _ h => absurd h List.not_mem_nil
      latest := fun _ h => by cases h
      clock := fun _ h => absurd h List.not_mem_nil
      writes := fun _ _ _ h => by cases h
      cached := fun _ _ h => by cases h
      writeBacks := fun _ hp => absurd hp List.not_mem_nil }
  tasks := fun _ h => absurd h List.not_mem_nil
  cycle := fun _ h => by cases h

theorem World.Ordered.neverBack (h : s.world.Ordered) : s.NeverBack :=
  ⟨fun key slot htracked hslot moment hmoment =>
      ((h.writes key slot htracked hslot).writes moment hmoment).2,
    fun answer hanswer => (h.answers answer hanswer).2⟩

/-- As long as no write-back and no answer is overtaken, the cache does not go back in time. -/
theorem never_back_along (cfg : CacheConfig ρ π) (now : DateTime) (as : List (CacheAction ρ))
    (s : CacheState ρ π) (hG : StepSystem.Along (cacheStep cfg) Forward (.boot now) as)
    (h : StepSystem.run (cacheStep cfg) (.boot now) as = some s) : s.NeverBack :=
  (StepSystem.run_invariant_along
    (fun _ _ _ hp hG hstep => paced_step hp hG hstep) (paced_boot now) hG h).world.neverBack

section Example

def nextScrape : DateTime := ⟨2026, 5, 17, 12, 10, 0, by decide⟩

/-- A request that finds nothing in Redis and reads latest.json. -/
def coldRead : List (CacheAction Unit) := .arrive 0 .latest :: List.replicate 4 (.resume 0 .ok)

def warmRead : List (CacheAction Unit) := .arrive 0 .latest :: List.replicate 2 (.resume 0 .ok)

/-- The write-back lands before the next scrape. -/
def punctualRun : List (CacheAction Unit) :=
  scrape ++ replies 6 ++ [CacheAction.expire .latest] ++ coldRead ++
    [CacheAction.writeBack 0 true, .respond 0, .tick nextScrape 600] ++
    scrape ++ replies 6 ++ warmRead ++ [CacheAction.respond 0]

/-- The write-back lands after the write-through of the next scrape, and the two requests
after that scrape come before and after it. -/
def overtakenRun : List (CacheAction Unit) :=
  scrape ++ replies 6 ++ [CacheAction.expire .latest] ++ coldRead ++
    [CacheAction.respond 0, .tick nextScrape 600] ++ scrape ++ replies 6 ++ warmRead ++
    [CacheAction.respond 0, .writeBack 0 true] ++ warmRead ++ [CacheAction.respond 0]

theorem never_back_punctual : ∃ s : CacheState Unit Unit,
    StepSystem.run (cacheStep bareConfig) (.boot firstScrape) punctualRun = some s ∧ s.NeverBack :=
  ⟨_, rfl, never_back_along bareConfig firstScrape punctualRun _ (by decide) rfl⟩

theorem stale_write_back_wins : ¬ ∀ as (s : CacheState Unit Unit),
    StepSystem.run (cacheStep bareConfig) (.boot firstScrape) as = some s → s.NeverBack := by
  intro h
  have hanswers := (h overtakenRun _ rfl).answers
  have hback := hanswers ⟨12, 5, firstScrape.stamp⟩ (by decide) ⟨11, 9, nextScrape.stamp⟩ (by decide)
  exact absurd hback (by decide)

end Example

end DataService.WeatherCache
