import DataService.Basemap.ProviderAvailability

/-! A process has one probe at a time, and those who wait for it are behind a check that runs. -/

namespace DataService

namespace Availability

/-- The leaders are those whose futures are in the table, one for each process at most, and whoever
follows awaits such a future. -/
structure OneProbe (s : Availability) : Prop where
  leading : ∀ i c, s.checks i = some c → c.stage.leads = true →
    ∃ cancelled, s.futures c.process = some ⟨i, cancelled⟩
  following : ∀ i c leader, s.checks i = some c → c.stage = .following leader →
    s.futures c.process = some ⟨leader, false⟩
  future : ∀ p future, s.futures p = some future →
    ∃ c, s.checks future.leader = some c ∧ c.process = p ∧ c.stage.leads = true

section Steps

variable {config : Nat → AvailabilityConfig} {ttl : Nat}
variable {s t : Availability} {i j p : Nat} {c d : AvailabilityCheck}
variable {stage : CheckStage} {a : AvailabilityAction}

theorem not_leads (hc : s.checks i = some c) (hleads : c.stage.leads = false) :
    ∀ d, s.checks i = some d → d.stage.leads = false := by
  intro d hd
  obtain rfl := Option.some.inj (hc.symm.trans hd)
  exact hleads

theorem leads_of_reads (h : stage.reads = true) : stage.leads = false := by
  cases stage with
  | reading | read => rfl
  | looking | looked | leading | storing | following | answered | raised => cases h

theorem OneProbe.leader_ne (h : s.OneProbe) {q : Nat} {future : SharedFuture}
    (hold : ∀ d, s.checks i = some d → d.stage.leads = false) (hq : s.futures q = some future) :
    future.leader ≠ i := by
  rintro rfl
  obtain ⟨d, hd, -, hleads⟩ := h.future q future hq
  rw [hold d hd] at hleads
  cases hleads

/-- A check that did not lead goes where it neither leads nor follows. -/
theorem OneProbe.setCheck (h : s.OneProbe) (hold : ∀ d, s.checks i = some d → d.stage.leads = false)
    (hleads : c.stage.leads = false) (hfollows : c.stage.follows = false) :
    (s.setCheck i c).OneProbe := by
  refine ⟨fun j d hd hl => ?_, fun j d leader hd hf => ?_, fun q future hq => ?_⟩
  · obtain ⟨-, rfl⟩ | ⟨-, hd⟩ := setCheck_cases hd
    · rw [hleads] at hl
      cases hl
    · exact h.leading j d hd hl
  · obtain ⟨-, rfl⟩ | ⟨-, hd⟩ := setCheck_cases hd
    · rw [hf] at hfollows
      cases hfollows
    · exact h.following j d leader hd hf
  · obtain ⟨d, hd, hdq, hdl⟩ := h.future q future hq
    have hne := h.leader_ne hold hq
    exact ⟨d, by rw [setCheck_checks, if_neg hne, hd], hdq, hdl⟩

theorem OneProbe.lookUp (h : s.OneProbe)
    (hold : ∀ d, s.checks i = some d → d.stage.leads = false) : (s.lookUp i p).OneProbe := by
  unfold Availability.lookUp
  split
  · next hnone =>
    have hp {d : AvailabilityCheck} {future : SharedFuture}
        (hd : s.futures d.process = some future) : d.process ≠ p := by
      intro heq
      rw [heq, hnone] at hd
      cases hd
    refine ⟨fun j d hd hl => ?_, fun j d leader hd hf => ?_, fun q future hq => ?_⟩
    · rw [setFuture_futures]
      obtain ⟨hj, rfl⟩ | ⟨-, hd⟩ := setCheck_cases hd
      · exact ⟨false, by rw [if_pos rfl, hj]⟩
      · obtain ⟨cancelled, hd'⟩ := h.leading j d hd hl
        exact ⟨cancelled, by rw [if_neg (hp hd'), setCheck_futures, hd']⟩
    · rw [setFuture_futures]
      obtain ⟨-, rfl⟩ | ⟨-, hd⟩ := setCheck_cases hd
      · cases hf
      · have hd' := h.following j d leader hd hf
        rw [if_neg (hp hd'), setCheck_futures, hd']
    · rw [setFuture_futures] at hq
      split at hq
      · next heq =>
        obtain rfl := Option.some.inj hq
        exact ⟨⟨p, .leading s.now⟩, by simp [setCheck_checks], heq.symm, rfl⟩
      · obtain ⟨d, hd, hdq, hdl⟩ := h.future q future hq
        have hne := h.leader_ne hold hq
        exact ⟨d, setCheck_checks.trans ((if_neg hne).trans hd), hdq, hdl⟩
  · exact h.setCheck hold rfl rfl
  · next leader hpending =>
    refine ⟨fun j d hd hl => ?_, fun j d l hd hf => ?_, fun q future hq => ?_⟩
    · obtain ⟨-, rfl⟩ | ⟨-, hd⟩ := setCheck_cases hd
      · cases hl
      · exact h.leading j d hd hl
    · obtain ⟨-, rfl⟩ | ⟨-, hd⟩ := setCheck_cases hd
      · cases hf
        exact hpending
      · exact h.following j d l hd hf
    · obtain ⟨d, hd, hdq, hdl⟩ := h.future q future hq
      have hne := h.leader_ne hold hq
      exact ⟨d, setCheck_checks.trans ((if_neg hne).trans hd), hdq, hdl⟩

theorem endFollower_of_leads (hleads : c.stage.leads = true) : endFollower p stage c = c := by
  have hfollows : c.stage.follows = false := by
    cases hstage : c.stage <;> simp_all [CheckStage.leads, CheckStage.follows]
  simp [endFollower, hfollows]

theorem OneProbe.endFollowers (h : s.OneProbe) (hleads : stage.leads = false)
    (hfollows : stage.follows = false) : (s.endFollowers p stage).OneProbe := by
  refine ⟨fun j d hd hl => ?_, fun j d leader hd hf => ?_, fun q future hq => ?_⟩
  · obtain ⟨c, hc, rfl⟩ := Option.map_eq_some_iff.mp hd
    rcases endFollower_cases p stage c with ⟨hsame, -⟩ | ⟨-, -, hended⟩
    · rw [hsame] at hl ⊢
      exact h.leading j c hc hl
    · rw [hended] at hl
      exact absurd (hleads.symm.trans hl) (by decide)
  · obtain ⟨c, hc, rfl⟩ := Option.map_eq_some_iff.mp hd
    rcases endFollower_cases p stage c with ⟨hsame, -⟩ | ⟨-, -, hended⟩
    · rw [hsame] at hf ⊢
      exact h.following j c leader hc hf
    · rw [hended] at hf
      subst hf
      cases hfollows
  · obtain ⟨c, hc, hcq, hcl⟩ := h.future q future hq
    exact ⟨c, Option.map_eq_some_iff.mpr ⟨c, hc, endFollower_of_leads hcl⟩, hcq, hcl⟩

theorem endFollowers_follows (hfollows : stage.follows = false)
    (hd : (s.endFollowers p stage).checks j = some d) (hp : d.process = p) :
    d.stage.follows = false := by
  obtain ⟨c, hc, rfl⟩ := Option.map_eq_some_iff.mp hd
  rcases endFollower_cases p stage c with ⟨hsame, hnot⟩ | ⟨-, -, hended⟩
  · rw [hsame] at hp ⊢
    exact hnot hp
  · rw [hended]
    exact hfollows

/-- Once nobody follows in a process, its leader may leave. -/
theorem OneProbe.drop (h : s.OneProbe) (hc : s.checks i = some c) (hleads : c.stage.leads = true)
    (hnone : ∀ j d, s.checks j = some d → d.process = c.process → d.stage.follows = false)
    (hended : stage.leads = false) (hfollows : stage.follows = false) :
    ((s.setCheck i ⟨c.process, stage⟩).setFuture c.process none).OneProbe := by
  obtain ⟨cancelled, hfuture⟩ := h.leading i c hc hleads
  refine ⟨fun j d hd hl => ?_, fun j d leader hd hf => ?_, fun q future hq => ?_⟩
  · obtain ⟨-, rfl⟩ | ⟨hj, hd⟩ := setCheck_cases hd
    · exact absurd (hended.symm.trans hl) (by decide)
    · obtain ⟨cancelled', hd'⟩ := h.leading j d hd hl
      have hne : d.process ≠ c.process := by
        intro heq
        rw [heq, hfuture] at hd'
        cases hd'
        exact hj rfl
      exact ⟨cancelled', by rw [setFuture_futures, if_neg hne, setCheck_futures, hd']⟩
  · obtain ⟨-, rfl⟩ | ⟨-, hd⟩ := setCheck_cases hd
    · subst hf
      cases hfollows
    · have hne : d.process ≠ c.process := by
        intro heq
        have hno := hnone j d hd heq
        rw [hf] at hno
        cases hno
      rw [setFuture_futures, if_neg hne, setCheck_futures]
      exact h.following j d leader hd hf
  · rw [setFuture_futures] at hq
    split at hq
    · cases hq
    · next hne =>
      obtain ⟨d, hd, hdq, hdl⟩ := h.future q future hq
      have hleader : future.leader ≠ i := by
        intro heq
        rw [heq, hc] at hd
        obtain rfl := Option.some.inj hd
        exact hne hdq.symm
      exact ⟨d, setCheck_checks.trans ((if_neg hleader).trans hd), hdq, hdl⟩

theorem OneProbe.leave (h : s.OneProbe) (hc : s.checks i = some c) (hleads : c.stage.leads = true)
    (hended : stage.leads = false) (hfollows : stage.follows = false) :
    (s.leave i c.process stage).OneProbe := by
  have hsame : (s.endFollowers c.process stage).checks i = some c :=
    Option.map_eq_some_iff.mpr ⟨c, hc, endFollower_of_leads hleads⟩
  exact (h.endFollowers hended hfollows).drop hsame hleads
    (fun _ _ hd hp => endFollowers_follows hfollows hd hp) hended hfollows

/-- The future of a process whose followers have all ended. -/
theorem OneProbe.cancel (h : s.OneProbe) {leader : Nat}
    (hfuture : s.futures p = some ⟨leader, false⟩)
    (hnone : ∀ j d, s.checks j = some d → d.process = p → d.stage.follows = false) :
    (s.setFuture p (some ⟨leader, true⟩)).OneProbe := by
  refine ⟨fun j d hd hl => ?_, fun j d l hd hf => ?_, fun q future hq => ?_⟩
  · obtain ⟨cancelled, hd'⟩ := h.leading j d hd hl
    rw [setFuture_futures]
    split
    · next heq =>
      rw [heq, hfuture] at hd'
      cases hd'
      exact ⟨true, rfl⟩
    · exact ⟨cancelled, hd'⟩
  · have hne : d.process ≠ p := by
      intro heq
      have hno := hnone j d hd heq
      rw [hf] at hno
      cases hno
    rw [setFuture_futures, if_neg hne]
    exact h.following j d l hd hf
  · rw [setFuture_futures] at hq
    split at hq
    · next heq =>
      obtain rfl := Option.some.inj hq
      obtain ⟨d, hd, hdp, hdl⟩ := h.future p _ hfuture
      exact ⟨d, hd, hdp.trans heq.symm, hdl⟩
    · exact h.future q future hq

theorem OneProbe.failed (h : s.OneProbe) (hc : s.checks i = some c) (ht : s.failed i c = some t) :
    t.OneProbe := by
  obtain ⟨q, stage⟩ := c
  cases stage with
  | looking | reading | read =>
    obtain rfl := Option.some.inj ht
    exact h.setCheck (not_leads hc rfl) rfl rfl
  | leading | storing =>
    obtain rfl := Option.some.inj ht
    exact h.leave hc rfl rfl rfl
  | following leader =>
    obtain rfl := Option.some.inj ht
    have hended : (s.endFollowers q .raised).OneProbe := h.endFollowers rfl rfl
    exact hended.cancel (h.following i _ leader hc rfl)
      fun _ _ hd hp => endFollowers_follows rfl hd hp
  | looked | answered | raised => cases ht

theorem OneProbe.of_eq (h : s.OneProbe) (hchecks : t.checks = s.checks)
    (hfutures : t.futures = s.futures) : t.OneProbe := by
  constructor
  · rw [hchecks, hfutures]
    exact h.leading
  · rw [hchecks, hfutures]
    exact h.following
  · rw [hchecks, hfutures]
    exact h.future

/-- The leader goes on to its `SET`, and leads on. -/
theorem OneProbe.store (h : s.OneProbe) {began : Nat} {v : Verdict}
    (hc : s.checks i = some ⟨p, .leading began⟩) : (s.store i p v).OneProbe := by
  refine ⟨fun j d hd hl => ?_, fun j d leader hd hf => ?_, fun q future hq => ?_⟩
  · obtain ⟨rfl, rfl⟩ | ⟨-, hd⟩ := setCheck_cases hd
    · exact h.leading j ⟨p, .leading began⟩ hc rfl
    · exact h.leading j d hd hl
  · obtain ⟨-, rfl⟩ | ⟨-, hd⟩ := setCheck_cases hd
    · cases hf
    · exact h.following j d leader hd hf
  · obtain ⟨d, hd, hdq, hdl⟩ := h.future q future hq
    by_cases hleader : future.leader = i
    · rw [hleader, hc] at hd
      obtain rfl := Option.some.inj hd
      exact ⟨⟨p, .storing v⟩, setCheck_checks.trans (if_pos hleader), hdq, rfl⟩
    · exact ⟨d, setCheck_checks.trans ((if_neg hleader).trans hd), hdq, hdl⟩

theorem OneProbe.record (h : s.OneProbe) {began : Nat} {v : Verdict} {k : AvailabilityConfig}
    (hc : s.checks i = some ⟨p, .leading began⟩) : (s.record k i p v).OneProbe := by
  have hnote : (s.note v).OneProbe := h.of_eq rfl rfl
  unfold Availability.record
  split
  · exact hnote.store hc
  · exact hnote.leave (c := ⟨p, .leading began⟩) hc rfl rfl rfl

theorem OneProbe.enter (h : s.OneProbe) (hnew : s.checks i = none) (k : AvailabilityConfig) :
    (s.enter k i p).OneProbe := by
  have hold : ∀ d, s.checks i = some d → d.stage.leads = false := by
    intro d hd
    rw [hnew] at hd
    cases hd
  unfold Availability.enter
  split
  · split
    · exact h.setCheck hold rfl rfl
    · exact h.lookUp hold
  · split <;> exact h.setCheck hold rfl rfl

theorem oneProbe_step (h : s.OneProbe) (ht : step config ttl s a = some t) : t.OneProbe := by
  cases a with
  | wait time =>
    obtain rfl := Option.some.inj ht
    exact h.of_eq rfl rfl
  | check i p =>
    obtain ⟨hnew, hsome⟩ := Option.ite_none_right_eq_some.mp ht
    obtain rfl := Option.some.inj hsome
    exact h.enter hnew (config p)
  | look i found =>
    obtain ⟨p, began, hc, rfl⟩ := step_look ht
    have hset := h.setCheck (c := ⟨p, .looked (found.getD false) s.now⟩) (not_leads hc rfl) rfl rfl
    exact hset.of_eq rfl rfl
  | get i =>
    obtain ⟨p, e, hc, -, rfl⟩ := step_get ht
    exact h.setCheck (not_leads hc rfl) rfl rfl
  | hit i =>
    obtain ⟨p, v, time, hc, rfl⟩ := step_hit ht
    exact h.setCheck (not_leads hc rfl) rfl rfl
  | miss i =>
    obtain ⟨p, stage, hc, hreads, rfl⟩ := step_miss ht
    exact h.lookUp (not_leads hc (leads_of_reads hreads))
  | probed i probeOk s3Ok =>
    obtain ⟨p, began, hc, rfl⟩ := step_probed ht
    exact h.record hc
  | land v =>
    obtain ⟨-, hsome⟩ := Option.ite_none_right_eq_some.mp ht
    obtain rfl := Option.some.inj hsome
    exact h.of_eq rfl rfl
  | lost v =>
    obtain ⟨-, hsome⟩ := Option.ite_none_right_eq_some.mp ht
    obtain rfl := Option.some.inj hsome
    exact h.of_eq rfl rfl
  | stored i =>
    obtain ⟨p, v, hc, rfl⟩ := step_stored ht
    exact h.leave hc rfl rfl rfl
  | fail i =>
    obtain ⟨c, hc, hfailed⟩ := Option.bind_eq_some_iff.mp ht
    exact h.failed hc hfailed
  | evict =>
    obtain rfl := Option.some.inj ht
    exact h.of_eq rfl rfl

theorem oneProbe_start : start.OneProbe := by
  constructor <;> simp [start]

end Steps

/-- For all checks of all processes, in any order and with any failures: with the online fallback an
answer is the verdict of a probe that ended no longer ago than the flag is kept and its `SET` and
`GET` take; so whatever the probes agree on from some time on is what everybody is told a while
later. Without it, an answer is what the check's own look into S3 has found. A process has one probe
at a time, and whoever waits for it is behind a check that runs. -/
theorem availability_fresh {config : Nat → AvailabilityConfig} {getDelay setDelay ttl : Nat}
    {as : List AvailabilityAction} {s : Availability}
    (hpunctual : StepSystem.Along (step config ttl) (Punctual getDelay setDelay) start as)
    (h : StepSystem.run (step config ttl) start as = some s) :
    (∀ i p v time, s.checks i = some ⟨p, .answered v time⟩ →
      (config p).onlineFallback = true ∧ v ∈ s.verdicts ∧ v.finish ≤ time ∧
        time ≤ v.finish + (setDelay + ttl + getDelay)) ∧
    (∀ since available, (∀ v ∈ s.verdicts, since ≤ v.finish → v.available = available) →
      ∀ i p v time, s.checks i = some ⟨p, .answered v time⟩ →
        since + (setDelay + ttl + getDelay) ≤ time → v.available = available) ∧
    (∀ i p available time, s.checks i = some ⟨p, .looked available time⟩ →
      (config p).onlineFallback = false ∧ ((config p).s3 = false ∧ available = false ∨
        ∃ look ∈ s.looks, look.check = i ∧ look.finish = time ∧
          look.found.getD false = available)) ∧
    (∀ i j c d, s.checks i = some c → s.checks j = some d → c.stage.leads = true →
      d.stage.leads = true → c.process = d.process →
        i = j ∧ (config c.process).onlineFallback = true) ∧
    ∀ i p leader, s.checks i = some ⟨p, .following leader⟩ →
      ∃ d, s.checks leader = some d ∧ d.process = p ∧ d.stage.leads = true := by
  have hfresh : s.Fresh getDelay setDelay ttl :=
    StepSystem.run_invariant_along (fun _ _ _ hs hG ht => fresh_step hs hG ht) fresh_start
      hpunctual h
  have hconfigured : s.Configured config :=
    StepSystem.run_invariant (fun _ _ _ hs ht => configured_step hs ht) configured_start h
  have hone : s.OneProbe :=
    StepSystem.run_invariant (fun _ _ _ hs ht => oneProbe_step hs ht) oneProbe_start h
  refine ⟨fun i p v time hc => ⟨hconfigured i _ hc, hfresh.checks i _ hc⟩, ?_,
    fun i p available time hc => hconfigured i _ hc, ?_, ?_⟩
  · intro since available hagree i p v time hc hlate
    obtain ⟨hmem, -, hbound⟩ :
        v ∈ s.verdicts ∧ v.finish ≤ time ∧ time ≤ v.finish + (setDelay + ttl + getDelay) :=
      hfresh.checks i _ hc
    exact hagree v hmem (by omega)
  · intro i j c d hc hd hcl hdl hprocess
    have honline := (hconfigured i c hc).online (.inr (.inl hcl))
    obtain ⟨cancelled, hi⟩ := hone.leading i c hc hcl
    obtain ⟨cancelled', hj⟩ := hone.leading j d hd hdl
    rw [hprocess, hj] at hi
    cases hi
    exact ⟨rfl, honline⟩
  · intro i p leader hc
    obtain ⟨d, hd, hdp, hdl⟩ := hone.future p _ (hone.following i _ leader hc rfl)
    exact ⟨d, hd, hdp, hdl⟩

def sampleConfig (process : Nat) : AvailabilityConfig := ⟨process < 2, true, true⟩

/-- A flag that Redis reads in its last second is the answer a while later; a process without the
online fallback looks for itself. -/
theorem availability_fresh_other_process : ∃ s, StepSystem.run (step sampleConfig 240) start
      [.check 0 0, .miss 0, .wait 2, .probed 0 true false, .wait 1, .land ⟨0, 2, true, false⟩,
        .wait 239, .check 1 1, .get 1, .wait 4, .hit 1, .check 2 2, .look 2 (some false)] = some s ∧
    s.checks 1 = some ⟨1, .answered ⟨0, 2, true, false⟩ 246⟩ ∧ 246 ≤ 2 + (5 + 240 + 5) ∧
    s.checks 2 = some ⟨2, .looked false 246⟩ := by
  have hpunctual : StepSystem.Along (step sampleConfig 240) (Punctual 5 5) start
      [.check 0 0, .miss 0, .wait 2, .probed 0 true false, .wait 1, .land ⟨0, 2, true, false⟩,
        .wait 239, .check 1 1, .get 1, .wait 4, .hit 1, .check 2 2, .look 2 (some false)] := by
    simp [StepSystem.Along, Punctual, step, start, enter, sampleConfig, lookUp, record, note, store,
      setCheck, setFuture, cached, CheckStage.reads, Option.filter]
  refine ⟨_, rfl, rfl, ?_, rfl⟩
  exact ((availability_fresh hpunctual rfl).1 1 1 ⟨0, 2, true, false⟩ 246 rfl).2.2.2

end Availability

end DataService
