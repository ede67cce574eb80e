import DataService.Basemap.CycleOutcome
import DataService.Basemap.SweepExclusion

/-! What the cycle of the whole fleet leaves behind, provider by provider. -/

namespace DataService

open Coroutine Coro

namespace FleetState

/-- The file of a provider, and the shared memory. -/
def worldOf (s : FleetState) (id : Nat) : World := ⟨s.shared, .new, (s.files id).rows, (s.files id).log⟩

/-- Between the start of a cycle and its end: who waits was not touched, who is swept will
have spent the cycle when the sweep ends by itself, and who is finished has. -/
structure Accounts (before : Nat → ProviderFile) (s : FleetState) : Prop where
  waiting : ∀ g ∈ s.groups, ∀ p ∈ g.waiting, s.files p.providerId = before p.providerId
  sweeping : ∀ g ∈ s.groups, ∀ sweep ∈ g.sweep, sweep.code.Settled ∧
    Leaves (fun _ t => Spent (before sweep.provider.providerId).rows
      (before sweep.provider.providerId).log t) sweep.code (s.world sweep.provider sweep.mem)
  finished : ∀ id, id ∉ s.ids → Spent (before id).rows (before id).log (s.worldOf id)

/-- What the step of one provider does to the others. -/
structure Spares (id : Nat) (s t : FleetState) : Prop where
  files : ∀ k, k ≠ id → t.files k = s.files k
  wall : s.shared.wall ≤ t.shared.wall
  retry : s.shared.storageRetryDue = true → t.shared.storageRetryDue = true

section Groups

variable {before : Nat → ProviderFile} {s t : FleetState} {j k : Nat} {g n h : Group}
  {p : BasemapProvider} {id : Nat}

theorem mem_ids : id ∈ s.ids ↔ ∃ g ∈ s.groups, id ∈ g.ids := List.mem_flatMap

theorem mem_ids_of_waiting {q : BasemapProvider} (hq : q ∈ g.waiting) : q.providerId ∈ g.ids :=
  List.mem_append_right _ (List.mem_map_of_mem hq)

theorem mem_ids_of_sweep {sweep : Sweep} (hsweep : sweep ∈ g.sweep) :
    sweep.provider.providerId ∈ g.ids := by
  refine List.mem_append_left _ ?_
  rw [Option.mem_def] at hsweep
  simp [hsweep]

/-- A provider has its place in one group. -/
theorem ids_disjoint (hnd : s.ids.Nodup) (hg : s.groups[j]? = some g) (hh : s.groups[k]? = some h)
    (hne : k ≠ j) (hid : id ∈ g.ids) : id ∉ h.ids := by
  obtain ⟨hj, rfl⟩ := List.getElem?_eq_some_iff.mp hg
  obtain ⟨hk, rfl⟩ := List.getElem?_eq_some_iff.mp hh
  have hpair := List.pairwise_iff_getElem.mp (List.nodup_flatMap.mp hnd).2
  intro hid'
  rcases Nat.lt_or_gt_of_ne hne with hlt | hgt
  · exact hpair k j hk hj hlt hid' hid
  · exact hpair j k hj hk hgt hid hid'

theorem Spares.calm (hst : s.Spares id t) (mem : Memory) (hp : p.providerId ≠ id) :
    Calm (s.world p mem) (t.world p mem) := by
  have hfile := hst.files p.providerId hp
  refine ⟨?_, ?_, hst.wall, hst.retry⟩
  · show (t.files p.providerId).rows = (s.files p.providerId).rows
    rw [hfile]
  · show cyclesStarted (t.files p.providerId).log = cyclesStarted (s.files p.providerId).log
    rw [hfile]

theorem Spares.calm_file (hst : s.Spares id t) (hk : k ≠ id) : Calm (s.worldOf k) (t.worldOf k) := by
  have hfile := hst.files k hk
  refine ⟨?_, ?_, hst.wall, hst.retry⟩
  · show (t.files k).rows = (s.files k).rows
    rw [hfile]
  · show cyclesStarted (t.files k).log = cyclesStarted (s.files k).log
    rw [hfile]

/-- A sweep goes on beside a step of another provider. -/
theorem leaves_spared {sweep : Sweep} {Q : Nat × Nat → World → Prop} (hst : s.Spares id t)
    (hne : sweep.provider.providerId ≠ id) (hsettled : sweep.code.Settled)
    (hQ : ∀ a w w', Calm w w' → Q a w → Q a w')
    (hk : Leaves Q sweep.code (s.world sweep.provider sweep.mem)) :
    Leaves Q sweep.code (t.world sweep.provider sweep.mem) :=
  honours_rely (fun _ _ _ h h' => h.trans h') hsettled hk (hst.calm sweep.mem hne)
    (fun a ha => hQ a _ _ (hst.calm sweep.mem hne) ha) fun _ _ => trivial

/-- The group that moves has one provider less to scrape, or goes on with the same one. -/
theorem Accounts.set (hs : s.Accounts before) (hnd : s.ids.Nodup) (hg : s.groups[j]? = some g)
    (hids : g.ids = p.providerId :: n.waiting.map (·.providerId)) (hwaiting : n.waiting ⊆ g.waiting)
    (hst : s.Spares p.providerId t) (hgroups : t.groups = s.groups.set j n)
    (hsweep : ∀ sweep ∈ n.sweep, sweep.provider = p ∧ sweep.code.Settled ∧
      Leaves (fun _ w => Spent (before p.providerId).rows (before p.providerId).log w)
        sweep.code (t.world p sweep.mem))
    (hspent : n.sweep = none →
      Spent (before p.providerId).rows (before p.providerId).log (t.worldOf p.providerId)) :
    t.Accounts before := by
  have hj : j < s.groups.length := (List.getElem?_eq_some_iff.mp hg).1
  have hmine : p.providerId ∈ g.ids := by
    rw [hids]
    exact List.mem_cons_self
  have hnext : ∀ q ∈ n.waiting, q.providerId ≠ p.providerId := by
    have hnd' : g.ids.Nodup := (List.nodup_flatMap.mp hnd).1 g (List.mem_of_getElem? hg)
    rw [hids, List.nodup_cons] at hnd'
    intro q hq he
    exact hnd'.1 (he ▸ List.mem_map_of_mem hq)
  -- a group is the one that moved, or one of the others
  have hcases : ∀ x ∈ t.groups, x = n ∨ ∃ k, k ≠ j ∧ s.groups[k]? = some x := by
    intro x hx
    rw [hgroups] at hx
    obtain ⟨k, hk⟩ := List.mem_iff_getElem?.mp hx
    by_cases hkj : k = j
    · subst hkj
      rw [List.getElem?_set_self hj] at hk
      exact .inl (Option.some.inj hk).symm
    · rw [List.getElem?_set_ne (Ne.symm hkj)] at hk
      exact .inr ⟨k, hkj, hk⟩
  have hn : n ∈ t.groups := by
    rw [hgroups]
    exact List.mem_of_getElem? (List.getElem?_set_self hj)
  refine ⟨fun x hx q hq => ?_, fun x hx sweep hx' => ?_, fun id hid => ?_⟩
  · rcases hcases x hx with rfl | ⟨k, hkj, hk⟩
    · rw [hst.files _ (hnext q hq)]
      exact hs.waiting g (List.mem_of_getElem? hg) q (hwaiting hq)
    · have hne : q.providerId ≠ p.providerId := fun he =>
        ids_disjoint hnd hg hk hkj hmine (he ▸ mem_ids_of_waiting hq)
      rw [hst.files _ hne]
      exact hs.waiting x (List.mem_of_getElem? hk) q hq
  · rcases hcases x hx with rfl | ⟨k, hkj, hk⟩
    · obtain ⟨rfl, hsettled, hleaves⟩ := hsweep sweep hx'
      exact ⟨hsettled, hleaves⟩
    · have hne : sweep.provider.providerId ≠ p.providerId := fun he =>
        ids_disjoint hnd hg hk hkj hmine (he ▸ mem_ids_of_sweep hx')
      obtain ⟨hsettled, hleaves⟩ := hs.sweeping x (List.mem_of_getElem? hk) sweep hx'
      exact ⟨hsettled, leaves_spared hst hne hsettled (fun _ _ _ hw hspent => hspent.calm hw) hleaves⟩
  · by_cases hp : id = p.providerId
    · subst hp
      cases hnone : n.sweep with
      | none => exact hspent hnone
      | some sweep =>
        obtain ⟨rfl, -⟩ := hsweep sweep hnone
        exact absurd (mem_ids.mpr ⟨n, hn, mem_ids_of_sweep hnone⟩) hid
    · have hold : id ∉ s.ids := by
        intro hmem
        obtain ⟨x, hx, hxid⟩ := mem_ids.mp hmem
        obtain ⟨k, hk⟩ := List.mem_iff_getElem?.mp hx
        by_cases hkj : k = j
        · subst hkj
          obtain rfl : g = x := Option.some.inj (hg.symm.trans hk)
          rw [hids] at hxid
          have hlater := (List.mem_cons.mp hxid).resolve_left hp
          exact hid (mem_ids.mpr ⟨n, hn, List.mem_append_right _ hlater⟩)
        · have hx' : x ∈ t.groups := by
            rw [hgroups]
            exact List.mem_of_getElem? ((List.getElem?_set_ne (Ne.symm hkj)).trans hk)
          exact hid (mem_ids.mpr ⟨x, hx', hxid⟩)
      exact (hs.finished id hold).calm (hst.calm_file hp)

theorem Accounts.endGroup (hs : s.Accounts before) (hg : s.groups[j]? = some g) (hids : g.ids = []) :
    (s.endGroup j).Accounts before := by
  have hsub : ∀ x ∈ s.groups.eraseIdx j, x ∈ s.groups := fun x hx => List.mem_of_mem_eraseIdx hx
  refine ⟨fun x hx => hs.waiting x (hsub x hx), fun x hx => hs.sweeping x (hsub x hx), fun id hid => ?_⟩
  refine hs.finished id fun hmem => hid ?_
  obtain ⟨x, hx, hxid⟩ := mem_ids.mp hmem
  obtain ⟨k, hk⟩ := List.mem_iff_getElem?.mp hx
  have hkj : k ≠ j := by
    rintro rfl
    obtain rfl : g = x := Option.some.inj (hg.symm.trans hk)
    rw [hids] at hxid
    exact absurd hxid List.not_mem_nil
  exact mem_ids.mpr ⟨x, List.mem_eraseIdx_iff_getElem?.mpr ⟨k, hkj, hk⟩, hxid⟩

theorem Accounts.clocks (hs : s.Accounts before) (mono : Nat) {wall : Nat}
    (hwall : s.shared.wall ≤ wall) :
    ({ s with shared := { s.shared with mono := mono, wall := wall } } : FleetState).Accounts before := by
  have hcalm (p : BasemapProvider) (mem : Memory) : Calm (s.world p mem)
      (({ s with shared := { s.shared with mono := mono, wall := wall } } : FleetState).world p mem) :=
    ⟨rfl, rfl, hwall, fun hr => hr⟩
  refine ⟨hs.waiting, fun g hg sweep hsweep => ?_, fun id hid => ?_⟩
  · obtain ⟨hsettled, hleaves⟩ := hs.sweeping g hg sweep hsweep
    refine ⟨hsettled, honours_rely (fun _ _ _ h h' => h.trans h') hsettled hleaves (hcalm _ _)
      (fun _ hspent => hspent.calm (hcalm _ _)) fun _ _ => trivial⟩
  · exact (hs.finished id hid).calm ⟨rfl, rfl, hwall, fun hr => hr⟩

end Groups

section Steps

variable {cfg : FleetConfig} {before : Nat → ProviderFile} {s t : FleetState} {j : Nat}
  {g n : Group} {p : BasemapProvider}

theorem world_store (s : FleetState) (p : BasemapProvider) (w : World) :
    (s.store p w).world p w.mem = w := by
  simp [world, store]

theorem spares_store {w : World} (hwall : s.shared.wall ≤ w.shared.wall)
    (hretry : s.shared.storageRetryDue = true → w.shared.storageRetryDue = true) :
    s.Spares p.providerId (s.store p w) :=
  ⟨fun _ hk => Function.update_of_ne hk _ _, hwall, hretry⟩

/-- The code of a provider has run to its next await, or to its end without an exception. -/
theorem Accounts.arriveAt (hs : s.Accounts before) (hnd : s.ids.Nodup) (hg : s.groups[j]? = some g)
    (hids : g.ids = p.providerId :: n.waiting.map (·.providerId)) (hwaiting : n.waiting ⊆ g.waiting)
    {out : Code (Nat × Nat) × World} (hwall : out.2.shared.wall = s.shared.wall)
    (hretry : s.shared.storageRetryDue = true → out.2.shared.storageRetryDue = true)
    (hsettled : out.1.Settled)
    (hout : Leaves (fun _ w => Spent (before p.providerId).rows (before p.providerId).log w) out.1 out.2)
    (hend : out.1.exception = none) : (s.arriveAt j n p out).Accounts before := by
  obtain ⟨c, w⟩ := out
  have hst : s.Spares p.providerId (s.store p w) := spares_store hwall.ge hretry
  have hself : (s.store p w).files p.providerId = ⟨w.rows, w.log⟩ := Function.update_self _ _ _
  have hspared (x : Group) : s.Spares p.providerId ((s.store p w).setGroup j x) :=
    ⟨hst.files, hst.wall, hst.retry⟩
  cases c with
  | ret a =>
    refine hs.set (n := { n with sweep := none }) hnd hg hids hwaiting (hspared _) rfl
      (fun sweep hsweep => by cases hsweep) fun _ => ?_
    have hspent : Spent (before p.providerId).rows (before p.providerId).log
        ⟨w.shared, .new, ((s.store p w).files p.providerId).rows, ((s.store p w).files p.providerId).log⟩ := by
      rw [hself]
      exact hout
    exact hspent
  | raise e => cases hend
  | atom f next => exact hsettled.elim
  | await f next =>
    refine hs.set (n := { n with sweep := some ⟨p, w.mem, .await f next⟩ }) hnd hg hids hwaiting
      (hspared _) rfl (fun sweep hsweep => ?_) fun hnone => by cases hnone
    obtain rfl := Option.some.inj hsweep
    refine ⟨rfl, trivial, ?_⟩
    have hworld : ((s.store p w).setGroup j { n with sweep := some ⟨p, w.mem, .await f next⟩ }).world p
        w.mem = w := world_store s p w
    show Leaves _ _ (((s.store p w).setGroup j
      { n with sweep := some ⟨p, w.mem, .await f next⟩ }).world p w.mem)
    rw [hworld]
    exact hout

theorem downloadAndStore_flags {sh sh' : Shared} {stage : TileStage} {r : TileReply}
    {progress : TileProgress} (h : sh.downloadAndStore stage r = some (sh', progress)) :
    sh'.wall = sh.wall ∧ sh'.storageRetryDue = sh.storageRetryDue := by
  unfold Shared.downloadAndStore at h
  split at h
  · split_ifs at h <;> cases h <;> exact ⟨rfl, rfl⟩
  · cases h
    exact ⟨rfl, rfl⟩
  · cases h
    exact ⟨rfl, rfl⟩
  · cases h
    exact ⟨rfl, rfl⟩
  · cases h
    exact ⟨rfl, rfl⟩
  · cases h
    exact ⟨rfl, rfl⟩
  · rename_i issued r
    simp only [Option.some.injEq, Shared.writeThroughRedis] at h
    cases issued with
    | false =>
      cases h
      exact ⟨rfl, rfl⟩
    | true => cases r <;> cases h <;> exact ⟨rfl, rfl⟩
  · cases h
    exact ⟨rfl, rfl⟩
  · cases h
    exact ⟨rfl, rfl⟩
  · cases h

theorem calm_tileStep {w w' : World} {i : Nat} {r : TileReply} (h : w.tileStep i r = some w') :
    Calm w w' ∧ w'.shared.wall = w.shared.wall ∧
      (w.shared.storageRetryDue = true → w'.shared.storageRetryDue = true) := by
  obtain ⟨task, sh, progress, -, -, hsh, rfl⟩ := tileStep_cases h
  obtain ⟨hwall, hretry⟩ := downloadAndStore_flags hsh
  have hstarted : (tileEvents task.tile task.stage progress).countP (·.isCycleStart) = 0 := by
    refine List.countP_eq_zero.mpr fun e he => ?_
    have hroutine := tileEvents_routine he
    simp only [Event.routine, Bool.and_eq_true, Bool.not_eq_true'] at hroutine
    simp [hroutine.1]
  refine ⟨⟨rfl, ?_, hwall.ge, fun hr => hretry.trans hr⟩, hwall, fun hr => hretry.trans hr⟩
  simp [cyclesStarted, hstarted]

theorem accounts_scrape (hinterval : 0 < cfg.settings.scrapeInterval)
    (hschedule : ∀ c ∈ cfg.settings.cooldownSchedule, 0 < c) (hs : s.Accounts before)
    (hnd : s.ids.Nodup)
    (hawaited : ∀ g ∈ s.groups, g.awaited = true) (hend : s.escaped cfg (.scrape j) = none)
    (h : fleetStep cfg s (.scrape j) = some t) : t.Accounts before := by
  cases hg : s.groups[j]? with
  | none => simp [fleetStep, hg] at h
  | some g =>
    obtain ⟨waiting, sweep, awaited⟩ := g
    have hmem : (⟨waiting, sweep, awaited⟩ : Group) ∈ s.groups := List.mem_of_getElem? hg
    obtain rfl : awaited = true := hawaited _ hmem
    cases sweep with
    | some sweep => cases waiting <;> simp [fleetStep, hg] at h
    | none =>
      cases waiting with
      | nil =>
        simp only [fleetStep, hg, Option.some.injEq] at h
        rw [← h]
        exact hs.endGroup hg rfl
      | cons p waiting =>
        simp only [fleetStep, hg, Option.some.injEq] at h
        simp only [FleetState.escaped, hg] at hend
        have hfile := hs.waiting _ hmem p List.mem_cons_self
        have hstart : Leaves (fun _ w => Spent (before p.providerId).rows (before p.providerId).log w)
            (scrapeProvider (cfg.scrapeConfig p)) (s.world p .new) := by
          rw [← hfile]
          exact leaves_scrapeProvider hinterval hschedule
        obtain ⟨hdecent, hout⟩ := honours_settle decent_refl (fun _ _ _ => Decent.trans) hstart
        rw [← h]
        exact hs.arriveAt hnd hg rfl (List.subset_cons_self _ _) hdecent.wall hdecent.retry
          (settled_settle _ _) hout hend

theorem accounts_resume {r : Reply} (hs : s.Accounts before) (hnd : s.ids.Nodup)
    (hawaited : ∀ g ∈ s.groups, g.awaited = true) (hend : s.escaped cfg (.resume j r) = none)
    (h : fleetStep cfg s (.resume j r) = some t) : t.Accounts before := by
  obtain ⟨g, hg, h⟩ := Option.bind_eq_some_iff.mp h
  obtain ⟨sweep, hsweep, h⟩ := Option.bind_eq_some_iff.mp h
  obtain ⟨out, hout, rfl⟩ := Option.map_eq_some_iff.mp h
  have hmem := List.mem_of_getElem? hg
  have hexception : out.1.exception = none := by
    simpa [FleetState.escaped, hg, hsweep, hawaited g hmem, hout] using hend
  obtain ⟨-, hleaves⟩ := hs.sweeping g hmem sweep hsweep
  obtain ⟨hdecent, hout'⟩ := honours_answer decent_refl (fun _ _ _ => Decent.trans) hleaves
    (calm_refl _) hout
  have hids : g.ids = sweep.provider.providerId :: g.waiting.map (·.providerId) := by
    simp [Group.ids, hsweep]
  exact hs.arriveAt hnd hg hids (List.Subset.refl _) hdecent.wall hdecent.retry (settled_answer hout)
    hout' hexception

theorem accounts_tile {i : Nat} {r : TileReply} (hs : s.Accounts before) (hnd : s.ids.Nodup)
    (h : fleetStep cfg s (.tile j i r) = some t) : t.Accounts before := by
  obtain ⟨g, hg, h⟩ := Option.bind_eq_some_iff.mp h
  obtain ⟨sweep, hsweep, h⟩ := Option.bind_eq_some_iff.mp h
  obtain ⟨w, hw, rfl⟩ := Option.map_eq_some_iff.mp h
  obtain ⟨hcalm, hwall, hretry⟩ := calm_tileStep hw
  have hmem := List.mem_of_getElem? hg
  obtain ⟨hsettled, hleaves⟩ := hs.sweeping g hmem sweep hsweep
  have hids : g.ids = sweep.provider.providerId :: g.waiting.map (·.providerId) := by
    simp [Group.ids, hsweep]
  have hst : s.Spares sweep.provider.providerId (s.store sweep.provider w) :=
    spares_store hwall.ge hretry
  refine hs.set (n := { g with sweep := some { sweep with mem := w.mem } }) hnd hg hids
    (List.Subset.refl _) ⟨hst.files, hst.wall, hst.retry⟩ rfl (fun other hother => ?_)
    fun hnone => by cases hnone
  obtain rfl := Option.some.inj hother
  refine ⟨rfl, hsettled, ?_⟩
  have hworld : ((s.store sweep.provider w).setGroup j
      { g with sweep := some { sweep with mem := w.mem } }).world sweep.provider w.mem = w :=
    world_store s sweep.provider w
  show Leaves _ sweep.code (((s.store sweep.provider w).setGroup j
    { g with sweep := some { sweep with mem := w.mem } }).world sweep.provider w.mem)
  rw [hworld]
  exact honours_rely (fun _ _ _ h h' => h.trans h') hsettled hleaves hcalm
    (fun _ hspent => hspent.calm hcalm) fun _ _ => trivial

end Steps

end FleetState

end DataService
