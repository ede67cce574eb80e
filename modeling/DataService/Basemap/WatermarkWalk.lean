import DataService.Basemap.Watermark
import DataService.Basemap.ZoomWalk

/-! The main sweep of a zoom, function by function, and its ledger: what is dispatched is
collected in some order, folded, flushed and settled, or cut off in between. -/

namespace DataService

open Coroutine Coro SweepJournal

/-- A chunk with `n` tasks not yet collected; the completion in `hand` is not folded yet. -/
structure Outstanding (s : Span) (next n : Nat) (hand : List Nat) (w : World) (j : SweepJournal) :
    Prop where
  ledger : Ledger s next w j
  passed : Passed s w.mem.progress.frontier.mark j
  keys : (j.folded ++ hand ++ (pendingKeys w).map Prod.fst).Perm
    (List.range' s.resume (next - s.resume))
  count : (pendingKeys w).length = n

/-- Every fold has its frontier. -/
structure InStep (j : SweepJournal) : Prop where
  hand : j.inHand = none
  step : j.fronts.length = j.folded.length

/-- The completion of `idx` is folded and its frontier is still to come. -/
structure Lagging (idx : Nat) (j : SweepJournal) : Prop where
  hand : j.inHand = none
  last : ∃ l, j.folded = l ++ [idx] ∧ j.fronts.length = l.length

/-- What an exception leaves for the checkpoint. -/
def Halted (s : Span) (w : World) (j : SweepJournal) : Prop :=
  j.inHand = none ∧ Passed s w.mem.progress.frontier.mark j ∧ ∃ next, Ledger s next w j

abbrev Marks {α : Type} (s : Span) (Q : α → World → SweepJournal → Prop) (c : Code α) (w : World)
    (j : SweepJournal) : Prop :=
  Records note (WatermarkSound s) (Halted s) Q c w j

section Chunk

variable {cfg : ScrapeConfig} {s : Span} {next n idx : Nat} {hand : List Nat} {w w' : World}
  {j : SweepJournal} {t : Tile} {o : TileOutcome}

theorem Outstanding.of_eq (h : Outstanding s next n hand w j)
    (hcursor : w'.rows.cursor = w.rows.cursor)
    (hfront : w'.mem.progress.frontier = w.mem.progress.frontier)
    (hkeys : (pendingKeys w').Perm (pendingKeys w)) : Outstanding s next n hand w' j := by
  refine ⟨h.ledger.of_eq hcursor hfront, by rw [hfront]; exact h.passed, ?_,
    hkeys.length_eq.trans h.count⟩
  exact ((hkeys.map Prod.fst).append_left _).trans h.keys

theorem stable_outstanding : Stable fun w => Outstanding s next n hand w j := by
  intro w w' hn h
  obtain ⟨hrows, -, hprogress⟩ := hn.frame
  exact h.of_eq (congrArg ProviderRows.cursor hrows) (congrArg SweepProgress.frontier hprogress)
    hn.pending

theorem Outstanding.halted (h : Outstanding s next n hand w j) (hhand : j.inHand = none) :
    Halted s w j :=
  ⟨hhand, h.passed, next, h.ledger⟩

/-- The completion in hand is dispatched and not folded. -/
theorem Outstanding.fresh (h : Outstanding s next n [idx] w j) :
    (s.resume ≤ idx ∧ idx < next) ∧ idx ∉ j.folded := by
  have hnd := h.keys.nodup_iff.mpr List.nodup_range'
  have hmem : idx ∈ List.range' s.resume (next - s.resume) :=
    h.keys.mem_iff.mp (by simp)
  rw [List.mem_range'_1] at hmem
  refine ⟨⟨hmem.1, by omega⟩, fun hf => ?_⟩
  rw [List.append_assoc] at hnd
  exact (List.nodup_append.mp hnd).2.2 idx hf idx (by simp) rfl

theorem Outstanding.collect {d : DoneTile} {done : List DoneTile}
    (h : Outstanding s next (n + 1) [] w j) (hd : w.mem.done = d :: done) :
    Outstanding s next n [d.idx] (w.setTasks w.mem.tasks done) j := by
  have hp := pendingKeys_collect hd
  refine ⟨h.ledger.of_eq rfl rfl, h.passed, ?_, ?_⟩
  · have hkeys := h.keys
    rw [List.append_nil] at hkeys
    have hmap := (hp.map Prod.fst).append_left j.folded
    simp only [List.map_cons] at hmap
    rw [List.append_assoc, List.singleton_append]
    exact hmap.symm.trans hkeys
  · have hl := hp.length_eq
    rw [h.count, List.length_cons] at hl
    omega

theorem Outstanding.fold (h : Outstanding s next n [idx] w j)
    (hstep : j.fronts.length = j.folded.length) :
    Outstanding s next n [] w { j with folded := j.folded ++ [idx], inHand := none } ∧
      Lagging idx { j with folded := j.folded ++ [idx], inHand := none } := by
  obtain ⟨hidx, hn⟩ := h.fresh
  refine ⟨⟨h.ledger.fold hstep hidx hn, h.passed, ?_, h.count⟩, rfl, j.folded, rfl, hstep⟩
  simpa using h.keys

/-- The next completion: one that needs no failed row is folded as it is collected. -/
theorem marks_nextCompleted (h : Outstanding s next (n + 1) [] w j) (hj : InStep j) :
    Marks s (fun d u k => (if d.2.2 = .ok ∨ d.2.2 = .storageSkipped then
        Outstanding s next n [] u k ∧ Lagging d.1 k
      else Outstanding s next n [d.1] u k ∧ k.inHand = some d.1 ∧
        k.fronts.length = k.folded.length)) nextCompleted w j := by
  refine records_nextCompleted stable_outstanding h (fun u hu => hu.ledger.sound) ?_ ?_ ?_
  · intro u e landed hu
    rw [note_idle rfl rfl hj.hand]
    exact hu.halted hj.hand
  · intro u d done e hu hd hr
    rw [note_collect hd]
    have hcollect : j.collect d = j := by simp [SweepJournal.collect, hr]
    rw [hcollect]
    exact (hu.collect hd).halted hj.hand
  · intro u d done o hu hd hr
    rw [note_collect hd]
    have hheld := hu.collect hd
    obtain ⟨hfolded, hlag⟩ := hheld.fold hj.step
    have hfold : ({ j with folded := j.folded ++ [d.idx] } : SweepJournal) =
        { j with folded := j.folded ++ [d.idx], inHand := none } := by rw [← hj.hand]
    have hhold : Outstanding s next n [d.idx] (u.setTasks u.mem.tasks done)
        { j with inHand := some d.idx } :=
      ⟨hheld.ledger.hold _, hheld.passed, hheld.keys, hheld.count⟩
    cases o <;> simp only [SweepJournal.collect, hr, reduceCtorEq, or_false, or_true, if_true,
      if_false]
    · rw [hfold]
      exact ⟨hfolded, hlag⟩
    · exact ⟨hhold, trivial, hj.step⟩
    · exact ⟨hhold, trivial, hj.step⟩
    · exact ⟨hhold, trivial, hj.step⟩
    · rw [hfold]
      exact ⟨hfolded, hlag⟩

theorem halted_of_mem_eq (h : Halted s w j) (hcursor : w'.rows.cursor = w.rows.cursor)
    (hfront : w'.mem.progress.frontier = w.mem.progress.frontier) : Halted s w' j := by
  obtain ⟨hhand, hpassed, next, hledger⟩ := h
  exact ⟨hhand, by rw [hfront]; exact hpassed, next, hledger.of_eq hcursor hfront⟩

/-- A completion that needs a failed row is folded when it has it. -/
theorem marks_queueUnlessSkipped
    (h : if o = .ok ∨ o = .storageSkipped then Outstanding s next n [] w j ∧ Lagging idx j
      else Outstanding s next n [idx] w j ∧ j.inHand = some idx ∧
        j.fronts.length = j.folded.length) :
    Marks s (fun _ u k => Outstanding s next n [] u k ∧ Lagging idx k)
      (queueUnlessSkipped o t) w j := by
  unfold queueUnlessSkipped
  by_cases hok : o = .ok
  · rw [if_pos hok]
    rw [if_pos (.inl hok)] at h
    exact h
  · rw [if_neg hok]
    by_cases hskipped : o = .storageSkipped
    · rw [if_pos hskipped]
      rw [if_pos (.inr hskipped)] at h
      exact records_act (note_quiet rfl rfl) ⟨h.1.of_eq rfl rfl (.refl _), h.2⟩
    · rw [if_neg hskipped]
      rw [if_neg (not_or.mpr ⟨hok, hskipped⟩)] at h
      obtain ⟨hout, hhand, hstep⟩ := h
      have hnote : ∀ (u v : World) (r : Reply), v.mem.done = u.mem.done →
          v.rows.cursor = u.rows.cursor → note u (some r) v j = j.reply r := by
        intro u v r hdone hcursor
        rw [note_reply hdone, SweepJournal.persist, if_pos hcursor]
      have hdropped : ∀ u : World, Outstanding s next n [idx] u j →
          Halted s u { j with inHand := none } := fun u hu =>
        ⟨rfl, hu.passed, next, hu.ledger.hold none⟩
      refine records_commit stable_outstanding hout (fun u hu => hu.ledger.sound) ?_ ?_
      · intro u e hu
        rw [hnote u u _ rfl rfl, hnote u _ _ (by rw [addFailed_mem]) (addFailed_cursor t)]
        exact ⟨hdropped u hu, halted_of_mem_eq (hdropped u hu) (addFailed_cursor t)
          (by rw [addFailed_mem])⟩
      · intro u hu
        rw [hnote u _ _ (by rw [addFailed_mem]) (addFailed_cursor t)]
        obtain ⟨hfolded, hlag⟩ := hu.fold hstep
        have hreply : j.reply .ok = { j with folded := j.folded ++ [idx], inHand := none } := by
          simp [SweepJournal.reply, hhand]
        rw [hreply]
        refine ⟨hfolded.of_eq (addFailed_cursor t) (by rw [addFailed_mem]) ?_, hlag⟩
        simp only [pendingKeys, addFailed_mem]
        exact .refl _

theorem Outstanding.tracks (h : Outstanding s next n [] w j) (hlag : Lagging idx j) :
    (w.mem.progress.frontier.advance idx).Tracks s.resume j.folded ∧
      w.mem.progress.frontier.mark ≤ (w.mem.progress.frontier.advance idx).mark ∧
      w.mem.progress.frontier.advance idx ≠ w.mem.progress.frontier := by
  obtain ⟨l, hl, hlen⟩ := hlag.last
  have htracks := h.ledger.tracks
  have htake : j.folded.take j.fronts.length = l := by simp [hl, hlen]
  rw [htake] at htracks
  have hmem : idx ∈ j.folded := by simp [hl]
  have hnd := h.ledger.folded.1
  rw [hl] at hnd ⊢
  refine ⟨htracks.advance idx, Frontier.mark_le_of_done fun i hi => ?_, htracks.advance_ne
    (h.ledger.folded.2 idx hmem).1 fun hm => ?_⟩
  · exact (Frontier.advance_done _ idx i).mpr (.inl hi)
  · exact (List.nodup_append.mp hnd).2.2 idx hm idx (List.mem_singleton_self idx) rfl

theorem outstanding_settle (h : Ledger s next w j)
    (hkeys : (j.folded ++ (pendingKeys w).map Prod.fst).Perm
      (List.range' s.resume (next - s.resume))) (hcount : (pendingKeys w).length = n)
    (hlag : Lagging idx j) {p : SweepProgress} (hp : p.frontier.Tracks s.resume j.folded)
    (hpassed : Passed s p.frontier.mark j) :
    Outstanding s next n [] (w.setProgress p) { j with fronts := j.fronts ++ [p.frontier] } ∧
      InStep { j with fronts := j.fronts ++ [p.frontier] } := by
  obtain ⟨l, hl, hlen⟩ := hlag.last
  refine ⟨⟨h.settle hp (by simp [hl, hlen]), hpassed, ?_, hcount⟩, hlag.hand, by simp [hl, hlen]⟩
  rw [List.append_nil]
  exact hkeys

theorem marks_advanceWatermark (h : Outstanding s next n [] w j) (hlag : Lagging idx j) :
    Marks s (fun _ u k => Outstanding s next n [] u k ∧ InStep k)
      (advanceWatermark cfg s.zoom idx) w j := by
  obtain ⟨htracks, hmark, hne⟩ := h.tracks hlag
  have hlt : j.fronts.length < j.folded.length := by
    obtain ⟨l, hl, hlen⟩ := hlag.last
    simp [hl, hlen]
  refine records_look (note_quiet rfl rfl) (records_look (note_quiet rfl rfl) ?_)
  dsimp only
  split
  · -- the flush may raise, or it lands and the frontier follows without another await
    have hP : Stable fun u => Outstanding s next n [] u j ∧
        u.mem.progress.frontier = w.mem.progress.frontier :=
      stable_outstanding.and (stable_frame fun _ _ p => p.frontier = w.mem.progress.frontier)
    have hnote : ∀ (u : World) (c : Cursor) (r : Reply),
        note u (some r) (u.setCursor c) j = j.persist r u.rows.cursor (some c) := by
      intro u c r
      rw [@note_reply u (u.setCursor c) j r rfl, reply_of_empty hlag.hand]
      rfl
    refine records_bind (Q := fun _ v k => ∃ u, v = u.setCursor
        ⟨s.zoom, (w.mem.progress.frontier.advance idx).mark⟩ ∧
      k = j.persist .ok u.rows.cursor (some ⟨s.zoom, (w.mem.progress.frontier.advance idx).mark⟩) ∧
      Outstanding s next n [] u j ∧ u.mem.progress.frontier = w.mem.progress.frontier)
      (records_commit hP ⟨h, rfl⟩ (fun u hu => hu.1.ledger.sound) ?_
        fun u hu => ⟨u, rfl, hnote u _ _, hu⟩) ?_
    · rintro u e ⟨hu, hfront⟩
      rw [note_idle rfl rfl hlag.hand, hnote]
      refine ⟨hu.halted hlag.hand, ?_⟩
      have hledger : Ledger s next (u.setCursor _) (j.persist (.raised e true) u.rows.cursor _) :=
        hu.ledger.write rfl (cursor_behind htracks) fun hr => by cases hr
      have hpassed := hu.passed.torn (c := ⟨s.zoom, (w.mem.progress.frontier.advance idx).mark⟩)
        (r := .raised e true) rfl u.rows.cursor
      obtain ⟨cursors, torn, heq⟩ := persist_eq j (.raised e true) u.rows.cursor
        (some ⟨s.zoom, (w.mem.progress.frontier.advance idx).mark⟩)
      exact ⟨by rw [heq]; exact hlag.hand, hpassed, next, hledger⟩
    · rintro _ v k ⟨u, rfl, rfl, hu, hfront⟩
      have hpassed := hu.passed
      rw [hfront] at hpassed
      have hledger : Ledger s next (u.setCursor _) (j.persist .ok u.rows.cursor _) :=
        hu.ledger.write (c := ⟨s.zoom, (w.mem.progress.frontier.advance idx).mark⟩) rfl
          (cursor_behind htracks)
          fun _ ht d hd => (hpassed ht d hd).trans (.inr ⟨rfl, hmark⟩)
      have hwritten := hpassed.write (r := .ok) hmark u.rows.cursor
      obtain ⟨cursors, torn, heq⟩ := persist_eq j .ok u.rows.cursor
        (some ⟨s.zoom, (w.mem.progress.frontier.advance idx).mark⟩)
      rw [heq] at hledger hwritten ⊢
      have hkeys : (j.folded ++ (pendingKeys u).map Prod.fst).Perm
          (List.range' s.resume (next - s.resume)) := by simpa using hu.keys
      have hlag' : Lagging idx { j with cursors := cursors, torn := torn } :=
        ⟨hlag.hand, hlag.last⟩
      obtain ⟨hout, hin⟩ := outstanding_settle (n := n)
        (p := { u.mem.progress with
          frontier := w.mem.progress.frontier.advance idx
          lastFlushed := (w.mem.progress.frontier.advance idx).mark
          lastFlushTime := u.shared.mono })
        hledger hkeys hu.count hlag' htracks hwritten
      refine records_act (note_front ?_ hlt) ⟨hout, hin⟩
      rw [show (u.setCursor _).mem.progress.frontier = w.mem.progress.frontier from hfront]
      exact hne
  · obtain ⟨hout, hin⟩ := outstanding_settle
      (p := { w.mem.progress with frontier := w.mem.progress.frontier.advance idx }) h.ledger
      (by simpa using h.keys) h.count hlag htracks (h.passed.mono hmark)
    exact records_act (note_front hne hlt) ⟨hout, hin⟩

theorem marks_handleCompletion
    (h : if o = .ok ∨ o = .storageSkipped then Outstanding s next n [] w j ∧ Lagging idx j
      else Outstanding s next n [idx] w j ∧ j.inHand = some idx ∧
        j.fronts.length = j.folded.length) :
    Marks s (fun _ u k => Outstanding s next n [] u k ∧ InStep k)
      (handleCompletion cfg s.zoom idx t o) w j := by
  have hsame : ∀ (u : World) (hand : List Nat), Outstanding s next n hand w j →
      u.rows.cursor = w.rows.cursor → u.mem.progress.frontier = w.mem.progress.frontier →
      pendingKeys u = pendingKeys w → Outstanding s next n hand u j := by
    intro u hand hw hcursor hfront hkeys
    exact hw.of_eq hcursor hfront (by rw [hkeys])
  refine records_modify (note_quiet rfl rfl) (records_modify (note_quiet rfl rfl) ?_)
  refine records_bind (marks_queueUnlessSkipped (o := o) ?_) fun _ u k hu =>
    marks_advanceWatermark hu.1 hu.2
  split at h
  · rename_i ho
    rw [if_pos ho]
    exact ⟨hsame _ _ h.1 rfl rfl rfl, h.2⟩
  · rename_i ho
    rw [if_neg ho]
    exact ⟨hsame _ _ h.1 rfl rfl rfl, h.2⟩

/-- A chunk drains, or the sweep stops. -/
theorem marks_drainChunk (h : Outstanding s next n [] w j) (hj : InStep j) :
    Marks s (fun _ u k => ∃ m, Outstanding s next m [] u k ∧ InStep k ∧
      (u.mem.sweep.stopped = false → m = 0)) (drainChunk cfg s.zoom n) w j := by
  induction n generalizing w j with
  | zero => exact ⟨0, h, hj, fun _ => rfl⟩
  | succ n ih =>
    refine records_bind (marks_nextCompleted h hj) ?_
    rintro ⟨i, t, o⟩ u k hu
    refine records_bind (marks_handleCompletion hu) ?_
    rintro _ v m ⟨hv, hm⟩
    refine records_look (note_quiet rfl rfl) ?_
    cases hstop : v.mem.sweep.stopped with
    | true => exact ⟨n, hv, hm, fun hgo => by simp [hstop] at hgo⟩
    | false => exact ih hv hm

/-- Between chunks no task is in flight, and unless the sweep stopped all is folded. -/
structure BetweenMarks (s : Span) (next : Nat) (w : World) (j : SweepJournal) : Prop where
  ledger : Ledger s next w j
  passed : Passed s w.mem.progress.frontier.mark j
  step : InStep j
  idle : Idle w
  complete : w.mem.sweep.stopped = false →
    j.folded.Perm (List.range' s.resume (next - s.resume))

theorem stable_betweenMarks : Stable fun w => BetweenMarks s next w j := by
  intro w w' hn h
  obtain ⟨hrows, hsweep, hprogress⟩ := hn.frame
  have hfront := congrArg SweepProgress.frontier hprogress
  exact ⟨h.ledger.of_eq (congrArg ProviderRows.cursor hrows) hfront, by rw [hfront]; exact h.passed,
    h.step, stable_idle w w' hn h.idle, by rw [hsweep]; exact h.complete⟩

theorem stable_halted : Stable fun w => Halted s w j := by
  intro w w' hn h
  exact halted_of_mem_eq h (congrArg ProviderRows.cursor hn.frame.1)
    (congrArg SweepProgress.frontier hn.frame.2.2)

theorem BetweenMarks.halted (h : BetweenMarks s next w j) : Halted s w j :=
  ⟨h.step.hand, h.passed, next, h.ledger⟩

theorem Halted.sound (h : Halted s w j) : WatermarkSound s w j := by
  obtain ⟨-, -, next, hledger⟩ := h
  exact hledger.sound

/-- Cancelling the tasks dispatches nothing. -/
theorem marks_cancelPending {P : World → Prop} {E : World → SweepJournal → Prop}
    {Q : Unit → World → SweepJournal → Prop} (hs : Stable P) (hp : P (w.setTasks [] []))
    (hhand : j.inHand = none) (hI : ∀ u, P u → WatermarkSound s u j) (hE : ∀ u, P u → E u j)
    (hQ : ∀ u, P u → Q () u j) :
    Records note (WatermarkSound s) E Q cancelPending w j := by
  have hnote : note w none (w.setTasks [] []) j = j := by
    rw [note_tasks, SweepJournal.dispatch]
    split
    · rfl
    · simp
  refine records_look (note_quiet rfl rfl) (records_modify hnote ?_)
  cases !w.mem.tasks.isEmpty with
  | true =>
    exact records_pause hs hp hI (fun u _ _ hu => by rw [note_idle rfl rfl hhand]; exact hE u hu)
      fun u hu => by rw [note_idle rfl rfl hhand]; exact hQ u hu
  | false => exact hQ _ hp

theorem chunkTiles_map_fst {coords : List Tile} {lo hi : Nat} (h : hi ≤ coords.length) :
    (chunkTiles coords lo hi).map Prod.fst = List.range' lo (hi - lo) := by
  rw [chunkTiles, List.map_filterMap]
  have hsome : ∀ i ∈ List.range' lo (hi - lo),
      (coords[i]?.map fun t => (i, t)).map Prod.fst = some i := by
    intro i hi'
    rw [List.mem_range'_1] at hi'
    rw [List.getElem?_eq_getElem (by omega)]
    rfl
  rw [List.filterMap_congr hsome, List.filterMap_some]

theorem chunkStarts_of_le {start total window : Nat} (hw : 0 < window) (h : total ≤ start) :
    chunkStarts start total window = [] := by
  have hzero : (total - start + window - 1) / window = 0 := Nat.div_eq_of_lt (by omega)
  rw [chunkStarts, hzero]
  rfl

theorem chunkStarts_of_lt {start total window : Nat} (hw : 0 < window) (h : start < total) :
    chunkStarts start total window = start :: chunkStarts (start + window) total window := by
  have hfirst : (total - start + window - 1) / window = (total - start - 1) / window + 1 := by
    rw [← Nat.add_div_right _ hw]
    congr 1
    omega
  have hrest : (total - (start + window) + window - 1) / window = (total - start - 1) / window := by
    by_cases hle : window ≤ total - start
    · congr 1
      omega
    · rw [Nat.div_eq_of_lt (by omega), Nat.div_eq_of_lt (by omega)]
  rw [chunkStarts, chunkStarts, hfirst, hrest, List.range'_succ]

theorem Ledger.dispatch (h : Ledger s next w j) {hi : Nat} (hlo : next ≤ hi) (hhi : hi ≤ s.total) :
    Ledger s hi w { j with dispatched := j.dispatched ++ List.range' next (hi - next) } := by
  refine ⟨⟨h.range.1.trans hlo, hhi⟩, ?_, ⟨h.folded.1, fun i hi => ?_⟩, h.fronts, h.memory, h.lag,
    ⟨h.persisted.row, h.persisted.behind, h.persisted.ascending⟩, h.zoomed⟩
  · have hsum : hi - s.resume = (next - s.resume) + (hi - next) := by
      have := h.range.1
      omega
    have hstart : s.resume + (next - s.resume) = next := by
      have := h.range.1
      omega
    rw [h.dispatched, hsum, ← List.range'_append_1, hstart]
  · exact ⟨(h.folded.2 i hi).1, (h.folded.2 i hi).2.trans_le hlo⟩

theorem marks_sweepChunk {tiles : List (Nat × Tile)} {hi : Nat} (h : BetweenMarks s next w j)
    (hfolded : j.folded.Perm (List.range' s.resume (next - s.resume))) (hlo : next ≤ hi)
    (hhi : hi ≤ s.total) (htiles : tiles.map Prod.fst = List.range' next (hi - next)) :
    Marks s (fun _ u k => BetweenMarks s hi u k) (sweepChunk cfg s.zoom tiles) w j := by
  have hnote : note w none (w.setTasks (created tiles) []) j =
      { j with dispatched := j.dispatched ++ List.range' next (hi - next) } := by
    rw [note_tasks, SweepJournal.dispatch, h.idle.1, ← htiles]
    cases tiles with
    | nil => simp
    | cons p tiles => simp [Function.comp_def]
  have hledger : Ledger s _ (w.setTasks (created tiles) []) _ :=
    (h.ledger.dispatch hlo hhi).of_eq rfl rfl
  generalize hk : ({ j with dispatched := j.dispatched ++ List.range' next (hi - next) } :
    SweepJournal) = k at hnote hledger
  have hout : Outstanding s hi tiles.length [] (w.setTasks (created tiles) []) k := by
    refine ⟨hledger, hk ▸ h.passed, ?_, by rw [pendingKeys_createTasks]⟩
    have hsum : hi - s.resume = (next - s.resume) + (hi - next) := by
      have := h.ledger.range.1
      omega
    have hstart : s.resume + (next - s.resume) = next := by
      have := h.ledger.range.1
      omega
    rw [pendingKeys_createTasks, List.append_nil, htiles, hsum, ← List.range'_append_1, hstart, ← hk]
    exact hfolded.append_right _
  refine records_modify hnote (records_tryFinally (marks_drainChunk hout (hk ▸ ⟨h.step.hand,
    h.step.step⟩)) ?_ ?_)
  · rintro _ u m ⟨c, hu, hm, hstop⟩
    refine marks_cancelPending stable_betweenMarks ?_ hm.hand (fun v hv => hv.ledger.sound)
      (fun v hv => hv.halted) fun v hv => hv
    refine ⟨hu.ledger.of_eq rfl rfl, hu.passed, hm, ⟨rfl, rfl⟩, fun hgo => ?_⟩
    have hnil := List.length_eq_zero_iff.mp (hu.count.trans (hstop hgo))
    simpa [hnil] using hu.keys
  · intro u m hu
    exact marks_cancelPending stable_halted (halted_of_mem_eq hu rfl rfl) hu.1
      (fun v hv => hv.sound) (fun v hv => hv) fun v hv => hv

theorem marks_sweepChunks {coords : List Tile} {starts : List Nat} {start : Nat}
    (hwindow : 0 < cfg.settings.fanoutWindow) (hcoords : coords.length = s.total)
    (hstarts : starts = chunkStarts start s.total cfg.settings.fanoutWindow)
    (h : BetweenMarks s (min start s.total) w j)
    (hfolded : j.folded.Perm (List.range' s.resume (min start s.total - s.resume))) :
    Marks s (fun _ u k => ∃ next, BetweenMarks s next u k ∧
      (u.mem.sweep.stopped = false → next = s.total)) (sweepChunks cfg s.zoom coords starts) w j := by
  induction starts generalizing start w j with
  | nil =>
    refine ⟨_, h, fun _ => ?_⟩
    by_contra hne
    rw [chunkStarts_of_lt hwindow (by omega)] at hstarts
    cases hstarts
  | cons chunkStart starts ih =>
    have hlt : start < s.total := by
      by_contra hle
      rw [chunkStarts_of_le hwindow (by omega)] at hstarts
      cases hstarts
    rw [chunkStarts_of_lt hwindow hlt] at hstarts
    obtain ⟨rfl, hrest⟩ := List.cons.inj hstarts
    have hmin : min chunkStart s.total = chunkStart := by omega
    rw [hmin] at h hfolded
    have hkept : Stable fun u => BetweenMarks s chunkStart u j := stable_betweenMarks
    refine records_bind (Q := fun _ u k => k = j ∧ BetweenMarks s chunkStart u j)
      (records_cooldown hkept h (note_quiet rfl rfl) (fun u hu => hu.ledger.sound) ?_
        (fun u => note_idle rfl rfl h.step.hand) fun u hu => ⟨rfl, hu⟩) ?_
    · intro u e landed hu
      rw [note_idle rfl rfl h.step.hand]
      exact hu.halted
    rintro _ u k ⟨rfl, hu⟩
    refine records_look (note_quiet rfl rfl) ?_
    cases hab : u.mem.sweep.storageAbandoned with
    | true => exact ⟨_, hu, fun hgo => by simp [SweepState.stopped, hab] at hgo⟩
    | false =>
      have hend : min (chunkStart + cfg.settings.fanoutWindow) coords.length ≤ s.total := by omega
      refine records_bind (marks_sweepChunk hu hfolded (by omega) hend
        (chunkTiles_map_fst (by omega))) ?_
      intro _ v m hv
      refine records_look (note_quiet rfl rfl) ?_
      rw [hcoords] at hv
      cases hstop : v.mem.sweep.stopped with
      | true => exact ⟨_, hv, fun hgo => by simp [hstop] at hgo⟩
      | false => exact ih hrest hv (hv.complete hstop)

/-- The last write of the cursor: behind the folds, or at the next zoom when all is folded. -/
theorem Ledger.checkpoint (h : Ledger s next w j)
    (hpassed : Passed s w.mem.progress.frontier.mark j) {c : Cursor} (r : Reply)
    (hc : (s.total ≤ w.mem.progress.frontier.mark ∧ c = ⟨s.zoom + 1, 0⟩) ∨
      c = ⟨s.zoom, w.mem.progress.frontier.mark⟩) :
    WatermarkSound s (w.setCursor c) (j.persist r w.rows.cursor (some c)) := by
  have hsound := h.sound
  have htracks := h.tracks
  have hmark : ∀ i ∈ s.indices, i ∉ j.folded → w.mem.progress.frontier.mark ≤ i := by
    intro i hi hn
    rw [Span.indices, List.mem_range'_1] at hi
    exact htracks.mark_le hi.1 fun hm => hn (List.mem_of_mem_take hm)
  have hall : s.total ≤ w.mem.progress.frontier.mark → ∀ i ∈ s.indices, i ∈ j.folded := by
    intro hle i hi
    by_contra hn
    have hge := hmark i hi hn
    rw [Span.indices, List.mem_range'_1] at hi
    omega
  have hset : Persisted s (some c) (j.persist r w.rows.cursor (some c)) := by
    refine h.persisted.set (fun i hi hn => ?_) fun _ ht d hd => ?_
    · rcases hc with ⟨hle, -⟩ | rfl
      · exact absurd (hall hle i hi) hn
      · exact .inr ⟨rfl, hmark i hi hn⟩
    · rcases hc with ⟨-, rfl⟩ | rfl
      · exact .inl (by rw [h.zoomed d hd]; exact Nat.lt_succ_self _)
      · exact hpassed ht d hd
  have hmem := fun d => @mem_persist w.rows.cursor c j r d
  obtain ⟨cursors, torn, heq⟩ := persist_eq j r w.rows.cursor (some c)
  rw [heq] at hset hmem ⊢
  refine ⟨hsound.dispatched, hsound.folded, hsound.fronts, hsound.memory, hsound.lag, hset, ?_⟩
  intro d hd
  rcases hmem d hd with hd | rfl
  · exact hsound.zoomed d hd
  · rcases hc with ⟨hle, rfl⟩ | rfl
    · exact .inr ⟨rfl, hall hle⟩
    · exact .inl rfl

/-- What a sweep that returns has done besides. -/
structure SweptSpan (s : Span) (w : World) (j : SweepJournal) : Prop where
  sound : WatermarkSound s w j
  settled : j.fronts.length = j.folded.length
  unstopped : w.mem.sweep.stopped = false → j.dispatched = s.indices ∧ j.folded.Perm s.indices

theorem marks_checkpoint {P : World → Prop} {Q : Unit → World → SweepJournal → Prop}
    (hs : Stable P) (hp : P w) (hhand : j.inHand = none)
    (hP : ∀ u, P u → Passed s u.mem.progress.frontier.mark j ∧ ∃ next, Ledger s next u j)
    (hQ : ∀ u c k, P u → k.fronts = j.fronts → k.folded = j.folded →
      k.dispatched = j.dispatched → WatermarkSound s (u.setCursor c) k → Q () (u.setCursor c) k) :
    Records note (WatermarkSound s) (WatermarkSound s) Q (checkpoint s.zoom s.total) w j := by
  have hnote : ∀ (u : World) (c : Cursor) (r : Reply),
      note u (some r) (u.setCursor c) j = j.persist r u.rows.cursor (some c) := by
    intro u c r
    rw [@note_reply u (u.setCursor c) j r rfl, reply_of_empty hhand]
    rfl
  have hcommit : ∀ c : Cursor, (s.total ≤ w.mem.progress.frontier.mark ∧ c = ⟨s.zoom + 1, 0⟩) ∨
      c = ⟨s.zoom, w.mem.progress.frontier.mark⟩ →
      Records note (WatermarkSound s) (WatermarkSound s) Q (commit (World.setCursor c)) w j := by
    intro c hc
    have hP' : Stable fun u => P u ∧
        u.mem.progress.frontier.mark = w.mem.progress.frontier.mark :=
      hs.and (stable_frame fun _ _ p => p.frontier.mark = w.mem.progress.frontier.mark)
    have hlast : ∀ (u : World) (r : Reply),
        P u ∧ u.mem.progress.frontier.mark = w.mem.progress.frontier.mark →
        WatermarkSound s (u.setCursor c) (j.persist r u.rows.cursor (some c)) := by
      rintro u r ⟨hu, hmark⟩
      obtain ⟨hpassed, next, hledger⟩ := hP u hu
      exact hledger.checkpoint hpassed r (hmark ▸ hc)
    have hwaits : ∀ u : World, P u ∧
        u.mem.progress.frontier.mark = w.mem.progress.frontier.mark → WatermarkSound s u j := by
      rintro u ⟨hu, -⟩
      obtain ⟨-, next, hledger⟩ := hP u hu
      exact hledger.sound
    refine records_commit hP' ⟨hp, rfl⟩ hwaits ?_ ?_
    · intro u e hu
      rw [note_idle rfl rfl hhand, hnote]
      exact ⟨hwaits u hu, hlast u _ hu⟩
    · intro u hu
      rw [hnote]
      have hsound := hlast u .ok hu
      obtain ⟨cursors, torn, heq⟩ := persist_eq j .ok u.rows.cursor (some c)
      rw [heq] at hsound ⊢
      exact hQ u c _ hu.1 rfl rfl rfl hsound
  refine records_look (note_quiet rfl rfl) ?_
  split
  · rename_i hle
    exact hcommit _ (.inl ⟨hle, rfl⟩)
  · exact hcommit _ (.inr rfl)

/-- Nothing left at this zoom. -/
theorem marks_skipZoom (hnone : s.total ≤ s.resume) (hrow : w.rows.cursor = s.row) :
    Records note (WatermarkSound s) (WatermarkSound s) (fun _ u k => SweptSpan s u k)
      (commit (World.setCursor ⟨s.zoom + 1, 0⟩)) w .new := by
  have hnil : s.indices = [] := by
    rw [Span.indices, Nat.sub_eq_zero_of_le hnone]
    rfl
  have hempty : ∀ u : World, Persisted s u.rows.cursor .new → WatermarkSound s u .new := fun u hu =>
    ⟨by simp [SweepJournal.new], by simp [SweepJournal.new], by simp [SweepJournal.new],
      by simp [SweepJournal.new], by simp [SweepJournal.new], hu, by simp [SweepJournal.new]⟩
  have hstart : ∀ u : World, u.rows.cursor = s.row → Persisted s u.rows.cursor .new := fun u hu =>
    ⟨by simp [SweepJournal.new, hu], by simp [SweepJournal.new], by simp [SweepJournal.new]⟩
  have hlast : ∀ (u : World) (r : Reply), u.rows.cursor = s.row →
      SweptSpan s (u.setCursor ⟨s.zoom + 1, 0⟩)
        (SweepJournal.new.persist r u.rows.cursor (some ⟨s.zoom + 1, 0⟩)) := by
    intro u r hu
    have hset := (hstart u hu).set (c := ⟨s.zoom + 1, 0⟩) (r := r) (by simp [hnil])
      (by simp [SweepJournal.new])
    have hmem := fun d => @mem_persist u.rows.cursor ⟨s.zoom + 1, 0⟩ .new r d
    obtain ⟨cursors, torn, heq⟩ := persist_eq .new r u.rows.cursor (some ⟨s.zoom + 1, 0⟩)
    rw [heq] at hset hmem ⊢
    refine ⟨⟨by simp [SweepJournal.new], by simp [SweepJournal.new], by simp [SweepJournal.new],
      by simp [SweepJournal.new], by simp [SweepJournal.new], hset, fun d hd => ?_⟩, rfl, ?_⟩
    · rcases hmem d hd with hd | rfl
      · simp [SweepJournal.new] at hd
      · exact .inr ⟨rfl, by simp [hnil]⟩
    · intro _
      rw [hnil]
      exact ⟨rfl, .refl _⟩
  have hnote : ∀ (u : World) (r : Reply), note u (some r) (u.setCursor ⟨s.zoom + 1, 0⟩) .new =
      SweepJournal.new.persist r u.rows.cursor (some ⟨s.zoom + 1, 0⟩) := by
    intro u r
    rw [@note_reply u (u.setCursor ⟨s.zoom + 1, 0⟩) .new r rfl, reply_of_empty rfl]
    rfl
  refine records_commit (stable_frame fun r _ _ => r.cursor = s.row) hrow
    (fun u hu => hempty u (hstart u hu)) ?_ ?_
  · intro u e hu
    rw [note_idle rfl rfl rfl, hnote]
    exact ⟨hempty u (hstart u hu), (hlast u _ hu).sound⟩
  · intro u hu
    rw [hnote]
    exact hlast u _ hu

end Chunk

end DataService
