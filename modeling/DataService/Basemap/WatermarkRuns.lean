import DataService.Basemap.WatermarkWalk
import DataService.Basemap.StampSoundness

/-! Every run of the main sweep of a zoom: whatever the tiles answer, in whatever order they
finish, wherever the sweep trips, is abandoned, raises or is cut off. -/

namespace DataService

open Coroutine Coro SweepJournal

/-- The span that a sweep of these tiles starts on. -/
def spanOf (zoom : Nat) (coords : List Tile) (resumeIndex : Nat) (w : World) : Span :=
  ⟨zoom, resumeIndex, coords.length, w.rows.cursor⟩

section Sweep

variable {cfg : ScrapeConfig} {zoom resumeIndex : Nat} {coords : List Tile} {w : World}

theorem betweenMarks_start (h : resumeIndex < coords.length) :
    BetweenMarks (spanOf zoom coords resumeIndex w) (min resumeIndex coords.length)
      ((w.setTasks [] []).setProgress (.start resumeIndex w.shared.mono)) .new := by
  have hmin : min resumeIndex coords.length = resumeIndex := by omega
  rw [hmin]
  refine ⟨⟨⟨Nat.le_refl _, Nat.le_of_lt h⟩, ?_, ?_, ?_, rfl, ?_, ⟨rfl, ?_, ?_⟩, ?_⟩, ?_, ⟨rfl, rfl⟩,
    ⟨rfl, rfl⟩, fun _ => ?_⟩
  all_goals simp [SweepJournal.new, spanOf, Passed]

/-- What is true of every sweep, wherever it stands. -/
theorem runIndexedSweep_records :
    Records note (WatermarkSound (spanOf zoom coords resumeIndex w))
      (WatermarkSound (spanOf zoom coords resumeIndex w))
      (fun _ u k => SweptSpan (spanOf zoom coords resumeIndex w) u k)
      (runIndexedSweep cfg zoom coords resumeIndex) (w.setTasks [] []) .new := by
  unfold runIndexedSweep
  split
  · rename_i hle
    exact records_bind (@marks_skipZoom (spanOf zoom coords resumeIndex w) (w.setTasks [] []) hle rfl)
      fun _ u k hu => records_pure hu
  · rename_i hlt
    have hnote : note (w.setTasks [] []) none
        ((w.setTasks [] []).setProgress (.start resumeIndex w.shared.mono)) .new = .new := by
      simp [SweepJournal.note, SweepJournal.dispatch, SweepJournal.front, World.setProgress,
        World.setTasks, SweepJournal.new]
    have hstart : BetweenMarks (spanOf zoom coords resumeIndex w) (min resumeIndex coords.length)
        ((w.setTasks [] []).setProgress (.start resumeIndex w.shared.mono)) .new :=
      betweenMarks_start (Nat.lt_of_not_le hlt)
    have hbody : Marks (spanOf zoom coords resumeIndex w)
        (fun _ u k => ∃ next, BetweenMarks (spanOf zoom coords resumeIndex w) next u k ∧
          (u.mem.sweep.stopped = false → next = coords.length))
        (if cfg.settings.fanoutWindow = 0 then raise .valueError
          else sweepChunks cfg zoom coords
            (chunkStarts resumeIndex coords.length cfg.settings.fanoutWindow))
        ((w.setTasks [] []).setProgress (.start resumeIndex w.shared.mono)) .new := by
      split
      · exact hstart.halted
      · rename_i hwindow
        refine marks_sweepChunks (s := spanOf zoom coords resumeIndex w)
          (Nat.pos_of_ne_zero hwindow) rfl rfl hstart ?_
        have hmin : min resumeIndex coords.length - resumeIndex = 0 := by omega
        simp [spanOf, hmin, SweepJournal.new]
    refine records_modify hnote (records_bind (Q := fun _ u k =>
      SweptSpan (spanOf zoom coords resumeIndex w) u k) (records_tryFinally hbody ?_ ?_) ?_)
    · rintro _ u k ⟨next, hu, hall⟩
      have hs : Stable fun v => BetweenMarks (spanOf zoom coords resumeIndex w) next v k ∧
          (v.mem.sweep.stopped = false → next = coords.length) :=
        stable_betweenMarks.and (stable_frame fun _ sweep _ =>
          sweep.stopped = false → next = coords.length)
      refine marks_checkpoint (s := spanOf zoom coords resumeIndex w) hs ⟨hu, hall⟩ hu.step.hand
        (fun v hv => ⟨hv.1.passed, next, hv.1.ledger⟩) ?_
      rintro v c m ⟨hv, hend⟩ hfronts hfolded hdispatched hsound
      refine ⟨hsound, by rw [hfronts, hfolded]; exact hv.step.step, fun hgo => ?_⟩
      have hnext := hend hgo
      subst hnext
      rw [hdispatched, hfolded]
      exact ⟨hv.ledger.dispatched, hv.complete hgo⟩
    · rintro u k hu
      exact marks_checkpoint (s := spanOf zoom coords resumeIndex w) stable_halted hu hu.1
        (fun v hv => ⟨hv.2.1, hv.2.2⟩) fun v c m _ _ _ _ hsound => hsound
    · exact fun _ u k hu => records_look (note_quiet rfl rfl) (records_pure hu)

end Sweep

/-- Only a write that raised and reached the file leaves the journal torn. -/
theorem torn_of_run {α : Type} {c : Code α} {w : World} {turns : List (Turn Reply Bystander)}
    {p : Process (World × SweepJournal) Reply ScrapeExn α}
    (hturns : ∀ e, .answer (.raised e true) ∉ turns)
    (hrun : recorded note c w .new turns = some p) : p.memory.2.torn = false := by
  have hatom : ∀ (u v : World) (j : SweepJournal), j.torn = false →
      (note u none v j).torn = false := by
    intro u v j hj
    simp only [SweepJournal.note, SweepJournal.front, SweepJournal.dispatch]
    split <;> split <;> exact hj
  have hreply : ∀ (j : SweepJournal) (r : Reply), (j.reply r).torn = j.torn := by
    intro j r
    cases r <;> rfl
  have hcollect : ∀ (j : SweepJournal) (d : DoneTile), (j.collect d).torn = j.torn := by
    intro j d
    unfold SweepJournal.collect
    split <;> rfl
  have hanswer : ∀ (u : World) (r : Reply) (v : World) (j : SweepJournal), r.tears = false →
      j.torn = false → (note u (some r) v j).torn = false := by
    intro u r v j hr hj
    simp only [SweepJournal.note, SweepJournal.persist]
    split <;> split <;> try split
    all_goals simp [hreply, hcollect, hr, hj]
  refine journal_of_run hatom hanswer c w rfl ?_ hrun
  intro r hr
  cases r with
  | ok => rfl
  | rows l => rfl
  | raised e landed =>
    cases landed with
    | true => exact absurd hr (hturns e)
    | false => rfl

/-- In every run of the main sweep of a zoom, in whatever state it stands: the frontiers in
memory mark the runs of folded indices, no cursor is past an index that was not folded, cursors
ascend unless a write that raised reached the file, and a sweep that comes through without being
stopped has dispatched and folded each index once. -/
theorem indexed_sweep_marks {cfg : ScrapeConfig} {zoom resumeIndex : Nat} {coords : List Tile}
    {w : World} {turns : List (Turn Reply Bystander)}
    {p : Process (World × SweepJournal) Reply ScrapeExn (Nat × Nat)}
    (hrun : recorded note (runIndexedSweep cfg zoom coords resumeIndex) (w.setTasks [] []) .new
      turns = some p) :
    WatermarkSound (spanOf zoom coords resumeIndex w) p.memory.1 p.memory.2 ∧
      ((∀ e, .answer (.raised e true) ∉ turns) → p.memory.2.cursors.Pairwise Cursor.Le) ∧
      ∀ n, p.returned = some n →
        SweptSpan (spanOf zoom coords resumeIndex w) p.memory.1 p.memory.2 := by
  have hmeets := runIndexedSweep_records.meets hrun
  have hsound : WatermarkSound (spanOf zoom coords resumeIndex w) p.memory.1 p.memory.2 :=
    hmeets.everywhere (fun _ hs => hs) (fun _ _ hs => hs.sound) fun _ _ hs => hs
  exact ⟨hsound, fun hturns => hsound.persisted.ascending (torn_of_run hturns hrun),
    fun n hn => hmeets.of_returned hn⟩

/-- The second of two tiles is stored first; the first one does not exist and is queued. -/
def outOfOrder : List (Turn Reply Bystander) :=
  [.other (.tile 1 .start), .other (.tile 1 (.http .bytes)), .other (.tile 1 (.s3 true)),
    .other (.tile 1 (.redis .ok)), .answer .ok, .other (.tile 0 .start),
    .other (.tile 0 (.http .nothing)), .answer .ok, .answer .ok, .answer .ok]

theorem indexed_sweep_marks_outOfOrder : ∃ p : Process (World × SweepJournal) Reply ScrapeExn
      (Nat × Nat),
    recorded note (runIndexedSweep singleTileConfig 1 [⟨1, 0, 0⟩, ⟨1, 1, 0⟩] 0)
      (World.setTasks ⟨firstBoot, .new, .empty, []⟩ [] []) .new outOfOrder = some p ∧
    p.memory.2.folded = [1, 0] ∧ p.memory.2.fronts.map (fun f => (f.mark, f.above)) =
      [(0, [1]), (2, [])] ∧ p.memory.2.cursors = [⟨2, 0⟩] ∧
    SweptSpan ⟨1, 0, 2, none⟩ p.memory.1 p.memory.2 ∧ p.memory.2.cursors.Pairwise Cursor.Le := by
  have hrun : (recorded note (runIndexedSweep singleTileConfig 1 [⟨1, 0, 0⟩, ⟨1, 1, 0⟩] 0)
      (World.setTasks ⟨firstBoot, .new, .empty, []⟩ [] []) .new outOfOrder).any (fun p =>
        p.returned.isSome && decide (p.memory.2.folded = [1, 0] ∧
          p.memory.2.fronts.map (fun f => (f.mark, f.above)) = [(0, [1]), (2, [])] ∧
          p.memory.2.cursors = [⟨2, 0⟩])) = true := by decide
  obtain ⟨p, hp, hP⟩ := (Option.any_eq_true _ _).mp hrun
  simp only [Bool.and_eq_true, decide_eq_true_eq] at hP
  obtain ⟨n, hn⟩ := Option.isSome_iff_exists.mp hP.1
  obtain ⟨-, hascending, hswept⟩ := indexed_sweep_marks hp
  refine ⟨p, hp, hP.2.1, hP.2.2.1, hP.2.2.2, hswept n hn, hascending fun e he => ?_⟩
  simp [outOfOrder] at he

end DataService
