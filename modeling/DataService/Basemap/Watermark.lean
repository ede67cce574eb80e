import DataService.Basemap.SweepJournal

/-! The watermark of the main sweep of a zoom. Completions arrive in any order, cursors are
flushed now and then and once more on the way out, and the sweep may be cut off at any await;
what is persisted never runs ahead of what was folded. -/

namespace DataService

open Coroutine Coro

/-- The order in which a sweep moves its cursor. -/
def Cursor.Le (a b : Cursor) : Prop :=
  a.zoom < b.zoom ∨ (a.zoom = b.zoom ∧ a.tileIndex ≤ b.tileIndex)

/-- The sweep of the indices from `resume` to `total` of a zoom, and the cursor row it finds. -/
structure Span where
  zoom : Nat
  resume : Nat
  total : Nat
  row : Option Cursor

namespace Span

def indices (s : Span) : List Nat := List.range' s.resume (s.total - s.resume)

end Span

/-- The cursors that a sweep of this span has written: the last one is the row, none is past an
index that was not folded, and they ascend as long as no write raised and landed. -/
structure Persisted (s : Span) (row : Option Cursor) (j : SweepJournal) : Prop where
  row : row = j.cursors.getLast?.or s.row
  behind : ∀ c ∈ j.cursors, ∀ i ∈ s.indices, i ∉ j.folded → c.Le ⟨s.zoom, i⟩
  ascending : j.torn = false → j.cursors.Pairwise Cursor.Le

/-- The journal of a sweep of this span, wherever it was cut off. -/
structure WatermarkSound (s : Span) (w : World) (j : SweepJournal) : Prop where
  /-- each index at most once, in order -/
  dispatched : j.dispatched <+: s.indices
  folded : j.folded.Nodup ∧ ∀ i ∈ j.folded, i ∈ j.dispatched
  /-- the frontier after the `k`th fold, and the one that is in the memory -/
  fronts : ∀ (k : Nat) (f : Frontier), j.fronts[k]? = some f →
    f.MarksRun s.resume (j.folded.take (k + 1))
  memory : ∀ f, j.fronts.getLast? = some f → w.mem.progress.frontier = f
  /-- a fold whose cursor is being flushed may still wait for its frontier -/
  lag : j.fronts.length ≤ j.folded.length ∧ j.folded.length ≤ j.fronts.length + 1
  persisted : Persisted s w.rows.cursor j
  zoomed : ∀ c ∈ j.cursors, c.zoom = s.zoom ∨
    (c = ⟨s.zoom + 1, 0⟩ ∧ ∀ i ∈ s.indices, i ∈ j.folded)

/-- The same while the sweep goes on, with the indices dispatched so far. -/
structure Ledger (s : Span) (next : Nat) (w : World) (j : SweepJournal) : Prop where
  range : s.resume ≤ next ∧ next ≤ s.total
  dispatched : j.dispatched = List.range' s.resume (next - s.resume)
  folded : j.folded.Nodup ∧ ∀ i ∈ j.folded, s.resume ≤ i ∧ i < next
  fronts : ∀ (k : Nat) (f : Frontier), j.fronts[k]? = some f →
    f.Tracks s.resume (j.folded.take (k + 1))
  memory : w.mem.progress.frontier = j.fronts.getLast?.getD (.start s.resume)
  lag : j.fronts.length ≤ j.folded.length ∧ j.folded.length ≤ j.fronts.length + 1
  persisted : Persisted s w.rows.cursor j
  zoomed : ∀ c ∈ j.cursors, c.zoom = s.zoom

/-- No cursor that was written is past this index. -/
def Passed (s : Span) (mark : Nat) (j : SweepJournal) : Prop :=
  j.torn = false → ∀ c ∈ j.cursors, c.Le ⟨s.zoom, mark⟩

section Persisted

variable {s : Span} {before : Option Cursor} {c : Cursor} {j : SweepJournal} {r : Reply}

theorem Persisted.set (h : Persisted s before j)
    (hbehind : ∀ i ∈ s.indices, i ∉ j.folded → c.Le ⟨s.zoom, i⟩)
    (hpassed : r.tears = false → j.torn = false → ∀ d ∈ j.cursors, d.Le c) :
    Persisted s (some c) (j.persist r before (some c)) := by
  unfold SweepJournal.persist
  split
  · rename_i heq
    rw [heq]
    exact h
  · refine ⟨by simp, fun d hd i hi hn => ?_, fun ht => ?_⟩
    · rcases List.mem_append.mp hd with hd | hd
      · exact h.behind d hd i hi hn
      · obtain rfl : d = c := by simpa using hd
        exact hbehind i hi hn
    · obtain ⟨htorn, hraised⟩ := Bool.or_eq_false_iff.mp ht
      refine List.pairwise_append.mpr ⟨h.ascending htorn, by simp, fun d hd e he => ?_⟩
      obtain rfl : e = c := by simpa using he
      exact hpassed hraised htorn d hd

theorem mem_persist {d : Cursor} (h : d ∈ (j.persist r before (some c)).cursors) :
    d ∈ j.cursors ∨ d = c := by
  unfold SweepJournal.persist at h
  split at h
  · exact .inl h
  · rcases List.mem_append.mp h with h | h
    · exact .inl h
    · exact .inr (by simpa using h)

/-- Nothing but the cursors is entered with a write of the cursor row. -/
theorem persist_eq (j : SweepJournal) (r : Reply) (before after : Option Cursor) :
    ∃ cursors torn, j.persist r before after = { j with cursors := cursors, torn := torn } := by
  unfold SweepJournal.persist
  split
  · exact ⟨j.cursors, j.torn, rfl⟩
  · exact ⟨_, _, rfl⟩

end Persisted

section Ledger

variable {s : Span} {next idx mark : Nat} {w w' : World} {j : SweepJournal} {r : Reply}

theorem Cursor.Le.trans {a b c : Cursor} (h : a.Le b) (h' : b.Le c) : a.Le c := by
  unfold Cursor.Le at *
  omega

theorem Passed.mono {n : Nat} (h : Passed s mark j) (hn : mark ≤ n) : Passed s n j :=
  fun ht c hc => (h ht c hc).trans (.inr ⟨rfl, hn⟩)

theorem range'_prefix {a b c : Nat} (h : a ≤ b) (h' : b ≤ c) :
    List.range' a (b - a) <+: List.range' a (c - a) := by
  have hsum : c - a = (b - a) + (c - b) := by omega
  rw [hsum, ← List.range'_append_1]
  exact List.prefix_append _ _

theorem Ledger.sound (h : Ledger s next w j) : WatermarkSound s w j := by
  refine ⟨?_, ⟨h.folded.1, fun i hi => ?_⟩, fun k f hk => (h.fronts k f hk).marksRun, ?_, h.lag,
    h.persisted, fun c hc => .inl (h.zoomed c hc)⟩
  · rw [h.dispatched]
    exact range'_prefix h.range.1 h.range.2
  · rw [h.dispatched, List.mem_range'_1]
    have := h.folded.2 i hi
    have := h.range
    omega
  · intro f hf
    rw [h.memory, hf]
    rfl

/-- The frontier in memory knows the folds that have reached it. -/
theorem Ledger.tracks (h : Ledger s next w j) :
    w.mem.progress.frontier.Tracks s.resume (j.folded.take j.fronts.length) := by
  rw [h.memory]
  rcases List.eq_nil_or_concat j.fronts with hnil | ⟨fs, f, hfs⟩
  · simpa [hnil] using Frontier.tracks_start s.resume
  · have hlast : j.fronts[fs.length]? = some f := by simp [hfs]
    have htracks := h.fronts _ f hlast
    simpa [hfs] using htracks

theorem Ledger.of_eq (h : Ledger s next w j) (hcursor : w'.rows.cursor = w.rows.cursor)
    (hfront : w'.mem.progress.frontier = w.mem.progress.frontier) : Ledger s next w' j :=
  ⟨h.range, h.dispatched, h.folded, h.fronts, hfront.trans h.memory, h.lag,
    hcursor ▸ h.persisted, h.zoomed⟩

/-- A completion in hand is not folded. -/
theorem Ledger.hold (h : Ledger s next w j) (hand : Option Nat) :
    Ledger s next w { j with inHand := hand } :=
  ⟨h.range, h.dispatched, h.folded, h.fronts, h.memory, h.lag,
    ⟨h.persisted.row, h.persisted.behind, h.persisted.ascending⟩, h.zoomed⟩

theorem Ledger.fold (h : Ledger s next w j) (hstep : j.fronts.length = j.folded.length)
    (hidx : s.resume ≤ idx ∧ idx < next) (hn : idx ∉ j.folded) :
    Ledger s next w { j with folded := j.folded ++ [idx], inHand := none } := by
  refine ⟨h.range, h.dispatched, ⟨?_, ?_⟩, fun k f hk => ?_, h.memory, ?_,
    ⟨h.persisted.row, ?_, h.persisted.ascending⟩, h.zoomed⟩
  · exact List.nodup_append_comm.mp (List.nodup_cons.mpr ⟨hn, h.folded.1⟩)
  · intro i hi
    rcases List.mem_append.mp hi with hi | hi
    · exact h.folded.2 i hi
    · exact List.mem_singleton.mp hi ▸ hidx
  · have hlt : k < j.fronts.length := (List.getElem?_eq_some_iff.mp hk).1
    have htake : (j.folded ++ [idx]).take (k + 1) = j.folded.take (k + 1) :=
      List.take_append_of_le_length (by omega)
    change f.Tracks s.resume ((j.folded ++ [idx]).take (k + 1))
    rw [htake]
    exact h.fronts k f hk
  · simp only [List.length_append, List.length_singleton]
    omega
  · intro c hc i hi hni
    exact h.persisted.behind c hc i hi fun hm => hni (List.mem_append_left _ hm)

/-- What a frontier that has taken in every fold has not passed is not folded. -/
theorem cursor_behind {f : Frontier} (h : f.Tracks s.resume j.folded) :
    ∀ i ∈ s.indices, i ∉ j.folded → Cursor.Le ⟨s.zoom, f.mark⟩ ⟨s.zoom, i⟩ := by
  intro i hi hn
  rw [Span.indices, List.mem_range'_1] at hi
  exact .inr ⟨rfl, h.mark_le hi.1 hn⟩

theorem Ledger.write (h : Ledger s next w j) {c : Cursor} (hzoom : c.zoom = s.zoom)
    (hbehind : ∀ i ∈ s.indices, i ∉ j.folded → c.Le ⟨s.zoom, i⟩)
    (hpassed : r.tears = false → j.torn = false → ∀ d ∈ j.cursors, d.Le c) :
    Ledger s next (w.setCursor c) (j.persist r w.rows.cursor (some c)) := by
  have hset := h.persisted.set hbehind hpassed
  have hmem := fun d => @mem_persist w.rows.cursor c j r d
  obtain ⟨cursors, torn, heq⟩ := persist_eq j r w.rows.cursor (some c)
  rw [heq] at hset hmem ⊢
  refine ⟨h.range, h.dispatched, h.folded, h.fronts, h.memory, h.lag, hset, fun d hd => ?_⟩
  rcases hmem d hd with hd | rfl
  · exact h.zoomed d hd
  · exact hzoom

/-- A write that raised leaves the marks passed alone, or the journal torn. -/
theorem Passed.torn {c : Cursor} (h : Passed s mark j) (hr : r.tears = true)
    (before : Option Cursor) : Passed s mark (j.persist r before (some c)) := by
  unfold SweepJournal.persist
  split
  · exact h
  · intro ht
    simp [hr] at ht

theorem Passed.write (h : Passed s mark j) {n : Nat} (hn : mark ≤ n) (before : Option Cursor) :
    Passed s n (j.persist r before (some ⟨s.zoom, n⟩)) := by
  intro ht d hd
  rcases mem_persist hd with hd | rfl
  · refine (h ?_ d hd).trans (.inr ⟨rfl, hn⟩)
    unfold SweepJournal.persist at ht
    split at ht
    · exact ht
    · exact (Bool.or_eq_false_iff.mp ht).1
  · exact .inr ⟨rfl, Nat.le_refl _⟩

theorem Ledger.settle (h : Ledger s next w j) {p : SweepProgress}
    (hp : p.frontier.Tracks s.resume j.folded) (hlag : j.folded.length = j.fronts.length + 1) :
    Ledger s next (w.setProgress p) { j with fronts := j.fronts ++ [p.frontier] } := by
  refine ⟨h.range, h.dispatched, h.folded, fun k f hk => ?_, ?_, ?_,
    ⟨h.persisted.row, h.persisted.behind, h.persisted.ascending⟩, h.zoomed⟩
  · rcases Nat.lt_trichotomy k j.fronts.length with hlt | rfl | hgt
    · rw [List.getElem?_append_left hlt] at hk
      exact h.fronts k f hk
    · obtain rfl : p.frontier = f := by simpa using hk
      change p.frontier.Tracks s.resume (j.folded.take (j.fronts.length + 1))
      rw [List.take_of_length_le (by omega)]
      exact hp
    · have hlt := (List.getElem?_eq_some_iff.mp hk).1
      simp only [List.length_append, List.length_singleton] at hlt
      omega
  · simp [World.setProgress]
  · simp only [List.length_append, List.length_singleton]
    omega

end Ledger

end DataService
