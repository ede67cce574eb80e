import DataService.Lib.TimedMemo
import DataService.Sync.Availability

/-! `ProductAvailabilityService.snapshot` under any number of clients: one sweep over the
contributors serves them all for a while. -/

namespace DataService.Sync

open TimedMemo (Memo)

/-- What the clients of a worker and the contributors do. A gather fails with the first
contributor that raises. -/
inductive AvailabilityAction where
  | wait (millis : Nat)
  | snapshot
  | acquire (call : Nat)
  | gathered (call : Nat) (results : List (String × List ProductPath))
  | raised (call : Nat)
  deriving DecidableEq, Repr

def AvailabilityAction.onMemo :
    AvailabilityAction → TimedMemo.Action Unit ProductAvailabilitySnapshot
  | wait millis => .wait millis
  | snapshot => .call ()
  | acquire call => .acquire call
  | gathered call results => .loaded call (assemble results)
  | raised call => .failed call

def snapshotStep (ttl : Nat) (s : Memo Unit ProductAvailabilitySnapshot) (a : AvailabilityAction) :
    Option (Memo Unit ProductAvailabilitySnapshot) :=
  Memo.step ttl s a.onMemo

/-- Every client is answered from one gather that has just ended or has ended less than the time to
live ago, never from an older one than was used before; and however many clients there are, the
sweeps that begin in a stretch of time are at most one more than the times to live in it. -/
theorem sweeps_shared (ttl : Nat) (as : List AvailabilityAction)
    (s : Memo Unit ProductAvailabilitySnapshot)
    (hrun : StepSystem.run (snapshotStep ttl) Memo.new as = some s) :
    (∀ a ∈ s.answers, (∃ call results, .gathered call results ∈ as ∧
        a.load.value = assemble results) ∧ a.load.finish ≤ a.time ∧
        (a.time < a.load.finish + ttl ∨ a.time = a.load.finish)) ∧
      (s.answers.Pairwise fun a a' => a'.load.finish ≤ a.load.finish) ∧
      ∀ first last, ((s.loads.filter fun l => first ≤ l.start ∧ l.start ≤ last).length - 1) * ttl ≤
        last - first := by
  have hmemo : StepSystem.run (Memo.step ttl) Memo.new (as.map AvailabilityAction.onMemo) =
      some s := by
    rw [← StepSystem.run_map]
    exact hrun
  have hsound := Memo.sound_run hmemo
  refine ⟨fun a ha => ?_, ?_, fun first last => ?_⟩
  · obtain ⟨hload, hfinish, -, hlive⟩ := hsound.answered a ha
    refine ⟨?_, hfinish, hlive⟩
    rcases Memo.mem_loads hmemo hload with hnone | ⟨i, hi⟩
    · cases hnone
    · obtain ⟨b, hb, heq⟩ := List.mem_map.mp hi
      cases b with
      | gathered call results =>
        obtain ⟨rfl, hvalue⟩ := TimedMemo.Action.loaded.inj heq
        exact ⟨call, results, hb, hvalue.symm⟩
      | _ => cases heq
  · exact hsound.monotone.imp fun h => h.2 rfl
  · simpa using hsound.loads_in_stretch () first last

/-- Two clients, the second of which waits for the sweep of the first. -/
def secondWaits : List AvailabilityAction :=
  [.snapshot, .acquire 0, .snapshot, .wait 100, .gathered 0 [("gfs", [["gfs", "wind"]])], .wait 50,
    .acquire 1]

theorem sweeps_shared_second : ∃ s : Memo Unit ProductAvailabilitySnapshot,
    s.answers.length = 2 ∧
      ((s.loads.filter fun l => 0 ≤ l.start ∧ l.start ≤ 150).length - 1) * 5000 ≤ 150 - 0 :=
  ⟨_, rfl, (sweeps_shared 5000 secondWaits _ rfl).2.2 0 150⟩

end DataService.Sync
