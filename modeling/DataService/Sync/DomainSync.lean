import Mathlib.Logic.Function.Basic
import DataService.Metrics.MetricsStore
import DataService.Sync.BaseSyncService

/-! `DomainSyncService`: one product's loop, its counters, the status hash in Redis and the rows
of its cycles in the metrics store, which the loops of all products share. -/

namespace DataService

open Metrics

/-- How the watched coroutine ends. An `asyncio.TimeoutError` of its own looks like the watchdog. -/
inductive BodyEnd where
  | returned (downloaded errors : Nat)
  | timedOut
  | raised (e : LoopExn)
  deriving DecidableEq, Repr

/-- The texts of the clocks in one cycle. -/
structure CycleClock where
  syncStart : String
  syncEnd : String
  durationMs : String
  startedAt : String
  finishedAt : String
  rowDurationMs : Int
  deriving DecidableEq, Repr

/-- How `_record_cycle` ends, and whether the row has come to stand in a store. -/
inductive RecordEnd where
  | returned (landed : Bool)
  | cancelled (landed : Bool)
  deriving DecidableEq, Repr

def RecordEnd.landed : RecordEnd → Bool
  | returned landed | cancelled landed => landed

/-- How an `HSET` of the status ends. One that raises may have taken effect. -/
inductive WriteEnd where
  | returned
  | raised (e : LoopExn) (landed : Bool)
  deriving DecidableEq, Repr

/-- The write has taken effect, and nothing but a cancellation came of it. -/
def WriteEnd.Kept (w : WriteEnd) : Prop := w = .returned ∨ w = .raised .cancelled true

/-- What one call of `_run_sync` meets. -/
structure CycleAnswers where
  s3Configured : Bool
  redisSet : Bool
  clock : CycleClock
  startWrite : WriteEnd
  body : BodyEnd
  record : RecordEnd
  endWrite : WriteEnd
  deriving DecidableEq, Repr

abbrev StatusHash := String → Option String

/-- `HSET` -/
def StatusHash.hset (status : StatusHash) (fields : List (String × String)) : StatusHash :=
  fields.foldl (fun status field => Function.update status field.1 (some field.2)) status

structure DomainSyncService (ν : Type) where
  domain : String
  consecutiveFailures : Nat
  consecutiveTimeouts : Nat
  totalCycles : Nat
  status : StatusHash
  metrics : MetricsStore String ν

namespace DomainSyncService

variable {ν : Type}

def onSyncError (s : DomainSyncService ν) : DomainSyncService ν :=
  { s with consecutiveFailures := s.consecutiveFailures + 1 }

/-- What a body that has ended without another exception leaves to record: the downloads, the
errors and the outcome. -/
def tallied : BodyEnd → Nat × Nat × String
  | .returned downloaded errors => (downloaded, errors, if errors = 0 then "ok" else "error")
  | _ => (0, 0, "timeout")

def recordCycle (s : DomainSyncService ν) (a : CycleAnswers) : DomainSyncService ν :=
  let (downloaded, errors, outcome) := tallied a.body
  if a.record.landed then
    { s with
      metrics := s.metrics.recordSyncCycle ⟨s.domain, a.clock.startedAt, a.clock.finishedAt,
        a.clock.rowDurationMs, downloaded, errors, outcome⟩ }
  else s

def count (s : DomainSyncService ν) (body : BodyEnd) : DomainSyncService ν :=
  let t := { s with totalCycles := s.totalCycles + 1 }
  match body with
  | .returned _ 0 => { t with consecutiveFailures := 0, consecutiveTimeouts := 0 }
  | .returned _ _ => { t with consecutiveFailures := t.consecutiveFailures + 1 }
  | _ => { t with consecutiveTimeouts := t.consecutiveTimeouts + 1 }

def writeStart (s : DomainSyncService ν) (a : CycleAnswers) : DomainSyncService ν :=
  { s with
    status := s.status.hset [("is_running", "true"), ("last_sync_start", a.clock.syncStart)] }

def writeEnd (s : DomainSyncService ν) (a : CycleAnswers) : DomainSyncService ν :=
  let (downloaded, errors, _) := tallied a.body
  { s with
    status := s.status.hset [("is_running", "false"), ("last_sync_end", a.clock.syncEnd),
      ("last_sync_duration_ms", a.clock.durationMs), ("last_sync_downloaded", toString downloaded),
      ("last_sync_errors", toString errors),
      ("consecutive_failures", toString s.consecutiveFailures),
      ("consecutive_timeouts", toString s.consecutiveTimeouts),
      ("total_cycles", toString s.totalCycles)] }

/-- `_run_single_domain`, and the exception it ends with. -/
def runSingleDomain (s : DomainSyncService ν) (a : CycleAnswers) :
    DomainSyncService ν × Option LoopExn :=
  if a.s3Configured = false ∨ a.redisSet = false then (s, none)
  else
    match a.startWrite with
    | .raised e landed => (if landed then s.writeStart a else s, some e)
    | .returned =>
      match a.body with
      | .raised e => (s.writeStart a, some e)
      | body =>
        let t := (s.writeStart a).recordCycle a
        match a.record, a.endWrite with
        | .cancelled _, _ => (t, some .cancelled)
        | .returned _, .raised e landed =>
          (if landed then (t.count body).writeEnd a else t.count body, some e)
        | .returned _, .returned => ((t.count body).writeEnd a, none)

/-- A cycle of the loop: what is no cancellation is counted by `_on_sync_error`. -/
def cycle (s : DomainSyncService ν) (a : CycleAnswers) : DomainSyncService ν :=
  match s.runSingleDomain a with
  | (t, some .exception) => t.onSyncError
  | (t, _) => t

end DomainSyncService

/-- A cycle of this loop, or a row that another one writes. -/
inductive DomainEvent where
  | cycle (a : CycleAnswers)
  | foreign (row : SyncCycleRow String)
  deriving DecidableEq

namespace DomainSyncService

variable {ν : Type}

def step (s : DomainSyncService ν) : DomainEvent → Option (DomainSyncService ν)
  | .cycle a => some (s.cycle a)
  | .foreign row =>
    if row.domain = s.domain then none
    else some { s with metrics := s.metrics.recordSyncCycle row }

/-- A new process finds the hash and the rows of an earlier one. -/
def new (domain : String) (status : StatusHash) (metrics : MetricsStore String ν) :
    DomainSyncService ν :=
  ⟨domain, 0, 0, 0, status, metrics⟩

/-- The rows of the product, but for the first `k` rows of the table. -/
def ownRows (s : DomainSyncService ν) (k : Nat) : List (SyncCycleRow String) :=
  (s.metrics.syncCycles.drop k).filter (·.domain = s.domain)

/-- How many of the rows behind the last one that is ok have this outcome. -/
def sinceOk (outcome : String) (rows : List (SyncCycleRow String)) : Nat :=
  (rows.reverse.takeWhile (·.outcome ≠ "ok")).countP (·.outcome = outcome)

/-- The hash tells what the last row and the rows before it tell, and no cycle is under way. -/
def StatusShows (status : StatusHash) (rows : List (SyncCycleRow String)) : Prop :=
  status "is_running" ≠ some "true" ∧ ∀ row, rows.getLast? = some row →
    status "last_sync_downloaded" = some (toString row.downloaded) ∧
    status "last_sync_errors" = some (toString row.errors) ∧
    status "consecutive_failures" = some (toString (sinceOk "error" rows)) ∧
    status "consecutive_timeouts" = some (toString (sinceOk "timeout" rows)) ∧
    status "total_cycles" = some (toString rows.length)

/-- The counters, the hash and the rows written since the start say the same. -/
structure Agree (k : Nat) (s : DomainSyncService ν) : Prop where
  failures : s.consecutiveFailures = sinceOk "error" (s.ownRows k)
  timeouts : s.consecutiveTimeouts = sinceOk "timeout" (s.ownRows k)
  total : s.totalCycles = (s.ownRows k).length
  status : StatusShows s.status (s.ownRows k)

/-- The cycle does not take place, or is cancelled before its first write takes effect, or comes
to its end: the body does, and neither its row nor its status is lost. -/
def Clean (a : CycleAnswers) : Prop :=
  a.s3Configured = false ∨ a.redisSet = false ∨ a.startWrite = .raised .cancelled false ∨
    a.startWrite = .returned ∧ (∀ e, a.body ≠ .raised e) ∧ a.record = .returned true ∧
      a.endWrite.Kept

def CleanEvent (_ : DomainSyncService ν) : DomainEvent → Prop
  | .cycle a => Clean a
  | .foreign _ => True

section Rows

variable {s : DomainSyncService ν} {a : CycleAnswers} {k : Nat} {row : SyncCycleRow String}
  {rows : List (SyncCycleRow String)}

theorem sinceOk_append (outcome : String) : sinceOk outcome (rows ++ [row]) =
    if row.outcome = "ok" then 0
    else sinceOk outcome rows + if row.outcome = outcome then 1 else 0 := by
  by_cases hok : row.outcome = "ok"
  · simp [sinceOk, hok]
  · by_cases hout : row.outcome = outcome
    · subst hout
      simp [sinceOk, hok]
    · simp [sinceOk, hok, hout]

theorem ownRows_record (hk : k ≤ s.metrics.syncCycles.length) (hown : row.domain = s.domain) :
    ({ s with metrics := s.metrics.recordSyncCycle row } : DomainSyncService ν).ownRows k =
      s.ownRows k ++ [row] := by
  simp [ownRows, MetricsStore.recordSyncCycle, List.drop_append_of_le_length hk, hown]

theorem ownRows_foreign (hk : k ≤ s.metrics.syncCycles.length) (hother : row.domain ≠ s.domain) :
    ({ s with metrics := s.metrics.recordSyncCycle row } : DomainSyncService ν).ownRows k =
      s.ownRows k := by
  simp [ownRows, MetricsStore.recordSyncCycle, List.drop_append_of_le_length hk, hother]

/-- The row of a cycle whose body has come to its end. -/
def cycleRow (domain : String) (a : CycleAnswers) : SyncCycleRow String :=
  ⟨domain, a.clock.startedAt, a.clock.finishedAt, a.clock.rowDurationMs, (tallied a.body).1,
    (tallied a.body).2.1, (tallied a.body).2.2⟩

theorem recordCycle_landed (h : a.record.landed = true) : s.recordCycle a =
    { s with metrics := s.metrics.recordSyncCycle (cycleRow s.domain a) } := by
  simp [recordCycle, h, cycleRow]

theorem recordCycle_lost (h : a.record.landed = false) : s.recordCycle a = s := by
  simp [recordCycle, h]

theorem status_recordCycle : (s.recordCycle a).status = s.status := by
  unfold recordCycle
  split_ifs <;> rfl

theorem status_count (body : BodyEnd) : (s.count body).status = s.status := by
  unfold count
  split <;> rfl

theorem metrics_count (body : BodyEnd) : (s.count body).metrics = s.metrics ∧
    (s.count body).domain = s.domain ∧ (s.count body).totalCycles = s.totalCycles + 1 := by
  unfold count
  split <;> exact ⟨rfl, rfl, rfl⟩

theorem running_writeStart : (s.writeStart a).status "is_running" = some "true" := by
  simp [writeStart, StatusHash.hset]

theorem not_agree_of_running (h : s.status "is_running" = some "true") : ¬ s.Agree k :=
  fun hagree => hagree.status.1 h

end Rows

section Cycles

variable {s t : DomainSyncService ν} {a : CycleAnswers} {k : Nat}

/-- The counters after a cycle are those of the rows with its row. -/
theorem count_agrees {rows : List (SyncCycleRow String)} (domain : String)
    (hfailures : s.consecutiveFailures = sinceOk "error" rows)
    (htimeouts : s.consecutiveTimeouts = sinceOk "timeout" rows) (hbody : ∀ e, a.body ≠ .raised e) :
    (s.count a.body).consecutiveFailures = sinceOk "error" (rows ++ [cycleRow domain a]) ∧
    (s.count a.body).consecutiveTimeouts = sinceOk "timeout" (rows ++ [cycleRow domain a]) := by
  rw [sinceOk_append, sinceOk_append]
  cases hend : a.body with
  | returned downloaded errors =>
    cases errors with
    | zero => simp [count, cycleRow, tallied, hend]
    | succ errors => simp [count, cycleRow, tallied, hend, hfailures, htimeouts]
  | timedOut => simp [count, cycleRow, tallied, hend, hfailures, htimeouts]
  | raised e => exact absurd hend (hbody e)

theorem status_writeEnd (key : String) : (s.writeEnd a).status key =
    if key = "total_cycles" then some (toString s.totalCycles)
    else if key = "consecutive_timeouts" then some (toString s.consecutiveTimeouts)
    else if key = "consecutive_failures" then some (toString s.consecutiveFailures)
    else if key = "last_sync_errors" then some (toString (tallied a.body).2.1)
    else if key = "last_sync_downloaded" then some (toString (tallied a.body).1)
    else if key = "last_sync_duration_ms" then some a.clock.durationMs
    else if key = "last_sync_end" then some a.clock.syncEnd
    else if key = "is_running" then some "false" else s.status key := by
  simp only [writeEnd, StatusHash.hset, List.foldl_cons, List.foldl_nil, Function.update_apply]

theorem agree_clean (hk : k ≤ s.metrics.syncCycles.length) (h : s.Agree k)
    (hbody : ∀ e, a.body ≠ .raised e) (hlanded : a.record.landed = true) :
    ((((s.writeStart a).recordCycle a).count a.body).writeEnd a).Agree k := by
  have hrecorded := recordCycle_landed (s := s.writeStart a) hlanded
  have hrows : ((s.writeStart a).recordCycle a).ownRows k =
      s.ownRows k ++ [cycleRow s.domain a] := by
    rw [hrecorded]
    exact ownRows_record (s := s.writeStart a) hk rfl
  obtain ⟨hmetrics, hdomain, htotal⟩ := metrics_count (s := (s.writeStart a).recordCycle a) a.body
  have hsame : ((((s.writeStart a).recordCycle a).count a.body).writeEnd a).ownRows k =
      s.ownRows k ++ [cycleRow s.domain a] := by
    rw [← hrows]
    simp only [ownRows, writeEnd, hmetrics, hdomain]
  obtain ⟨hfailures, htimeouts⟩ := count_agrees (s := (s.writeStart a).recordCycle a) s.domain
    (by rw [hrecorded]; exact h.failures) (by rw [hrecorded]; exact h.timeouts) hbody
  have hlength : (((s.writeStart a).recordCycle a).count a.body).totalCycles =
      (s.ownRows k ++ [cycleRow s.domain a]).length := by
    rw [htotal, hrecorded, List.length_append, List.length_singleton]
    exact congrArg (· + 1) h.total
  constructor
  · rw [hsame]
    exact hfailures
  · rw [hsame]
    exact htimeouts
  · rw [hsame]
    exact hlength
  · rw [hsame]
    refine ⟨by simp [status_writeEnd], fun row hrow => ?_⟩
    obtain rfl : cycleRow s.domain a = row := by simpa using hrow
    simp only [status_writeEnd, hfailures, htimeouts, hlength]
    exact ⟨rfl, rfl, rfl, rfl, rfl⟩

/-- A cycle whose body comes to its end. -/
theorem runSingleDomain_ends (hs3 : a.s3Configured = true) (hredis : a.redisSet = true)
    (hstart : a.startWrite = .returned) (hbody : ∀ e, a.body ≠ .raised e) :
    s.runSingleDomain a =
      match a.record, a.endWrite with
      | .cancelled _, _ => ((s.writeStart a).recordCycle a, some .cancelled)
      | .returned _, .raised e landed =>
        (if landed then (((s.writeStart a).recordCycle a).count a.body).writeEnd a
          else ((s.writeStart a).recordCycle a).count a.body, some e)
      | .returned _, .returned =>
        ((((s.writeStart a).recordCycle a).count a.body).writeEnd a, none) := by
  have hgo : ¬ (a.s3Configured = false ∨ a.redisSet = false) := by simp [hs3, hredis]
  rw [runSingleDomain, if_neg hgo, hstart]
  cases hend : a.body with
  | raised e => exact absurd hend (hbody e)
  | returned downloaded errors => rfl
  | timedOut => rfl

/-- A cycle that stops between the two writes of its status leaves it under way. -/
theorem running_interrupted {u : DomainSyncService ν} {e : LoopExn}
    (hrun : s.runSingleDomain a = (u, some e)) (hu : u.status "is_running" = some "true") :
    ¬ (s.cycle a).Agree k := by
  apply not_agree_of_running
  cases e with
  | cancelled => simpa [cycle, hrun] using hu
  | exception => simpa [cycle, hrun, onSyncError] using hu

/-- An exception is counted, also when everything has been written. -/
theorem not_agree_onSyncError {u : DomainSyncService ν} (hagree : u.Agree k) :
    ¬ u.onSyncError.Agree k := by
  intro hraised
  have hcount : u.consecutiveFailures + 1 = sinceOk "error" (u.ownRows k) := hraised.failures
  rw [← hagree.failures] at hcount
  omega

/-- A cycle that is counted, and whose row is missing. -/
theorem not_agree_lost (h : s.Agree k) (hlanded : a.record.landed = false) {e : Option LoopExn}
    (hrun : s.runSingleDomain a =
      ((((s.writeStart a).recordCycle a).count a.body).writeEnd a, e)) : ¬ (s.cycle a).Agree k := by
  rw [recordCycle_lost hlanded] at hrun
  obtain ⟨hmetrics, hdomain, htotal⟩ := metrics_count (s := s.writeStart a) a.body
  have hrows : (((s.writeStart a).count a.body).writeEnd a).ownRows k = s.ownRows k := by
    simp only [ownRows, writeEnd, hmetrics, hdomain]
    rfl
  have hsucc : (((s.writeStart a).count a.body).writeEnd a).totalCycles = s.totalCycles + 1 := htotal
  have hkept : (s.cycle a).totalCycles = s.totalCycles + 1 ∧ (s.cycle a).ownRows k = s.ownRows k := by
    unfold cycle
    rw [hrun]
    split
    · rename_i heq
      cases heq
      exact ⟨hsucc, hrows⟩
    · rename_i heq
      cases heq
      exact ⟨hsucc, hrows⟩
  intro hagree
  have hcount := hagree.total
  rw [hkept.1, hkept.2, ← h.total] at hcount
  omega

theorem clean_iff_of_ends (hk : k ≤ s.metrics.syncCycles.length) (h : s.Agree k)
    (hs3 : a.s3Configured = true) (hredis : a.redisSet = true) (hstart : a.startWrite = .returned)
    (hbody : ∀ e, a.body ≠ .raised e) : Clean a ↔ (s.cycle a).Agree k := by
  have hclean : Clean a ↔ a.record = .returned true ∧ a.endWrite.Kept := by
    simp [Clean, hs3, hredis, hstart, hbody]
  rw [hclean]
  have hrun := runSingleDomain_ends (s := s) hs3 hredis hstart hbody
  have hrunning : ((s.writeStart a).recordCycle a).status "is_running" = some "true" := by
    rw [status_recordCycle, running_writeStart]
  cases hrecord : a.record with
  | cancelled landed =>
    rw [hrecord] at hrun
    exact iff_of_false (by simp) (running_interrupted hrun hrunning)
  | returned landed =>
    rw [hrecord] at hrun
    cases hend : a.endWrite with
    | returned =>
      rw [hend] at hrun
      cases landed with
      | true =>
        have hcycle : s.cycle a = (((s.writeStart a).recordCycle a).count a.body).writeEnd a := by
          simp [cycle, hrun]
        rw [hcycle]
        exact iff_of_true ⟨rfl, .inl rfl⟩ (agree_clean hk h hbody (by rw [hrecord]; rfl))
      | false =>
        exact iff_of_false (by simp) (not_agree_lost h (by rw [hrecord]; rfl) hrun)
    | raised e written =>
      rw [hend] at hrun
      cases written with
      | false =>
        exact iff_of_false (by simp [WriteEnd.Kept])
          (running_interrupted hrun ((status_count _).symm ▸ hrunning))
      | true =>
        cases landed with
        | false =>
          exact iff_of_false (by simp) (not_agree_lost h (by rw [hrecord]; rfl) hrun)
        | true =>
          have hagree := agree_clean hk h hbody (by rw [hrecord]; rfl)
          cases e with
          | cancelled =>
            have hcycle : s.cycle a =
                (((s.writeStart a).recordCycle a).count a.body).writeEnd a := by
              simp [cycle, hrun]
            rw [hcycle]
            exact iff_of_true ⟨rfl, .inr rfl⟩ hagree
          | exception =>
            have hcycle : s.cycle a =
                ((((s.writeStart a).recordCycle a).count a.body).writeEnd a).onSyncError := by
              simp [cycle, hrun]
            rw [hcycle]
            exact iff_of_false (by simp [WriteEnd.Kept]) (not_agree_onSyncError hagree)

/-- A cycle keeps the counters, the hash and the rows in agreement iff it is clean. -/
theorem clean_iff (hk : k ≤ s.metrics.syncCycles.length) (h : s.Agree k) :
    Clean a ↔ (s.cycle a).Agree k := by
  by_cases hskip : a.s3Configured = false ∨ a.redisSet = false
  · have hsame : s.cycle a = s := by simp [cycle, runSingleDomain, hskip]
    rw [hsame]
    exact iff_of_true (hskip.elim .inl fun hredis => .inr (.inl hredis)) h
  · have hs3 : a.s3Configured = true := by simpa using (not_or.mp hskip).1
    have hredis : a.redisSet = true := by simpa using (not_or.mp hskip).2
    cases hstart : a.startWrite with
    | raised e landed =>
      have hrun : s.runSingleDomain a = (if landed then s.writeStart a else s, some e) := by
        simp [runSingleDomain, hs3, hredis, hstart]
      cases landed with
      | true =>
        exact iff_of_false (by simp [Clean, hs3, hredis, hstart])
          (running_interrupted hrun running_writeStart)
      | false =>
        cases e with
        | cancelled =>
          have hsame : s.cycle a = s := by simp [cycle, hrun]
          rw [hsame]
          exact iff_of_true (by simp [Clean, hstart]) h
        | exception =>
          have hraised : s.cycle a = s.onSyncError := by simp [cycle, hrun]
          rw [hraised]
          exact iff_of_false (by simp [Clean, hs3, hredis, hstart]) (not_agree_onSyncError h)
    | returned =>
      by_cases hbody : ∃ e, a.body = .raised e
      · obtain ⟨e, hraised⟩ := hbody
        have hrun : s.runSingleDomain a = (s.writeStart a, some e) := by
          simp [runSingleDomain, hs3, hredis, hstart, hraised]
        exact iff_of_false (by simp [Clean, hs3, hredis, hstart, hraised])
          (running_interrupted hrun running_writeStart)
      · exact clean_iff_of_ends hk h hs3 hredis hstart fun e he => hbody ⟨e, he⟩

theorem length_cycle (s : DomainSyncService ν) (a : CycleAnswers) :
    s.metrics.syncCycles.length ≤ (s.cycle a).metrics.syncCycles.length := by
  have hrecord : s.metrics.syncCycles.length ≤
      ((s.writeStart a).recordCycle a).metrics.syncCycles.length := by
    unfold recordCycle
    split_ifs
    · simp [MetricsStore.recordSyncCycle, writeStart]
    · exact Nat.le_refl _
  have hrun : s.metrics.syncCycles.length ≤
      (s.runSingleDomain a).1.metrics.syncCycles.length := by
    unfold runSingleDomain
    split_ifs
    · exact Nat.le_refl _
    · split
      · split_ifs <;> exact Nat.le_refl _
      · split
        · exact Nat.le_refl _
        · split
          · exact hrecord
          · split_ifs
            · simpa only [writeEnd, (metrics_count _).1] using hrecord
            · rwa [(metrics_count _).1]
          · simpa only [writeEnd, (metrics_count _).1] using hrecord
  unfold cycle
  split
  · rename_i t heq
    rw [heq] at hrun
    exact hrun
  · rename_i t e hne heq
    rw [heq] at hrun
    exact hrun

theorem length_step {e : DomainEvent} (hk : k ≤ s.metrics.syncCycles.length)
    (hs : s.step e = some t) : k ≤ t.metrics.syncCycles.length := by
  cases e with
  | cycle a =>
    cases hs
    exact hk.trans (length_cycle s a)
  | foreign row =>
    simp only [step] at hs
    split_ifs at hs
    cases hs
    simp only [MetricsStore.recordSyncCycle, List.length_append]
    exact hk.trans (Nat.le_add_right _ _)

theorem cleanEvent_iff {e : DomainEvent} (hk : k ≤ s.metrics.syncCycles.length) (h : s.Agree k) :
    CleanEvent s e ↔ ∀ t, s.step e = some t → t.Agree k := by
  cases e with
  | cycle a =>
    refine (clean_iff hk h).trans ⟨fun hagree t ht => ?_, fun hall => hall _ rfl⟩
    cases ht
    exact hagree
  | foreign row =>
    refine iff_of_true trivial fun t ht => ?_
    simp only [step] at ht
    split_ifs at ht with hother
    cases ht
    have hrows := ownRows_foreign hk hother
    exact ⟨by rw [hrows]; exact h.failures, by rw [hrows]; exact h.timeouts,
      by rw [hrows]; exact h.total, by rw [hrows]; exact h.status⟩

end Cycles

/-- A cycle that fails between two that are fine, and a cycle of another product. -/
def radarCycles : List DomainEvent :=
  let clock : CycleClock := ⟨"0.0", "2.5", "2500", "", "", 2500⟩
  [.cycle ⟨true, true, clock, .returned, .returned 40 0, .returned true, .returned⟩,
    .foreign ⟨"wrf", "", "", 10, 0, 0, "ok"⟩,
    .cycle ⟨true, true, clock, .returned, .returned 3 2, .returned true, .returned⟩,
    .cycle ⟨true, true, clock, .returned, .timedOut, .returned true, .raised .cancelled true⟩]

end DomainSyncService

end DataService
