import AuditTrail.Proofs.Ledger.Conservation
import AuditTrail.Proofs.Recorder.Counters
import AuditTrail.Proofs.Recorder.Queue

/-!
The counters of a ledger, held against what they count. Whatever is called, in any order, the queue
counts what went through it, the recorder counts what it has committed and keeps, and with the
events that were stored at once these are all the events that the store has got.
-/

namespace AuditTrail

namespace Recorder

variable {σ : Type} [Store σ]

theorem queue_commitGroup (now : Timestamp) (recorder : Recorder σ)
    (group : String × List RawEvent) : (recorder.commitGroup now group).queue = recorder.queue := by
  obtain ⟨session, raws⟩ := group
  rcases recorder.commitGroup_cases now session raws with
    ⟨_, _, parks⟩ | ⟨_, ⟨_, _, committed, stores⟩ | ⟨_, _, failed, keeps⟩⟩
  · rw [parks]
  · rw [stores, recordCommit_queue, (commitRaws_frame committed).2.2]
  · rw [keeps]
    exact (commitRaws_frame failed).2.2

theorem totalPushed_cycle (full : Bool) (now : Timestamp) (recorder : Recorder σ) :
    (recorder.cycle full now).2.queue.totalPushed = recorder.queue.totalPushed := by
  have landed (groups : List (String × List RawEvent)) (given : Recorder σ) :
      (groups.foldl (commitGroup now) given).queue = given.queue := by
    induction groups generalizing given with
    | nil => rfl
    | cons group rest ih => rw [List.foldl_cons, ih, queue_commitGroup]
  simp only [cycle, landed, EventQueue.drain]

theorem Chores.totalPushed {now : Timestamp} {before after : Recorder σ}
    (chores : Chores now before after) : after.queue.totalPushed = before.queue.totalPushed := by
  induction chores with
  | refl => rfl
  | tail _ chore ih =>
      cases chore with
      | note tickets running cycles noted => exact ih
      | cycle full => rw [totalPushed_cycle, ih]

theorem queue_retryFailed (session : String) (now : Timestamp) (recorder : Recorder σ) :
    (recorder.retryFailed session now).2.queue = recorder.queue := by
  rcases recorder.retryFailed_cases session now with
    ⟨_, same⟩ | ⟨halted, _, ⟨_, next, failed, keeps⟩ | ⟨events, next, committed, ends⟩⟩
  · rw [same]
  · rw [keeps, (commitSealed_rest failed).2]
    rfl
  · have going : (next.recordCommit session events halted.batch.events.length).queue =
        recorder.queue := by
      rw [recordCommit_queue, (commitSealed_rest committed).2]
      rfl
    rw [ends]
    rcases landParked_cases (next.recordCommit session events halted.batch.events.length) session
        events.length halted.parked now with
      ⟨_, resumes⟩ | ⟨_, ⟨_, _, again, keeps⟩ | ⟨later, _, landed, stores⟩⟩
    · rw [resumes]
      exact going
    · rw [keeps]
      exact (commitRaws_frame again).2.2.trans going
    · rw [stores]
      simp only [resumed, recordCommit_queue]
      exact (commitRaws_frame landed).2.2.trans going

theorem totalPushed_of_push {raw : RawEvent} {now : Timestamp} {recorder next : Recorder σ}
    {result : Except RawEvent Unit} (pushed : recorder.push raw now = (result, next)) :
    next.queue.totalPushed = recorder.queue.totalPushed + (if result.isOk then 1 else 0) := by
  obtain ⟨given, gives, eq⟩ := push_eq raw now recorder
  rw [eq] at pushed
  obtain ⟨rfl, rfl⟩ := Prod.mk.inj pushed
  have waits := gives.totalPushed
  have wakes := (chores_wake now { given with queue := (given.queue.push raw).2 }).totalPushed
  rw [wakes, ← waits]
  cases full : given.queue.isFull <;> simp [EventQueue.push, full, Except.isOk, Except.toBool]

end Recorder

namespace Ledger

open AtomicStore
open Recorder (Chores)

variable {σ : Type} [Store σ]

/-- The events that count as taken in: through the queue, or stored at once. -/
def entered (ledger : Ledger σ) : Nat :=
  ledger.recorder.queue.totalPushed + ledger.syncCommits

theorem entered_of_chores {now : Timestamp} {ledger next : Ledger σ}
    (chores : Chores now ledger.recorder next.recorder)
    (same : next.syncCommits = ledger.syncCommits) : next.entered = ledger.entered := by
  rw [entered, entered, chores.totalPushed, same]

theorem syncCommits_flush (timeoutMs : Nat) (now : Timestamp) (ledger : Ledger σ) :
    (ledger.flush timeoutMs now).2.syncCommits = ledger.syncCommits := by
  unfold flush
  split <;> rfl

theorem syncCommits_readReady (session : String) (timeoutMs : Nat) (now : Timestamp)
    (ledger : Ledger σ) :
    (ledger.readReady session timeoutMs now).2.syncCommits = ledger.syncCommits := by
  have waited : (ledger.awaitReady session timeoutMs now).2.syncCommits = ledger.syncCommits := rfl
  unfold readReady
  split
  · rename_i given
    rwa [given] at waited
  · rename_i given
    rwa [given] at waited

theorem syncCommits_start (now : Timestamp) (ledger : Ledger σ) :
    (ledger.start now).2.syncCommits = ledger.syncCommits := by
  unfold start
  split <;> rfl

theorem entered_endSession (session : String) (timeoutMs : Nat) (now : Timestamp)
    (ledger : Ledger σ) : (ledger.endSession session timeoutMs now).2.entered = ledger.entered := by
  have drains := ledger.chores_drainSession session timeoutMs now
  have frame := congrArg syncCommits (ledger.drainSession_frame session timeoutMs now)
  have waited := entered_of_chores drains frame
  unfold endSession
  split
  · rename_i given
    rwa [given] at waited
  · rename_i given
    rw [given] at waited
    exact waited

section

variable [AtomicStore σ]

theorem entered_commitNow (raw : RawEvent) (now : Timestamp) (ledger : Ledger σ) :
    (ledger.commitNow raw now).2.entered =
      ledger.entered + (takenBy raw (ledger.commitNow raw now).1).length := by
  obtain ⟨drained, chores, tried⟩ := ledger.commitNow_cases raw now
  have waits := chores.totalPushed
  rcases tried with ⟨error, refused⟩ | ⟨ready, tried⟩
  · rw [refused]
    exact entered_of_chores chores rfl
  · rw [tried]
    cases committed : drained.commitRaws raw.sessionId [raw] now with
    | mk result recorder =>
        have queue := (Recorder.commitRaws_frame committed).2.2
        cases result with
        | error failure => simp only [entered, takenBy, queue, waits, List.length_nil, Nat.add_zero]
        | ok events =>
            cases events with
            | nil => simpa using Recorder.commitRaws_ok committed
            | cons event rest =>
                simp only [entered, takenBy, queue, waits, List.length_singleton]
                omega

theorem entered_commitEmitted (raw : RawEvent) (now : Timestamp) (ledger : Ledger σ) :
    (ledger.commitEmitted raw now).2.entered =
      ledger.entered + (takenBy raw (ledger.commitEmitted raw now).1).length := by
  rw [takenBy_commitEmitted]
  exact entered_commitNow raw now ledger

theorem entered_emit (raw : RawEvent) (now : Timestamp) (ledger : Ledger σ) :
    (ledger.emit raw now).2.entered =
      ledger.entered + (takenBy raw (ledger.emit raw now).1).length := by
  by_cases inline : ledger.isInline raw = true
  · rw [emit_of_inline inline]
    exact entered_commitEmitted raw now ledger
  · cases pushed : (ledger.announced raw).push raw now with
    | mk result next =>
        have counted := Recorder.totalPushed_of_push pushed
        cases result with
        | ok =>
            rw [emit_of_ok inline pushed]
            simp only [entered, counted, announced, Except.isOk, Except.toBool, if_true, takenBy,
              List.length_singleton]
            omega
        | error same =>
            obtain ⟨rfl, -⟩ := Recorder.works_push_error pushed
            have still : next.queue.totalPushed = ledger.recorder.queue.totalPushed := counted
            rcases emit_of_error inline pushed with stored | ⟨error, failed⟩
            · rw [stored, entered_commitEmitted]
              simp only [entered, refused, still]
            · rw [failed]
              simp only [entered, refused, still, takenBy, List.length_nil, Nat.add_zero]

theorem entered_perform (op : Op) (now : Timestamp) (ledger : Ledger σ) :
    (ledger.perform op now).entered = ledger.entered + (ledger.accepts op now).length := by
  cases op with
  | emit raw => exact entered_emit raw now ledger
  | flush timeoutMs =>
      exact entered_of_chores (chores_flush timeoutMs now ledger)
        (syncCommits_flush timeoutMs now ledger)
  | requestFlush => exact entered_of_chores (Recorder.chores_requestFlush now ledger.recorder) rfl
  | cancelFlush ticket => rfl
  | cycle full => exact entered_of_chores (Recorder.chores_cycle full now ledger.recorder) rfl
  | awaitReady session timeoutMs =>
      exact entered_of_chores (chores_awaitReady session timeoutMs now ledger) rfl
  | readReady session timeoutMs =>
      exact entered_of_chores (chores_readReady session timeoutMs now ledger)
        (syncCommits_readReady session timeoutMs now ledger)
  | endSession session timeoutMs => exact entered_endSession session timeoutMs now ledger
  | retryFailed session =>
      simp only [entered, perform, retryFailed, Recorder.queue_retryFailed, accepts,
        List.length_nil, Nat.add_zero]
  | head session => rfl
  | start => exact entered_of_chores (chores_start now ledger) (syncCommits_start now ledger)
  | shutdown => exact entered_of_chores (Recorder.chores_join now ledger.recorder) rfl

theorem Run.entered {first ledger : Ledger σ} {accepted : List RawEvent}
    (ran : first.Run accepted ledger) : ledger.entered = first.entered + accepted.length := by
  induction ran with
  | nil => rfl
  | step op now _ ih => rw [entered_perform, ih, List.length_append, Nat.add_assoc]
  | weather store same _ ih => exact ih

omit [Store σ] [AtomicStore σ] in
theorem counters_of_created {store : σ} {settings : Settings} {first : Ledger σ}
    (made : create store settings = .ok first) :
    first.recorder.queue.Accounts [] ∧ first.recorder.halted = [] ∧
      first.recorder.eventsCommitted = 0 ∧ first.syncCommits = 0 := by
  obtain ⟨overrides, queue, room, rfl⟩ := create_eq made
  exact ⟨EventQueue.accounts_of_empty? room, rfl, rfl, rfl⟩

/-- Every counter of a ledger is the number of the events, or sessions, that it counts. -/
structure Reconciled (store : σ) (ledger : Ledger σ) : Prop where
  queue : ledger.recorder.queue.totalPushed =
    ledger.recorder.queue.size + ledger.recorder.queue.totalDrained
  drained : ledger.recorder.queue.totalDrained = ledger.recorder.eventsCommitted +
    (ledger.recorder.failedBatches.flatMap (·.events)).length +
    ledger.recorder.parkedCount
  stored : ∃ added, Grown added store ledger.store ∧
    added.length = ledger.recorder.eventsCommitted + ledger.syncCommits
  halted : ledger.recorder.failedBatches.length = ledger.recorder.progress.haltedSessions
  queued : ∀ session, (ledger.recorder.progress.of session).queued =
    (eventsOf session ledger.recorder.queue.entries).length +
      (ledger.recorder.failedOf session).length + (ledger.recorder.parkedOf session).length

omit [Store σ] [AtomicStore σ] in
theorem keptCount_eq (recorder : Recorder σ) :
    recorder.keptCount =
      (recorder.failedBatches.flatMap (·.events)).length + recorder.parkedCount := by
  unfold Recorder.keptCount Recorder.failedBatches Recorder.parkedCount
  induction recorder.halted with
  | nil => rfl
  | cons entry rest ih =>
      obtain ⟨session, halted⟩ := entry
      simp only [Table.total_cons, Table.values, List.map_cons, List.flatMap_cons,
        List.length_append, Recorder.length_raws] at ih ⊢
      omega

theorem counted_of_steps {store : σ} {settings : Settings} {first : Ledger σ}
    {recorder : Recorder σ} {accepted : List RawEvent}
    (made : create store settings = .ok first)
    (steps : Recorder.Steps (first.recorder, {}) (recorder, { accepted })) :
    recorder.queue.totalPushed = recorder.queue.size + recorder.queue.totalDrained ∧
      recorder.queue.totalDrained = recorder.eventsCommitted + recorder.keptCount ∧
      ∃ added, Grown added store recorder.store ∧
        added.length + recorder.queue.totalPushed =
          recorder.eventsCommitted + accepted.length := by
  have fresh := balanced_of_created made
  obtain ⟨added, pushed, settled, drained, change⟩ := Recorder.Steps.change steps fresh
  obtain ⟨accounts, unhalted, uncommitted, -⟩ := counters_of_created made
  have unkept : first.recorder.keptCount = 0 := by
    rw [Recorder.keptCount, unhalted, Table.total_nil]
  have empty := accounts.totals
  obtain ⟨grown, accepted, pushes, drains, queued, commits, pending⟩ := change
  simp only [accounts.pushed, accounts.drained, EventQueue.Log.taken, EventQueue.Log.drained,
    uncommitted, unkept, Recorder.pendingCount, List.flatMap_nil, List.length_nil]
    at empty accepted pushes drains queued commits pending
  refine ⟨by omega, by omega, added, ?_, by omega⟩
  obtain ⟨queue, -, created⟩ := create_ok made
  rw [created] at grown
  exact grown

/-- In every run over a readable store all counters agree with what they count. -/
theorem counters_reconciled [ReadableStore σ] {store : σ} {settings : Settings}
    {first ledger : Ledger σ} {accepted : List RawEvent}
    (made : create store settings = .ok first) (ran : first.Run accepted ledger) :
    ledger.Reconciled store := by
  have fresh := balanced_of_created made
  obtain ⟨dropped, steps⟩ := ran.steps fresh.halts
  obtain rfl : dropped = [] := dropped_of_steps steps
  have balanced : Recorder.Balanced store ledger.recorder { accepted } := steps.balanced fresh
  obtain ⟨queue, drained, added, grown, counted⟩ := counted_of_steps made steps
  refine ⟨queue, ?_, ⟨added, grown, ?_⟩, ?_, ?_⟩
  · rw [drained, keptCount_eq, Nat.add_assoc]
  · have entered := ran.entered
    obtain ⟨accounts, -, -, unsettled⟩ := counters_of_created made
    simp only [Ledger.entered, accounts.pushed, unsettled, EventQueue.Log.taken, List.flatMap_nil,
      List.length_nil] at entered
    omega
  · rw [balanced.haltedSessions rfl]
    simp [Recorder.failedBatches, Table.values]
  · intro session
    have counted := (balanced.books session).count
    simp only [Recorder.waiting, List.flatMap_nil, eventsOf_nil, List.append_nil,
      List.length_append, List.length_map, List.length_nil, Nat.add_zero] at counted
    omega

theorem counters_of_parked :
    parkedSample.Reconciled refusingSample ∧
      parkedSample.recorder.queue.totalPushed = 3 ∧ parkedSample.recorder.queue.size = 1 ∧
      parkedSample.recorder.failedBatches.length = 1 ∧ parkedSample.recorder.parkedCount = 1 := by
  refine ⟨counters_reconciled (create_sample _) parked_run, ?_⟩
  decide +kernel

end

end Ledger

end AuditTrail
