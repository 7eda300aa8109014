import AuditTrail.Proofs.Ledger.Calls
import AuditTrail.Proofs.Recorder.Progress

/-!
The first event that a ledger records once it has been opened over a store with a session in it. It
is sealed behind the session's last stored event and offered to the store; whether the ledger does
so at once or when the queue is drained, the event is stored exactly if the store takes it.
-/

namespace AuditTrail

namespace RetryPlan

variable {σ : Type} [Store σ] (plan : RetryPlan) {events : List SealedEvent} {paced : Paced σ}

theorem attempts_of_taken {after : σ} (taken : Store.append events paced.store = (.ok (), after))
    (session : String) (left attempt delayMs : Nat) :
    plan.attempts session events left attempt delayMs paced =
      (.ok (), { paced with store := after }) := by
  unfold attempts
  rw [taken]

theorem attempts_of_refused {error : LedgerError}
    (refused : Store.append events paced.store = (.error error, paced.store)) (session : String)
    (left attempt delayMs : Nat) :
    ∃ waitedMs, plan.attempts session events left attempt delayMs paced =
      (.error (.storageWriteFailure session (attempt + left) error.message),
        ⟨paced.store, waitedMs⟩) := by
  induction left generalizing attempt delayMs paced with
  | zero =>
      unfold attempts
      rw [refused]
      exact ⟨_, rfl⟩
  | succ left ih =>
      obtain ⟨waitedMs, later⟩ := @ih ⟨paced.store, paced.waitedMs + delayMs⟩ refused (attempt + 1)
        (plan.nextDelay delayMs)
      unfold attempts
      rw [refused]
      refine ⟨waitedMs, later.trans ?_⟩
      rw [Nat.add_right_comm, Nat.add_assoc]

end RetryPlan

def SealedEvent.continuing (last : SealedEvent) (raw : RawEvent) (now : Timestamp) : SealedEvent :=
  .sealAt raw (last.sequenceNumber + 1) last.eventHash now

namespace Recorder

variable {σ : Type} [Store σ] {recorder : Recorder σ} {store after : σ} {raw : RawEvent}
  {last : SealedEvent} {error : LedgerError} {now : Timestamp}

theorem commitRaws_of_opened (opened : recorder.chain = { store := { store } })
    (told : Store.lastEvent raw.sessionId store = (.ok (some last), store)) :
    recorder.commitRaws raw.sessionId [raw] now =
      let committed := ChainBuilder.commit
        ⟨{ store }, [(raw.sessionId, some (.after last))], ChainHead.overflowsAfter last⟩
        raw.sessionId [last.continuing raw now] ((ChainHead.after last).offered now [raw])
        recorder.plan.write
      (committed.1, { recorder with chain := committed.2 }) := by
  have head : recorder.chain.head raw.sessionId =
      (.ok (.after last),
        ⟨{ store }, [(raw.sessionId, some (.after last))], ChainHead.overflowsAfter last⟩) := by
    have asked : Store.lastEvent raw.sessionId ({ store } : Paced σ) =
        (.ok (some last), { store }) :=
      congrArg (fun answer => (answer.1, ({ store := answer.2 } : Paced σ))) told
    rw [opened]
    simp only [ChainBuilder.head, Table.find?, Option.join_none, asked, ChainBuilder.setHead,
      Table.insert, Bool.false_or]
    rfl
  unfold commitRaws ChainBuilder.appendBatch
  simp only [List.find?_cons, ne_eq, not_true, decide_false, List.find?_nil, head]
  rfl

theorem commitRaws_of_taken (opened : recorder.chain = { store := { store } })
    (told : Store.lastEvent raw.sessionId store = (.ok (some last), store))
    (taken : Store.append [last.continuing raw now] store = (.ok (), after)) :
    ∃ chain, recorder.commitRaws raw.sessionId [raw] now =
      (.ok [last.continuing raw now], { recorder with chain }) ∧ chain.store.store = after := by
  have written : recorder.plan.write [last.continuing raw now] ({ store } : Paced σ) =
      (.ok (), { store := after }) :=
    recorder.plan.attempts_of_taken taken _ _ _ _
  rw [commitRaws_of_opened opened told]
  simp only [ChainBuilder.commit, written]
  exact ⟨_, rfl, rfl⟩

theorem commitRaws_of_refused (opened : recorder.chain = { store := { store } })
    (told : Store.lastEvent raw.sessionId store = (.ok (some last), store))
    (refused : Store.append [last.continuing raw now] store = (.error error, store)) :
    ∃ chain, recorder.commitRaws raw.sessionId [raw] now =
      (.error ⟨[last.continuing raw now], .storageWriteFailure raw.sessionId
        (recorder.settings.maxWriteRetries + 1) error.message, true⟩, { recorder with chain }) ∧
      chain.store.store = store := by
  obtain ⟨waitedMs, written⟩ : ∃ waitedMs,
      recorder.plan.write [last.continuing raw now] ({ store } : Paced σ) =
        (.error (.storageWriteFailure raw.sessionId (1 + recorder.settings.maxWriteRetries)
          error.message), ⟨store, waitedMs⟩) :=
    recorder.plan.attempts_of_refused refused _ _ _ _
  rw [commitRaws_of_opened opened told]
  simp only [ChainBuilder.commit, written]
  exact ⟨_, by rw [Nat.add_comm], rfl⟩

end Recorder

namespace Recorder

variable {σ : Type} [Store σ] {recorder : Recorder σ} {raw : RawEvent} {now : Timestamp}

theorem push_of_opened (empty : recorder.queue.entries = []) (resting : recorder.running = false) :
    ∃ queue, recorder.push raw now = (.ok (), { recorder with queue }) ∧ queue.entries = [raw] := by
  have room : recorder.queue.isFull = false := by
    have capacity := recorder.queue.capacity_pos
    simp only [EventQueue.isFull, EventQueue.size, empty, List.length_nil, decide_eq_false_iff_not]
    omega
  refine ⟨(recorder.queue.push raw).2, ?_, ?_⟩
  · simp [push, room, EventQueue.push, wake, resting]
  · simp [room, EventQueue.push, empty]

theorem processPending_of_single (single : recorder.queue.entries = [raw]) :
    ∃ drained : Recorder σ, drained.chain = recorder.chain ∧
      drained.progress = recorder.progress ∧ drained.halted = recorder.halted ∧
      drained.settings = recorder.settings ∧
      (recorder.processPending now).2.chain =
        (drained.commitGroup now (raw.sessionId, [raw])).chain ∧
      (recorder.processPending now).2.progress =
        (drained.commitGroup now (raw.sessionId, [raw])).progress := by
  have groups : groupBySession [raw] = [(raw.sessionId, [raw])] := rfl
  refine ⟨{ recorder with
    queue := (recorder.queue.drain 1).2
    tickets := recorder.tickets.begin }, rfl, rfl, rfl, rfl, ?_⟩
  simp [processPending, cycle, EventQueue.drain, EventQueue.size, single, groups]

end Recorder

namespace Ledger

variable {σ : Type} [Store σ] {store after : σ} {settings : Settings} {ledger : Ledger σ}
  {raw : RawEvent} {last : SealedEvent} {error : LedgerError} {now : Timestamp}
  (made : create store settings = .ok ledger)
  (told : Store.lastEvent raw.sessionId store = (.ok (some last), store))

include made

omit [Store σ] in
theorem recorder_of_created :
    ledger.recorder.chain = { store := { store } } ∧ ledger.recorder.progress = [] ∧
      ledger.recorder.settings = settings.worker := by
  obtain ⟨queue, _, fresh⟩ := create_ok made
  rw [fresh]
  exact ⟨rfl, rfl, rfl⟩

include told

/-! ### At once -/

theorem emit_of_taken (taken : Store.append [last.continuing raw now] store = (.ok (), after))
    (inline : ledger.isInline raw = true) :
    (ledger.emit raw now).1 = .ok (.committed (last.continuing raw now)) ∧
      (ledger.emit raw now).2.store = after := by
  obtain ⟨opened, idle, _⟩ := recorder_of_created made
  obtain ⟨chain, committed, kept⟩ := Recorder.commitRaws_of_taken opened told taken
  have stored : ledger.commitNow raw now = (.ok (last.continuing raw now), { ledger with
      recorder := { ledger.recorder with
        chain
        progress := ledger.recorder.progress.committed raw.sessionId
          (last.continuing raw now).sequenceNumber 0 }
      syncCommits := ledger.syncCommits + 1 }) := by
    simp [commitNow, idle, Progress.isHalted, Progress.of, committed]
  rw [emit_of_inline inline]
  simp only [commitEmitted, stored]
  exact ⟨rfl, kept⟩

theorem emit_of_refused
    (refused : Store.append [last.continuing raw now] store = (.error error, store))
    (inline : ledger.isInline raw = true) :
    (ledger.emit raw now).1 = .error (.storageWriteFailure raw.sessionId
        (settings.worker.maxWriteRetries + 1) error.message) ∧
      (ledger.emit raw now).2.store = store := by
  obtain ⟨opened, idle, worker⟩ := recorder_of_created made
  obtain ⟨chain, failed, kept⟩ := Recorder.commitRaws_of_refused opened told refused
  have given : ledger.commitNow raw now = (.error (.storageWriteFailure raw.sessionId
      (ledger.recorder.settings.maxWriteRetries + 1) error.message),
      { ledger with recorder := { ledger.recorder with chain } }) := by
    simp [commitNow, idle, Progress.isHalted, Progress.of, failed]
  rw [emit_of_inline inline, ← worker]
  simp only [commitEmitted, given]
  exact ⟨rfl, kept⟩

/-! ### Through the queue -/

omit made told in
theorem flush_of_resting (resting : ledger.recorder.running = false) (timeoutMs : Nat)
    (now : Timestamp) :
    (ledger.flush timeoutMs now).2.recorder = (ledger.recorder.processPending now).2 := by
  simp [flush, resting]

omit told in
theorem flush_of_queued (deferred : ¬ledger.isInline raw = true) (timeoutMs : Nat)
    (now : Timestamp) :
    (ledger.emit raw now).1 = .ok .queued ∧
      ∃ drained : Recorder σ, drained.chain = { store := { store } } ∧
        drained.settings = settings.worker ∧ drained.halted = [] ∧
        drained.progress = Progress.enqueued [] raw.sessionId ∧
        let flushed := ((ledger.emit raw now).2.flush timeoutMs now).2.recorder
        let committed := drained.commitGroup now (raw.sessionId, [raw])
        flushed.chain = committed.chain ∧ flushed.progress = committed.progress := by
  obtain ⟨queue, empty, fresh⟩ := create_ok made
  have none : (ledger.announced raw).queue.entries = [] := by
    simpa [announced, fresh, Recorder.create] using empty
  have resting : (ledger.announced raw).running = false := by
    simp [announced, fresh, Recorder.create]
  obtain ⟨filled, pushed, single⟩ :=
    @Recorder.push_of_opened σ _ (ledger.announced raw) raw now none resting
  obtain ⟨drained, chain, progress, halted, worker, committed⟩ :=
    @Recorder.processPending_of_single σ _ { ledger.announced raw with queue := filled } raw now
      single
  rw [emit_of_ok deferred pushed]
  refine ⟨rfl, drained, ?_, ?_, ?_, ?_, ?_⟩
  · rw [chain, announced, fresh]
    rfl
  · rw [worker, announced, fresh]
    rfl
  · rw [halted, announced, fresh]
    rfl
  · rw [progress, announced, fresh]
    rfl
  · have flushed := @flush_of_resting σ _
      { ledger with recorder := { ledger.announced raw with queue := filled } } resting timeoutMs now
    simp only [flushed]
    exact committed

theorem flush_of_taken (taken : Store.append [last.continuing raw now] store = (.ok (), after))
    (deferred : ¬ledger.isInline raw = true) (timeoutMs : Nat) :
    let flushed := ((ledger.emit raw now).2.flush timeoutMs now).2
    flushed.store = after ∧
      flushed.committedSequence raw.sessionId = some (last.sequenceNumber + 1) := by
  obtain ⟨_, drained, opened, _, unhalted, progress, chain, marked⟩ :=
    flush_of_queued made deferred timeoutMs now
  obtain ⟨next, committed, kept⟩ := Recorder.commitRaws_of_taken opened told taken
  have group : drained.commitGroup now (raw.sessionId, [raw]) =
      { drained with chain := next }.recordCommit raw.sessionId [last.continuing raw now] 1 := by
    simp only [Recorder.commitGroup, unhalted, Table.find?, committed, List.length_singleton]
  refine ⟨?_, ?_⟩
  · simp only [Ledger.store, Recorder.store, chain, group, Recorder.recordCommit_chain]
    exact kept
  · simp only [committedSequence, marked, group, Recorder.recordCommit_progress, progress]
    refine Progress.committed_of_afterBatch _ _ List.getLast?_singleton 1 fun former known => ?_
    rw [Progress.committed_of_enqueued] at known
    cases known

theorem flush_of_refused
    (refused : Store.append [last.continuing raw now] store = (.error error, store))
    (deferred : ¬ledger.isInline raw = true) (timeoutMs : Nat) :
    let flushed := ((ledger.emit raw now).2.flush timeoutMs now).2
    flushed.store = store ∧ flushed.recorder.progress.isHalted raw.sessionId = true := by
  obtain ⟨_, drained, opened, _, unhalted, _, chain, marked⟩ :=
    flush_of_queued made deferred timeoutMs now
  obtain ⟨next, failed, kept⟩ := Recorder.commitRaws_of_refused opened told refused
  have group : drained.commitGroup now (raw.sessionId, [raw]) =
      { drained with chain := next }.recordFailure raw.sessionId
        ⟨[last.continuing raw now], .storageWriteFailure raw.sessionId
          (drained.settings.maxWriteRetries + 1) error.message, true⟩ [] now := by
    simp only [Recorder.commitGroup, unhalted, Table.find?, failed]
  refine ⟨?_, ?_⟩
  · simp only [Ledger.store, Recorder.store, chain, group, Recorder.recordFailure]
    exact kept
  · simp only [Progress.isHalted, marked, group, Recorder.recordFailure, Progress.of_halt,
      if_true, Option.isSome_some]

/-- The ledger once it has taken an event in and drained its queue, if it holds events back. -/
def recorded (raw : RawEvent) (timeoutMs : Nat) (now : Timestamp) (ledger : Ledger σ) : Ledger σ :=
  if ledger.isInline raw then (ledger.emit raw now).2
  else ((ledger.emit raw now).2.flush timeoutMs now).2

theorem store_recorded_of_taken
    (taken : Store.append [last.continuing raw now] store = (.ok (), after)) (timeoutMs : Nat) :
    (ledger.recorded raw timeoutMs now).store = after := by
  unfold recorded
  split
  · rename_i inline
    exact (emit_of_taken made told taken inline).2
  · rename_i deferred
    exact (flush_of_taken made told taken deferred timeoutMs).1

theorem store_recorded_of_refused
    (refused : Store.append [last.continuing raw now] store = (.error error, store))
    (timeoutMs : Nat) : (ledger.recorded raw timeoutMs now).store = store := by
  unfold recorded
  split
  · rename_i inline
    exact (emit_of_refused made told refused inline).2
  · rename_i deferred
    exact (flush_of_refused made told refused deferred timeoutMs).1

end Ledger

end AuditTrail
