import AuditTrail.Ledger
import AuditTrail.Proofs.Recorder.Chores

/-!
What the calls of a ledger do to its recorder. Waiting, flushing and stopping are chores of the
worker. An event that is to be stored at once waits for what is queued before it and is then
committed by itself; one that is queued is first announced, and taken back if there is no room. The
end of a session forgets it once it is ready.
-/

namespace AuditTrail.Ledger

open Recorder (Chores)

variable {σ : Type}

theorem create_eq {store : σ} {settings : Settings} {ledger : Ledger σ}
    (made : create store settings = .ok ledger) :
    ∃ overrides queue,
      EventQueue.empty? settings.queue.maxSize settings.overflowPolicy = some queue ∧
        ledger = {
          settings, overrides
          recorder := Recorder.create store queue settings.worker } := by
  unfold create at made
  cases checked : settings.validate with
  | error error => simp [checked, bind, Except.bind] at made
  | ok overrides =>
      simp only [checked, bind, Except.bind] at made
      split at made
      · rename_i queue room
        cases made
        exact ⟨overrides, queue, room, rfl⟩
      · cases made

theorem create_ok {store : σ} {settings : Settings} {ledger : Ledger σ}
    (made : create store settings = .ok ledger) :
    ∃ queue : EventQueue, queue.entries = [] ∧
      ledger.recorder = Recorder.create store queue settings.worker := by
  obtain ⟨overrides, queue, room, rfl⟩ := create_eq made
  unfold EventQueue.empty? at room
  split at room
  · cases room
    exact ⟨_, rfl, rfl⟩
  · cases room

theorem isReady_of_idle {ledger : Ledger σ} {session : String}
    (going : ¬ledger.recorder.progress.isHalted session = true)
    (idle : (ledger.recorder.progress.of session).queued = 0) :
    ledger.isReady session = true := by
  simp only [Progress.isHalted, Option.isSome_iff_ne_none, ne_eq, Decidable.not_not] at going
  simp [isReady, Progress.isReady, SessionProgress.isReady, going, idle]

variable [Store σ]

theorem chores_start (now : Timestamp) (ledger : Ledger σ) :
    Chores now ledger.recorder (ledger.start now).2.recorder := by
  unfold start
  split
  · exact Relation.ReflTransGen.refl
  · exact Recorder.chores_start now ledger.recorder

theorem drainSession_cases (session : String) (timeoutMs : Nat) (now : Timestamp)
    (ledger : Ledger σ) :
    ∃ flushed, Chores now ledger.recorder flushed ∧
      ((∃ error, ledger.drainSession session timeoutMs now =
        (.error error, { ledger with recorder := flushed })) ∨
      ∃ left, ledger.drainSession session timeoutMs now =
        ((flushed.awaitReady session left now).1,
          { ledger with recorder := (flushed.awaitReady session left now).2 })) := by
  unfold drainSession
  by_cases running : ledger.recorder.running = true
  · refine ⟨_, Recorder.chores_requestFlush now ledger.recorder, ?_⟩
    simp only [running, if_true]
    split
    · exact Or.inl ⟨_, rfl⟩
    · exact Or.inr ⟨_, rfl⟩
  · refine ⟨_, Recorder.chores_cycle true now ledger.recorder, ?_⟩
    simp only [running]
    exact Or.inr ⟨_, rfl⟩

theorem drainSession_frame (session : String) (timeoutMs : Nat) (now : Timestamp)
    (ledger : Ledger σ) : (ledger.drainSession session timeoutMs now).2 =
      { ledger with recorder := (ledger.drainSession session timeoutMs now).2.recorder } := by
  obtain ⟨flushed, -, ⟨error, late⟩ | ⟨left, waited⟩⟩ :=
    ledger.drainSession_cases session timeoutMs now
  · rw [late]
  · rw [waited]

theorem chores_drainSession (session : String) (timeoutMs : Nat) (now : Timestamp)
    (ledger : Ledger σ) :
    Chores now ledger.recorder (ledger.drainSession session timeoutMs now).2.recorder := by
  obtain ⟨flushed, flushes, ⟨error, late⟩ | ⟨left, waited⟩⟩ :=
    ledger.drainSession_cases session timeoutMs now
  · rw [late]
    exact flushes
  · rw [waited]
    exact flushes.trans (Recorder.chores_awaitReady session left now flushed)

theorem isReady_of_drainSession {ledger next : Ledger σ} {session : String} {timeoutMs : Nat}
    {now : Timestamp} (drained : ledger.drainSession session timeoutMs now = (.ok (), next)) :
    next.isReady session = true := by
  obtain ⟨flushed, _, ⟨error, late⟩ | ⟨left, waited⟩⟩ :=
    ledger.drainSession_cases session timeoutMs now
  · rw [late] at drained
    cases drained
  · rw [waited] at drained
    obtain ⟨told, rfl⟩ := Prod.mk.inj drained
    exact Recorder.isReady_of_awaitReady (Prod.ext told rfl)

theorem chores_flush (timeoutMs : Nat) (now : Timestamp) (ledger : Ledger σ) :
    Chores now ledger.recorder (ledger.flush timeoutMs now).2.recorder := by
  unfold flush
  split
  · exact Recorder.chores_requestFlush now ledger.recorder
  · exact Recorder.chores_cycle true now ledger.recorder

theorem chores_awaitReady (session : String) (timeoutMs : Nat) (now : Timestamp)
    (ledger : Ledger σ) :
    Chores now ledger.recorder (ledger.awaitReady session timeoutMs now).2.recorder := by
  unfold awaitReady
  by_cases running : ledger.recorder.running = true
  · simp only [running, if_true]
    exact Recorder.chores_awaitReady session timeoutMs now ledger.recorder
  · simp only [running, Bool.false_eq_true, if_false]
    exact (Recorder.chores_cycle true now ledger.recorder).trans
      (Recorder.chores_awaitReady session timeoutMs now _)

theorem isReady_of_awaitReady {ledger next : Ledger σ} {session : String} {timeoutMs : Nat}
    {now : Timestamp} (waited : ledger.awaitReady session timeoutMs now = (.ok (), next)) :
    next.isReady session = true := by
  obtain ⟨told, rfl⟩ := Prod.mk.inj waited
  exact Recorder.isReady_of_awaitReady (Prod.ext told rfl)

theorem chores_readReady (session : String) (timeoutMs : Nat) (now : Timestamp)
    (ledger : Ledger σ) :
    Chores now ledger.recorder (ledger.readReady session timeoutMs now).2.recorder := by
  have waits := ledger.chores_awaitReady session timeoutMs now
  unfold readReady
  cases waited : ledger.awaitReady session timeoutMs now with
  | mk outcome next =>
      rw [waited] at waits
      cases outcome <;> exact waits

theorem close_eq (now : Timestamp) (ledger : Ledger σ) :
    ∃ last : Recorder σ, Chores now ledger.recorder last ∧ ledger.close now = last.store := by
  unfold close
  by_cases running : ledger.recorder.running = true
  · exact ⟨_, Recorder.chores_join now ledger.recorder, by simp only [running, if_true]⟩
  · simp only [running, Bool.false_eq_true, if_false]
    split
    · exact ⟨_, Recorder.chores_cycle true now ledger.recorder, rfl⟩
    · exact ⟨_, Relation.ReflTransGen.refl, rfl⟩

def forgotten (recorder : Recorder σ) (session : String) : Recorder σ :=
  { recorder with
    progress := recorder.progress.erase session
    chain := recorder.chain.evict session }

theorem endSession_cases (session : String) (timeoutMs : Nat) (now : Timestamp)
    (ledger : Ledger σ) :
    ∃ waited : Ledger σ, Chores now ledger.recorder waited.recorder ∧
      ((∃ error, ledger.endSession session timeoutMs now = (.error error, waited)) ∨
      (waited.isReady session = true ∧ ledger.endSession session timeoutMs now =
        (.ok (), { waited with recorder := forgotten waited.recorder session }))) := by
  have drains := ledger.chores_drainSession session timeoutMs now
  unfold endSession
  cases drained : ledger.drainSession session timeoutMs now with
  | mk outcome waited =>
      rw [drained] at drains
      refine ⟨waited, drains, ?_⟩
      cases outcome with
      | error error => exact Or.inl ⟨error, rfl⟩
      | ok =>
          have ready := isReady_of_drainSession drained
          refine Or.inr ⟨ready, ?_⟩
          simp only [isReady] at ready
          simp only [Progress.forget, ready, if_true, forgotten]

/-- An event that is to be stored at once is refused unless its session is or gets ready. -/
theorem commitNow_cases (raw : RawEvent) (now : Timestamp) (ledger : Ledger σ) :
    ∃ drained : Recorder σ, Chores now ledger.recorder drained ∧
      ((∃ error, ledger.commitNow raw now = (.error error, { ledger with recorder := drained })) ∨
      (drained.progress.isReady raw.sessionId = true ∧
        ledger.commitNow raw now =
          match drained.commitRaws raw.sessionId [raw] now with
          | (.error failure, recorder) => (.error failure.error, { ledger with recorder })
          | (.ok [], recorder) =>
            (.error (.internal "inline commit produced no event"), { ledger with recorder })
          | (.ok (event :: _), recorder) =>
            (.ok event, { ledger with
              recorder := { recorder with
                progress := recorder.progress.committed raw.sessionId event.sequenceNumber 0 }
              syncCommits := ledger.syncCommits + 1 }))) := by
  unfold commitNow
  by_cases halted : ledger.recorder.progress.isHalted raw.sessionId = true
  · exact ⟨ledger.recorder, Relation.ReflTransGen.refl, Or.inl ⟨_, by rw [if_pos halted]⟩⟩
  · rw [if_neg halted]
    by_cases idle : (ledger.recorder.progress.of raw.sessionId).queued = 0
    · simp only [idle, if_true]
      exact ⟨ledger.recorder, Relation.ReflTransGen.refl,
        Or.inr ⟨isReady_of_idle halted idle, rfl⟩⟩
    · simp only [idle, if_false]
      have drains :=
        ledger.chores_drainSession raw.sessionId ledger.settings.syncWaitTimeoutMs now
      have kept := ledger.drainSession_frame raw.sessionId ledger.settings.syncWaitTimeoutMs now
      cases drained : ledger.drainSession raw.sessionId ledger.settings.syncWaitTimeoutMs now with
      | mk outcome next =>
          rw [drained] at drains kept
          rw [kept]
          refine ⟨next.recorder, drains, ?_⟩
          cases outcome with
          | error error => cases error <;> exact Or.inl ⟨_, rfl⟩
          | ok => exact Or.inr ⟨isReady_of_drainSession drained, rfl⟩

section

variable {ledger : Ledger σ} {raw : RawEvent} {now : Timestamp}
  {next : Recorder σ}

def announced (ledger : Ledger σ) (raw : RawEvent) : Recorder σ :=
  { ledger.recorder with progress := ledger.recorder.progress.enqueued raw.sessionId }

def refused (recorder : Recorder σ) (raw : RawEvent) : Recorder σ :=
  { recorder with progress := recorder.progress.withdrawn raw.sessionId }

theorem emit_of_inline (inline : ledger.isInline raw = true) :
    ledger.emit raw now = ledger.commitEmitted raw now := by
  simp only [emit, inline, if_true]

theorem emit_of_ok (deferred : ¬ledger.isInline raw = true)
    (pushed : (ledger.announced raw).push raw now = (.ok (), next)) :
    ledger.emit raw now = (.ok .queued, { ledger with recorder := next }) := by
  unfold announced at pushed
  simp only [emit, deferred, pushed]
  rfl

theorem emit_of_error {same : RawEvent} (deferred : ¬ledger.isInline raw = true)
    (pushed : (ledger.announced raw).push raw now = (.error same, next)) :
    ledger.emit raw now = commitEmitted same now { ledger with
      recorder := refused next raw, syncFallbacks := ledger.syncFallbacks + 1 } ∨
    ∃ error,
      ledger.emit raw now = (.error error, { ledger with recorder := refused next raw }) := by
  unfold announced at pushed
  unfold refused
  simp only [emit, deferred, pushed]
  cases next.queue.policy with
  | syncFallback => exact Or.inl rfl
  | _ => exact Or.inr ⟨_, rfl⟩

end

end AuditTrail.Ledger
