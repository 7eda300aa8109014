import AuditTrail.Proofs.Chain.Batches
import AuditTrail.Recorder.Basic

/-!
What the recorder does with a drained group and with a failed batch. Every way through a commit is
told once here: what was stored, what is kept for a retry, and what the counters say.
-/

namespace AuditTrail

def Progress.afterBatch (progress : Progress) (session : String) (events : List SealedEvent)
    (dequeued : Nat) : Progress :=
  match events.getLast? with
  | some last => progress.committed session last.sequenceNumber dequeued
  | none => progress

namespace Recorder

open AtomicStore

section

variable {σ : Type} (recorder : Recorder σ) (session : String) (events : List SealedEvent)
  (dequeued : Nat)

@[simp] theorem recordCommit_chain :
    (recorder.recordCommit session events dequeued).chain = recorder.chain := by
  unfold recordCommit
  split <;> rfl

@[simp] theorem recordCommit_queue :
    (recorder.recordCommit session events dequeued).queue = recorder.queue := by
  unfold recordCommit
  split <;> rfl

@[simp] theorem recordCommit_halted :
    (recorder.recordCommit session events dequeued).halted = recorder.halted := by
  unfold recordCommit
  split <;> rfl

@[simp] theorem recordCommit_settings :
    (recorder.recordCommit session events dequeued).settings = recorder.settings := by
  unfold recordCommit
  split <;> rfl

@[simp] theorem recordCommit_progress :
    (recorder.recordCommit session events dequeued).progress =
      recorder.progress.afterBatch session events dequeued := by
  unfold recordCommit Progress.afterBatch
  cases events.getLast? <;> rfl

end

section

variable {σ : Type} [Store σ] {recorder next : Recorder σ} {session : String}
  {raws : List RawEvent} {events : List SealedEvent} {now : Timestamp}
  {result : Except BatchFailure (List SealedEvent)}

theorem commitRaws_rest (committed : recorder.commitRaws session raws now = (result, next)) :
    recorder.chain.appendBatch session raws recorder.plan.write now = (result, next.chain) ∧
      next = { recorder with chain := next.chain } := by
  obtain ⟨rfl, rfl⟩ := Prod.mk.inj committed
  exact ⟨rfl, rfl⟩

theorem commitRaws_frame (committed : recorder.commitRaws session raws now = (result, next)) :
    next.halted = recorder.halted ∧ next.progress = recorder.progress ∧
      next.queue = recorder.queue := by
  obtain ⟨rfl, rfl⟩ := Prod.mk.inj committed
  exact ⟨rfl, rfl, rfl⟩

theorem commitSealed_rest (committed : recorder.commitSealed session events = (result, next)) :
    recorder.chain.commitSealed session events recorder.plan.write = (result, next.chain) ∧
      next = { recorder with chain := next.chain } := by
  obtain ⟨rfl, rfl⟩ := Prod.mk.inj committed
  exact ⟨rfl, rfl⟩

theorem commitGroup_cases (now : Timestamp) (recorder : Recorder σ) (session : String)
    (raws : List RawEvent) :
    (∃ halted, recorder.halted.find? session = some halted ∧
      recorder.commitGroup now (session, raws) = { recorder with
        halted := recorder.halted.insert session
          { halted with parked := halted.parked ++ raws } }) ∨
    (recorder.halted.find? session = none ∧
      ((∃ events next, recorder.commitRaws session raws now = (.ok events, next) ∧
        recorder.commitGroup now (session, raws) = next.recordCommit session events raws.length) ∨
      ∃ failure next, recorder.commitRaws session raws now = (.error failure, next) ∧
        recorder.commitGroup now (session, raws) = next.recordFailure session failure [] now)) := by
  cases found : recorder.halted.find? session with
  | some halted => exact Or.inl ⟨halted, rfl, by simp only [commitGroup, found]⟩
  | none =>
      refine Or.inr ⟨rfl, ?_⟩
      cases committed : recorder.commitRaws session raws now with
      | mk result next =>
          cases result with
          | ok events =>
              exact Or.inl ⟨events, next, rfl, by simp only [commitGroup, found, committed]⟩
          | error failure =>
              exact Or.inr ⟨failure, next, rfl, by simp only [commitGroup, found, committed]⟩

end

section

variable {σ : Type} [Store σ] [AtomicStore σ] {recorder next : Recorder σ} {session : String}
  {raws : List RawEvent} {events : List SealedEvent} {now : Timestamp}

theorem plan_atomic (recorder : Recorder σ) (events : List SealedEvent) (store : Paced σ) :
    AllOrNothing events store (recorder.plan.write events store) :=
  recorder.plan.write_allOrNothing events store

theorem commitRaws_own {result : Except BatchFailure (List SealedEvent)}
    (committed : recorder.commitRaws session raws now = (result, next)) :
    ∀ event ∈ sealedOf result, event.sessionId = session :=
  (ChainBuilder.appendBatch_sealed recorder.plan_atomic (commitRaws_rest committed).1).1

theorem commitRaws_grown (committed : recorder.commitRaws session raws now = (.ok events, next)) :
    Grown events recorder.store next.store :=
  ChainBuilder.appendBatch_stored recorder.plan_atomic (commitRaws_rest committed).1

theorem commitRaws_unchanged {failure : BatchFailure}
    (failed : recorder.commitRaws session raws now = (.error failure, next)) :
    Unchanged recorder.store next.store :=
  ChainBuilder.appendBatch_stored recorder.plan_atomic (commitRaws_rest failed).1

theorem commitSealed_grown {taken : List SealedEvent}
    (committed : recorder.commitSealed session events = (.ok taken, next)) :
    taken = events ∧ Grown events recorder.store next.store := by
  obtain ⟨same, grown⟩ :=
    ChainBuilder.commitSealed_stored recorder.plan_atomic (commitSealed_rest committed).1
  obtain rfl : taken = events := same
  exact ⟨rfl, grown⟩

theorem commitSealed_unchanged {failure : BatchFailure}
    (failed : recorder.commitSealed session events = (.error failure, next)) :
    failure.events = events ∧ Unchanged recorder.store next.store :=
  ChainBuilder.commitSealed_stored recorder.plan_atomic (commitSealed_rest failed).1

theorem commitRaws_ok (committed : recorder.commitRaws session raws now = (.ok events, next)) :
    events.map SealedEvent.toRaw = raws := by
  obtain ⟨result, -⟩ := Prod.mk.inj committed
  obtain ⟨_, same | ⟨_, failed, _⟩⟩ := recorder.chain.appendBatch_sealed
    recorder.plan_atomic (Prod.ext result rfl)
  · exact same
  · cases failed

end

section

variable {σ : Type} [Store σ] {recorder next : Recorder σ} {session : String}
  {halted : HaltedSession} {now : Timestamp}

def released (recorder : Recorder σ) (session : String) : Recorder σ :=
  { recorder with halted := recorder.halted.erase session }

def resumed (recorder : Recorder σ) (session : String) : Recorder σ :=
  { recorder with progress := recorder.progress.resume session }

def landParked (recorder : Recorder σ) (session : String) (count : Nat) (parked : List RawEvent)
    (now : Timestamp) : Outcome Nat × Recorder σ :=
  if parked.isEmpty then (.ok count, recorder.resumed session)
  else
    match recorder.commitRaws session parked now with
    | (.error failure, next) =>
      (.error (retryError session (next.settings.maxWriteRetries + 1) failure),
        next.recordFailure session failure [] now)
    | (.ok later, next) =>
      (.ok (count + later.length),
        (next.recordCommit session later parked.length).resumed session)

theorem landParked_cases (recorder : Recorder σ) (session : String) (count : Nat)
    (parked : List RawEvent) (now : Timestamp) :
    (parked = [] ∧
      recorder.landParked session count parked now = (.ok count, recorder.resumed session)) ∨
    (parked ≠ [] ∧
      ((∃ failure next, recorder.commitRaws session parked now = (.error failure, next) ∧
        recorder.landParked session count parked now =
          (.error (retryError session (next.settings.maxWriteRetries + 1) failure),
            next.recordFailure session failure [] now)) ∨
      ∃ later next, recorder.commitRaws session parked now = (.ok later, next) ∧
        recorder.landParked session count parked now =
          (.ok (count + later.length),
            (next.recordCommit session later parked.length).resumed session))) := by
  unfold landParked
  cases parked with
  | nil => exact Or.inl ⟨rfl, rfl⟩
  | cons raw rest =>
      refine Or.inr ⟨List.cons_ne_nil raw rest, ?_⟩
      cases committed : recorder.commitRaws session (raw :: rest) now with
      | mk result next =>
          cases result with
          | error failure => exact Or.inl ⟨failure, next, rfl, rfl⟩
          | ok later => exact Or.inr ⟨later, next, rfl, rfl⟩

/-- A retry has nothing to do, fails again at the failed batch, or goes on with what was parked. -/
theorem retryFailed_cases (recorder : Recorder σ) (session : String) (now : Timestamp) :
    (recorder.halted.find? session = none ∧
      recorder.retryFailed session now = (.ok 0, recorder)) ∨
    ∃ halted, recorder.halted.find? session = some halted ∧
      ((∃ failure next, (recorder.released session).commitSealed session halted.batch.events =
          (.error failure, next) ∧
        recorder.retryFailed session now =
          (.error (retryError session halted.batch.attempts failure),
            next.recordFailure session failure halted.parked now)) ∨
      ∃ events next, (recorder.released session).commitSealed session halted.batch.events =
          (.ok events, next) ∧
        recorder.retryFailed session now =
          (next.recordCommit session events halted.batch.events.length).landParked session
            events.length halted.parked now) := by
  unfold retryFailed
  cases found : recorder.halted.find? session with
  | none => exact Or.inl ⟨rfl, rfl⟩
  | some halted =>
      obtain ⟨batch, parked⟩ := halted
      refine Or.inr ⟨_, rfl, ?_⟩
      dsimp only [released, landParked]
      cases committed : commitSealed { recorder with halted := recorder.halted.erase session }
          session batch.events with
      | mk result next =>
          cases result with
          | error failure => exact Or.inl ⟨failure, next, rfl, rfl⟩
          | ok events => exact Or.inr ⟨events, next, rfl, rfl⟩

end

end Recorder

end AuditTrail
