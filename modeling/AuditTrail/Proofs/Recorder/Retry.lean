import AuditTrail.Proofs.Recorder.Attached

/-!
Retries. One that succeeds has stored the failed batch and the parked events behind it, has taken
them off the session's counter, and leaves the session going. Over a store that can be read nothing
but a refused write makes one fail; it leaves the session halted with all that is not stored yet
kept in order.
-/

namespace AuditTrail.Recorder

open AtomicStore

variable {σ : Type} [Store σ] [AtomicStore σ] {start : σ} {recorder next : Recorder σ}
  {journal : Journal} {session : String} {now : Timestamp} {count : Nat}

/-- What a retry that succeeds with `count` events leaves of its session. -/
structure Recovered (before after : Recorder σ) (session : String) (count : Nat) : Prop where
  counted : count = (before.failedOf session).length + (before.parkedOf session).length
  stores : ∃ later, later.map SealedEvent.toRaw = before.parkedOf session ∧
    stored session after.store =
      stored session before.store ++ before.failedOf session ++ later
  going : after.halted.find? session = none
  resumed : (after.progress.of session).halt = none
  queued : (after.progress.of session).queued = (before.progress.of session).queued - count
  queue : after.queue = before.queue

theorem recovered_of_going (balanced : Balanced start recorder journal)
    (rested : journal.resuming = none) (going : recorder.halted.find? session = none) :
    Recovered recorder recorder session 0 := by
  have resumed : (recorder.progress.of session).halt = none := by
    have halted := balanced.halted_iff session
    simpa [going, rested] using halted
  refine ⟨?_, ⟨[], ?_, ?_⟩, going, resumed, rfl, rfl⟩
  · simp [failedOf, parkedOf, going]
  · simp [parkedOf, going]
  · simp [failedOf, going]

theorem retryFailed_recovered (balanced : Balanced start recorder journal)
    (rested : journal.resuming = none)
    (retried : recorder.retryFailed session now = (.ok count, next)) :
    Recovered recorder next session count := by
  rcases recorder.retryFailed_cases session now with
    ⟨going, same⟩ | ⟨halted, found, ⟨_, _, _, refused⟩ | ⟨events, noted, committed, ends⟩⟩
  · rw [same] at retried
    cases retried
    exact recovered_of_going balanced rested going
  · rw [refused] at retried
    cases retried
  · obtain ⟨batched, _⟩ := balanced.kept session halted found
    obtain ⟨rfl, grown⟩ := commitSealed_grown committed
    have erased : (recorder.halted.erase session).find? session = none := by
      simp [balanced.halts.find?_erase]
    have failed : recorder.failedOf session = halted.batch.events := by simp [failedOf, found]
    have waits : recorder.parkedOf session = halted.parked := by simp [parkedOf, found]
    obtain ⟨chain, rfl⟩ : ∃ chain,
        noted = { recorder with chain, halted := recorder.halted.erase session } :=
      ⟨_, (commitSealed_rest committed).2⟩
    have first : stored session chain.store.store =
        stored session recorder.store ++ halted.batch.events := grown.own batched
    rw [ends] at retried
    have ways := landParked_cases (recordCommit
      { recorder with chain, halted := recorder.halted.erase session } session
      halted.batch.events halted.batch.events.length) session halted.batch.events.length
      halted.parked now
    rcases ways with
      ⟨none, resumes⟩ | ⟨_, ⟨_, _, _, refused⟩ | ⟨later, last, landed, stores⟩⟩
    · rw [resumes] at retried
      cases retried
      refine ⟨?_, ⟨[], ?_, ?_⟩, ?_, ?_, ?_, ?_⟩
      · simp [failed, waits, none]
      · simp [waits, none]
      · simpa [resumed, store, failed] using first
      · simpa [resumed] using erased
      · simp [resumed, Progress.of_resume]
      · simp [resumed, Progress.queued_of_afterBatch]
      · simp [resumed]
    · rw [refused] at retried
      cases retried
    · have same := commitRaws_ok landed
      have counted : halted.parked.length = later.length := by
        rw [← same, List.length_map]
      have second := (commitRaws_grown landed).own (commitRaws_own landed)
      obtain ⟨still, progress, queue⟩ := commitRaws_frame landed
      rw [stores] at retried
      cases retried
      refine ⟨?_, ⟨later, ?_, ?_⟩, ?_, ?_, ?_, ?_⟩
      · simp [failed, waits, counted]
      · rw [waits, same]
      · simpa [resumed, store, failed, first] using second
      · simpa [resumed, still] using erased
      · simp [resumed, Progress.of_resume]
      · simp [resumed, progress, counted, Progress.queued_of_afterBatch, Nat.sub_sub]
      · simpa [resumed] using queue

/-- What a retry that fails leaves of its session. Either the failed batch was refused again, or it
is stored and what was parked behind it is sealed as the new failed batch. -/
structure Relapsed (before after : Recorder σ) (session : String) : Prop where
  halted : (after.halted.find? session).isSome = true
  marked : (after.progress.of session).halt.isSome = true
  remains :
    stored session after.store = stored session before.store ∧
      after.failedOf session = before.failedOf session ∧
      after.parkedOf session = before.parkedOf session ∨
    stored session after.store = stored session before.store ++ before.failedOf session ∧
      (after.failedOf session).map SealedEvent.toRaw = before.parkedOf session ∧
      after.parkedOf session = []
  queue : after.queue = before.queue

/-- A failure that tells the session, how often a write was tried, and why it was refused at last. -/
def RefusedWrite (recorder : Recorder σ) (session : String) (error : LedgerError) : Prop :=
  ∃ cause : LedgerError, error =
    .storageWriteFailure session (recorder.settings.maxWriteRetries + 1) cause.message

omit [AtomicStore σ] in
theorem refusedWrite_of_refused {failure : BatchFailure}
    (refused : ChainBuilder.Refused (recorder.plan.write : Persist (Paced σ)) failure)
    (own : ∀ event ∈ failure.events, event.sessionId = session) (filled : failure.events ≠ []) :
    recorder.RefusedWrite session failure.error := by
  obtain ⟨_, _, written⟩ := refused
  exact RetryPlan.write_error own filled written

section

variable [ReadableStore σ] {halted : HaltedSession} {failure : BatchFailure}
  (balanced : Balanced start recorder journal)
  (found : recorder.halted.find? session = some halted)

include balanced found

theorem relapsed_of_refail (now : Timestamp) (attached : recorder.Attached journal)
    (failed : (recorder.released session).commitSealed session halted.batch.events =
      (.error failure, next)) :
    Relapsed recorder (next.recordFailure session failure halted.parked now) session ∧
      recorder.RefusedWrite session failure.error := by
  obtain ⟨batched, _⟩ := balanced.kept session halted found
  have pending := attached.pending session halted found
  have refused :=
    (attached.released balanced.halts session).coherent.refused_of_commitSealed pending.admits
      (commitSealed_rest failed).1
  obtain ⟨same, unchanged⟩ := commitSealed_unchanged failed
  obtain ⟨chain, rfl⟩ : ∃ chain,
      next = { recorder with chain, halted := recorder.halted.erase session } :=
    ⟨_, (commitSealed_rest failed).2⟩
  refine ⟨⟨?_, ?_, Or.inl ⟨unchanged session, ?_, ?_⟩, rfl⟩, ?_⟩
  · simp [recordFailure, Table.find?_insert]
  · simp [recordFailure, Progress.of_halt]
  · simp [recordFailure, failedOf, Table.find?_insert, same, found]
  · simp [recordFailure, parkedOf, Table.find?_insert, found]
  · exact refusedWrite_of_refused refused (same ▸ batched) (same ▸ pending.filled)

theorem relapsed_of_landing {noted : Recorder σ}
    (stores : stored session noted.store =
      stored session recorder.store ++ recorder.failedOf session)
    (settings : noted.settings = recorder.settings) (queue : noted.queue = recorder.queue)
    (going : noted.halted.find? session = none) (some : halted.parked ≠ [])
    (failed : noted.commitRaws session halted.parked now = (.error failure, next)) :
    Relapsed recorder (next.recordFailure session failure [] now) session ∧
      recorder.RefusedWrite session failure.error := by
  obtain ⟨_, parked⟩ := balanced.kept session halted found
  have whole := sealed_of_commitRaws parked going failed
  have own : ∀ event ∈ failure.events, event.sessionId = session := commitRaws_own failed
  have filled : failure.events ≠ [] := by
    rintro empty
    rw [empty] at whole
    exact some whole.symm
  have refused := ChainBuilder.refused_of_appendBatch parked (commitRaws_rest failed).1
  have unchanged := commitRaws_unchanged failed
  obtain ⟨chain, rfl⟩ : ∃ chain, next = { noted with chain } := ⟨_, (commitRaws_rest failed).2⟩
  refine ⟨⟨?_, ?_, Or.inr ⟨(unchanged session).trans stores, ?_, ?_⟩, queue⟩, ?_⟩
  · simp [recordFailure, Table.find?_insert]
  · simp [recordFailure, Progress.of_halt]
  · simpa [recordFailure, failedOf, parkedOf, Table.find?_insert, found] using whole
  · simp [recordFailure, parkedOf, Table.find?_insert]
  · have told := refusedWrite_of_refused refused own filled
    rwa [RefusedWrite, settings] at told

end

theorem retryFailed_relapsed [ReadableStore σ] {error : LedgerError}
    (balanced : Balanced start recorder journal) (attached : recorder.Attached journal)
    (retried : recorder.retryFailed session now = (.error error, next)) :
    Relapsed recorder next session ∧ ∃ attempts cause,
      error = .storageWriteFailure session attempts cause.message ∧
        recorder.RefusedWrite session cause := by
  rcases recorder.retryFailed_cases session now with
    ⟨_, same⟩ | ⟨halted, found, ⟨failure, noted, failed, ends⟩ | ⟨events, noted, committed, ends⟩⟩
  · rw [same] at retried
    cases retried
  · obtain ⟨relapsed, told⟩ := relapsed_of_refail balanced found now attached failed
    rw [ends] at retried
    cases retried
    exact ⟨relapsed, _, _, rfl, told⟩
  · obtain ⟨rfl, grown⟩ := commitSealed_grown committed
    have first := grown.own (balanced.kept session halted found).1
    obtain ⟨chain, rfl⟩ : ∃ chain,
        noted = { recorder with chain, halted := recorder.halted.erase session } :=
      ⟨_, (commitSealed_rest committed).2⟩
    rw [ends] at retried
    have ways := landParked_cases (recordCommit
      { recorder with chain, halted := recorder.halted.erase session } session
      halted.batch.events halted.batch.events.length) session halted.batch.events.length
      halted.parked now
    rcases ways with ⟨_, resumes⟩ | ⟨some, ⟨failure, last, failed, keeps⟩ | ⟨_, _, _, stores⟩⟩
    · rw [resumes] at retried
      cases retried
    · obtain ⟨relapsed, told⟩ := relapsed_of_landing balanced found
        (by simpa [failedOf, found, released, store] using first) (by simp) (by simp)
        (by simp [balanced.halts.find?_erase]) some failed
      rw [keeps] at retried
      cases retried
      exact ⟨relapsed, _, _, rfl, told⟩
    · rw [stores] at retried
      cases retried

end AuditTrail.Recorder
