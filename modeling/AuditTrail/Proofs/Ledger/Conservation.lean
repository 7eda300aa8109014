import AuditTrail.Proofs.Ledger.Runs
import AuditTrail.Proofs.Recorder.Retry

/-!
What becomes of the events a ledger takes in. Within a session they are stored, kept as a failed
batch, parked and queued in the order of their emission; only events that were drained while their
session was not halted and could not be loaded are missing.
-/

namespace AuditTrail.Ledger

open AtomicStore
open Recorder (Step Steps Balanced)

variable {σ : Type} [Store σ] [AtomicStore σ]

theorem dropped_of_step [ReadableStore σ] {before after : Recorder σ × Journal}
    (step : Step before after) : after.2.dropped = before.2.dropped := by
  cases step with
  | land now group rest first =>
      rw [Recorder.dropsOf_of_readable, List.append_nil]
  | _ => rfl

theorem dropped_of_steps [ReadableStore σ] {before after : Recorder σ × Journal}
    (steps : Steps before after) : after.2.dropped = before.2.dropped :=
  steps.keeps (fun state => state.2.dropped = before.2.dropped)
    (fun step same => (dropped_of_step step).trans same) rfl

theorem balanced_of_created {store : σ} {settings : Settings} {first : Ledger σ}
    (made : create store settings = .ok first) : Balanced store first.recorder {} := by
  obtain ⟨queue, empty, fresh⟩ := create_ok made
  exact fresh ▸ Recorder.balanced_create empty

/-- In every run over a readable store, the events of a session that were taken in are those stored
since the start, then its failed batch, then its parked events, then its queued ones. -/
theorem accepted_conserved [ReadableStore σ] {store : σ} {settings : Settings}
    {first ledger : Ledger σ} {accepted : List RawEvent}
    (made : create store settings = .ok first) (ran : first.Run accepted ledger)
    (session : String) :
    ∃ since, stored session ledger.store = stored session store ++ since ∧
      eventsOf session accepted =
        since.map SealedEvent.toRaw ++
          (ledger.recorder.failedOf session).map SealedEvent.toRaw ++
          ledger.recorder.parkedOf session ++
          eventsOf session ledger.recorder.queue.entries := by
  have fresh := balanced_of_created made
  obtain ⟨dropped, steps⟩ := ran.steps fresh.halts
  obtain rfl : dropped = [] := dropped_of_steps steps
  have balanced := steps.balanced fresh
  obtain ⟨since, grown⟩ := balanced.grown session
  refine ⟨since, grown.symm, ?_⟩
  have whole := (balanced.books session).exact
  simp only [Recorder.storedSince, Recorder.waiting, ← grown, List.drop_left, List.flatMap_nil,
    eventsOf_nil, List.append_nil] at whole
  simpa using whole

def parkedSample : Ledger (RefusingStore MemoryStore) :=
  let halted := ((sampleLedger refusingSample).perform (.emit (sampleRaw "a")) sampleTime).perform
    (.cycle true) sampleTime
  let parked := (halted.perform (.emit (sampleRaw "b")) sampleTime).perform (.cycle true) sampleTime
  parked.perform (.emit (sampleRaw "c")) sampleTime

theorem parked_run : (sampleLedger refusingSample).Run
    [sampleRaw "a", sampleRaw "b", sampleRaw "c"] parkedSample :=
  ((((Run.nil.step (.emit (sampleRaw "a")) sampleTime).step (.cycle true) sampleTime).step
    (.emit (sampleRaw "b")) sampleTime).step (.cycle true) sampleTime).step
    (.emit (sampleRaw "c")) sampleTime

theorem accepted_conserved_of_parked :
    ∃ since, stored "s" parkedSample.store = stored "s" refusingSample ++ since ∧
      eventsOf "s" [sampleRaw "a", sampleRaw "b", sampleRaw "c"] =
        since.map SealedEvent.toRaw ++
          (parkedSample.recorder.failedOf "s").map SealedEvent.toRaw ++
          parkedSample.recorder.parkedOf "s" ++
          eventsOf "s" parkedSample.recorder.queue.entries :=
  accepted_conserved (create_sample _) parked_run "s"

/-- The events of a session that are still somewhere: stored since the start, failed, parked or
queued. -/
def held (store : σ) (ledger : Ledger σ) (session : String) : List RawEvent :=
  Recorder.storedSince store ledger.recorder session ++
    (ledger.recorder.failedOf session).map SealedEvent.toRaw ++
    ledger.recorder.parkedOf session ++
    eventsOf session ledger.recorder.queue.entries

theorem held_eq (store : σ) (ledger : Ledger σ) (accepted dropped : List RawEvent)
    (session : String) : ledger.held store session =
      Recorder.storedSince store ledger.recorder session ++
        ledger.recorder.waiting { accepted, dropped } session := by
  simp [held, Recorder.waiting]

theorem isReady_of_recovered {start : σ} {recorder next : Recorder σ} {session : String}
    {accepted dropped : List RawEvent} {count : Nat}
    (balanced : Balanced start recorder { accepted, dropped })
    (recovered : recorder.Recovered next session count)
    (empty : eventsOf session next.queue.entries = []) :
    next.progress.isReady session = true ↔ eventsOf session dropped = [] := by
  have counted := (balanced.books session).count
  rw [recovered.queue] at empty
  simp only [Recorder.waiting, empty, List.flatMap_nil, eventsOf_nil, List.append_nil,
    List.length_append, List.length_map, List.length_nil, Nat.add_zero] at counted
  have left : (next.progress.of session).queued = (eventsOf session dropped).length := by
    rw [recovered.queued, counted, recovered.counted]
    omega
  simp [Progress.isReady, SessionProgress.isReady, left, recovered.resumed]

/-- How a session stands, given what was taken in of it and what got lost: the rest is held, in its
order, and a retry that succeeds stores what it should. -/
structure Accounted (store : σ) (ledger : Ledger σ) (accepted dropped : List RawEvent)
    (session : String) : Prop where
  order : (ledger.held store session).Sublist (eventsOf session accepted)
  parts : (eventsOf session accepted).Perm
    (ledger.held store session ++ eventsOf session dropped)
  whole_iff : (eventsOf session accepted).Perm (ledger.held store session) ↔
    eventsOf session dropped = []
  recovers : ∀ now count next, ledger.retryFailed session now = (.ok count, next) →
    ledger.recorder.Recovered next.recorder session count
  ready_iff : ∀ now count next, ledger.retryFailed session now = (.ok count, next) →
    eventsOf session next.recorder.queue.entries = [] →
      (next.isReady session = true ↔ eventsOf session dropped = [])

/-- In every run, over any store, what was taken in of a session is held in its order but for the
events that were drained while the session was neither halted nor could be loaded. Exactly if there
are none of these, nothing is missing and a retry that succeeds makes the session ready. -/
theorem accepted_accounted {store : σ} {settings : Settings} {first ledger : Ledger σ}
    {accepted : List RawEvent} (made : create store settings = .ok first)
    (ran : first.Run accepted ledger) :
    ∃ dropped, Steps (first.recorder, {}) (ledger.recorder, { accepted, dropped }) ∧
      ∀ session, ledger.Accounted store accepted dropped session := by
  have fresh := balanced_of_created made
  obtain ⟨dropped, steps⟩ := ran.steps fresh.halts
  have balanced : Balanced store ledger.recorder { accepted, dropped } := steps.balanced fresh
  have recovers (session : String) (now : Timestamp) (count : Nat) (next : Ledger σ)
      (retried : ledger.retryFailed session now = (.ok count, next)) :
      ledger.recorder.Recovered next.recorder session count := by
    obtain ⟨outcome, rfl⟩ := Prod.mk.inj retried
    exact Recorder.retryFailed_recovered balanced rfl (Prod.ext outcome rfl)
  refine ⟨dropped, steps, fun session => ?_⟩
  have books := balanced.books session
  have same := ledger.held_eq store accepted dropped session
  exact {
    order := same ▸ books.order
    parts := same ▸ books.parts
    whole_iff := same ▸ books.perm_iff
    recovers := recovers session
    ready_iff := fun now count next retried =>
      isReady_of_recovered balanced (recovers session now count next retried) }

def switchedSample : Switchboard MemoryStore := ⟨"memory", {}, 0, [], false, 0⟩

def darkSample : Ledger (Switchboard MemoryStore) :=
  let queued := (sampleLedger switchedSample).perform (.emit (sampleRaw "a")) sampleTime
  queued.withStore { switchedSample with failReads := true }

def outageSample : Ledger (Switchboard MemoryStore) :=
  (darkSample.perform (.flush 1000) sampleTime).withStore switchedSample

theorem outage_run : (sampleLedger switchedSample).Run [sampleRaw "a"] outageSample := by
  have dark : (sampleLedger switchedSample).Run [sampleRaw "a"] darkSample :=
    (Run.nil.step (.emit (sampleRaw "a")) sampleTime).weather _ fun _ => rfl
  exact (dark.step (.flush 1000) sampleTime).weather switchedSample fun _ => rfl

theorem accounted_of_outage :
    ∃ dropped, Steps ((sampleLedger switchedSample).recorder, {})
      (outageSample.recorder, { accepted := [sampleRaw "a"], dropped }) ∧
      ∀ session, outageSample.Accounted switchedSample [sampleRaw "a"] dropped session :=
  accepted_accounted (create_sample _) outage_run

/-- The event was taken in and is held nowhere; the retry after the outage has nothing to do, and
the session never gets ready. -/
theorem lost_in_outage :
    (sampleLedger switchedSample).Run [sampleRaw "a"] outageSample ∧
      outageSample.held switchedSample "s" = [] ∧
      ∃ next, outageSample.retryFailed "s" sampleTime = (.ok 0, next) ∧
        eventsOf "s" next.recorder.queue.entries = [] ∧ next.isReady "s" = false :=
  ⟨outage_run, rfl, _, rfl, rfl, rfl⟩

end AuditTrail.Ledger
