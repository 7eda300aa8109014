import AuditTrail.Proofs.Chain.Appends
import AuditTrail.Proofs.Ledger.Conservation
import AuditTrail.Proofs.Ledger.Moves
import AuditTrail.Proofs.Recorder.Sound
import AuditTrail.Proofs.Recorder.Stamps

/-!
The queue changes nothing in the trail. On a clock that stands still, whatever way the events of a
session took, through batches, refused writes and retries or at once, what is stored of it when
nothing of it waits any more is what recording them one by one gives.
-/

namespace AuditTrail.Ledger

open AtomicStore
open Recorder (Stamped Steps Balanced)

variable {σ : Type} [Store σ] [AtomicStore σ]

/-- Runs on a clock that stands still. -/
inductive SteadyRun (now : Timestamp) (first : Ledger σ) : List RawEvent → Ledger σ → Prop
  | nil : SteadyRun now first [] first
  | step {accepted : List RawEvent} {ledger : Ledger σ} (op : Op) :
      SteadyRun now first accepted ledger →
        SteadyRun now first (accepted ++ ledger.accepts op now) (ledger.perform op now)
  | weather {accepted : List RawEvent} {ledger : Ledger σ} (store : σ) :
      Unchanged ledger.store store → SteadyRun now first accepted ledger →
        SteadyRun now first accepted (ledger.withStore store)

section

variable {ledger first : Ledger σ} {now : Timestamp} {accepted : List RawEvent}

theorem SteadyRun.run (ran : first.SteadyRun now accepted ledger) : first.Run accepted ledger := by
  induction ran with
  | nil => exact Run.nil
  | step op _ ih => exact ih.step op now
  | weather store same _ ih => exact ih.weather store same

theorem stamped_of_move {before after : Recorder σ} (move : Recorder.Move now before after)
    (stamped : before.Stamped now) : after.Stamped now := by
  cases move with
  | chore chore => exact Recorder.Chores.stamped (Relation.ReflTransGen.single chore) stamped
  | settle ready committed => exact { (stamped.commitRaws committed).1 with }
  | fail failed => exact (stamped.commitRaws failed).1
  | load session =>
      have unchanged : Unchanged before.chain.store (before.chain.head session).2.store :=
        ChainBuilder.head_unchanged rfl
      exact stamped.congr unchanged rfl
  | _ => exact { stamped with }

theorem stamped_perform (stamped : ledger.recorder.Stamped now) (op : Op) :
    (ledger.perform op now).recorder.Stamped now := by
  by_cases retry : ∃ session, op = .retryFailed session
  · obtain ⟨session, rfl⟩ := retry
    exact stamped.retryFailed session
  · exact (moves_perform (not_exists.mp retry) now ledger).keeps _ stamped_of_move stamped

theorem SteadyRun.stamped (ran : first.SteadyRun now accepted ledger)
    (stamped : first.recorder.Stamped now) : ledger.recorder.Stamped now := by
  induction ran with
  | nil => exact stamped
  | step op _ ih => exact stamped_perform ih op
  | weather store same _ ih => exact ih.congr same rfl

/-- What is stored of a session of which nothing waits are the events taken in, sealed one after
another. -/
theorem stored_eq_sealAll [ReadableStore σ] {store : σ} {settings : Settings}
    (empty : ∀ session, stored session store = []) (made : create store settings = .ok first)
    (ran : first.SteadyRun now accepted ledger) {session : String}
    (queued : eventsOf session ledger.recorder.queue.entries = [])
    (failed : ledger.recorder.failedOf session = [])
    (parked : ledger.recorder.parkedOf session = []) :
    stored session ledger.store =
      ((ChainHead.fresh session).sealAll now (eventsOf session accepted)).1 := by
  -- The books tell which raw events are stored, soundness how they are linked, the clock the rest.
  have balancedFirst := balanced_of_created made
  obtain ⟨queue, _, fresh⟩ := create_ok made
  obtain ⟨dropped, steps⟩ := ran.run.steps balancedFirst.halts
  obtain rfl : dropped = [] := dropped_of_steps steps
  have balanced := steps.balanced balancedFirst
  have sound : ledger.recorder.Sound := by
    refine steps.sound ?_
    rw [fresh]
    refine Recorder.sound_create fun session => ?_
    rw [empty session]
    trivial
  have stamped : ledger.recorder.Stamped now := by
    refine ran.stamped ?_
    rw [fresh]
    exact Recorder.stamped_create now empty
  have raws : eventsOf session accepted =
      (stored session ledger.store).map SealedEvent.toRaw := by
    have whole := (balanced.books session).exact
    simpa [Ledger.store, Recorder.storedSince, Recorder.waiting, queued, failed, parked, empty]
      using whole
  rw [raws]
  exact (sound.chained session).eq_sealAll (stamped.stored session)

/-- Whenever nothing of a session is queued, parked or failed, its stored chain is the one that
appending its accepted events one by one to a store in memory gives. -/
theorem stored_eq_appended [ReadableStore σ] {store : σ} {settings : Settings}
    (empty : ∀ session, stored session store = []) (made : create store settings = .ok first)
    (ran : first.SteadyRun now accepted ledger) (session : String)
    (queued : eventsOf session ledger.recorder.queue.entries = [])
    (failed : ledger.recorder.failedOf session = [])
    (parked : ledger.recorder.parkedOf session = []) :
    ∃ builder, ChainBuilder.appendAll now (eventsOf session accepted)
        { store := ({} : MemoryStore) } = (.ok (stored session ledger.store), builder) ∧
      stored session builder.store = stored session ledger.store := by
  rw [stored_eq_sealAll empty made ran queued failed parked]
  have own : ∀ raw ∈ eventsOf session accepted, raw.sessionId = session := by
    intro raw member
    simpa using List.of_mem_filter member
  exact ChainBuilder.appendAll_memory now (ChainBuilder.coherent_open _) trivial own

end

def recoveredSample : Ledger (RefusingStore MemoryStore) :=
  let halted := ((sampleLedger refusingSample).perform (.emit (sampleRaw "a")) sampleTime).perform
    (.cycle true) sampleTime
  let parked := (halted.perform (.emit (sampleRaw "b")) sampleTime).perform (.cycle true) sampleTime
  parked.perform (.retryFailed "s") sampleTime

theorem recovered_run : (sampleLedger refusingSample).SteadyRun sampleTime
    [sampleRaw "a", sampleRaw "b"] recoveredSample :=
  ((((SteadyRun.nil.step (.emit (sampleRaw "a"))).step (.cycle true)).step
    (.emit (sampleRaw "b"))).step (.cycle true)).step (.retryFailed "s")

theorem appended_of_recovered :
    ∃ builder, ChainBuilder.appendAll sampleTime (eventsOf "s" [sampleRaw "a", sampleRaw "b"])
        { store := ({} : MemoryStore) } = (.ok (stored "s" recoveredSample.store), builder) ∧
      stored "s" builder.store = stored "s" recoveredSample.store := by
  have queued : eventsOf "s" recoveredSample.recorder.queue.entries = [] := by decide +kernel
  have failed : recoveredSample.recorder.failedOf "s" = [] := by decide +kernel
  have parked : recoveredSample.recorder.parkedOf "s" = [] := by decide +kernel
  exact stored_eq_appended (fun _ => rfl) (create_sample _) recovered_run "s" queued failed parked

end AuditTrail.Ledger
