import AuditTrail.Proofs.Ledger.Refinement

/-!
What a session that is told to be ready has behind it. The counter of a session also counts events
that got lost, so whichever writes and loads fail, it is zero only when all that was taken in of the
session is stored.
-/

namespace AuditTrail.Ledger

open AtomicStore
open Recorder (Balanced)

variable {σ : Type} [Store σ] [AtomicStore σ]

/-- All that was taken in of a session is stored since the start, in its order, and the session is
not halted. -/
structure Saved (store : σ) (accepted : List RawEvent) (ledger : Ledger σ) (session : String) :
    Prop where
  stored : ∃ since, stored session ledger.store = stored session store ++ since ∧
    eventsOf session accepted = since.map SealedEvent.toRaw
  going : ledger.recorder.progress.isHalted session = false
  unkept : ledger.recorder.halted.find? session = none

section

variable {store : σ} {ledger next : Ledger σ} {accepted dropped : List RawEvent}
  {session : String} {timeoutMs : Nat} {now : Timestamp}

theorem Saved.of_balanced (balanced : Balanced store ledger.recorder { accepted, dropped })
    (ready : ledger.isReady session = true) : Saved store accepted ledger session := by
  have unkept := balanced.going_of_ready ready
  simp only [isReady, Progress.isReady, SessionProgress.isReady, Bool.and_eq_true,
    decide_eq_true_eq, Option.isNone_iff_eq_none] at ready
  obtain ⟨idle, going⟩ := ready
  have books := balanced.books session
  -- A counter of zero leaves nothing that waits and nothing that was lost.
  have empty := books.count
  simp only [idle] at empty
  have waiting : ledger.recorder.waiting { accepted, dropped } session = [] :=
    List.length_eq_zero_iff.mp (by omega)
  have lost : eventsOf session dropped = [] := List.length_eq_zero_iff.mp (by omega)
  simp only [waiting, lost] at books
  obtain ⟨since, grown⟩ := balanced.grown session
  have counted : eventsOf session accepted = since.map SealedEvent.toRaw := by
    have whole := books.exact
    rwa [List.append_nil, Recorder.storedSince, ← grown, List.drop_left] at whole
  exact {
    stored := ⟨since, grown.symm, counted⟩
    going := by simp [Progress.isHalted, going]
    unkept }

theorem isReady_of_endSession (balanced : Balanced store ledger.recorder { accepted, dropped })
    (ended : ledger.endSession session timeoutMs now = (.ok (), next)) :
    next.isReady session = true := by
  obtain ⟨waited, chores, ⟨error, failed⟩ | ⟨_, succeeded⟩⟩ :=
    ledger.endSession_cases session timeoutMs now
  · rw [failed] at ended
    cases ended
  · obtain ⟨_, waits⟩ := chores.works balanced.halts { accepted, dropped } ⟨rfl, rfl⟩
    have marks := (waits.balanced balanced).marks
    rw [succeeded] at ended
    obtain ⟨-, rfl⟩ := Prod.mk.inj ended
    simp [isReady, Progress.isReady, forgotten, Progress.of_erase session session marks,
      SessionProgress.isReady]

/-- In every run over any store, whenever a session is ready, or waiting for it or ending it
succeeds, all that was taken in of it so far is stored and it is not halted. -/
theorem saved_of_ready {settings : Settings} {first : Ledger σ}
    (made : create store settings = .ok first) (ran : first.Run accepted ledger)
    (session : String) :
    (ledger.isReady session = true → Saved store accepted ledger session) ∧
      (∀ timeoutMs now next, ledger.awaitReady session timeoutMs now = (.ok (), next) →
        Saved store accepted next session) ∧
      ∀ timeoutMs now next, ledger.endSession session timeoutMs now = (.ok (), next) →
        Saved store accepted next session := by
  have fresh := balanced_of_created made
  have balances {last : Ledger σ} (ran : first.Run accepted last) :
      ∃ dropped, Balanced store last.recorder { accepted, dropped } := by
    obtain ⟨dropped, steps⟩ := ran.steps fresh.halts
    exact ⟨dropped, steps.balanced fresh⟩
  obtain ⟨dropped, balanced⟩ := balances ran
  -- What holds of every run holds of the run that the call which succeeded has made longer.
  have saved (op : Op) (now : Timestamp) (takes : ledger.accepts op now = [])
      (ready : (ledger.perform op now).isReady session = true) :
      Saved store accepted (ledger.perform op now) session := by
    have longer : first.Run accepted (ledger.perform op now) := by
      simpa [takes] using ran.step op now
    obtain ⟨_, still⟩ := balances longer
    exact Saved.of_balanced still ready
  refine ⟨Saved.of_balanced balanced, ?_, ?_⟩
  · intro timeoutMs now next waited
    have ready := isReady_of_awaitReady waited
    obtain rfl : ledger.perform (.awaitReady session timeoutMs) now = next :=
      congrArg Prod.snd waited
    exact saved _ now rfl ready
  · intro timeoutMs now next ended
    have ready := isReady_of_endSession balanced ended
    obtain rfl : ledger.perform (.endSession session timeoutMs) now = next :=
      congrArg Prod.snd ended
    exact saved _ now rfl ready

theorem saved_of_recovered : recoveredSample.isReady "s" = true ∧
    Saved refusingSample [sampleRaw "a", sampleRaw "b"] recoveredSample "s" := by
  have ready : recoveredSample.isReady "s" = true := by decide +kernel
  exact ⟨ready, (saved_of_ready (create_sample _) recovered_run.run "s").1 ready⟩

end

end AuditTrail.Ledger
