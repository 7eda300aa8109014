import AuditTrail.Proofs.Ledger.Calls
import AuditTrail.Proofs.Recorder.Steps

/-!
Runs of a ledger: any operations in any order, between which a store may change its temper but not
what it has stored. Each operation is a run of the recorder's single steps.
-/

namespace AuditTrail.Ledger

open Recorder (Chores Step Steps Works)

/-- What a ledger can be asked to do; a cycle is what its worker does by itself. -/
inductive Op where
  | emit (raw : RawEvent)
  | flush (timeoutMs : Nat)
  | requestFlush
  | cancelFlush (ticket : Nat)
  | cycle (full : Bool)
  | awaitReady (session : String) (timeoutMs : Nat)
  | readReady (session : String) (timeoutMs : Nat)
  | endSession (session : String) (timeoutMs : Nat)
  | retryFailed (session : String)
  | head (session : String)
  | start
  | shutdown

section

variable {σ : Type} [Store σ]

def perform (op : Op) (now : Timestamp) (ledger : Ledger σ) : Ledger σ :=
  match op with
  | .emit raw => (ledger.emit raw now).2
  | .flush timeoutMs => (ledger.flush timeoutMs now).2
  | .requestFlush => { ledger with recorder := (ledger.recorder.requestFlush now).2 }
  | .cancelFlush ticket =>
    { ledger with recorder.tickets := (ledger.recorder.tickets.cancel ticket).2 }
  | .cycle full => { ledger with recorder := (ledger.recorder.cycle full now).2 }
  | .awaitReady session timeoutMs => (ledger.awaitReady session timeoutMs now).2
  | .readReady session timeoutMs => (ledger.readReady session timeoutMs now).2
  | .endSession session timeoutMs => (ledger.endSession session timeoutMs now).2
  | .retryFailed session => (ledger.retryFailed session now).2
  | .head session => (ledger.head session).2
  | .start => (ledger.start now).2
  | .shutdown => ledger.shutdown now

def takenBy {α : Type} (raw : RawEvent) : Outcome α → List RawEvent
  | .ok _ => [raw]
  | .error _ => []

def accepts (op : Op) (now : Timestamp) (ledger : Ledger σ) : List RawEvent :=
  match op with
  | .emit raw => takenBy raw (ledger.emit raw now).1
  | _ => []

theorem takenBy_commitEmitted (raw : RawEvent) (now : Timestamp) (ledger : Ledger σ) :
    takenBy raw (ledger.commitEmitted raw now).1 = takenBy raw (ledger.commitNow raw now).1 := by
  change takenBy raw ((ledger.commitNow raw now).1.map Emitted.committed) = _
  cases (ledger.commitNow raw now).1 <;> rfl

/-- The ledgers that operations lead to, with all events taken in on the way. -/
inductive Run [AtomicStore σ] (first : Ledger σ) : List RawEvent → Ledger σ → Prop
  | nil : Run first [] first
  | step {accepted : List RawEvent} {ledger : Ledger σ} (op : Op) (now : Timestamp) :
      Run first accepted ledger →
        Run first (accepted ++ ledger.accepts op now) (ledger.perform op now)
  | weather {accepted : List RawEvent} {ledger : Ledger σ} (store : σ) :
      Unchanged ledger.store store → Run first accepted ledger →
        Run first accepted (ledger.withStore store)

end

section

variable {σ : Type} [Store σ] [AtomicStore σ]

section

variable {ledger : Ledger σ} {journal : Journal} (ordered : ledger.recorder.halted.Ordered)
  (settled : journal.Settled)

include ordered settled

theorem steps_commitNow (raw : RawEvent) (now : Timestamp) :
    ∃ dropped, Steps (ledger.recorder, journal) ((ledger.commitNow raw now).2.recorder,
      { journal with
        accepted := journal.accepted ++ takenBy raw (ledger.commitNow raw now).1, dropped }) := by
  obtain ⟨drained, chores, tried⟩ := ledger.commitNow_cases raw now
  obtain ⟨dropped, steps⟩ := chores.works ordered journal settled
  rcases tried with ⟨error, refused⟩ | ⟨ready, tried⟩
  · rw [refused]
    exact ⟨dropped, by simpa [takenBy] using steps⟩
  · rw [tried]
    cases committed : drained.commitRaws raw.sessionId [raw] now with
    | mk result recorder =>
        cases result with
        | error failure =>
            exact ⟨dropped, by simpa [takenBy] using steps.tail (Step.fail committed)⟩
        | ok events =>
            cases events with
            | nil => simpa using Recorder.commitRaws_ok committed
            | cons event rest => exact ⟨dropped, steps.tail (Step.settle ready committed)⟩

theorem steps_commitEmitted (raw : RawEvent) (now : Timestamp) :
    ∃ dropped, Steps (ledger.recorder, journal) ((ledger.commitEmitted raw now).2.recorder,
      { journal with
        accepted := journal.accepted ++ takenBy raw (ledger.commitEmitted raw now).1,
        dropped }) := by
  rw [takenBy_commitEmitted]
  exact steps_commitNow ordered settled raw now

theorem steps_emit (free : journal.hand = []) (raw : RawEvent) (now : Timestamp) :
    ∃ dropped, Steps (ledger.recorder, journal) ((ledger.emit raw now).2.recorder,
      { journal with
        accepted := journal.accepted ++ takenBy raw (ledger.emit raw now).1, dropped }) := by
  obtain ⟨hand, flight, resuming, accepted, before⟩ := journal
  obtain rfl : hand = [] := free
  by_cases inline : ledger.isInline raw = true
  · rw [emit_of_inline inline]
    exact steps_commitEmitted ordered settled raw now
  · have announces : Step (ledger.recorder, ⟨[], flight, resuming, accepted, before⟩)
        (ledger.announced raw, ⟨[raw], flight, resuming, accepted, before⟩) :=
      Step.announce raw rfl
    have held : Journal.Settled ⟨[raw], flight, resuming, accepted, before⟩ :=
      ⟨settled.landed, settled.rested⟩
    have kept : (ledger.announced raw).halted.Ordered := ordered
    cases pushed : (ledger.announced raw).push raw now with
    | mk result next =>
        cases result with
        | ok =>
            obtain ⟨dropped, enters⟩ := Recorder.steps_push_ok kept rfl held pushed
            rw [emit_of_ok inline pushed]
            exact ⟨dropped, Relation.ReflTransGen.head announces enters⟩
        | error same =>
            obtain ⟨rfl, works⟩ := Recorder.works_push_error pushed
            obtain ⟨dropped, refuses⟩ := works kept _ held
            have withdraws : Steps (ledger.recorder, ⟨[], flight, resuming, accepted, before⟩)
                (refused next same, ⟨[], flight, resuming, accepted, dropped⟩) :=
              (Relation.ReflTransGen.head announces refuses).tail (Step.withdraw same rfl)
            rcases emit_of_error inline pushed with stored | ⟨error, failed⟩
            · have kept := withdraws.ordered ordered
              have still : Journal.Settled ⟨[], flight, resuming, accepted, dropped⟩ :=
                ⟨settled.landed, settled.rested⟩
              let waiting : Ledger σ := { ledger with
                recorder := refused next same, syncFallbacks := ledger.syncFallbacks + 1 }
              have intact : waiting.recorder.halted.Ordered := kept
              obtain ⟨lost, stores⟩ := steps_commitEmitted intact still same now
              rw [stored]
              exact ⟨lost, withdraws.trans stores⟩
            · rw [failed]
              exact ⟨dropped, by simpa [takenBy] using withdraws⟩

end

theorem works_endSession (session : String) (timeoutMs : Nat) (now : Timestamp)
    (ledger : Ledger σ) :
    Works ledger.recorder (ledger.endSession session timeoutMs now).2.recorder := by
  obtain ⟨waited, chores, ⟨error, failed⟩ | ⟨ready, ended⟩⟩ :=
    ledger.endSession_cases session timeoutMs now
  · rw [failed]
    exact chores.works
  · rw [ended]
    exact chores.works.trans (Works.single fun _ => Step.release session ready)

theorem steps_perform {ledger : Ledger σ} {journal : Journal}
    (ordered : ledger.recorder.halted.Ordered) (settled : journal.Settled)
    (free : journal.hand = []) (op : Op) (now : Timestamp) :
    ∃ dropped, Steps (ledger.recorder, journal) ((ledger.perform op now).recorder,
      { journal with accepted := journal.accepted ++ ledger.accepts op now, dropped }) := by
  have working (after : Recorder σ) (works : Works ledger.recorder after) :
      ∃ dropped, Steps (ledger.recorder, journal)
        (after, { journal with accepted := journal.accepted ++ [], dropped }) := by
    rw [List.append_nil]
    exact works ordered journal settled
  have tending {after : Recorder σ} (chores : Chores now ledger.recorder after) :=
    working after chores.works
  cases op with
  | emit raw => exact steps_emit ordered settled free raw now
  | flush timeoutMs => exact tending (chores_flush timeoutMs now ledger)
  | requestFlush => exact tending (Recorder.chores_requestFlush now ledger.recorder)
  | cancelFlush ticket => exact tending (Recorder.chores_note now ledger.recorder _ _ (.cancelled _ _))
  | cycle full => exact tending (Recorder.chores_cycle full now ledger.recorder)
  | awaitReady session timeoutMs => exact tending (chores_awaitReady session timeoutMs now ledger)
  | readReady session timeoutMs => exact tending (chores_readReady session timeoutMs now ledger)
  | endSession session timeoutMs => exact working _ (works_endSession session timeoutMs now ledger)
  | retryFailed session => exact working _ (Recorder.works_retryFailed session now ledger.recorder)
  | head session => exact working _ (Works.single fun _ => Step.load session)
  | start => exact tending (chores_start now ledger)
  | shutdown => exact tending (Recorder.chores_join now ledger.recorder)

theorem Run.steps {first ledger : Ledger σ} {accepted : List RawEvent}
    (ordered : first.recorder.halted.Ordered) (ran : first.Run accepted ledger) :
    ∃ dropped, Steps (first.recorder, {}) (ledger.recorder, { accepted, dropped }) := by
  induction ran with
  | nil => exact ⟨[], Relation.ReflTransGen.refl⟩
  | @step accepted _ op now _ ih =>
      obtain ⟨before, steps⟩ := ih
      have settled : Journal.Settled { accepted, dropped := before } := ⟨rfl, rfl⟩
      obtain ⟨dropped, further⟩ := steps_perform (steps.ordered ordered) settled rfl op now
      exact ⟨dropped, steps.trans further⟩
  | weather store same _ ih =>
      obtain ⟨dropped, steps⟩ := ih
      exact ⟨dropped, steps.tail (Step.weather store same)⟩

end

section

def sampleSettings : Settings where
  mode := .deferred
  overflowPolicy := .reject
  syncEventTypes := []
  worker := { maxWriteRetries := 0 }

def sampleLedger {σ : Type} (store : σ) : Ledger σ where
  settings := sampleSettings
  overrides := {}
  recorder := Recorder.create store ⟨4096, .reject, [], 0, 0, 0, by decide⟩ sampleSettings.worker

theorem create_sample {σ : Type} (store : σ) :
    create store sampleSettings = .ok (sampleLedger store) := rfl

def refusingSample : RefusingStore MemoryStore := ⟨{}, [true]⟩

end

end AuditTrail.Ledger
