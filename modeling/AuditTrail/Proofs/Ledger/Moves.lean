import AuditTrail.Proofs.Ledger.Runs

/-!
The parts of a call. Every call but a retry is a sequence of moves, all made at the moment of the
call, so what each move keeps is kept by the whole call.
-/

namespace AuditTrail

namespace Recorder

variable {σ : Type} [Store σ]

inductive Move (now : Timestamp) : Recorder σ → Recorder σ → Prop
  | chore {recorder next : Recorder σ} : Chore now recorder next → Move now recorder next
  | announce {recorder : Recorder σ} (session : String) :
      Move now recorder { recorder with progress := recorder.progress.enqueued session }
  | withdraw {recorder : Recorder σ} (session : String) :
      Move now recorder { recorder with progress := recorder.progress.withdrawn session }
  | push {recorder : Recorder σ} (raw : RawEvent) :
      Move now recorder { recorder with queue := (recorder.queue.push raw).2 }
  | settle {recorder next : Recorder σ} {raw : RawEvent} {event : SealedEvent}
      {rest : List SealedEvent} (ready : recorder.progress.isReady raw.sessionId = true)
      (committed : recorder.commitRaws raw.sessionId [raw] now = (.ok (event :: rest), next)) :
      Move now recorder { next with
        progress := next.progress.committed raw.sessionId event.sequenceNumber 0 }
  | fail {recorder next : Recorder σ} {raw : RawEvent} {failure : BatchFailure}
      (failed : recorder.commitRaws raw.sessionId [raw] now = (.error failure, next)) :
      Move now recorder next
  | forget {recorder : Recorder σ} (session : String)
      (ready : recorder.progress.isReady session = true) :
      Move now recorder (Ledger.forgotten recorder session)
  | load {recorder : Recorder σ} (session : String) :
      Move now recorder { recorder with chain := (recorder.chain.head session).2 }

abbrev Moves (now : Timestamp) : Recorder σ → Recorder σ → Prop :=
  Relation.ReflTransGen (Move now)

theorem Chores.moves {now : Timestamp} {before after : Recorder σ}
    (chores : Chores now before after) : Moves now before after :=
  Relation.ReflTransGen.mono (fun _ _ => Move.chore) before after chores

theorem Moves.keeps {now : Timestamp} {before after : Recorder σ} (moves : Moves now before after)
    (Holds : Recorder σ → Prop) (kept : ∀ {former next}, Move now former next → Holds former →
      Holds next) (holds : Holds before) : Holds after := by
  induction moves with
  | refl => exact holds
  | tail _ move ih => exact kept move ih

theorem moves_push (raw : RawEvent) (now : Timestamp) (recorder : Recorder σ) :
    Moves now recorder (recorder.push raw now).2 := by
  obtain ⟨given, gives, eq⟩ := push_eq raw now recorder
  rw [eq]
  exact gives.moves.trans (Relation.ReflTransGen.head (Move.push raw) (chores_wake now _).moves)

end Recorder

namespace Ledger

open Recorder (Move Moves)

variable {σ : Type} [Store σ] [AtomicStore σ]

theorem moves_commitNow (raw : RawEvent) (now : Timestamp) (ledger : Ledger σ) :
    Moves now ledger.recorder (ledger.commitNow raw now).2.recorder := by
  obtain ⟨drained, chores, tried⟩ := ledger.commitNow_cases raw now
  rcases tried with ⟨error, refused⟩ | ⟨ready, tried⟩
  · rw [refused]
    exact chores.moves
  · rw [tried]
    cases committed : drained.commitRaws raw.sessionId [raw] now with
    | mk result recorder =>
        cases result with
        | error failure => exact chores.moves.tail (Move.fail committed)
        | ok events =>
            cases events with
            | nil => simpa using Recorder.commitRaws_ok committed
            | cons event rest => exact chores.moves.tail (Move.settle ready committed)

theorem moves_emit (raw : RawEvent) (now : Timestamp) (ledger : Ledger σ) :
    Moves now ledger.recorder (ledger.emit raw now).2.recorder := by
  by_cases inline : ledger.isInline raw = true
  · rw [emit_of_inline inline]
    exact moves_commitNow raw now ledger
  · have announces : Move now ledger.recorder (ledger.announced raw) := Move.announce raw.sessionId
    have pushes := Recorder.moves_push raw now (ledger.announced raw)
    cases pushed : (ledger.announced raw).push raw now with
    | mk result next =>
        rw [pushed] at pushes
        have queues : Moves now ledger.recorder next := Relation.ReflTransGen.head announces pushes
        cases result with
        | ok =>
            rw [emit_of_ok inline pushed]
            exact queues
        | error same =>
            have withdraws : Moves now ledger.recorder (refused next raw) :=
              queues.tail (Move.withdraw raw.sessionId)
            rcases emit_of_error inline pushed with stored | ⟨error, failed⟩
            · rw [stored]
              exact withdraws.trans (moves_commitNow same now { ledger with
                recorder := refused next raw, syncFallbacks := ledger.syncFallbacks + 1 })
            · rw [failed]
              exact withdraws

omit [AtomicStore σ] in
theorem moves_endSession (session : String) (timeoutMs : Nat) (now : Timestamp)
    (ledger : Ledger σ) :
    Moves now ledger.recorder (ledger.endSession session timeoutMs now).2.recorder := by
  obtain ⟨waited, chores, ⟨error, failed⟩ | ⟨ready, ended⟩⟩ :=
    ledger.endSession_cases session timeoutMs now
  · rw [failed]
    exact chores.moves
  · rw [ended]
    exact chores.moves.tail (Move.forget session ready)

theorem moves_perform {op : Op} (notRetry : ∀ session, op ≠ .retryFailed session)
    (now : Timestamp) (ledger : Ledger σ) :
    Moves now ledger.recorder (ledger.perform op now).recorder := by
  cases op with
  | emit raw => exact moves_emit raw now ledger
  | flush timeoutMs => exact (chores_flush timeoutMs now ledger).moves
  | requestFlush => exact (Recorder.chores_requestFlush now ledger.recorder).moves
  | cancelFlush ticket => exact (Recorder.chores_note now ledger.recorder _ _ (.cancelled _ _)).moves
  | cycle full => exact (Recorder.chores_cycle full now ledger.recorder).moves
  | awaitReady session timeoutMs => exact (chores_awaitReady session timeoutMs now ledger).moves
  | readReady session timeoutMs => exact (chores_readReady session timeoutMs now ledger).moves
  | endSession session timeoutMs => exact moves_endSession session timeoutMs now ledger
  | retryFailed session => exact absurd rfl (notRetry session)
  | head session => exact Relation.ReflTransGen.single (Move.load session)
  | start => exact (chores_start now ledger).moves
  | shutdown => exact (Recorder.chores_join now ledger.recorder).moves

end Ledger

end AuditTrail
