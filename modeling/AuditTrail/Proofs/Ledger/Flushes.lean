import AuditTrail.Proofs.Ledger.Moves
import AuditTrail.Proofs.Recorder.Desk
import AuditTrail.Proofs.Recorder.Commits

/-!
The flush tickets of a ledger. Whatever a ledger is asked, its queue and its tickets change as at a
desk, so the laws of tickets are laws of ledgers.
-/

namespace AuditTrail

namespace Recorder

variable {σ : Type} [Store σ]

def desk (recorder : Recorder σ) : Desk where
  batchSize := recorder.settings.batchSize
  queue := recorder.queue
  tickets := recorder.tickets

variable {recorder next : Recorder σ} {now : Timestamp}

omit [Store σ] in
theorem desk_recordCommit (recorder : Recorder σ) (session : String) (events : List SealedEvent)
    (dequeued : Nat) : (recorder.recordCommit session events dequeued).desk = recorder.desk := by
  unfold recordCommit
  split <;> rfl

theorem desk_commitRaws {session : String} {raws : List RawEvent}
    {result : Except BatchFailure (List SealedEvent)}
    (committed : recorder.commitRaws session raws now = (result, next)) :
    next.desk = recorder.desk := by
  rw [(commitRaws_rest committed).2]
  rfl

theorem desk_commitGroup (now : Timestamp) (recorder : Recorder σ)
    (group : String × List RawEvent) : (recorder.commitGroup now group).desk = recorder.desk := by
  rcases commitGroup_cases now recorder group.1 group.2 with
    ⟨halted, _, parks⟩ | ⟨_, ⟨events, next, committed, stores⟩ | ⟨failure, next, committed, halts⟩⟩
  · rw [parks]
    rfl
  · rw [stores, desk_recordCommit, desk_commitRaws committed]
  · rw [halts, ← desk_commitRaws committed]
    rfl

theorem desk_commitGroups (now : Timestamp) (groups : List (String × List RawEvent))
    (recorder : Recorder σ) : (groups.foldl (commitGroup now) recorder).desk = recorder.desk := by
  induction groups generalizing recorder with
  | nil => rfl
  | cons group rest ih => rw [List.foldl_cons, ih, desk_commitGroup]

theorem run_cycle (full : Bool) (now : Timestamp) (recorder : Recorder σ) :
    ∃ acts, Desk.Run recorder.desk acts (recorder.cycle full now).2.desk := by
  let limit := if full || !recorder.tickets.pending.isEmpty then recorder.queue.size
    else recorder.settings.batchSize
  let begun : Recorder σ := { recorder with
    queue := (recorder.queue.drain limit).2
    tickets := recorder.tickets.begin }
  let groups := groupBySession (recorder.queue.drain limit).1
  have ends : (recorder.cycle full now).2.desk =
      { (groups.foldl (commitGroup now) begun).desk with
        tickets := (groups.foldl (commitGroup now) begun).desk.tickets.complete } := rfl
  rw [ends, desk_commitGroups]
  exact ⟨_, (((Desk.Run.nil.tail (.begin full rfl rfl)).tail (.measure rfl)).tail
    (.drain rfl)).tail (.finish rfl)⟩

theorem run_of_chore (chore : Chore now recorder next) :
    ∃ acts, Desk.Run recorder.desk acts next.desk := by
  cases chore with
  | note tickets running cycles noted =>
      cases noted with
      | drawn => exact ⟨_, Desk.Run.nil.tail .request⟩
      | cancelled ticket => exact ⟨_, Desk.Run.nil.tail (.cancel ticket)⟩
      | stopped => exact ⟨_, Desk.Run.nil.tail .stop⟩
      | restarted => exact ⟨_, Desk.Run.nil.tail .restart⟩
  | cycle full => exact run_cycle full now recorder

theorem run_of_moves (moves : Moves now recorder next) :
    ∃ acts, Desk.Run recorder.desk acts next.desk := by
  induction moves with
  | refl => exact ⟨[], .nil⟩
  | tail _ move ih =>
      obtain ⟨acts, run⟩ := ih
      cases move with
      | chore chore =>
          obtain ⟨more, later⟩ := run_of_chore chore
          exact ⟨_, run.trans later⟩
      | push raw => exact ⟨_, run.tail (.push raw)⟩
      | settle ready committed => exact ⟨acts, desk_commitRaws committed ▸ run⟩
      | fail failed => exact ⟨acts, desk_commitRaws failed ▸ run⟩
      | announce | withdraw | forget | load => exact ⟨acts, run⟩

theorem desk_retryFailed (session : String) (now : Timestamp) (recorder : Recorder σ) :
    (recorder.retryFailed session now).2.desk = recorder.desk := by
  have sealedAgain {events : List SealedEvent}
      {result : Except BatchFailure (List SealedEvent)} {next : Recorder σ}
      (committed : (recorder.released session).commitSealed session events = (result, next)) :
      next.desk = recorder.desk := by
    rw [(commitSealed_rest committed).2]
    rfl
  rcases recorder.retryFailed_cases session now with
    ⟨_, same⟩ | ⟨halted, _, ⟨failure, next, failed, keeps⟩ | ⟨events, next, committed, ends⟩⟩
  · rw [same]
  · rw [keeps, ← sealedAgain failed]
    rfl
  · rw [ends, ← sealedAgain committed, ← desk_recordCommit next]
    rcases (next.recordCommit session events halted.batch.events.length).landParked_cases session
      events.length halted.parked now with
      ⟨_, lands⟩ | ⟨_, ⟨failure, last, failed, halts⟩ | ⟨later, last, stored, lands⟩⟩
    · rw [lands]
      rfl
    · rw [halts, ← desk_commitRaws failed]
      rfl
    · rw [lands, ← desk_commitRaws stored, ← desk_recordCommit last]
      rfl

end Recorder

namespace Ledger

open Recorder (Moves)

variable {σ : Type} [Store σ] [AtomicStore σ] {first ledger : Ledger σ}

theorem run_of_perform (op : Op) (now : Timestamp) (ledger : Ledger σ) :
    ∃ acts, Desk.Run ledger.recorder.desk acts (ledger.perform op now).recorder.desk := by
  by_cases retry : ∃ session, op = .retryFailed session
  · obtain ⟨session, rfl⟩ := retry
    exact ⟨[], Recorder.desk_retryFailed session now ledger.recorder ▸ .nil⟩
  · have other := fun session same => retry ⟨session, same⟩
    exact Recorder.run_of_moves (moves_perform other now ledger)

/-- Whatever a ledger is asked in whatever order, its tickets are those of a desk. -/
theorem Run.desk {accepted : List RawEvent} (ran : first.Run accepted ledger) :
    ∃ acts, Desk.Run first.recorder.desk acts ledger.recorder.desk := by
  induction ran with
  | nil => exact ⟨[], .nil⟩
  | step op now _ ih =>
      obtain ⟨acts, run⟩ := ih
      obtain ⟨more, later⟩ := run_of_perform op now ‹Ledger σ›
      exact ⟨_, run.trans later⟩
  | weather store _ _ ih => exact ih

theorem isComplete_of_ran {accepted : List RawEvent} {ticket : Nat}
    (ran : first.Run accepted ledger)
    (complete : first.recorder.tickets.isComplete ticket = true) :
    ledger.recorder.tickets.isComplete ticket = true := by
  obtain ⟨acts, run⟩ := ran.desk
  exact Desk.isComplete_of_run run complete

theorem sound_of_ran {store : σ} {settings : Settings} {accepted : List RawEvent}
    (made : create store settings = .ok first) (ran : first.Run accepted ledger) :
    ledger.recorder.desk.Sound := by
  obtain ⟨queue, _, created⟩ := create_ok made
  obtain ⟨acts, run⟩ := ran.desk
  rw [created] at run
  exact (Desk.sound_opened settings.worker.batchSize queue).run run

end Ledger

end AuditTrail
