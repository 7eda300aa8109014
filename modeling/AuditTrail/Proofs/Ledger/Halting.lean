import AuditTrail.Proofs.Ledger.Conservation
import AuditTrail.Proofs.Ledger.Moves

/-!
Sessions that are halted. Over a store that can be read a session is halted as long as a failed
batch is kept for it. All that time nothing is stored for it, so the batch fits its head whenever it
is tried again; a retry stores the batch and what is parked behind it, or leaves what is left of
both in order.
-/

namespace AuditTrail

open AtomicStore

namespace Recorder

variable {σ : Type} [Store σ] [AtomicStore σ]

/-- A session that stays halted behind a batch, with these events stored of it and at least those
parked. -/
structure Held (session : String) (events : List SealedEvent) (batch : FailedBatch)
    (parked : List RawEvent) (recorder : Recorder σ) : Prop where
  kept : ∃ later, recorder.halted.find? session = some ⟨batch, parked ++ later⟩
  marked : (recorder.progress.of session).halt.isSome = true
  stored : stored session recorder.store = events

section

variable {session other : String} {events : List SealedEvent} {batch : FailedBatch}
  {parked : List RawEvent} {recorder next : Recorder σ} {raws : List RawEvent}
  {now : Timestamp}

theorem Held.frame {after : Recorder σ} (held : Held session events batch parked recorder)
    (kept : after.halted.find? session = recorder.halted.find? session)
    (marked : (after.progress.of session).halt = (recorder.progress.of session).halt)
    (same : AtomicStore.stored session after.store = AtomicStore.stored session recorder.store) :
    Held session events batch parked after where
  kept := kept ▸ held.kept
  marked := marked ▸ held.marked
  stored := same.trans held.stored

theorem Held.recordFailure (held : Held session events batch parked recorder)
    (different : session ≠ other) (failure : BatchFailure) (behind : List RawEvent)
    (now : Timestamp) :
    Held session events batch parked (recorder.recordFailure other failure behind now) := by
  refine held.frame ?_ ?_ rfl
  · simp [Recorder.recordFailure, Table.find?_insert, different]
  · simp [Recorder.recordFailure, Progress.of_halt, different]

theorem Held.recordCommit (held : Held session events batch parked recorder)
    (taken : List SealedEvent) (dequeued : Nat) :
    Held session events batch parked (recorder.recordCommit other taken dequeued) :=
  held.frame (by simp) (by simp) (by simp [store])

theorem Held.commitRaws_ok {taken : List SealedEvent}
    (held : Held session events batch parked recorder) (different : session ≠ other)
    (committed : recorder.commitRaws other raws now = (.ok taken, next)) :
    Held session events batch parked next := by
  obtain ⟨halted, progress, _⟩ := commitRaws_frame committed
  exact held.frame (by rw [halted]) (by rw [progress])
    ((commitRaws_grown committed).other (commitRaws_own committed) different)

theorem Held.commitRaws_error {failure : BatchFailure}
    (held : Held session events batch parked recorder)
    (failed : recorder.commitRaws other raws now = (.error failure, next)) :
    Held session events batch parked next := by
  obtain ⟨halted, progress, _⟩ := commitRaws_frame failed
  exact held.frame (by rw [halted]) (by rw [progress]) (commitRaws_unchanged failed session)

theorem Held.ne_of_going (held : Held session events batch parked recorder)
    (going : recorder.halted.find? other = none) : session ≠ other := by
  rintro rfl
  obtain ⟨later, kept⟩ := held.kept
  simp [kept] at going

theorem Held.ne_of_ready (held : Held session events batch parked recorder)
    (ready : recorder.progress.isReady other = true) : session ≠ other := by
  rintro rfl
  have marked := held.marked
  simp only [Progress.isReady, SessionProgress.isReady, Bool.and_eq_true,
    Option.isNone_iff_eq_none] at ready
  simp [ready.2] at marked

theorem Held.commitGroup (held : Held session events batch parked recorder) (now : Timestamp)
    (group : String × List RawEvent) :
    Held session events batch parked (recorder.commitGroup now group) := by
  obtain ⟨other, raws⟩ := group
  rcases recorder.commitGroup_cases now other raws with
    ⟨halted, found, parks⟩ |
    ⟨going, ⟨taken, next, committed, stores⟩ | ⟨failure, next, failed, keeps⟩⟩
  · rw [parks]
    obtain ⟨later, kept⟩ := held.kept
    refine { held with kept := ?_ }
    rw [Table.find?_insert]
    split
    · rename_i same
      subst same
      obtain rfl := Option.some.inj (found.symm.trans kept)
      exact ⟨later ++ raws, by simp⟩
    · exact ⟨later, kept⟩
  · rw [stores]
    exact (held.commitRaws_ok (held.ne_of_going going) committed).recordCommit taken raws.length
  · rw [keeps]
    exact (held.commitRaws_error failed).recordFailure (held.ne_of_going going) failure [] now

theorem Held.foldl_commitGroup (held : Held session events batch parked recorder)
    (groups : List (String × List RawEvent)) :
    Held session events batch parked (groups.foldl (Recorder.commitGroup now) recorder) := by
  induction groups generalizing recorder with
  | nil => exact held
  | cons group rest ih => exact ih (held.commitGroup now group)

theorem Held.cycle (held : Held session events batch parked recorder) (full : Bool)
    (now : Timestamp) : Held session events batch parked (recorder.cycle full now).2 := by
  have drained (queue : EventQueue) (tickets : Tickets) :
      Held session events batch parked { recorder with queue, tickets } := { held with }
  exact { (drained _ _).foldl_commitGroup _ with }

theorem held_of_move {before after : Recorder σ} (move : Move now before after)
    (held : Held session events batch parked before) : Held session events batch parked after := by
  cases move with
  | chore chore =>
      cases chore with
      | note => exact { held with }
      | cycle full => exact held.cycle full now
  | announce other => exact held.frame rfl (by simp) rfl
  | withdraw other => exact held.frame rfl (by simp) rfl
  | push raw => exact { held with }
  | settle ready committed =>
      exact (held.commitRaws_ok (held.ne_of_ready ready) committed).frame rfl (by simp) rfl
  | fail failed => exact held.commitRaws_error failed
  | forget other ready =>
      refine held.frame rfl ?_ rfl
      simp [Ledger.forgotten, Progress.of, Table.find?_erase_of_ne (held.ne_of_ready ready)]
  | load other =>
      have unchanged : Unchanged before.chain.store (before.chain.head other).2.store :=
        ChainBuilder.head_unchanged rfl
      exact held.frame rfl rfl (unchanged session)

theorem Held.landParked (held : Held session events batch parked recorder)
    (different : session ≠ other) (count : Nat) (behind : List RawEvent) (now : Timestamp) :
    Held session events batch parked (recorder.landParked other count behind now).2 := by
  have resumes {recorder : Recorder σ} (held : Held session events batch parked recorder) :
      Held session events batch parked (recorder.resumed other) := by
    refine held.frame rfl ?_ rfl
    simp [resumed, Progress.of_resume, different]
  rcases recorder.landParked_cases other count behind now with
    ⟨_, done⟩ | ⟨_, ⟨failure, next, failed, keeps⟩ | ⟨later, next, committed, stores⟩⟩
  · rw [done]
    exact resumes held
  · rw [keeps]
    exact (held.commitRaws_error failed).recordFailure different failure [] now
  · rw [stores]
    exact resumes ((held.commitRaws_ok different committed).recordCommit later behind.length)

theorem Held.retryFailed {start : σ} {journal : Journal}
    (held : Held session events batch parked recorder)
    (balanced : Balanced start recorder journal) (different : session ≠ other) (now : Timestamp) :
    Held session events batch parked (recorder.retryFailed other now).2 := by
  have released : Held session events batch parked (recorder.released other) :=
    held.frame (Table.find?_erase_of_ne different) rfl rfl
  rcases recorder.retryFailed_cases other now with
    ⟨_, same⟩ | ⟨halted, found, ⟨failure, next, failed, keeps⟩ | ⟨taken, next, committed, ends⟩⟩
  · rw [same]
    exact held
  · have still : Held session events batch parked next := by
      have unchanged := (commitSealed_unchanged failed).2
      rw [(commitSealed_rest failed).2] at unchanged ⊢
      exact released.frame rfl rfl (unchanged session)
    rw [keeps]
    exact still.recordFailure different failure halted.parked now
  · have still : Held session events batch parked next := by
      obtain ⟨rfl, grown⟩ := commitSealed_grown committed
      have apart := grown.other (balanced.kept other halted found).1 different
      rw [(commitSealed_rest committed).2] at apart ⊢
      exact released.frame rfl rfl apart
    rw [ends]
    exact (still.recordCommit taken halted.batch.events.length).landParked different _ _ now

end

end Recorder

namespace Ledger

open Recorder (Attached Balanced Held Recovered Relapsed Steps)

variable {σ : Type} [Store σ] [AtomicStore σ]

/-- How a session stands: it is halted as long as a failed batch is kept for it, which fits its
head. Until its own retry nothing is stored for it. A retry that succeeds has stored all that was
kept, and one that fails, which only a refused write makes it do, keeps the rest. -/
structure Recoverable (ledger : Ledger σ) (session : String) : Prop where
  halted_iff : ledger.recorder.progress.isHalted session = true ↔
    ∃ batch ∈ ledger.recorder.failedBatches, batch.sessionId = session
  counted : ledger.recorder.progress.haltedSessions = ledger.recorder.failedBatches.length
  told : ledger.recorder.stats.field? "halted_sessions" =
    ledger.recorder.stats.field? "failed_batches"
  fits : ∀ batch ∈ ledger.recorder.failedBatches, batch.sessionId = session →
    ∃ first rest head, batch.events = first :: rest ∧ (ledger.head session).1 = .ok head ∧
      first.sequenceNumber = head.nextSequence ∧ first.previousEventHash = head.hash
  frozen : ledger.recorder.progress.isHalted session = true →
    ∀ op now, op ≠ .retryFailed session →
      (ledger.perform op now).recorder.progress.isHalted session = true ∧
      stored session (ledger.perform op now).store = stored session ledger.store ∧
      ((ledger.perform op now).head session).1 = (ledger.head session).1
  recovers : ∀ now count next, ledger.retryFailed session now = (.ok count, next) →
    Recovered ledger.recorder next.recorder session count
  relapses : ∀ now error next, ledger.retryFailed session now = (.error error, next) →
    Relapsed ledger.recorder next.recorder session ∧ ∃ attempts cause,
      error = .storageWriteFailure session attempts cause.message ∧
        ledger.recorder.RefusedWrite session cause

section

variable {store : σ} {first ledger : Ledger σ} {accepted dropped : List RawEvent}
  {session : String} {journal : Journal}

theorem held_perform {events : List SealedEvent} {batch : FailedBatch} {parked : List RawEvent}
    {op : Op} (balanced : Balanced store ledger.recorder journal)
    (held : Held session events batch parked ledger.recorder) (notRetry : op ≠ .retryFailed session)
    (now : Timestamp) : Held session events batch parked (ledger.perform op now).recorder := by
  by_cases retry : ∃ other, op = .retryFailed other
  · obtain ⟨other, rfl⟩ := retry
    have different : session ≠ other := by
      rintro rfl
      exact notRetry rfl
    exact held.retryFailed balanced different now
  · exact (moves_perform (not_exists.mp retry) now ledger).keeps _ Recorder.held_of_move held

theorem mem_failedBatches_iff (balanced : Balanced store ledger.recorder journal)
    (attached : ledger.recorder.Attached journal) (batch : FailedBatch) :
    batch ∈ ledger.recorder.failedBatches ∧ batch.sessionId = session ↔
      ∃ parked, ledger.recorder.halted.find? session = some ⟨batch, parked⟩ := by
  simp only [Recorder.failedBatches, Table.values, List.map_map, List.mem_map,
    Function.comp_apply]
  constructor
  · rintro ⟨⟨⟨key, halted⟩, member, rfl⟩, named⟩
    have found := balanced.halts.find?_of_mem member
    obtain rfl : key = session := (attached.pending key halted found).named ▸ named
    exact ⟨halted.parked, found⟩
  · rintro ⟨parked, found⟩
    exact ⟨⟨_, Table.mem_of_find? found, rfl⟩, (attached.pending session _ found).named⟩

theorem head_eq_tip [ReadableStore σ] (attached : ledger.recorder.Attached journal)
    (session : String) : (ledger.head session).1 = .ok (ledger.recorder.chain.tip session) := by
  obtain ⟨head, loaded⟩ := ChainBuilder.head_ok_of_readable ledger.recorder.chain session
  obtain rfl := attached.coherent.head_ok (Prod.ext loaded rfl)
  exact loaded

theorem invariants_of_run [ReadableStore σ] {settings : Settings}
    (made : create store settings = .ok first) (ran : first.Run accepted ledger) :
    ∃ dropped, Balanced store ledger.recorder { accepted, dropped } ∧
      ledger.recorder.Attached { accepted, dropped } := by
  have fresh := balanced_of_created made
  obtain ⟨queue, _, created⟩ := create_ok made
  obtain ⟨dropped, steps⟩ := ran.steps fresh.halts
  have loose : first.recorder.Attached {} := created ▸ Recorder.attached_create _ _ _
  exact ⟨dropped, steps.balanced fresh, steps.attached fresh loose⟩

/-- In every run over a readable store, whichever appends fail, every session can be recovered. -/
theorem recoverable_of_run [ReadableStore σ] {settings : Settings}
    (made : create store settings = .ok first) (ran : first.Run accepted ledger)
    (session : String) : ledger.Recoverable session := by
  obtain ⟨dropped, balanced, attached⟩ := invariants_of_run made ran
  have marked := balanced.marked rfl
  have counted := balanced.haltedSessions rfl
  refine {
    halted_iff := ?_
    counted := by simp [counted, Recorder.failedBatches, Table.values]
    told := by simp [Recorder.stats, Json.field?, Table.find?, counted]
    fits := ?_
    frozen := ?_
    recovers := ?_
    relapses := ?_ }
  · simp only [mem_failedBatches_iff balanced attached, Progress.isHalted, marked,
      Option.isSome_iff_exists]
    constructor
    · rintro ⟨⟨batch, parked⟩, found⟩
      exact ⟨batch, parked, found⟩
    · rintro ⟨batch, parked, found⟩
      exact ⟨⟨batch, parked⟩, found⟩
  · intro batch member named
    obtain ⟨parked, found⟩ := (mem_failedBatches_iff balanced attached batch).mp ⟨member, named⟩
    obtain ⟨_, filled, admits⟩ := attached.pending session _ found
    obtain ⟨event, rest, begins⟩ := List.exists_cons_of_ne_nil filled
    rw [begins] at admits
    obtain ⟨number, link, _⟩ := Chain.faultOf_eq_none_iff.mp admits.1
    exact ⟨event, rest, _, begins, head_eq_tip attached session, number, link⟩
  · intro halted op now notRetry
    simp only [Progress.isHalted, marked, Option.isSome_iff_exists] at halted
    obtain ⟨⟨batch, parked⟩, found⟩ := halted
    have held : Held session (stored session ledger.store) batch parked ledger.recorder :=
      ⟨⟨[], by simp [found]⟩, by simp [marked, found], rfl⟩
    have still := held_perform balanced held notRetry now
    obtain ⟨_, _, later⟩ := invariants_of_run made (ran.step op now)
    refine ⟨still.marked, still.stored, ?_⟩
    rw [head_eq_tip later, head_eq_tip attached, ChainBuilder.tip_eq_of_stored still.stored]
  · intro now count next retried
    obtain ⟨outcome, rfl⟩ := Prod.mk.inj retried
    exact Recorder.retryFailed_recovered balanced rfl (Prod.ext outcome rfl)
  · intro now error next retried
    obtain ⟨outcome, rfl⟩ := Prod.mk.inj retried
    exact Recorder.retryFailed_relapsed balanced attached (Prod.ext outcome rfl)

theorem recoverable_of_parked : parkedSample.recorder.progress.isHalted "s" = true ∧
    parkedSample.Recoverable "s" := by
  have halted : parkedSample.recorder.progress.isHalted "s" = true := by decide +kernel
  exact ⟨halted, recoverable_of_run (create_sample _) parked_run "s"⟩

end

end Ledger

end AuditTrail
