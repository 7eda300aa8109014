import AuditTrail.Proofs.Recorder.Commits

/-!
What each change of the progress table does to the entry of a session. All of them leave other
sessions alone and keep the table in order.
-/

namespace AuditTrail.Progress

variable (progress : Progress) (session other : String)

theorem of_insert (entry : SessionProgress) :
    of (progress.insert session entry) other =
      if other = session then entry else progress.of other := by
  simp only [of, Table.find?_insert]
  split <;> rfl

theorem of_update (change : SessionProgress → SessionProgress) :
    (progress.update session change).of other =
      if other = session then change (progress.of session) else progress.of other :=
  of_insert progress session other _

theorem of_adjust {change : SessionProgress → SessionProgress} (fixed : change {} = {}) :
    (progress.adjust session change).of other =
      if other = session then change (progress.of session) else progress.of other := by
  unfold adjust
  cases found : progress.find? session with
  | some entry =>
      have known : progress.of session = entry := by simp only [of, found, Option.getD_some]
      rw [known]
      exact of_insert progress session other _
  | none =>
      by_cases same : other = session
      · subst other
        simp [of, found, fixed]
      · simp [same]

theorem of_enqueued :
    (progress.enqueued session).of other =
      if other = session then
        { progress.of session with queued := (progress.of session).queued + 1 }
      else progress.of other :=
  of_update progress session other _

theorem of_withdrawn :
    (progress.withdrawn session).of other =
      if other = session then
        { progress.of session with queued := (progress.of session).queued - 1 }
      else progress.of other :=
  of_adjust progress session other rfl

theorem of_committed (sequence : UInt64) (dequeued : Nat) :
    (progress.committed session sequence dequeued).of other =
      if other = session then
        { progress.of session with
          queued := (progress.of session).queued - dequeued
          committed := some ((progress.of session).committed.elim sequence (max · sequence)) }
      else progress.of other :=
  of_update progress session other _

theorem of_halt (halt : Halt) :
    (progress.halt session halt).of other =
      if other = session then { progress.of session with halt := some halt }
      else progress.of other :=
  of_update progress session other _

theorem afterBatch_of_getLast? {events : List SealedEvent} {last : SealedEvent}
    (found : events.getLast? = some last) (dequeued : Nat) :
    progress.afterBatch session events dequeued =
      progress.committed session last.sequenceNumber dequeued := by
  simp only [afterBatch, found]

theorem committed_of_afterBatch {events : List SealedEvent} {last : SealedEvent}
    (found : events.getLast? = some last) (dequeued : Nat)
    (ahead : ∀ former, (progress.of session).committed = some former →
      former ≤ last.sequenceNumber) :
    ((progress.afterBatch session events dequeued).of session).committed =
      some last.sequenceNumber := by
  rw [afterBatch_of_getLast? progress session found, of_committed, if_pos rfl]
  cases before : (progress.of session).committed with
  | none => rfl
  | some former =>
      have later : max former last.sequenceNumber = last.sequenceNumber :=
        if_pos (ahead former before)
      simp only [Option.elim_some, later]

theorem of_afterBatch_other (events : List SealedEvent) (dequeued : Nat)
    (different : other ≠ session) :
    (progress.afterBatch session events dequeued).of other = progress.of other := by
  unfold afterBatch
  split
  · simp only [of_committed, different, if_false]
  · rfl

theorem of_resume :
    (progress.resume session).of other =
      if other = session then { progress.of session with halt := none } else progress.of other :=
  of_adjust progress session other rfl

theorem field_of_update {α : Type} (field : SessionProgress → α)
    {change : SessionProgress → SessionProgress}
    (kept : ∀ entry, field (change entry) = field entry) :
    field ((progress.update session change).of other) = field (progress.of other) := by
  rw [of_update]
  split
  · rename_i same
    rw [kept, same]
  · rfl

theorem field_of_adjust {α : Type} (field : SessionProgress → α)
    {change : SessionProgress → SessionProgress} (fixed : change {} = {})
    (kept : ∀ entry, field (change entry) = field entry) :
    field ((progress.adjust session change).of other) = field (progress.of other) := by
  rw [of_adjust progress session other fixed]
  split
  · rename_i same
    rw [kept, same]
  · rfl

@[simp] theorem committed_of_enqueued :
    ((progress.enqueued session).of other).committed = (progress.of other).committed :=
  field_of_update progress session other (·.committed) fun _ => rfl

@[simp] theorem committed_of_withdrawn :
    ((progress.withdrawn session).of other).committed = (progress.of other).committed :=
  field_of_adjust progress session other (·.committed) rfl fun _ => rfl

@[simp] theorem committed_of_halt (halt : Halt) :
    ((progress.halt session halt).of other).committed = (progress.of other).committed :=
  field_of_update progress session other (·.committed) fun _ => rfl

@[simp] theorem committed_of_resume :
    ((progress.resume session).of other).committed = (progress.of other).committed :=
  field_of_adjust progress session other (·.committed) rfl fun _ => rfl

@[simp] theorem halt_of_enqueued :
    ((progress.enqueued session).of other).halt = (progress.of other).halt :=
  field_of_update progress session other (·.halt) fun _ => rfl

@[simp] theorem halt_of_withdrawn :
    ((progress.withdrawn session).of other).halt = (progress.of other).halt :=
  field_of_adjust progress session other (·.halt) rfl fun _ => rfl

@[simp] theorem halt_of_committed (sequence : UInt64) (dequeued : Nat) :
    ((progress.committed session sequence dequeued).of other).halt = (progress.of other).halt :=
  field_of_update progress session other (·.halt) fun _ => rfl

@[simp] theorem halt_of_afterBatch (events : List SealedEvent) (dequeued : Nat) :
    ((progress.afterBatch session events dequeued).of other).halt = (progress.of other).halt := by
  unfold afterBatch
  split
  · exact halt_of_committed progress session other _ dequeued
  · rfl

@[simp] theorem queued_of_halt (halt : Halt) :
    ((progress.halt session halt).of other).queued = (progress.of other).queued :=
  field_of_update progress session other (·.queued) fun _ => rfl

@[simp] theorem queued_of_resume :
    ((progress.resume session).of other).queued = (progress.of other).queued :=
  field_of_adjust progress session other (·.queued) rfl fun _ => rfl

theorem queued_of_afterBatch (events : List SealedEvent) :
    ((progress.afterBatch session events events.length).of session).queued =
      (progress.of session).queued - events.length := by
  cases end_ : events.getLast? with
  | none =>
      obtain rfl := List.getLast?_eq_none_iff.mp end_
      rfl
  | some last => simp [afterBatch_of_getLast? progress session end_, of_committed]

variable {progress} (ordered : progress.Ordered)

include ordered

theorem of_erase :
    of (progress.erase session) other = if other = session then {} else progress.of other := by
  simp only [of, ordered.find?_erase]
  split <;> rfl

theorem ordered_update (change : SessionProgress → SessionProgress) :
    (progress.update session change).Ordered :=
  ordered.insert session _

theorem ordered_adjust (change : SessionProgress → SessionProgress) :
    (progress.adjust session change).Ordered := by
  unfold adjust
  split
  · exact ordered.insert session _
  · exact ordered

theorem ordered_afterBatch (events : List SealedEvent) (dequeued : Nat) :
    (progress.afterBatch session events dequeued).Ordered := by
  unfold afterBatch
  split
  · exact ordered_update session ordered _
  · exact ordered

theorem haltedSessions_eq {α : Type} {table : Table α} (orderedTable : table.Ordered)
    (same : ∀ session, (progress.of session).halt.isSome = (table.find? session).isSome) :
    progress.haltedSessions = table.length := by
  have halts : Table.Ordered (progress.filter fun entry => entry.2.halt.isSome) :=
    ordered.sublist List.filter_sublist
  have counted : progress.haltedSessions =
      (progress.filter fun entry => entry.2.halt.isSome).length := by
    simp [haltedSessions, Table.values, List.filter_map, Function.comp_def]
  rw [counted]
  refine halts.length_eq orderedTable fun session => ?_
  rw [ordered.find?_filter (fun entry => entry.halt.isSome), ← same]
  cases found : progress.find? session with
  | none => simp [of, found]
  | some entry => cases halted : entry.halt <;> simp [of, found, halted]

end AuditTrail.Progress
