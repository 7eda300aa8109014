import AuditTrail.Proofs.Recorder.Groups
import AuditTrail.Proofs.Recorder.Progress
import AuditTrail.Proofs.Recorder.Steps

/-!
The books of a session. What was taken in is stored or waits, in the order in which it came, but
for what got lost; the counter of the session says how much waits or got lost. Every single step
of the recorder keeps the books of every session.
-/

namespace AuditTrail

/-- Raw events of one session: those stored, those that wait, those lost, the one announced and
all that were taken in, with the session's counter. -/
structure Books (stored waiting dropped hand accepted : List RawEvent) (queued : Nat) : Prop where
  order : (stored ++ waiting).Sublist accepted
  parts : accepted.Perm (stored ++ waiting ++ dropped)
  count : queued = waiting.length + dropped.length + hand.length

namespace Books

variable {stored waiting dropped hand accepted batch : List RawEvent} {queued : Nat}
  {raw : RawEvent}

theorem announce (books : Books stored waiting dropped [] accepted queued) :
    Books stored waiting dropped [raw] accepted (queued + 1) :=
  { books with count := by simp [books.count] }

theorem withdraw (books : Books stored waiting dropped [raw] accepted queued) :
    Books stored waiting dropped [] accepted (queued - 1) :=
  { books with count := by simp [books.count] }

theorem enter (books : Books stored waiting dropped [raw] accepted queued) :
    Books stored (waiting ++ [raw]) dropped [] (accepted ++ [raw]) queued where
  order := by
    rw [← List.append_assoc]
    exact books.order.append (List.Sublist.refl _)
  parts := by
    have taken := books.parts.append_right [raw]
    refine taken.trans ?_
    simp only [List.append_assoc]
    exact (List.perm_append_comm.append_left waiting).append_left stored
  count := by simp [books.count]; omega

theorem store (books : Books stored (batch ++ waiting) dropped hand accepted queued) :
    Books (stored ++ batch) waiting dropped hand accepted (queued - batch.length) where
  order := by
    rw [List.append_assoc]
    exact books.order
  parts := by
    rw [List.append_assoc stored]
    exact books.parts
  count := by simp [books.count]; omega

theorem lose {lost : List RawEvent}
    (books : Books stored (batch ++ lost ++ waiting) dropped hand accepted queued) :
    Books stored (batch ++ waiting) (dropped ++ lost) hand accepted queued where
  order := by
    refine List.Sublist.trans ?_ books.order
    refine (List.Sublist.refl stored).append ?_
    rw [List.append_assoc]
    exact (List.Sublist.refl batch).append (List.sublist_append_right lost waiting)
  parts := by
    refine books.parts.trans ?_
    simp only [List.append_assoc]
    refine (List.Perm.append_left batch ?_).append_left stored
    rw [← List.append_assoc waiting]
    exact List.perm_append_comm
  count := by simp [books.count]; omega

theorem settle (books : Books stored waiting dropped hand accepted 0) :
    Books (stored ++ [raw]) waiting dropped hand (accepted ++ [raw]) 0 := by
  have empty := books.count
  obtain ⟨rfl, rfl, rfl⟩ : waiting = [] ∧ dropped = [] ∧ hand = [] := by
    simpa [Nat.add_eq_zero_iff, and_assoc] using empty.symm
  refine ⟨?_, ?_, rfl⟩
  · simpa using books.order.append (List.Sublist.refl [raw])
  · simpa using books.parts.append_right [raw]

theorem of_eq {other : List RawEvent} (books : Books stored waiting dropped hand accepted queued)
    (same : other = waiting) : Books stored other dropped hand accepted queued :=
  same ▸ books

theorem exact (books : Books stored waiting [] hand accepted queued) :
    accepted = stored ++ waiting := by
  have same := books.parts.length_eq
  rw [List.append_nil] at same
  exact (books.order.eq_of_length same.symm).symm

theorem perm_iff (books : Books stored waiting dropped hand accepted queued) :
    accepted.Perm (stored ++ waiting) ↔ dropped = [] := by
  constructor
  · intro kept
    have same := (kept.symm.trans books.parts).length_eq
    simp only [List.length_append] at same
    exact List.length_eq_zero_iff.mp (by omega)
  · rintro rfl
    simpa using books.parts

end Books

def HaltedSession.raws (halted : HaltedSession) : List RawEvent :=
  halted.batch.events.map SealedEvent.toRaw ++ halted.parked

namespace Recorder

open AtomicStore

section

variable {σ : Type}

def failedOf (recorder : Recorder σ) (session : String) : List SealedEvent :=
  ((recorder.halted.find? session).map fun halted => halted.batch.events).getD []

def parkedOf (recorder : Recorder σ) (session : String) : List RawEvent :=
  ((recorder.halted.find? session).map HaltedSession.parked).getD []

def waiting (recorder : Recorder σ) (journal : Journal) (session : String) : List RawEvent :=
  (recorder.failedOf session).map SealedEvent.toRaw ++ recorder.parkedOf session ++
    eventsOf session (journal.flight.flatMap Prod.snd) ++
    eventsOf session recorder.queue.entries

end

variable {σ : Type} [Store σ] [AtomicStore σ]

def storedSince (start : σ) (recorder : Recorder σ) (session : String) : List RawEvent :=
  ((stored session recorder.store).drop (stored session start).length).map SealedEvent.toRaw

/-- All sessions' books are in order, and what is kept of a session is its own. -/
structure Balanced (start : σ) (recorder : Recorder σ) (journal : Journal) : Prop where
  halts : recorder.halted.Ordered
  marks : recorder.progress.Ordered
  grown : ∀ session, stored session start <+: stored session recorder.store
  kept : ∀ session halted, recorder.halted.find? session = some halted →
    (∀ event ∈ halted.batch.events, event.sessionId = session) ∧
      ∀ raw ∈ halted.parked, raw.sessionId = session
  groups : ∀ group ∈ journal.flight, ∀ raw ∈ group.2, raw.sessionId = group.1
  halted_iff : ∀ session, (recorder.progress.of session).halt.isSome = true ↔
    (recorder.halted.find? session).isSome = true ∨ journal.resuming = some session
  books : ∀ session, Books (storedSince start recorder session) (recorder.waiting journal session)
    (eventsOf session journal.dropped) (eventsOf session journal.hand)
    (eventsOf session journal.accepted) (recorder.progress.of session).queued

theorem balanced_create {start : σ} {queue : EventQueue} {settings : WorkerSettings}
    (empty : queue.entries = []) : Balanced start (Recorder.create start queue settings) {} := by
  have none (session : String) :
      storedSince start (Recorder.create start queue settings) session = [] := by
    simp [storedSince, Recorder.create, store]
  refine ⟨Table.Ordered.nil, Table.Ordered.nil, fun _ => List.prefix_rfl, by simp [Recorder.create],
    by simp, by simp [Recorder.create, Progress.of], ?_⟩
  intro session
  rw [none]
  simp only [waiting, failedOf, parkedOf, Recorder.create, empty]
  exact ⟨List.Sublist.refl _, List.Perm.refl _, rfl⟩

theorem storedSince_of_same (start : σ) {before after : Recorder σ} {session : String}
    (same : stored session after.store = stored session before.store) :
    storedSince start after session = storedSince start before session := by
  simp only [storedSince, same]

theorem storedSince_append {start : σ} {before after : Recorder σ} {session : String}
    {events : List SealedEvent}
    (grown : stored session start <+: stored session before.store)
    (more : stored session after.store = stored session before.store ++ events) :
    storedSince start after session =
      storedSince start before session ++ events.map SealedEvent.toRaw := by
  simp only [storedSince, more, List.drop_append_of_le_length grown.length_le, List.map_append]

section

variable {start : σ} {recorder next : Recorder σ} {journal : Journal} {session : String}
  {raw : RawEvent} {events : List SealedEvent}

theorem Balanced.announce (balanced : Balanced start recorder journal) (raw : RawEvent)
    (free : journal.hand = []) :
    Balanced start { recorder with progress := recorder.progress.enqueued raw.sessionId }
      { journal with hand := [raw] } := by
  refine { balanced with
    marks := balanced.marks.insert _ _
    halted_iff := by simpa using balanced.halted_iff
    books := ?_ }
  intro session
  have books := balanced.books session
  rw [free, eventsOf_nil] at books
  simp only [eventsOf_singleton, Progress.of_enqueued]
  split
  · rename_i own
    exact own ▸ books.announce
  · exact books

theorem Balanced.withdraw (balanced : Balanced start recorder journal)
    (held : journal.hand = [raw]) :
    Balanced start { recorder with progress := recorder.progress.withdrawn raw.sessionId }
      { journal with hand := [] } := by
  refine { balanced with
    marks := Progress.ordered_adjust _ balanced.marks _
    halted_iff := by simpa using balanced.halted_iff
    books := ?_ }
  intro session
  have books := balanced.books session
  rw [held, eventsOf_singleton] at books
  simp only [eventsOf_nil, Progress.of_withdrawn]
  split at books
  · rename_i own
    rw [if_pos own]
    exact own ▸ books.withdraw
  · rename_i different
    rw [if_neg different]
    exact books

theorem Balanced.enter (balanced : Balanced start recorder journal)
    (held : journal.hand = [raw]) (room : recorder.queue.isFull = false) :
    Balanced start { recorder with queue := (recorder.queue.push raw).2 }
      { journal with hand := [], accepted := journal.accepted ++ [raw] } := by
  have entries : (recorder.queue.push raw).2.entries = recorder.queue.entries ++ [raw] := by
    simp [EventQueue.push, room]
  refine { balanced with books := ?_ }
  intro session
  have books := balanced.books session
  rw [held, eventsOf_singleton] at books
  simp only [waiting, failedOf, parkedOf, entries, eventsOf_append, eventsOf_singleton,
    eventsOf_nil] at books ⊢
  split at books
  · rename_i own
    simp only [own, if_true] at books ⊢
    rw [← List.append_assoc]
    exact books.enter
  · rename_i different
    simp only [different, if_false, List.append_nil]
    exact books

theorem Balanced.refuse (balanced : Balanced start recorder journal)
    (full : recorder.queue.isFull = true) :
    Balanced start { recorder with queue := (recorder.queue.push raw).2 } journal := by
  have entries : (recorder.queue.push raw).2.entries = recorder.queue.entries := by
    simp [EventQueue.push, full]
  refine { balanced with books := fun session => (balanced.books session).of_eq ?_ }
  simp only [waiting, failedOf, parkedOf, entries]

theorem Balanced.resume (balanced : Balanced start recorder journal)
    (pending : journal.resuming = some session)
    (going : recorder.halted.find? session = none) :
    Balanced start { recorder with progress := recorder.progress.resume session }
      { journal with resuming := none } := by
  refine { balanced with
    marks := Progress.ordered_adjust session balanced.marks _
    halted_iff := ?_
    books := ?_ }
  · intro other
    rw [Progress.of_resume]
    split
    · rename_i same
      simp [same, going]
    · rename_i different
      simp [balanced.halted_iff other, pending, Ne.symm different]
  · intro other
    rw [Progress.queued_of_resume]
    exact balanced.books other

theorem Balanced.relapse (balanced : Balanced start recorder journal)
    (pending : journal.resuming = some session)
    (halted : (recorder.halted.find? session).isSome = true) :
    Balanced start recorder { journal with resuming := none } := by
  refine { balanced with halted_iff := ?_ }
  intro other
  rw [balanced.halted_iff other, pending]
  by_cases same : other = session
  · simp [same, halted]
  · simp [Ne.symm same]

theorem Balanced.release (balanced : Balanced start recorder journal)
    (ready : recorder.progress.isReady session = true) :
    Balanced start { recorder with progress := recorder.progress.erase session } journal := by
  simp only [Progress.isReady, SessionProgress.isReady, Bool.and_eq_true, decide_eq_true_eq,
    Option.isNone_iff_eq_none] at ready
  refine { balanced with
    marks := balanced.marks.erase session
    halted_iff := ?_
    books := ?_ }
  · intro other
    rw [Progress.of_erase session other balanced.marks, ← balanced.halted_iff other]
    split
    · rename_i same
      simp [same, ready.2]
    · rfl
  · intro other
    rw [Progress.of_erase session other balanced.marks]
    split
    · rename_i same
      have books := balanced.books other
      rw [same, ready.1] at books
      exact same ▸ books
    · exact balanced.books other

theorem Balanced.drain (balanced : Balanced start recorder journal)
    (landed : journal.flight = []) (limit : Nat) :
    Balanced start { recorder with queue := (recorder.queue.drain limit).2 }
      { journal with flight := groupBySession (recorder.queue.drain limit).1 } := by
  refine { balanced with groups := (grouped_groupBySession _).own, books := ?_ }
  intro session
  have books := balanced.books session
  have split_ : eventsOf session recorder.queue.entries =
      eventsOf session (recorder.queue.entries.take limit) ++
        eventsOf session (recorder.queue.entries.drop limit) := by
    rw [← eventsOf_append, List.take_append_drop]
  simp only [waiting, failedOf, parkedOf, landed, List.flatMap_nil, eventsOf_nil, List.append_nil,
    EventQueue.drain, eventsOf_groupBySession, split_] at books ⊢
  rw [List.append_assoc _ (eventsOf session (recorder.queue.entries.take limit))]
  exact books

theorem eventsOf_flight (other : String) {raws : List RawEvent}
    (own : ∀ raw ∈ raws, raw.sessionId = session) (rest : List (String × List RawEvent)) :
    eventsOf other (((session, raws) :: rest).flatMap Prod.snd) =
      (if other = session then raws else []) ++ eventsOf other (rest.flatMap Prod.snd) := by
  rw [List.flatMap_cons, eventsOf_append]
  split
  · rename_i same
    rw [same, eventsOf_eq_self own]
  · rename_i different
    rw [eventsOf_eq_nil own different]

theorem Balanced.commit (balanced : Balanced start recorder journal) {after : Recorder σ}
    {flight : List (String × List RawEvent)} {resuming : Option String}
    (grown : Grown events recorder.store after.store)
    (own : ∀ event ∈ events, event.sessionId = session)
    (progress : after.progress = recorder.progress.afterBatch session events events.length)
    (ordered : after.halted.Ordered)
    (kept : ∀ other halted, after.halted.find? other = some halted →
      recorder.halted.find? other = some halted)
    (groups : ∀ group ∈ flight, ∀ raw ∈ group.2, raw.sessionId = group.1)
    (halted_iff : ∀ other,
      ((recorder.halted.find? other).isSome = true ∨ journal.resuming = some other) ↔
        (after.halted.find? other).isSome = true ∨ resuming = some other)
    (waits : ∀ other, recorder.waiting journal other =
      (if other = session then events.map SealedEvent.toRaw else []) ++
        after.waiting { journal with flight, resuming } other) :
    Balanced start after { journal with flight, resuming } where
  halts := ordered
  marks := progress ▸ Progress.ordered_afterBatch session balanced.marks events events.length
  grown other := (balanced.grown other).trans ⟨_, (grown other).symm⟩
  kept other halted found := balanced.kept other halted (kept other halted found)
  groups := groups
  halted_iff other := by
    rw [progress, Progress.halt_of_afterBatch, balanced.halted_iff, halted_iff]
  books := by
    intro other
    have books := balanced.books other
    rw [waits other] at books
    by_cases same : other = session
    · subst other
      rw [if_pos rfl] at books
      rw [storedSince_append (balanced.grown session) (grown.own own), progress,
        Progress.queued_of_afterBatch]
      simpa using books.store
    · rw [if_neg same] at books
      rw [storedSince_of_same start (grown.other own same), progress,
        Progress.of_afterBatch_other _ _ _ _ _ same]
      exact books

theorem Balanced.park (balanced : Balanced start recorder journal) {halted : HaltedSession}
    {raws : List RawEvent} {rest : List (String × List RawEvent)}
    (first : journal.flight = (session, raws) :: rest)
    (found : recorder.halted.find? session = some halted) :
    Balanced start { recorder with
      halted := recorder.halted.insert session { halted with parked := halted.parked ++ raws } }
      { journal with flight := rest } := by
  have own : ∀ raw ∈ raws, raw.sessionId = session :=
    balanced.groups (session, raws) (first ▸ List.mem_cons_self)
  obtain ⟨batched, parked⟩ := balanced.kept session halted found
  refine { balanced with
    halts := balanced.halts.insert session _
    kept := ?_
    groups := ?_
    halted_iff := ?_
    books := ?_ }
  · intro other kept entered
    rw [Table.find?_insert] at entered
    split at entered
    · rename_i same
      subst other
      obtain rfl := Option.some.inj entered
      refine ⟨batched, ?_⟩
      intro raw member
      rcases List.mem_append.mp member with old | new
      · exact parked raw old
      · exact own raw new
    · exact balanced.kept other kept entered
  · exact fun group member => balanced.groups group (first ▸ List.mem_cons_of_mem _ member)
  · intro other
    rw [balanced.halted_iff other, Table.find?_insert]
    split
    · rename_i same
      simp [same, found]
    · rfl
  · intro other
    refine (balanced.books other).of_eq ?_
    simp only [waiting, failedOf, parkedOf, first, eventsOf_flight other own, Table.find?_insert]
    by_cases same : other = session
    · subst other
      simp [found]
    · simp [same]

theorem Balanced.landStored (balanced : Balanced start recorder journal)
    {raws : List RawEvent} {rest : List (String × List RawEvent)} {now : Timestamp}
    (first : journal.flight = (session, raws) :: rest)
    (going : recorder.halted.find? session = none)
    (committed : recorder.commitRaws session raws now = (.ok events, next)) :
    Balanced start (next.recordCommit session events raws.length)
      { journal with flight := rest } := by
  have own : ∀ raw ∈ raws, raw.sessionId = session :=
    balanced.groups (session, raws) (first ▸ List.mem_cons_self)
  have mine : ∀ event ∈ events, event.sessionId = session := commitRaws_own committed
  have same := commitRaws_ok committed
  have counted : raws.length = events.length := by rw [← same, List.length_map]
  have grown := commitRaws_grown committed
  obtain ⟨chain, rfl⟩ : ∃ chain, next = { recorder with chain } :=
    ⟨_, (commitRaws_rest committed).2⟩
  refine balanced.commit (by simpa [store] using grown) mine (by simp [counted])
    (by simpa using balanced.halts) (by simp)
    (fun group member => balanced.groups group (first ▸ List.mem_cons_of_mem _ member))
    (by simp) ?_
  intro other
  simp only [waiting, failedOf, parkedOf, first, eventsOf_flight other own, recordCommit_halted,
    recordCommit_queue]
  by_cases here : other = session
  · subst other
    simp [going, same]
  · simp [here]

omit [AtomicStore σ] in
theorem dropsOf_of_halted {halted : HaltedSession} {raws : List RawEvent}
    (found : recorder.halted.find? session = some halted) :
    recorder.dropsOf (session, raws) = [] := by
  simp [dropsOf, found]

omit [AtomicStore σ] in
theorem dropsOf_of_ok {raws : List RawEvent} {now : Timestamp}
    (committed : recorder.commitRaws session raws now = (.ok events, next)) :
    recorder.dropsOf (session, raws) = [] := by
  have appended := (commitRaws_rest committed).1
  rcases recorder.chain.appendBatch_cases session raws recorder.plan.write now with
    ⟨_, _, refused⟩ | ⟨_, _, _, refused⟩ | ⟨_, _, _, found, _⟩
  · rw [refused] at appended
    cases appended
  · rw [refused] at appended
    cases appended
  · simp only [dropsOf, found]
    cases recorder.halted.find? session <;> rfl

theorem dropsOf_of_readable [ReadableStore σ] (recorder : Recorder σ)
    (group : String × List RawEvent) : recorder.dropsOf group = [] := by
  obtain ⟨session, raws⟩ := group
  obtain ⟨head, loaded⟩ := ChainBuilder.head_ok_of_readable recorder.chain session
  simp only [dropsOf, loaded]
  cases recorder.halted.find? session <;> rfl

theorem sealed_or_dropped {raws : List RawEvent} {failure : BatchFailure} {now : Timestamp}
    (own : ∀ raw ∈ raws, raw.sessionId = session)
    (going : recorder.halted.find? session = none)
    (failed : recorder.commitRaws session raws now = (.error failure, next)) :
    failure.events.map SealedEvent.toRaw ++ recorder.dropsOf (session, raws) = raws := by
  have appended := (commitRaws_rest failed).1
  rcases recorder.chain.appendBatch_cases session raws recorder.plan.write now with
    ⟨⟨raw, member, stray⟩, _⟩ | ⟨error, loaded, unloaded, refused⟩ | ⟨_, head, loaded, found, _⟩
  · exact absurd (own raw member) stray
  · rw [refused] at appended
    cases appended
    simp [dropsOf, going, unloaded]
  · have none : recorder.dropsOf (session, raws) = [] := by simp [dropsOf, going, found]
    rw [none, List.append_nil]
    rcases (ChainBuilder.appendBatch_sealed recorder.plan_atomic appended).2 with
      same | ⟨_, _, _, ⟨raw, member, stray⟩ | ⟨error, unloaded⟩⟩
    · exact same
    · exact absurd (own raw member) stray
    · rw [found] at unloaded
      cases unloaded

theorem Balanced.keep (balanced : Balanced start recorder journal) {after : Recorder σ}
    {halted : HaltedSession} {halt : Halt} {flight : List (String × List RawEvent)}
    {lost : List RawEvent} (rest : List RawEvent)
    (unchanged : Unchanged recorder.store after.store)
    (progress : after.progress = recorder.progress.halt session halt)
    (ordered : after.halted.Ordered)
    (found : ∀ other, after.halted.find? other =
      if other = session then some halted else recorder.halted.find? other)
    (batched : ∀ event ∈ halted.batch.events, event.sessionId = session)
    (parked : ∀ raw ∈ halted.parked, raw.sessionId = session)
    (groups : ∀ group ∈ flight, ∀ raw ∈ group.2, raw.sessionId = group.1)
    (drops : ∀ raw ∈ lost, raw.sessionId = session)
    (waited : recorder.waiting journal session = halted.raws ++ lost ++ rest)
    (waits : after.waiting { journal with flight } session = halted.raws ++ rest)
    (others : ∀ other, other ≠ session →
      after.waiting { journal with flight } other = recorder.waiting journal other) :
    Balanced start after { journal with flight, dropped := journal.dropped ++ lost } where
  halts := ordered
  marks := progress ▸ Progress.ordered_update session balanced.marks _
  grown other := by
    rw [unchanged other]
    exact balanced.grown other
  kept other former entered := by
    rw [found] at entered
    split at entered
    · rename_i same
      subst other
      obtain rfl := Option.some.inj entered
      exact ⟨batched, parked⟩
    · exact balanced.kept other former entered
  groups := groups
  halted_iff other := by
    rw [progress, Progress.of_halt, found]
    split
    · simp
    · exact balanced.halted_iff other
  books := by
    intro other
    have books := balanced.books other
    rw [storedSince_of_same start (unchanged other), progress, Progress.queued_of_halt,
      eventsOf_append]
    by_cases same : other = session
    · subst other
      rw [waited] at books
      rw [eventsOf_eq_self drops]
      exact books.lose.of_eq waits
    · rw [eventsOf_eq_nil drops same, List.append_nil]
      exact books.of_eq (others other same)

theorem Balanced.landFailed (balanced : Balanced start recorder journal)
    {raws : List RawEvent} {rest : List (String × List RawEvent)} {failure : BatchFailure}
    {now : Timestamp} (first : journal.flight = (session, raws) :: rest)
    (going : recorder.halted.find? session = none)
    (failed : recorder.commitRaws session raws now = (.error failure, next)) :
    Balanced start (next.recordFailure session failure [] now)
      { journal with
        flight := rest, dropped := journal.dropped ++ recorder.dropsOf (session, raws) } := by
  have own : ∀ raw ∈ raws, raw.sessionId = session :=
    balanced.groups (session, raws) (first ▸ List.mem_cons_self)
  have mine : ∀ event ∈ failure.events, event.sessionId = session := commitRaws_own failed
  have whole := sealed_or_dropped own going failed
  have unchanged := commitRaws_unchanged failed
  obtain ⟨chain, rfl⟩ : ∃ chain, next = { recorder with chain } :=
    ⟨_, (commitRaws_rest failed).2⟩
  refine balanced.keep (eventsOf session (rest.flatMap Prod.snd) ++
      eventsOf session recorder.queue.entries) unchanged rfl (balanced.halts.insert session _)
    (fun other => Table.find?_insert _ _ _ _) mine (by simp)
    (fun group member => balanced.groups group (first ▸ List.mem_cons_of_mem _ member))
    (fun raw member => own raw (whole ▸ List.mem_append_right _ member)) ?_ ?_ ?_
  · simp only [waiting, failedOf, parkedOf, first, eventsOf_flight session own, going,
      HaltedSession.raws]
    simp [whole]
  · simp [waiting, failedOf, parkedOf, HaltedSession.raws, recordFailure, Table.find?_insert]
  · intro other different
    simp only [waiting, failedOf, parkedOf, first, eventsOf_flight other own, recordFailure,
      Table.find?_insert, different, if_false, List.nil_append]

theorem Balanced.refail (balanced : Balanced start recorder journal) {halted : HaltedSession}
    {failure : BatchFailure} (now : Timestamp)
    (found : recorder.halted.find? session = some halted)
    (failed : (recorder.released session).commitSealed session halted.batch.events =
      (.error failure, next)) :
    Balanced start (next.recordFailure session failure halted.parked now) journal := by
  obtain ⟨batched, parked⟩ := balanced.kept session halted found
  obtain ⟨same, unchanged⟩ := commitSealed_unchanged failed
  obtain ⟨chain, rfl⟩ : ∃ chain,
      next = { recorder with chain, halted := recorder.halted.erase session } :=
    ⟨_, (commitSealed_rest failed).2⟩
  have finds (kept : HaltedSession) (other : String) :
      ((recorder.halted.erase session).insert session kept).find? other =
        if other = session then some kept else recorder.halted.find? other := by
    rw [Table.find?_insert, balanced.halts.find?_erase]
    split <;> rfl
  have kept : Balanced start
      (recordFailure { recorder with chain, halted := recorder.halted.erase session } session
        failure halted.parked now)
      { journal with dropped := journal.dropped ++ [] } := by
    refine balanced.keep (eventsOf session (journal.flight.flatMap Prod.snd) ++
        eventsOf session recorder.queue.entries) unchanged rfl
      ((balanced.halts.erase session).insert session _) (finds _) (same ▸ batched) parked
      balanced.groups (by simp) ?_ ?_ ?_
    · simp [waiting, failedOf, parkedOf, found, same, HaltedSession.raws]
    · simp [waiting, failedOf, parkedOf, recordFailure, finds, HaltedSession.raws]
    · intro other different
      simp only [waiting, failedOf, parkedOf, recordFailure, finds, different, if_false]
  rw [List.append_nil] at kept
  exact kept

theorem Balanced.recommit (balanced : Balanced start recorder journal) {halted : HaltedSession}
    (settled : journal.Settled) (found : recorder.halted.find? session = some halted)
    (committed : (recorder.released session).commitSealed session halted.batch.events =
      (.ok events, next)) :
    Balanced start (next.recordCommit session events halted.batch.events.length)
      { journal with
        flight := if halted.parked.isEmpty then [] else [(session, halted.parked)]
        resuming := some session } := by
  obtain ⟨batched, parked⟩ := balanced.kept session halted found
  obtain ⟨rfl, grown⟩ := commitSealed_grown committed
  obtain ⟨chain, rfl⟩ : ∃ chain,
      next = { recorder with chain, halted := recorder.halted.erase session } :=
    ⟨_, (commitSealed_rest committed).2⟩
  have finds (other : String) : (recorder.halted.erase session).find? other =
      if other = session then none else recorder.halted.find? other :=
    balanced.halts.find?_erase session other
  have grown : Grown halted.batch.events recorder.store chain.store.store := grown
  have flight_own : ∀ group ∈ (if halted.parked.isEmpty then [] else [(session, halted.parked)]),
      ∀ raw ∈ group.2, raw.sessionId = group.1 := by
    split
    · simp
    · simpa using parked
  have flies (other : String) : eventsOf other
      ((if halted.parked.isEmpty then [] else [(session, halted.parked)]).flatMap Prod.snd) =
        if other = session then halted.parked else [] := by
    split
    · rename_i none
      simp [List.isEmpty_iff.mp none]
    · rw [eventsOf_flight other parked, List.flatMap_nil, eventsOf_nil, List.append_nil]
  refine balanced.commit (by simpa [store] using grown) batched (by simp) ?_ ?_ flight_own ?_ ?_
  · simpa using balanced.halts.erase session
  · intro other kept entered
    rw [recordCommit_halted, finds] at entered
    split at entered
    · cases entered
    · exact entered
  · intro other
    rw [recordCommit_halted, finds, settled.rested]
    by_cases same : other = session
    · simp [same, found]
    · simp [same, Ne.symm same]
  · intro other
    simp only [waiting, failedOf, parkedOf, recordCommit_halted, recordCommit_queue, finds, flies,
      settled.landed]
    by_cases same : other = session
    · simp [same, found]
    · simp [same]

theorem Balanced.going_of_ready (balanced : Balanced start recorder journal)
    (ready : recorder.progress.isReady session = true) :
    recorder.halted.find? session = none := by
  simp only [Progress.isReady, SessionProgress.isReady, Bool.and_eq_true,
    Option.isNone_iff_eq_none] at ready
  have halted := balanced.halted_iff session
  simp only [ready.2, Option.isSome_none, Bool.false_eq_true, false_iff, not_or] at halted
  simpa using halted.1

theorem Balanced.settle (balanced : Balanced start recorder journal) {event : SealedEvent}
    {rest : List SealedEvent} {now : Timestamp}
    (ready : recorder.progress.isReady raw.sessionId = true)
    (committed : recorder.commitRaws raw.sessionId [raw] now = (.ok (event :: rest), next)) :
    Balanced start
      { next with progress := next.progress.committed raw.sessionId event.sequenceNumber 0 }
      { journal with accepted := journal.accepted ++ [raw] } := by
  have mine : ∀ other ∈ event :: rest, other.sessionId = raw.sessionId := commitRaws_own committed
  have same := commitRaws_ok committed
  have grown := commitRaws_grown committed
  obtain ⟨chain, rfl⟩ : ∃ chain, next = { recorder with chain } :=
    ⟨_, (commitRaws_rest committed).2⟩
  refine { balanced with
    marks := balanced.marks.insert _ _
    grown := fun other => (balanced.grown other).trans ⟨_, (grown other).symm⟩
    halted_iff := by simpa using balanced.halted_iff
    books := ?_ }
  intro other
  have books := balanced.books other
  simp only [eventsOf_append, eventsOf_singleton, Progress.of_committed]
  by_cases here : other = raw.sessionId
  · subst other
    -- Nothing is counted, so nothing waits that the event could overtake.
    have idle : (recorder.progress.of raw.sessionId).queued = 0 := by
      simp only [Progress.isReady, SessionProgress.isReady, Bool.and_eq_true,
        decide_eq_true_eq] at ready
      exact ready.1
    rw [idle] at books
    simp only [if_true, idle, Nat.sub_zero]
    have since := storedSince_append (balanced.grown raw.sessionId) (grown.own mine)
    rw [same] at since
    exact since ▸ books.settle
  · simp only [here, if_false, List.append_nil]
    exact storedSince_of_same start (grown.other mine here) ▸ books

theorem Balanced.land (balanced : Balanced start recorder journal) (now : Timestamp)
    {group : String × List RawEvent} {rest : List (String × List RawEvent)}
    (first : journal.flight = group :: rest) :
    Balanced start (recorder.commitGroup now group)
      { journal with flight := rest, dropped := journal.dropped ++ recorder.dropsOf group } := by
  obtain ⟨session, raws⟩ := group
  rcases recorder.commitGroup_cases now session raws with
    ⟨halted, found, parks⟩ |
    ⟨going, ⟨events, next, committed, stores⟩ | ⟨failure, next, failed, keeps⟩⟩
  · rw [parks, dropsOf_of_halted found, List.append_nil]
    exact balanced.park first found
  · rw [stores, dropsOf_of_ok committed, List.append_nil]
    exact balanced.landStored first going committed
  · rw [keeps]
    exact balanced.landFailed first going failed

theorem Balanced.withChain (balanced : Balanced start recorder journal)
    {chain : ChainBuilder (Paced σ)} (unchanged : Unchanged recorder.chain.store chain.store) :
    Balanced start { recorder with chain } journal where
  halts := balanced.halts
  marks := balanced.marks
  grown session := by
    have same : stored session chain.store.store = stored session recorder.store :=
      unchanged session
    rw [store, same]
    exact balanced.grown session
  kept := balanced.kept
  groups := balanced.groups
  halted_iff := balanced.halted_iff
  books session := by
    rw [storedSince_of_same start (unchanged session)]
    exact balanced.books session

end

theorem Step.balanced {start : σ} {before after : Recorder σ × Journal} (step : Step before after)
    (balanced : Balanced start before.1 before.2) : Balanced start after.1 after.2 := by
  cases step with
  | weather store same => exact balanced.withChain same
  | note tickets running cycles => exact { balanced with }
  | announce raw free => exact balanced.announce raw free
  | withdraw raw held => exact balanced.withdraw held
  | enter raw held room => exact balanced.enter held room
  | refuse raw full => exact balanced.refuse full
  | drain limit landed => exact balanced.drain landed limit
  | land now group rest first => exact balanced.land now first
  | settle ready committed => exact balanced.settle ready committed
  | fail failed =>
      rw [(commitRaws_rest failed).2]
      exact balanced.withChain (commitRaws_unchanged failed)
  | recommit settled found committed => exact balanced.recommit settled found committed
  | refail now found failed => exact balanced.refail now found failed
  | resume landed pending going => exact balanced.resume pending going
  | relapse landed pending halted => exact balanced.relapse pending halted
  | release session ready => exact (balanced.release ready).withChain fun _ => rfl
  | load session => exact balanced.withChain (ChainBuilder.head_unchanged rfl)

theorem Steps.balanced {start : σ} {before after : Recorder σ × Journal}
    (steps : Steps before after) (balanced : Balanced start before.1 before.2) :
    Balanced start after.1 after.2 :=
  steps.keeps (fun state => Balanced start state.1 state.2) Step.balanced balanced

theorem Balanced.marked {start : σ} {recorder : Recorder σ} {journal : Journal}
    (balanced : Balanced start recorder journal) (rested : journal.resuming = none)
    (session : String) : (recorder.progress.of session).halt.isSome =
      (recorder.halted.find? session).isSome := by
  have halted := balanced.halted_iff session
  simp only [rested, reduceCtorEq, or_false] at halted
  exact Bool.eq_iff_iff.mpr halted

theorem Balanced.haltedSessions {start : σ} {recorder : Recorder σ} {journal : Journal}
    (balanced : Balanced start recorder journal) (rested : journal.resuming = none) :
    recorder.progress.haltedSessions = recorder.halted.length :=
  Progress.haltedSessions_eq balanced.marks balanced.halts (balanced.marked rested)

end Recorder

end AuditTrail
