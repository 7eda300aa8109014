import AuditTrail.Proofs.Recorder.Balance

/-!
The counters of the recorder, held against what they count. A step moves them together: what it
drains from the queue it puts in flight, what it lands it commits, keeps or loses, and what it adds
to the store it has committed or stored at once. So a run moves them together as well.
-/

namespace AuditTrail.Recorder

open AtomicStore

section

variable {σ : Type}

def keptCount (recorder : Recorder σ) : Nat :=
  recorder.halted.total fun halted => halted.raws.length

def pendingCount (recorder : Recorder σ) (journal : Journal) : Nat :=
  recorder.keptCount + (journal.flight.flatMap Prod.snd).length + journal.dropped.length

theorem recordCommit_eventsCommitted (recorder : Recorder σ) (session : String)
    (events : List SealedEvent) (dequeued : Nat) :
    (recorder.recordCommit session events dequeued).eventsCommitted =
      recorder.eventsCommitted + events.length := by
  unfold recordCommit
  cases ended : events.getLast? with
  | none =>
      obtain rfl := List.getLast?_eq_none_iff.mp ended
      rfl
  | some last => rfl

theorem length_raws (halted : HaltedSession) :
    halted.raws.length = halted.batch.events.length + halted.parked.length := by
  rw [HaltedSession.raws, List.length_append, List.length_map]

theorem keptCount_erase {recorder : Recorder σ} {session : String} {halted : HaltedSession}
    (found : recorder.halted.find? session = some halted) :
    (recorder.released session).keptCount + halted.raws.length = recorder.keptCount := by
  have counted := Table.total_erase (fun halted => halted.raws.length) recorder.halted session
  rwa [found] at counted

theorem keptCount_recordFailure {recorder : Recorder σ} {session : String}
    (ordered : recorder.halted.Ordered) (going : recorder.halted.find? session = none)
    (failure : BatchFailure) (parked : List RawEvent) (now : Timestamp) :
    (recorder.recordFailure session failure parked now).keptCount =
      recorder.keptCount + failure.events.length + parked.length := by
  have counted := ordered.total_insert (fun halted => halted.raws.length) session
    ⟨⟨session, failure.events, (Halt.ofError failure.error).attempts, failure.error.message, now⟩,
      parked⟩
  rw [going, length_raws] at counted
  rw [Nat.add_assoc]
  exact counted

end

variable {σ : Type} [Store σ] [AtomicStore σ]

/-- What steps add to the counters: events that were stored, that entered the queue, that were
stored without it, and that left it. -/
structure Change (added : List SealedEvent) (pushed settled drained : Nat)
    (before after : Recorder σ × Journal) : Prop where
  grown : Grown added before.1.store after.1.store
  accepted : after.2.accepted.length = before.2.accepted.length + pushed + settled
  pushes : after.1.queue.totalPushed = before.1.queue.totalPushed + pushed
  drains : after.1.queue.totalDrained = before.1.queue.totalDrained + drained
  queued : after.1.queue.size + drained = before.1.queue.size + pushed
  commits : after.1.eventsCommitted + settled = before.1.eventsCommitted + added.length
  pending : after.1.eventsCommitted + after.1.pendingCount after.2 =
    before.1.eventsCommitted + before.1.pendingCount before.2 + drained

theorem Change.trans {first second : List SealedEvent} {pushed settled drained : Nat}
    {pushes settles drains : Nat} {before between after : Recorder σ × Journal}
    (change : Change first pushed settled drained before between)
    (later : Change second pushes settles drains between after) :
    Change (first ++ second) (pushed + pushes) (settled + settles) (drained + drains)
      before after where
  grown := change.grown.trans later.grown
  accepted := by
    rw [later.accepted, change.accepted]
    omega
  pushes := by rw [later.pushes, change.pushes, Nat.add_assoc]
  drains := by rw [later.drains, change.drains, Nat.add_assoc]
  queued := by
    have earlier := change.queued
    have now := later.queued
    omega
  commits := by
    have earlier := change.commits
    have now := later.commits
    rw [List.length_append]
    omega
  pending := by
    have earlier := change.pending
    have now := later.pending
    omega

theorem Change.still {before after : Recorder σ × Journal}
    (unchanged : Unchanged before.1.store after.1.store)
    (accepted : after.2.accepted = before.2.accepted)
    (queue : after.1.queue.totalPushed = before.1.queue.totalPushed ∧
      after.1.queue.totalDrained = before.1.queue.totalDrained ∧
      after.1.queue.entries = before.1.queue.entries)
    (committed : after.1.eventsCommitted = before.1.eventsCommitted)
    (pending : after.1.pendingCount after.2 = before.1.pendingCount before.2) :
    Change [] 0 0 0 before after := by
  obtain ⟨pushed, drained, entries⟩ := queue
  refine ⟨unchanged.grown, ?_, pushed, drained, ?_, ?_, ?_⟩
  · rw [accepted]
    rfl
  · rw [EventQueue.size, entries]
    rfl
  · rw [committed]
    rfl
  · rw [committed, pending, Nat.add_zero]

section

variable {start : σ} {recorder next : Recorder σ} {journal : Journal} {session : String}
  {raw : RawEvent} {events : List SealedEvent}

theorem change_enter (room : recorder.queue.isFull = false) :
    Change [] 1 0 0 (recorder, journal)
      ({ recorder with queue := (recorder.queue.push raw).2 },
        { journal with hand := [], accepted := journal.accepted ++ [raw] }) where
  grown := Unchanged.grown fun _ => rfl
  accepted := List.length_append
  pushes := by simp [EventQueue.push, room]
  drains := by simp [EventQueue.push, room]
  queued := by simp [EventQueue.push, room, EventQueue.size]
  commits := rfl
  pending := rfl

theorem change_refuse (full : recorder.queue.isFull = true) :
    Change [] 0 0 0 (recorder, journal)
      ({ recorder with queue := (recorder.queue.push raw).2 }, journal) := by
  refine Change.still (fun _ => rfl) rfl ?_ rfl rfl
  simp [EventQueue.push, full]

theorem change_drain (landed : journal.flight = []) (limit : Nat) :
    Change [] 0 0 (recorder.queue.drain limit).1.length (recorder, journal)
      ({ recorder with queue := (recorder.queue.drain limit).2 },
        { journal with flight := groupBySession (recorder.queue.drain limit).1 }) where
  grown := Unchanged.grown fun _ => rfl
  accepted := rfl
  pushes := rfl
  drains := rfl
  queued := by
    simp only [EventQueue.drain, EventQueue.size, List.length_take, List.length_drop]
    omega
  commits := rfl
  pending := by
    simp only [pendingCount, keptCount, landed, length_groupBySession, List.flatMap_nil,
      List.length_nil]
    omega

theorem change_park (balanced : Balanced start recorder journal) {halted : HaltedSession}
    {raws : List RawEvent} {rest : List (String × List RawEvent)}
    (first : journal.flight = (session, raws) :: rest)
    (found : recorder.halted.find? session = some halted) :
    Change [] 0 0 0 (recorder, journal)
      ({ recorder with
          halted := recorder.halted.insert session
            { halted with parked := halted.parked ++ raws } },
        { journal with flight := rest }) := by
  refine Change.still (fun _ => rfl) rfl ⟨rfl, rfl, rfl⟩ rfl ?_
  have kept := balanced.halts.total_insert (fun halted => halted.raws.length) session
    { halted with parked := halted.parked ++ raws }
  simp only [found, Option.map_some, Option.getD_some, length_raws, List.length_append] at kept
  simp only [pendingCount, keptCount, length_raws, first, List.flatMap_cons, List.length_append]
  omega

theorem change_landStored {raws : List RawEvent} {rest : List (String × List RawEvent)}
    {now : Timestamp} (first : journal.flight = (session, raws) :: rest)
    (committed : recorder.commitRaws session raws now = (.ok events, next)) :
    Change events 0 0 0 (recorder, journal)
      (next.recordCommit session events raws.length, { journal with flight := rest }) := by
  have grown := commitRaws_grown committed
  have counted : raws.length = events.length := by
    rw [← commitRaws_ok committed, List.length_map]
  obtain ⟨chain, rfl⟩ : ∃ chain, next = { recorder with chain } :=
    ⟨_, (commitRaws_rest committed).2⟩
  constructor
  · simpa [store] using grown
  · rfl
  · simp
  · simp
  · simp
  · simp [recordCommit_eventsCommitted]
  · simp only [recordCommit_eventsCommitted, pendingCount, keptCount, recordCommit_halted, first,
      List.flatMap_cons, List.length_append]
    omega

theorem change_landFailed (balanced : Balanced start recorder journal) {raws : List RawEvent}
    {rest : List (String × List RawEvent)} {failure : BatchFailure} {now : Timestamp}
    (first : journal.flight = (session, raws) :: rest)
    (going : recorder.halted.find? session = none)
    (failed : recorder.commitRaws session raws now = (.error failure, next)) :
    Change [] 0 0 0 (recorder, journal)
      (next.recordFailure session failure [] now,
        { journal with
          flight := rest, dropped := journal.dropped ++ recorder.dropsOf (session, raws) }) := by
  have own : ∀ raw ∈ raws, raw.sessionId = session :=
    balanced.groups (session, raws) (first ▸ List.mem_cons_self)
  have whole := congrArg List.length (sealed_or_dropped own going failed)
  have unchanged := commitRaws_unchanged failed
  obtain ⟨chain, rfl⟩ : ∃ chain, next = { recorder with chain } :=
    ⟨_, (commitRaws_rest failed).2⟩
  have kept : (recordFailure { recorder with chain } session failure [] now).keptCount =
      recorder.keptCount + failure.events.length + 0 :=
    keptCount_recordFailure balanced.halts going failure [] now
  refine Change.still unchanged rfl ⟨rfl, rfl, rfl⟩ rfl ?_
  rw [List.length_append, List.length_map] at whole
  simp only [pendingCount, kept, first, List.flatMap_cons, List.length_append]
  omega

theorem change_land (balanced : Balanced start recorder journal) (now : Timestamp)
    {group : String × List RawEvent} {rest : List (String × List RawEvent)}
    (first : journal.flight = group :: rest) :
    ∃ added, Change added 0 0 0 (recorder, journal)
      (recorder.commitGroup now group,
        { journal with flight := rest, dropped := journal.dropped ++ recorder.dropsOf group }) := by
  obtain ⟨session, raws⟩ := group
  rcases recorder.commitGroup_cases now session raws with
    ⟨halted, found, parks⟩ |
    ⟨going, ⟨events, next, committed, stores⟩ | ⟨failure, next, failed, keeps⟩⟩
  · rw [parks, dropsOf_of_halted found, List.append_nil]
    exact ⟨_, change_park balanced first found⟩
  · rw [stores, dropsOf_of_ok committed, List.append_nil]
    exact ⟨_, change_landStored first committed⟩
  · rw [keeps]
    exact ⟨_, change_landFailed balanced first going failed⟩

theorem change_settle {event : SealedEvent} {rest : List SealedEvent} {now : Timestamp}
    (committed : recorder.commitRaws raw.sessionId [raw] now = (.ok (event :: rest), next)) :
    Change (event :: rest) 0 1 0 (recorder, journal)
      ({ next with
          progress := next.progress.committed raw.sessionId event.sequenceNumber 0 },
        { journal with accepted := journal.accepted ++ [raw] }) := by
  have grown := commitRaws_grown committed
  have single : (event :: rest).length = 1 := by
    simpa using congrArg List.length (commitRaws_ok committed)
  obtain ⟨chain, rfl⟩ : ∃ chain, next = { recorder with chain } :=
    ⟨_, (commitRaws_rest committed).2⟩
  exact ⟨grown, List.length_append, rfl, rfl, rfl, by rw [single], rfl⟩

theorem change_recommit {halted : HaltedSession} (settled : journal.Settled)
    (found : recorder.halted.find? session = some halted)
    (committed : (recorder.released session).commitSealed session halted.batch.events =
      (.ok events, next)) :
    Change events 0 0 0 (recorder, journal)
      (next.recordCommit session events halted.batch.events.length,
        { journal with
          flight := if halted.parked.isEmpty then [] else [(session, halted.parked)]
          resuming := some session }) := by
  obtain ⟨rfl, grown⟩ := commitSealed_grown committed
  have kept := keptCount_erase found
  have flies : ((if halted.parked.isEmpty then [] else
      [(session, halted.parked)]).flatMap Prod.snd).length = halted.parked.length := by
    split
    · rename_i none
      simp [List.isEmpty_iff.mp none]
    · simp
  obtain ⟨chain, rfl⟩ : ∃ chain, next = { recorder.released session with chain } :=
    ⟨_, (commitSealed_rest committed).2⟩
  rw [length_raws] at kept
  constructor
  · simpa [store, released] using grown
  · rfl
  · simp [released]
  · simp [released]
  · simp [released]
  · simp [released, recordCommit_eventsCommitted]
  · simp only [recordCommit_eventsCommitted, pendingCount, flies, settled.landed,
      List.flatMap_nil, List.length_nil]
    simp only [keptCount, released, recordCommit_halted] at kept ⊢
    omega

theorem change_refail (balanced : Balanced start recorder journal) {halted : HaltedSession}
    {failure : BatchFailure} (now : Timestamp)
    (found : recorder.halted.find? session = some halted)
    (failed : (recorder.released session).commitSealed session halted.batch.events =
      (.error failure, next)) :
    Change [] 0 0 0 (recorder, journal)
      (next.recordFailure session failure halted.parked now, journal) := by
  obtain ⟨same, unchanged⟩ := commitSealed_unchanged failed
  have kept := keptCount_erase found
  have fresh : (recorder.halted.erase session).find? session = none := by
    simp [balanced.halts.find?_erase]
  obtain ⟨chain, rfl⟩ : ∃ chain, next = { recorder.released session with chain } :=
    ⟨_, (commitSealed_rest failed).2⟩
  have again : (recordFailure { recorder.released session with chain } session failure
      halted.parked now).keptCount =
        (recorder.released session).keptCount + failure.events.length + halted.parked.length :=
    keptCount_recordFailure (balanced.halts.erase session) fresh failure halted.parked now
  refine Change.still unchanged rfl ⟨rfl, rfl, rfl⟩ rfl ?_
  rw [length_raws] at kept
  rw [same] at again
  simp only [pendingCount, again]
  omega

end

theorem Step.change {start : σ} {before after : Recorder σ × Journal} (step : Step before after)
    (balanced : Balanced start before.1 before.2) :
    ∃ added pushed settled drained, Change added pushed settled drained before after := by
  cases step with
  | enter raw held room => exact ⟨_, _, _, _, change_enter room⟩
  | refuse raw full => exact ⟨_, _, _, _, change_refuse full⟩
  | drain limit landed => exact ⟨_, _, _, _, change_drain landed limit⟩
  | land now group rest first =>
      obtain ⟨added, change⟩ := change_land balanced now first
      exact ⟨added, _, _, _, change⟩
  | settle ready committed => exact ⟨_, _, _, _, change_settle committed⟩
  | fail failed =>
      have unchanged := commitRaws_unchanged failed
      rw [(commitRaws_rest failed).2] at unchanged ⊢
      exact ⟨_, _, _, _, Change.still unchanged rfl ⟨rfl, rfl, rfl⟩ rfl rfl⟩
  | recommit settled found committed =>
      exact ⟨_, _, _, _, change_recommit settled found committed⟩
  | refail now found failed => exact ⟨_, _, _, _, change_refail balanced now found failed⟩
  | weather store same =>
      exact ⟨_, _, _, _, Change.still same rfl ⟨rfl, rfl, rfl⟩ rfl rfl⟩
  | load session =>
      rename_i recorder journal
      have unchanged : Unchanged recorder.chain.store (recorder.chain.head session).2.store :=
        ChainBuilder.head_unchanged rfl
      exact ⟨_, _, _, _, Change.still unchanged rfl ⟨rfl, rfl, rfl⟩ rfl rfl⟩
  | _ => exact ⟨_, _, _, _, Change.still (fun _ => rfl) rfl ⟨rfl, rfl, rfl⟩ rfl rfl⟩

theorem Steps.change {start : σ} {before after : Recorder σ × Journal} (steps : Steps before after)
    (balanced : Balanced start before.1 before.2) :
    ∃ added pushed settled drained, Change added pushed settled drained before after := by
  induction steps with
  | refl => exact ⟨[], 0, 0, 0, Change.still (fun _ => rfl) rfl ⟨rfl, rfl, rfl⟩ rfl rfl⟩
  | tail former step ih =>
      obtain ⟨first, pushed, settled, drained, change⟩ := ih
      obtain ⟨second, pushes, settles, drains, later⟩ := step.change (Steps.balanced former balanced)
      exact ⟨_, _, _, _, change.trans later⟩

end AuditTrail.Recorder
