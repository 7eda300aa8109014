import AuditTrail.Ledger
import AuditTrail.Proofs.Recorder.Chores
import AuditTrail.Proofs.Recorder.Commits

/-!
The recorder as a system of single steps. Every operation is a run of these, so what each step
keeps is kept by all of them. A journal beside the recorder follows the events through the places
that are empty again when an operation is over, and notes which of them were taken in and which
got lost.
-/

namespace AuditTrail

/-- The event that was announced but not queued yet, the groups that were taken out but not
committed yet, the session whose retry is going on, and all events taken in and lost so far. -/
structure Journal where
  hand : List RawEvent := []
  flight : List (String × List RawEvent) := []
  resuming : Option String := none
  accepted : List RawEvent := []
  dropped : List RawEvent := []

structure Journal.Settled (journal : Journal) : Prop where
  landed : journal.flight = []
  rested : journal.resuming = none

namespace Recorder

variable {σ : Type} [Store σ]

/-- What a drained group loses: all of it if its session is not halted and cannot be loaded. -/
def dropsOf (recorder : Recorder σ) : String × List RawEvent → List RawEvent
  | (session, raws) =>
    match recorder.halted.find? session, (recorder.chain.head session).1 with
    | none, .error _ => raws
    | _, _ => []

inductive Step [AtomicStore σ] : Recorder σ × Journal → Recorder σ × Journal → Prop
  | weather {recorder : Recorder σ} {journal : Journal} (store : σ)
      (same : Unchanged recorder.store store) :
      Step (recorder, journal) (recorder.withStore store, journal)
  | note {recorder : Recorder σ} {journal : Journal} (tickets : Tickets) (running : Bool)
      (cycles : Nat) :
      Step (recorder, journal) ({ recorder with tickets, running, cycles }, journal)
  | announce {recorder : Recorder σ} {journal : Journal} (raw : RawEvent)
      (free : journal.hand = []) :
      Step (recorder, journal)
        ({ recorder with progress := recorder.progress.enqueued raw.sessionId },
          { journal with hand := [raw] })
  | withdraw {recorder : Recorder σ} {journal : Journal} (raw : RawEvent)
      (held : journal.hand = [raw]) :
      Step (recorder, journal)
        ({ recorder with progress := recorder.progress.withdrawn raw.sessionId },
          { journal with hand := [] })
  | enter {recorder : Recorder σ} {journal : Journal} (raw : RawEvent)
      (held : journal.hand = [raw]) (room : recorder.queue.isFull = false) :
      Step (recorder, journal)
        ({ recorder with queue := (recorder.queue.push raw).2 },
          { journal with hand := [], accepted := journal.accepted ++ [raw] })
  | refuse {recorder : Recorder σ} {journal : Journal} (raw : RawEvent)
      (full : recorder.queue.isFull = true) :
      Step (recorder, journal) ({ recorder with queue := (recorder.queue.push raw).2 }, journal)
  | drain {recorder : Recorder σ} {journal : Journal} (limit : Nat)
      (landed : journal.flight = []) :
      Step (recorder, journal)
        ({ recorder with queue := (recorder.queue.drain limit).2 },
          { journal with flight := groupBySession (recorder.queue.drain limit).1 })
  | land {recorder : Recorder σ} {journal : Journal} (now : Timestamp)
      (group : String × List RawEvent) (rest : List (String × List RawEvent))
      (first : journal.flight = group :: rest) :
      Step (recorder, journal)
        (recorder.commitGroup now group,
          { journal with flight := rest, dropped := journal.dropped ++ recorder.dropsOf group })
  | settle {recorder next : Recorder σ} {journal : Journal} {now : Timestamp} {raw : RawEvent}
      {event : SealedEvent} {rest : List SealedEvent}
      (ready : recorder.progress.isReady raw.sessionId = true)
      (committed : recorder.commitRaws raw.sessionId [raw] now = (.ok (event :: rest), next)) :
      Step (recorder, journal)
        ({ next with
            progress := next.progress.committed raw.sessionId event.sequenceNumber 0 },
          { journal with accepted := journal.accepted ++ [raw] })
  | fail {recorder next : Recorder σ} {journal : Journal} {now : Timestamp} {raw : RawEvent}
      {failure : BatchFailure}
      (failed : recorder.commitRaws raw.sessionId [raw] now = (.error failure, next)) :
      Step (recorder, journal) (next, journal)
  | recommit {recorder next : Recorder σ} {journal : Journal} {session : String}
      {halted : HaltedSession} {events : List SealedEvent} (settled : journal.Settled)
      (found : recorder.halted.find? session = some halted)
      (committed : (recorder.released session).commitSealed session halted.batch.events =
        (.ok events, next)) :
      Step (recorder, journal)
        (next.recordCommit session events halted.batch.events.length,
          { journal with
            flight := if halted.parked.isEmpty then [] else [(session, halted.parked)]
            resuming := some session })
  | refail {recorder next : Recorder σ} {journal : Journal} {session : String}
      {halted : HaltedSession} {failure : BatchFailure} (now : Timestamp)
      (found : recorder.halted.find? session = some halted)
      (failed : (recorder.released session).commitSealed session halted.batch.events =
        (.error failure, next)) :
      Step (recorder, journal) (next.recordFailure session failure halted.parked now, journal)
  | resume {recorder : Recorder σ} {journal : Journal} {session : String}
      (landed : journal.flight = []) (pending : journal.resuming = some session)
      (going : recorder.halted.find? session = none) :
      Step (recorder, journal)
        ({ recorder with progress := recorder.progress.resume session },
          { journal with resuming := none })
  | relapse {recorder : Recorder σ} {journal : Journal} {session : String}
      (landed : journal.flight = []) (pending : journal.resuming = some session)
      (halted : (recorder.halted.find? session).isSome = true) :
      Step (recorder, journal) (recorder, { journal with resuming := none })
  | release {recorder : Recorder σ} {journal : Journal} (session : String)
      (ready : recorder.progress.isReady session = true) :
      Step (recorder, journal)
        ({ recorder with
            progress := recorder.progress.erase session
            chain := recorder.chain.evict session }, journal)
  | load {recorder : Recorder σ} {journal : Journal} (session : String) :
      Step (recorder, journal) ({ recorder with chain := (recorder.chain.head session).2 }, journal)

abbrev Steps [AtomicStore σ] : Recorder σ × Journal → Recorder σ × Journal → Prop :=
  Relation.ReflTransGen Step

variable [AtomicStore σ]

theorem Steps.keeps {before after : Recorder σ × Journal} (steps : Steps before after)
    (Holds : Recorder σ × Journal → Prop)
    (kept : ∀ {former next}, Step former next → Holds former → Holds next)
    (holds : Holds before) : Holds after := by
  induction steps with
  | refl => exact holds
  | tail _ step ih => exact kept step ih

theorem Step.ordered {before after : Recorder σ × Journal} (step : Step before after)
    (ordered : before.1.halted.Ordered) : after.1.halted.Ordered := by
  cases step with
  | land now group rest first =>
      rename_i recorder _
      obtain ⟨session, raws⟩ := group
      rcases recorder.commitGroup_cases now session raws with
        ⟨_, _, parks⟩ | ⟨_, ⟨_, _, committed, stores⟩ | ⟨_, _, failed, keeps⟩⟩
      · simpa only [parks] using ordered.insert session _
      · rw [(commitRaws_rest committed).2] at stores
        simpa only [stores, recordCommit_halted] using ordered
      · rw [(commitRaws_rest failed).2] at keeps
        simpa only [keeps, recordFailure] using ordered.insert session _
  | settle ready committed =>
      rw [(commitRaws_rest committed).2]
      exact ordered
  | fail failed =>
      rw [(commitRaws_rest failed).2]
      exact ordered
  | recommit settled found committed =>
      rw [(commitSealed_rest committed).2, recordCommit_halted]
      exact ordered.erase _
  | refail now found failed =>
      rw [(commitSealed_rest failed).2]
      exact (ordered.erase _).insert _ _
  | _ => exact ordered

theorem Steps.ordered {before after : Recorder σ × Journal} (steps : Steps before after)
    (ordered : before.1.halted.Ordered) : after.1.halted.Ordered :=
  steps.keeps (fun state => state.1.halted.Ordered) Step.ordered ordered

/-- Work that neither takes events in nor leaves any on their way. -/
def Works (before after : Recorder σ) : Prop :=
  before.halted.Ordered → ∀ journal : Journal, journal.Settled →
    ∃ dropped, Steps (before, journal) (after, { journal with dropped })

theorem Works.refl (recorder : Recorder σ) : Works recorder recorder :=
  fun _ journal _ => ⟨journal.dropped, Relation.ReflTransGen.refl⟩

theorem Works.trans {first second third : Recorder σ} (before : Works first second)
    (after : Works second third) : Works first third := by
  intro ordered journal settled
  obtain ⟨lost, steps⟩ := before ordered journal settled
  obtain ⟨dropped, further⟩ :=
    after (steps.ordered ordered) { journal with dropped := lost } ⟨settled.landed, settled.rested⟩
  exact ⟨dropped, steps.trans further⟩

theorem Works.single {before after : Recorder σ}
    (step : ∀ journal : Journal, Step (before, journal) (after, journal)) : Works before after :=
  fun _ journal _ => ⟨journal.dropped, Relation.ReflTransGen.single (step journal)⟩

theorem works_note (recorder : Recorder σ) (tickets : Tickets) (running : Bool) (cycles : Nat) :
    Works recorder { recorder with tickets, running, cycles } :=
  Works.single fun _ => Step.note tickets running cycles

theorem steps_land (now : Timestamp) (recorder : Recorder σ) (journal : Journal) :
    ∃ dropped, Steps (recorder, journal)
      (journal.flight.foldl (commitGroup now) recorder,
        { journal with flight := [], dropped }) := by
  -- The recorder and what is lost so far change with every group, so both are general.
  obtain ⟨hand, flight, resuming, accepted, dropped⟩ := journal
  induction flight generalizing recorder dropped with
  | nil => exact ⟨dropped, Relation.ReflTransGen.refl⟩
  | cons group rest ih =>
      obtain ⟨after, steps⟩ :=
        ih (recorder.commitGroup now group) (dropped ++ recorder.dropsOf group)
      exact ⟨after, Relation.ReflTransGen.head (Step.land now group rest rfl) steps⟩

theorem steps_landParked (now : Timestamp) (recorder : Recorder σ) (session : String) (count : Nat)
    (parked : List RawEvent) (going : recorder.halted.find? session = none) (journal : Journal)
    (pending : journal.resuming = some session)
    (first : journal.flight = if parked.isEmpty then [] else [(session, parked)]) :
    ∃ dropped, Steps (recorder, journal)
      ((recorder.landParked session count parked now).2,
        { journal with flight := [], resuming := none, dropped }) := by
  rcases recorder.landParked_cases session count parked now with
    ⟨rfl, resumes⟩ | ⟨some, ⟨failure, next, failed, keeps⟩ | ⟨later, next, committed, stores⟩⟩
  · obtain ⟨hand, flight, resuming, accepted, dropped⟩ := journal
    obtain rfl : flight = [] := first
    rw [resumes]
    exact ⟨dropped, Relation.ReflTransGen.single (Step.resume rfl pending going)⟩
  · rw [if_neg (by simpa using some)] at first
    have lands : Steps (recorder, journal) _ :=
      Relation.ReflTransGen.single (Step.land now (session, parked) [] first)
    have same : recorder.commitGroup now (session, parked) =
        next.recordFailure session failure [] now := by simp only [commitGroup, going, failed]
    have again : ((next.recordFailure session failure [] now).halted.find? session).isSome := by
      simp [recordFailure, Table.find?_insert]
    rw [same] at lands
    rw [keeps]
    exact ⟨_, lands.tail (Step.relapse rfl pending again)⟩
  · rw [if_neg (by simpa using some)] at first
    have lands : Steps (recorder, journal) _ :=
      Relation.ReflTransGen.single (Step.land now (session, parked) [] first)
    have same : recorder.commitGroup now (session, parked) =
        next.recordCommit session later parked.length := by
      simp only [commitGroup, going, committed]
    have still : (next.recordCommit session later parked.length).halted.find? session = none := by
      rw [recordCommit_halted, (commitRaws_rest committed).2]
      exact going
    rw [same] at lands
    rw [stores]
    exact ⟨_, lands.tail (Step.resume rfl pending still)⟩

theorem works_cycle (full : Bool) (now : Timestamp) (recorder : Recorder σ) :
    Works recorder (recorder.cycle full now).2 := by
  intro ordered journal settled
  let limit := if full || !recorder.tickets.pending.isEmpty then recorder.queue.size
    else recorder.settings.batchSize
  let begun : Recorder σ := { recorder with tickets := recorder.tickets.begin }
  let drained : Recorder σ := { begun with queue := (begun.queue.drain limit).2 }
  have begins : Steps (recorder, journal) (begun, journal) :=
    Relation.ReflTransGen.single (Step.note recorder.tickets.begin recorder.running recorder.cycles)
  have drains : Steps (begun, journal)
      (drained, { journal with flight := groupBySession (begun.queue.drain limit).1 }) :=
    Relation.ReflTransGen.single (Step.drain limit settled.landed)
  obtain ⟨dropped, lands⟩ := steps_land now drained
    { journal with flight := groupBySession (begun.queue.drain limit).1 }
  have ends : Step _ ((recorder.cycle full now).2, { journal with flight := [], dropped }) :=
    Step.note (Tickets.complete _) _ _
  refine ⟨dropped, begins.trans (drains.trans (lands.tail ?_))⟩
  obtain ⟨hand, flight, resuming, accepted, before⟩ := journal
  obtain rfl : flight = [] := settled.landed
  exact ends

theorem Chores.works {now : Timestamp} {before after : Recorder σ}
    (chores : Chores now before after) : Works before after := by
  induction chores with
  | refl => exact Works.refl before
  | tail _ chore ih =>
      cases chore with
      | note tickets running cycles => exact ih.trans (works_note _ tickets running cycles)
      | cycle full => exact ih.trans (works_cycle full now _)

theorem works_retryFailed (session : String) (now : Timestamp) (recorder : Recorder σ) :
    Works recorder (recorder.retryFailed session now).2 := by
  intro ordered journal settled
  rcases recorder.retryFailed_cases session now with
    ⟨_, same⟩ | ⟨halted, found, ⟨failure, next, failed, keeps⟩ | ⟨events, next, committed, ends⟩⟩
  · rw [same]
    exact ⟨journal.dropped, Relation.ReflTransGen.refl⟩
  · rw [keeps]
    exact ⟨journal.dropped, Relation.ReflTransGen.single (Step.refail now found failed)⟩
  · have begins := Relation.ReflTransGen.single (Step.recommit settled found committed)
    have going : (next.recordCommit session events
        halted.batch.events.length).halted.find? session = none := by
      rw [recordCommit_halted, (commitSealed_rest committed).2]
      simp [released, ordered.find?_erase]
    obtain ⟨dropped, lands⟩ := steps_landParked now _ session events.length halted.parked going
      { journal with
        flight := if halted.parked.isEmpty then [] else [(session, halted.parked)]
        resuming := some session } rfl rfl
    obtain ⟨hand, flight, resuming, accepted, before⟩ := journal
    obtain ⟨rfl, rfl⟩ : flight = [] ∧ resuming = none := ⟨settled.landed, settled.rested⟩
    rw [ends]
    exact ⟨dropped, begins.trans lands⟩

theorem steps_push_ok {raw : RawEvent} {now : Timestamp} {recorder next : Recorder σ}
    {journal : Journal} (ordered : recorder.halted.Ordered) (held : journal.hand = [raw])
    (settled : journal.Settled)
    (pushed : recorder.push raw now = (.ok (), next)) :
    ∃ dropped, Steps (recorder, journal)
      (next, { journal with hand := [], accepted := journal.accepted ++ [raw], dropped }) := by
  obtain ⟨given, gives, eq⟩ := push_eq raw now recorder
  obtain ⟨before, waits⟩ := gives.works ordered journal settled
  rw [eq] at pushed
  cases full : given.queue.isFull with
  | true => simp [EventQueue.push, full] at pushed
  | false =>
      obtain ⟨-, rfl⟩ := Prod.mk.inj pushed
      obtain ⟨dropped, wakes⟩ := (chores_wake now
        { given with queue := (given.queue.push raw).2 }).works (waits.ordered ordered)
        { journal with hand := [], accepted := journal.accepted ++ [raw], dropped := before }
        ⟨settled.landed, settled.rested⟩
      have enters : Step (given, { journal with dropped := before }) _ :=
        Step.enter raw held full
      exact ⟨dropped, waits.trans (Relation.ReflTransGen.head enters wakes)⟩

theorem works_push_error {raw same : RawEvent} {now : Timestamp} {recorder next : Recorder σ}
    (pushed : recorder.push raw now = (.error same, next)) : same = raw ∧ Works recorder next := by
  obtain ⟨given, gives, eq⟩ := push_eq raw now recorder
  rw [eq] at pushed
  cases full : given.queue.isFull with
  | true =>
      obtain ⟨back, rfl⟩ := Prod.mk.inj pushed
      have refuses : Works given { given with queue := (given.queue.push raw).2 } :=
        Works.single fun _ => Step.refuse raw full
      refine ⟨?_, gives.works.trans (refuses.trans (chores_wake now _).works)⟩
      simpa [EventQueue.push, full, eq_comm] using back
  | false => simp [EventQueue.push, full] at pushed

end Recorder

end AuditTrail
