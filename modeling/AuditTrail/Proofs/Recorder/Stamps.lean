import AuditTrail.Proofs.Recorder.Chores
import AuditTrail.Proofs.Recorder.Commits

/-!
When events were sealed. While the clock stands still, every event that is stored or kept in a
failed batch is what sealing its raw event at that moment gives, so a chain is fixed by its raw
events alone, whatever way they took into the store.
-/

namespace AuditTrail

def SealedEvent.SealedAt (now : Timestamp) (event : SealedEvent) : Prop :=
  event = sealAt event.toRaw event.sequenceNumber event.previousEventHash now

namespace ChainHead

theorem sealedAt_of_mem_sealAll {head : ChainHead} {now : Timestamp} {raws : List RawEvent}
    {event : SealedEvent} (member : event ∈ (head.sealAll now raws).1) : event.SealedAt now := by
  induction raws generalizing head with
  | nil => simp [sealAll] at member
  | cons raw rest ih =>
      simp only [sealAll, List.mem_cons] at member
      rcases member with rfl | later
      · rfl
      · exact ih later

/-- A chain whose events were all sealed at one moment is its raw events sealed in turn. -/
theorem Admits.eq_sealAll {head : ChainHead} {now : Timestamp} {events : List SealedEvent}
    (admits : head.Admits events) (stamped : ∀ event ∈ events, event.SealedAt now) :
    events = (head.sealAll now (events.map SealedEvent.toRaw)).1 := by
  induction events generalizing head with
  | nil => rfl
  | cons event rest ih =>
      obtain ⟨number, link, _⟩ := Chain.faultOf_eq_none_iff.mp admits.1
      have first : SealedEvent.sealAt event.toRaw head.nextSequence head.hash now = event := by
        rw [← number, ← link]
        exact (stamped event List.mem_cons_self).symm
      have later := ih admits.2 fun other member => stamped other (List.mem_cons_of_mem _ member)
      simp only [List.map_cons, sealAll, first]
      exact congrArg (event :: ·) later

end ChainHead

namespace ChainBuilder

variable {σ : Type} [Store σ] [AtomicStore σ] {builder next : ChainBuilder σ} {session : String}
  {raws : List RawEvent} {persist : Persist σ} {now : Timestamp}
  {result : Except BatchFailure (List SealedEvent)}

theorem appendBatch_sealedAt
    (atomic : ∀ events store, AllOrNothing events store (persist events store))
    (appended : builder.appendBatch session raws persist now = (result, next)) :
    ∀ event ∈ sealedOf result, event.SealedAt now := by
  rcases builder.appendBatch_cases session raws persist now with
    ⟨_, _, stray⟩ | ⟨_, _, _, unloaded⟩ | ⟨_, head, loaded, _, ⟨_, empty⟩ | offered⟩
  · rw [stray] at appended
    cases appended
    simp [sealedOf]
  · rw [unloaded] at appended
    cases appended
    simp [sealedOf]
  · rw [empty] at appended
    cases appended
    simp [sealedOf]
  · rw [offered] at appended
    rw [sealedOf_commit (atomic _) appended]
    exact fun event member => ChainHead.sealedAt_of_mem_sealAll member

end ChainBuilder

namespace Recorder

open AtomicStore

variable {σ : Type} [Store σ] [AtomicStore σ]

/-- Everything that is sealed in a recorder and its store was sealed at one moment. -/
structure Stamped (now : Timestamp) (recorder : Recorder σ) : Prop where
  stored : ∀ session, ∀ event ∈ stored session recorder.store, event.SealedAt now
  failed : ∀ entry ∈ recorder.halted, ∀ event ∈ entry.2.batch.events, event.SealedAt now

theorem stamped_create {store : σ} {queue : EventQueue} {settings : WorkerSettings}
    (now : Timestamp) (empty : ∀ session, AtomicStore.stored session store = []) :
    (Recorder.create store queue settings).Stamped now where
  stored session := by
    change ∀ event ∈ AtomicStore.stored session store, _
    simp [empty]
  failed := by simp [Recorder.create]

section

variable {recorder next : Recorder σ} {session : String} {raws : List RawEvent}
  {events : List SealedEvent} {failure : BatchFailure} {now : Timestamp}
  {result : Except BatchFailure (List SealedEvent)}

theorem Stamped.congr (stamped : recorder.Stamped now)
    (unchanged : Unchanged recorder.store next.store) (halted : next.halted = recorder.halted) :
    next.Stamped now where
  stored session := by
    rw [unchanged session]
    exact stamped.stored session
  failed := halted ▸ stamped.failed

theorem Stamped.grow (stamped : recorder.Stamped now)
    (grown : Grown events recorder.store next.store) (halted : next.halted = recorder.halted)
    (fresh : ∀ event ∈ events, event.SealedAt now) : next.Stamped now where
  stored session event member := by
    rw [grown session] at member
    rcases List.mem_append.mp member with old | new
    · exact stamped.stored session event old
    · exact fresh event (List.mem_of_mem_filter new)
  failed := halted ▸ stamped.failed

theorem Stamped.halt (stamped : recorder.Stamped now) {halted : HaltedSession}
    (fresh : ∀ event ∈ halted.batch.events, event.SealedAt now) :
    { recorder with halted := recorder.halted.insert session halted }.Stamped now where
  stored := stamped.stored
  failed := by
    intro entry member
    rcases Table.mem_insert member with rfl | old
    · exact fresh
    · exact stamped.failed entry old

theorem Stamped.commitRaws (stamped : recorder.Stamped now)
    (committed : recorder.commitRaws session raws now = (result, next)) :
    next.Stamped now ∧ ∀ event ∈ sealedOf result, event.SealedAt now := by
  have fresh := ChainBuilder.appendBatch_sealedAt recorder.plan_atomic (commitRaws_rest committed).1
  have halted := (commitRaws_frame committed).1
  refine ⟨?_, fresh⟩
  cases result with
  | ok events => exact stamped.grow (commitRaws_grown committed) halted fresh
  | error failure => exact stamped.congr (commitRaws_unchanged committed) halted

theorem Stamped.commitSealed (stamped : recorder.Stamped now)
    (fresh : ∀ event ∈ events, event.SealedAt now)
    (committed : recorder.commitSealed session events = (result, next)) : next.Stamped now := by
  have halted : next.halted = recorder.halted := by rw [(commitSealed_rest committed).2]
  cases result with
  | ok taken => exact stamped.grow (commitSealed_grown committed).2 halted fresh
  | error failure => exact stamped.congr (commitSealed_unchanged committed).2 halted

theorem Stamped.recordCommit (stamped : recorder.Stamped now) (dequeued : Nat) :
    (recorder.recordCommit session events dequeued).Stamped now :=
  stamped.congr (fun _ => by rw [store, store, recordCommit_chain]) (recordCommit_halted ..)

theorem Stamped.recordFailure (stamped : recorder.Stamped now) (parked : List RawEvent)
    (fresh : ∀ event ∈ failure.events, event.SealedAt now) :
    (recorder.recordFailure session failure parked now).Stamped now := by
  have kept : { recorder with
      halted := (recorder.recordFailure session failure parked now).halted }.Stamped now :=
    stamped.halt fresh
  exact { kept with }

theorem Stamped.commitGroup (stamped : recorder.Stamped now) (group : String × List RawEvent) :
    (recorder.commitGroup now group).Stamped now := by
  obtain ⟨session, raws⟩ := group
  rcases recorder.commitGroup_cases now session raws with
    ⟨halted, found, parks⟩ | ⟨_, ⟨events, next, committed, stores⟩ | ⟨failure, next, failed, keeps⟩⟩
  · rw [parks]
    exact stamped.halt (stamped.failed (session, halted) (Table.mem_of_find? found))
  · rw [stores]
    exact (stamped.commitRaws committed).1.recordCommit _
  · rw [keeps]
    obtain ⟨still, fresh⟩ := stamped.commitRaws failed
    exact still.recordFailure _ fresh

theorem Stamped.foldl_commitGroup (stamped : recorder.Stamped now)
    (groups : List (String × List RawEvent)) :
    (groups.foldl (Recorder.commitGroup now) recorder).Stamped now := by
  induction groups generalizing recorder with
  | nil => exact stamped
  | cons group rest ih => exact ih (stamped.commitGroup group)

theorem Stamped.cycle (stamped : recorder.Stamped now) (full : Bool) :
    (recorder.cycle full now).2.Stamped now := by
  have drained (queue : EventQueue) (tickets : Tickets) :
      Stamped now { recorder with queue, tickets } := { stamped with }
  exact { (drained _ _).foldl_commitGroup _ with }

theorem Chores.stamped {before after : Recorder σ} (chores : Chores now before after)
    (stamped : before.Stamped now) : after.Stamped now := by
  induction chores with
  | refl => exact stamped
  | tail _ chore ih =>
      cases chore with
      | note tickets running cycles => exact { ih with }
      | cycle full => exact ih.cycle full

theorem Stamped.landParked (stamped : recorder.Stamped now) (count : Nat) (parked : List RawEvent) :
    (recorder.landParked session count parked now).2.Stamped now := by
  rcases recorder.landParked_cases session count parked now with
    ⟨_, resumes⟩ | ⟨_, ⟨failure, next, failed, keeps⟩ | ⟨later, next, committed, stores⟩⟩
  · rw [resumes]
    exact { stamped with }
  · rw [keeps]
    obtain ⟨still, fresh⟩ := stamped.commitRaws failed
    exact still.recordFailure _ fresh
  · rw [stores]
    exact { (stamped.commitRaws committed).1.recordCommit _ with }

theorem Stamped.retryFailed (stamped : recorder.Stamped now) (session : String) :
    (recorder.retryFailed session now).2.Stamped now := by
  have released : (recorder.released session).Stamped now :=
    ⟨stamped.stored, fun entry member =>
      stamped.failed entry ((Table.erase_sublist _ _).subset member)⟩
  rcases recorder.retryFailed_cases session now with
    ⟨_, same⟩ | ⟨halted, found, ⟨failure, next, failed, keeps⟩ | ⟨events, next, committed, ends⟩⟩
  · rw [same]
    exact stamped
  · have fresh := stamped.failed (session, halted) (Table.mem_of_find? found)
    rw [keeps]
    refine (released.commitSealed fresh failed).recordFailure _ ?_
    rw [(commitSealed_unchanged failed).1]
    exact fresh
  · have fresh := stamped.failed (session, halted) (Table.mem_of_find? found)
    rw [ends]
    exact ((released.commitSealed fresh committed).recordCommit _).landParked _ _

end

end Recorder

end AuditTrail
