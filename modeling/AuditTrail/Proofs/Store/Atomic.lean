import AuditTrail.Chain.Builder
import AuditTrail.Recorder.Writer
import AuditTrail.Store.Memory
import AuditTrail.Store.Switchboard

/-!
Stores whose appends take a batch whole or leave everything as it is. Any append and any read may
fail; a read that answers tells what is stored. Repeated attempts to write keep this law: however
many fail, a batch is stored once if the last one succeeds and not at all otherwise.
-/

namespace AuditTrail

/-- All or nothing, told through a view of what is stored for each session. -/
class AtomicStore (σ : Type) [Store σ] where
  stored : String → σ → List SealedEvent
  append_ok {batch : List SealedEvent} {store next : σ} :
    Store.append batch store = (.ok (), next) → ∀ session,
      stored session next =
        stored session store ++ batch.filter fun event => event.sessionId = session
  append_error {batch : List SealedEvent} {store next : σ} {error : LedgerError} :
    Store.append batch store = (.error error, next) → ∀ session,
      stored session next = stored session store
  stored_lastEvent (session other : String) (store : σ) :
    stored other (Store.lastEvent session store).2 = stored other store
  lastEvent_ok {session : String} {store : σ} {last : Option SealedEvent} :
    (Store.lastEvent session store).1 = .ok last → last = (stored session store).getLast?
  readRange_ok {session : String} {first last : UInt64} {store : σ} {events : List SealedEvent} :
    Store.readRange session first last store = .ok events →
      events = (stored session store).filter (·.inRange first last)

class ReadableStore (σ : Type) [Store σ] : Prop where
  lastEvent_answers (session : String) (store : σ) :
    ∃ last, (Store.lastEvent session store).1 = .ok last

open AtomicStore

theorem SealedEvent.inRange_iff {event : SealedEvent} {first last : UInt64} :
    event.inRange first last = true ↔
      first ≤ event.sequenceNumber ∧ event.sequenceNumber ≤ last := by
  simp [inRange]

theorem inRange_all (event : SealedEvent) : event.inRange 0 maxSequence = true := by
  have bound := event.sequenceNumber.toNat_lt
  rw [SealedEvent.inRange_iff, UInt64.le_iff_toNat_le, UInt64.le_iff_toNat_le]
  exact ⟨Nat.zero_le _, Nat.le_of_lt_succ bound⟩

def Unchanged {σ : Type} [Store σ] [AtomicStore σ] (before after : σ) : Prop :=
  ∀ session, stored session after = stored session before

def Grown {σ : Type} [Store σ] [AtomicStore σ] (batch : List SealedEvent) (before after : σ) :
    Prop :=
  ∀ session, stored session after =
    stored session before ++ batch.filter fun event => event.sessionId = session

/-- What a write of a batch may leave behind: all of it or nothing of it. -/
def AllOrNothing {σ : Type} [Store σ] [AtomicStore σ] (batch : List SealedEvent) (store : σ) :
    Outcome Unit × σ → Prop
  | (.ok (), next) => Grown batch store next
  | (.error _, next) => Unchanged store next

theorem Grown.own {σ : Type} [Store σ] [AtomicStore σ] {batch : List SealedEvent}
    {before after : σ} {session : String} (grown : Grown batch before after)
    (own : ∀ event ∈ batch, event.sessionId = session) :
    stored session after = stored session before ++ batch := by
  rw [grown session, List.filter_eq_self.mpr]
  simpa using own

theorem Grown.other {σ : Type} [Store σ] [AtomicStore σ] {batch : List SealedEvent}
    {before after : σ} {session other : String} (grown : Grown batch before after)
    (own : ∀ event ∈ batch, event.sessionId = session) (different : other ≠ session) :
    stored other after = stored other before := by
  rw [grown other, List.filter_eq_nil_iff.mpr, List.append_nil]
  intro event member
  simpa [own event member] using Ne.symm different

theorem Unchanged.grown {σ : Type} [Store σ] [AtomicStore σ] {before after : σ}
    (unchanged : Unchanged before after) : Grown [] before after := by
  intro session
  rw [unchanged session, List.filter_nil, List.append_nil]

theorem Grown.trans {σ : Type} [Store σ] [AtomicStore σ] {first second : List SealedEvent}
    {before between after : σ} (grown : Grown first before between)
    (later : Grown second between after) : Grown (first ++ second) before after := by
  intro session
  rw [later session, grown session, List.filter_append, List.append_assoc]

theorem append_allOrNothing {σ : Type} [Store σ] [AtomicStore σ] (batch : List SealedEvent)
    (store : σ) : AllOrNothing batch store (Store.append batch store) := by
  cases appended : Store.append batch store with
  | mk outcome next =>
      cases outcome with
      | ok => exact append_ok appended
      | error error => exact append_error appended

namespace MemoryStore

theorem append_eq (batch : List SealedEvent) (store : MemoryStore) :
    (∃ table, Store.checkContiguous "in-memory" (store.counts batch) batch = .ok table ∧
      Store.append batch store = (.ok (), { store with events := store.events ++ batch })) ∨
    ∃ error, Store.append batch store = (.error error, store) := by
  change (∃ table, _ ∧ append batch store = _) ∨ ∃ error, append batch store = _
  unfold append
  cases checked : Store.checkContiguous "in-memory" (store.counts batch) batch with
  | ok table => exact Or.inl ⟨table, rfl, rfl⟩
  | error error => exact Or.inr ⟨error, rfl⟩

instance : AtomicStore MemoryStore where
  stored name store := store.session name
  append_ok := by
    intro batch store next appended name
    rcases append_eq batch store with ⟨_, _, taken⟩ | ⟨error, refused⟩
    · rw [taken] at appended
      obtain rfl : _ = next := congrArg Prod.snd appended
      simp [session]
    · rw [refused] at appended
      cases congrArg Prod.fst appended
  append_error := by
    intro batch store next error appended name
    rcases append_eq batch store with ⟨_, _, taken⟩ | ⟨error, refused⟩
    · rw [taken] at appended
      cases congrArg Prod.fst appended
    · rw [refused] at appended
      obtain rfl : _ = next := congrArg Prod.snd appended
      rfl
  stored_lastEvent _ _ _ := rfl
  lastEvent_ok answered := (Except.ok.inj answered).symm
  readRange_ok answered := (Except.ok.inj answered).symm

instance : ReadableStore MemoryStore where
  lastEvent_answers name store := ⟨(store.session name).getLast?, rfl⟩

end MemoryStore

namespace Switchboard

variable {σ : Type} [Store σ]

theorem append_cases {batch : List SealedEvent} {board next : Switchboard σ}
    {outcome : Outcome Unit} (appended : Store.append batch board = (outcome, next)) :
    (∃ error, outcome = .error error ∧ next.store = board.store) ∨
      Store.append batch board.store = (outcome, next.store) := by
  change append batch board = _ at appended
  unfold append at appended
  simp only at appended
  split at appended
  · cases appended
    exact Or.inl ⟨_, rfl, rfl⟩
  · split at appended
    · cases appended
      exact Or.inl ⟨_, rfl, rfl⟩
    · cases appended
      exact Or.inr rfl

theorem lastEvent_cases (session : String) (board : Switchboard σ) :
    (∃ error, Store.lastEvent session board = (.error error, board)) ∨
      Store.lastEvent session board =
        ((Store.lastEvent session board.store).1,
          { board with store := (Store.lastEvent session board.store).2 }) := by
  change (∃ error, lastEvent session board = _) ∨ lastEvent session board = _
  unfold lastEvent
  split
  · exact Or.inl ⟨_, rfl⟩
  · exact Or.inr rfl

instance [AtomicStore σ] : AtomicStore (Switchboard σ) where
  stored session board := stored session board.store
  append_ok := by
    intro batch board next appended session
    rcases append_cases appended with ⟨error, failed, _⟩ | behind
    · cases failed
    · exact append_ok behind session
  append_error := by
    intro batch board next error appended session
    rcases append_cases appended with ⟨_, _, same⟩ | behind
    · rw [same]
    · exact append_error behind session
  stored_lastEvent := by
    intro session other board
    rcases lastEvent_cases session board with ⟨error, failed⟩ | behind
    · rw [failed]
    · rw [behind]
      exact stored_lastEvent session other board.store
  lastEvent_ok := by
    intro session board last answered
    rcases lastEvent_cases session board with ⟨error, failed⟩ | behind
    · rw [failed] at answered
      cases answered
    · rw [behind] at answered
      exact lastEvent_ok answered
  readRange_ok := by
    intro session first last board events answered
    change board.read (Store.readRange session first last) = _ at answered
    unfold read at answered
    split at answered
    · cases answered
    · exact readRange_ok answered

end Switchboard

/-- A store that refuses some appends: each takes one answer from a list, as long as there is one,
and is refused where it says so. -/
structure RefusingStore (σ : Type) where
  store : σ
  refusals : List Bool

namespace RefusingStore

variable {σ : Type} [Store σ]

def append (batch : List SealedEvent) (refusing : RefusingStore σ) :
    Outcome Unit × RefusingStore σ :=
  match refusing.refusals with
  | true :: rest =>
    (.error (.storage "refusing" "write refused"), { refusing with refusals := rest })
  | refusals =>
    let (outcome, store) := Store.append batch refusing.store
    (outcome, ⟨store, refusals.tail⟩)

instance : Store (RefusingStore σ) where
  name refusing := Store.name refusing.store
  append := append
  readRange session first last refusing := Store.readRange session first last refusing.store
  lastEvent session refusing :=
    let (outcome, store) := Store.lastEvent session refusing.store
    (outcome, { refusing with store })
  eventCount session refusing := Store.eventCount session refusing.store
  sessionIds refusing := Store.sessionIds refusing.store
  healthCheck refusing := Store.healthCheck refusing.store

theorem append_cases {batch : List SealedEvent} {refusing next : RefusingStore σ}
    {outcome : Outcome Unit} (appended : Store.append batch refusing = (outcome, next)) :
    (∃ error, outcome = .error error ∧ next.store = refusing.store) ∨
      Store.append batch refusing.store = (outcome, next.store) := by
  change append batch refusing = _ at appended
  unfold append at appended
  split at appended
  · cases appended
    exact Or.inl ⟨_, rfl, rfl⟩
  · cases appended
    exact Or.inr rfl

instance [AtomicStore σ] : AtomicStore (RefusingStore σ) where
  stored session refusing := stored session refusing.store
  append_ok := by
    intro batch refusing next appended session
    rcases append_cases appended with ⟨error, failed, _⟩ | behind
    · cases failed
    · exact append_ok behind session
  append_error := by
    intro batch refusing next error appended session
    rcases append_cases appended with ⟨_, _, same⟩ | behind
    · rw [same]
    · exact append_error behind session
  stored_lastEvent session other refusing := stored_lastEvent session other refusing.store
  lastEvent_ok answered := lastEvent_ok answered
  readRange_ok answered := readRange_ok answered

instance [ReadableStore σ] : ReadableStore (RefusingStore σ) where
  lastEvent_answers session refusing :=
    ReadableStore.lastEvent_answers session refusing.store

end RefusingStore

structure Logged (σ : Type) where
  store : σ
  offered : List (List SealedEvent) := []

namespace Logged

variable {σ : Type} [Store σ]

instance : Store (Logged σ) where
  name logged := Store.name logged.store
  append batch logged :=
    let (outcome, store) := Store.append batch logged.store
    (outcome, ⟨store, logged.offered ++ [batch]⟩)
  readRange session first last logged := Store.readRange session first last logged.store
  lastEvent session logged :=
    let (outcome, store) := Store.lastEvent session logged.store
    (outcome, { logged with store })
  eventCount session logged := Store.eventCount session logged.store
  sessionIds logged := Store.sessionIds logged.store
  healthCheck logged := Store.healthCheck logged.store

theorem append_behind {batch : List SealedEvent} {logged next : Logged σ} {outcome : Outcome Unit}
    (appended : Store.append batch logged = (outcome, next)) :
    Store.append batch logged.store = (outcome, next.store) := by
  obtain ⟨rfl, rfl⟩ := Prod.mk.inj appended
  rfl

instance [AtomicStore σ] : AtomicStore (Logged σ) where
  stored session logged := stored session logged.store
  append_ok appended := append_ok (append_behind appended)
  append_error appended := append_error (append_behind appended)
  stored_lastEvent session other logged := stored_lastEvent session other logged.store
  lastEvent_ok answered := lastEvent_ok answered
  readRange_ok answered := readRange_ok answered

instance [ReadableStore σ] : ReadableStore (Logged σ) where
  lastEvent_answers session logged := ReadableStore.lastEvent_answers session logged.store

end Logged

namespace Paced

variable {σ : Type} [Store σ]

theorem append_behind {batch : List SealedEvent} {paced next : Paced σ} {outcome : Outcome Unit}
    (appended : Store.append batch paced = (outcome, next)) :
    Store.append batch paced.store = (outcome, next.store) := by
  obtain ⟨rfl, rfl⟩ := Prod.mk.inj appended
  rfl

instance [AtomicStore σ] : AtomicStore (Paced σ) where
  stored session paced := stored session paced.store
  append_ok appended := append_ok (append_behind appended)
  append_error appended := append_error (append_behind appended)
  stored_lastEvent session other paced := stored_lastEvent session other paced.store
  lastEvent_ok answered := lastEvent_ok answered
  readRange_ok answered := readRange_ok answered

instance [ReadableStore σ] : ReadableStore (Paced σ) where
  lastEvent_answers session paced := ReadableStore.lastEvent_answers session paced.store

end Paced

namespace RetryPlan

section

variable {σ : Type} [Store σ]

theorem attempts_error {plan : RetryPlan} {named : String} {events : List SealedEvent}
    {left attempt delayMs : Nat} {paced next : Paced σ} {error : LedgerError}
    (made : plan.attempts named events left attempt delayMs paced = (.error error, next)) :
    ∃ cause : LedgerError, error = .storageWriteFailure named (attempt + left) cause.message := by
  induction left generalizing attempt delayMs paced with
  | zero =>
      unfold attempts at made
      cases appended : Store.append events paced.store with
      | mk outcome store =>
          cases outcome <;> simp only [appended] at made
          · cases made
            exact ⟨_, rfl⟩
          · cases made
  | succ left ih =>
      unfold attempts at made
      cases appended : Store.append events paced.store with
      | mk outcome store =>
          cases outcome <;> simp only [appended] at made
          · obtain ⟨cause, told⟩ := ih made
            exact ⟨cause, by rw [told, Nat.add_right_comm, Nat.add_assoc]⟩
          · cases made

theorem write_error {plan : RetryPlan} {events : List SealedEvent} {paced next : Paced σ}
    {session : String} {error : LedgerError} (own : ∀ event ∈ events, event.sessionId = session)
    (filled : events ≠ []) (written : plan.write events paced = (.error error, next)) :
    ∃ cause : LedgerError,
      error = .storageWriteFailure session (plan.retries + 1) cause.message := by
  obtain ⟨cause, told⟩ := attempts_error written
  refine ⟨cause, ?_⟩
  cases events with
  | nil => exact absurd rfl filled
  | cons event rest =>
      have named : event.sessionId = session := own event List.mem_cons_self
      rw [told, Nat.add_comm]
      simp [named]

end

variable {σ : Type} [Store σ] [AtomicStore σ]

theorem attempts_allOrNothing (plan : RetryPlan) (named : String) (events : List SealedEvent)
    (left attempt delayMs : Nat) (paced : Paced σ) :
    AllOrNothing events paced (plan.attempts named events left attempt delayMs paced) := by
  induction left generalizing attempt delayMs paced with
  | zero =>
      have once := append_allOrNothing events paced.store
      unfold attempts
      cases appended : Store.append events paced.store with
      | mk outcome store =>
          rw [appended] at once
          cases outcome with
          | ok => exact once
          | error error => exact once
  | succ left ih =>
      have once := append_allOrNothing events paced.store
      unfold attempts
      cases appended : Store.append events paced.store with
      | mk outcome store =>
          rw [appended] at once
          cases outcome with
          | ok => exact once
          | error error =>
              have again := ih (attempt + 1) (plan.nextDelay delayMs)
                ⟨store, paced.waitedMs + delayMs⟩
              have unchanged : Unchanged paced ⟨store, paced.waitedMs + delayMs⟩ := once
              simp only
              cases made : plan.attempts named events left (attempt + 1) (plan.nextDelay delayMs)
                  ⟨store, paced.waitedMs + delayMs⟩ with
              | mk outcome next =>
                  rw [made] at again
                  cases outcome with
                  | ok => exact fun session => by rw [again session, unchanged session]
                  | error error => exact fun session => by rw [again session, unchanged session]

theorem write_allOrNothing (plan : RetryPlan) (events : List SealedEvent) (paced : Paced σ) :
    AllOrNothing events paced (plan.write events paced) :=
  plan.attempts_allOrNothing _ events plan.retries 1 plan.backoffMs paced

end RetryPlan

end AuditTrail
