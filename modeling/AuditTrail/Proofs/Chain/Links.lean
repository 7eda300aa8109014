import AuditTrail.Chain.Builder
import AuditTrail.Chain.Verify

/-!
Chains as lists of events that a head admits one after another. The verifier accepts a stored chain
exactly when its session's fresh head admits it, and sealing at a head gives events it admits.
-/

namespace AuditTrail

namespace ChainHead

def past (head : ChainHead) (events : List SealedEvent) : ChainHead :=
  (events.getLast?.map after).getD head

/-- Each event has the number, the link and the hash that the head before it asks for. -/
def Admits (head : ChainHead) : List SealedEvent → Prop
  | [] => True
  | event :: rest =>
    Chain.faultOf head.nextSequence head.hash event = none ∧ (after event).Admits rest

@[simp] theorem past_nil (head : ChainHead) : head.past [] = head := rfl

theorem past_of_getLast? {head : ChainHead} {events : List SealedEvent} {last : SealedEvent}
    (found : events.getLast? = some last) : head.past events = after last := by
  simp [past, found]

@[simp] theorem past_cons (head : ChainHead) (event : SealedEvent) (rest : List SealedEvent) :
    head.past (event :: rest) = (after event).past rest := by
  simp [past, List.getLast?_cons]

theorem past_append (head : ChainHead) (first second : List SealedEvent) :
    head.past (first ++ second) = (head.past first).past second := by
  induction first generalizing head with
  | nil => rfl
  | cons event rest ih => simp [ih]

theorem admits_append (head : ChainHead) (first second : List SealedEvent) :
    head.Admits (first ++ second) ↔ head.Admits first ∧ (head.past first).Admits second := by
  induction first generalizing head with
  | nil => simp [Admits]
  | cons event rest ih => simp [Admits, ih, and_assoc]

end ChainHead

namespace Chain

theorem faultOf_eq_none_iff {expected : UInt64} {previous : String} {event : SealedEvent} :
    faultOf expected previous event = none ↔
      event.sequenceNumber = expected ∧ event.previousEventHash = previous ∧
        event.computeHash = event.eventHash := by
  unfold faultOf
  by_cases number : event.sequenceNumber = expected <;>
    by_cases link : event.previousEventHash = previous <;>
    by_cases hash : event.computeHash = event.eventHash <;> simp [number, link, hash]

end Chain

namespace ChainHead

open Chain

theorem Admits.fits {head : ChainHead} {event : SealedEvent} {rest : List SealedEvent}
    (admits : head.Admits (event :: rest)) : head.fits event = true := by
  obtain ⟨number, link, _⟩ := faultOf_eq_none_iff.mp admits.1
  simp [ChainHead.fits, number, link]

theorem admits_of_fits {head other : ChainHead} {event : SealedEvent} {rest : List SealedEvent}
    (admits : head.Admits (event :: rest)) (fits : other.fits event = true) :
    other.Admits (event :: rest) := by
  obtain ⟨_, _, hash⟩ := faultOf_eq_none_iff.mp admits.1
  simp only [ChainHead.fits, Bool.and_eq_true, beq_iff_eq] at fits
  exact ⟨faultOf_eq_none_iff.mpr ⟨fits.1, fits.2, hash⟩, admits.2⟩

theorem Admits.nextSequence_past {head : ChainHead} {events : List SealedEvent}
    (admits : head.Admits events) :
    (head.past events).nextSequence = head.nextSequence + UInt64.ofNat events.length := by
  induction events generalizing head with
  | nil => simp
  | cons event rest ih =>
      obtain ⟨number, _, _⟩ := faultOf_eq_none_iff.mp admits.1
      rw [past_cons, ih admits.2, List.length_cons, UInt64.ofNat_add]
      simp only [after_eq, number, UInt64.add_assoc]
      congr 1
      exact UInt64.add_comm _ _

theorem Admits.toNat_nextSequence {session : String} {events : List SealedEvent}
    (admits : (fresh session).Admits events) (bound : events.length < UInt64.size) :
    ((fresh session).past events).nextSequence.toNat = events.length := by
  rw [admits.nextSequence_past]
  change ((0 : UInt64) + UInt64.ofNat events.length).toNat = events.length
  rw [UInt64.zero_add]
  exact UInt64.toNat_ofNat_of_lt bound

theorem Admits.toNat_last {session : String} {events : List SealedEvent} {last : SealedEvent}
    (admits : (fresh session).Admits events) (bound : events.length < UInt64.size)
    (found : events.getLast? = some last) :
    last.sequenceNumber.toNat + 1 = events.length := by
  have behind := admits.toNat_nextSequence bound
  rw [past_of_getLast? found] at behind
  simp only [after_eq, UInt64.toNat_add, UInt64.reduceToNat] at behind
  have inhabited : 0 < events.length := by
    cases events with
    | nil => simp at found
    | cons event rest => simp
  have := last.sequenceNumber.toNat_lt
  omega

end ChainHead

namespace Chain

open ChainHead

theorem follow_cons {head : ChainHead} {event : SealedEvent} (rest : List SealedEvent)
    (clear : faultOf head.nextSequence head.hash event = none) :
    follow head.nextSequence head.hash (event :: rest) =
      let later := follow (after event).nextSequence (after event).hash rest
      ⟨later.result, overflowsAfter event || later.overflowed⟩ := by
  obtain ⟨number, _, _⟩ := faultOf_eq_none_iff.mp clear
  simp only [follow, clear]
  rw [← number]
  rfl

theorem follow_eq_none_iff {head : ChainHead} {events : List SealedEvent} :
    (follow head.nextSequence head.hash events).result.2 = none ↔ head.Admits events := by
  induction events generalizing head with
  | nil => exact iff_of_true rfl trivial
  | cons event rest ih =>
      simp only [ChainHead.Admits]
      cases found : faultOf head.nextSequence head.hash event with
      | some fault => simp [follow, found, pure]
      | none => simpa [follow_cons rest found] using @ih (after event)

/-- The verifier's look at the first event repeats what following the chain checks. -/
theorem verifyAnchored_genesis_isValid_iff {session : String} {events : List SealedEvent}
    {start : UInt64} {hash : String} :
    (verifyAnchored session events start (.genesis hash)).isValid = true ↔
      (ChainHead.mk 0 hash).Admits events := by
  cases events with
  | nil => simp [verifyAnchored, Verification.isValid, ChainHead.Admits]
  | cons first rest =>
      simp only [verifyAnchored]
      split
      · rename_i late
        simp only [Verification.isValid, Option.isNone_some, Bool.false_eq_true, false_iff]
        intro admits
        exact late (faultOf_eq_none_iff.mp admits.1).1
      · split
        · rename_i astray
          simp only [Verification.isValid, Option.isNone_some, Bool.false_eq_true, false_iff]
          intro admits
          exact astray (faultOf_eq_none_iff.mp admits.1).2.1
        · simp only [Verification.isValid, verifyFrom, Option.isNone_iff_eq_none]
          exact @follow_eq_none_iff ⟨0, hash⟩ _

theorem verifyRange_zero_isValid_iff {session : String} {read : List SealedEvent} :
    (verifyRange session 0 read).isValid = true ↔ (ChainHead.fresh session).Admits read := by
  simp only [verifyRange, if_true]
  exact verifyAnchored_genesis_isValid_iff

end Chain

namespace SealedEvent

theorem toRaw_sealAt (raw : RawEvent) (sequence : UInt64) (previous : String) (now : Timestamp) :
    (sealAt raw sequence previous now).toRaw = raw := rfl

theorem computeHash_sealAt (raw : RawEvent) (sequence : UInt64) (previous : String)
    (now : Timestamp) :
    (sealAt raw sequence previous now).computeHash =
      (sealAt raw sequence previous now).eventHash := rfl

end SealedEvent

namespace ChainHead

theorem map_toRaw_sealAll (head : ChainHead) (now : Timestamp) (raws : List RawEvent) :
    (head.sealAll now raws).1.map SealedEvent.toRaw = raws := by
  induction raws generalizing head with
  | nil => rfl
  | cons raw rest ih =>
      simp only [sealAll, List.map_cons, SealedEvent.toRaw_sealAt]
      exact congrArg (raw :: ·) (ih _)

theorem admits_sealAll (head : ChainHead) (now : Timestamp) (raws : List RawEvent) :
    head.Admits (head.sealAll now raws).1 := by
  induction raws generalizing head with
  | nil => trivial
  | cons raw rest ih =>
      refine ⟨?_, ih _⟩
      exact Chain.faultOf_eq_none_iff.mpr ⟨rfl, rfl, SealedEvent.computeHash_sealAt _ _ _ _⟩

theorem sealAll_snd (head : ChainHead) (now : Timestamp) (raws : List RawEvent) :
    (head.sealAll now raws).2 = head.past (head.sealAll now raws).1 := by
  induction raws generalizing head with
  | nil => rfl
  | cons raw rest ih =>
      simp only [sealAll, past_cons]
      exact ih _

theorem sessionId_of_mem_sealAll {head : ChainHead} {now : Timestamp} {raws : List RawEvent}
    {session : String} (own : ∀ raw ∈ raws, raw.sessionId = session) {event : SealedEvent}
    (member : event ∈ (head.sealAll now raws).1) : event.sessionId = session := by
  induction raws generalizing head with
  | nil => simp [sealAll] at member
  | cons raw rest ih =>
      simp only [sealAll, List.mem_cons] at member
      rcases member with first | later
      · subst event
        exact own raw List.mem_cons_self
      · exact ih (fun other found => own other (List.mem_cons_of_mem _ found)) later

end ChainHead

def sampleTime : Timestamp where
  date := ⟨2025, 1, 1, by decide⟩
  second := 0
  nano := 0
  valid := by decide

def sampleRaw (id : String) : RawEvent where
  sessionId := "s"
  traceId := "t"
  spanId := "p"
  parentSpanId := none
  eventId := id
  eventType := "custom"
  actor := {}
  severity := .info
  payload := .object []
  artifacts := []
  timestamp := sampleTime

def sampleSealed (session : String) (sequence : UInt64) : SealedEvent :=
  .sealAt { sampleRaw "e" with sessionId := session } sequence (genesis session) sampleTime

end AuditTrail
