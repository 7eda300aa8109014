import AuditTrail.Proofs.Chain.Links
import AuditTrail.Store.Basic
import Mathlib.Data.List.Induction

/-!
What a verdict says. The verifier stops at the first event it does not accept, yet it accepts a
chain exactly if each event, looked at alone, has its number, its link and its hash. Where it
stops, all before is intact, and it tells the first of the three checks that fails.
-/

namespace AuditTrail

namespace Verification

def firstBreak (verdict : Verification) : Option UInt64 :=
  verdict.fault.map ChainFault.sequence

def errorType (verdict : Verification) : Option BreakKind :=
  verdict.fault.map ChainFault.kind

theorem isValid_eq_false_of_firstBreak {verdict : Verification} {number : UInt64}
    (found : verdict.firstBreak = some number) : verdict.isValid = false := by
  obtain ⟨fault, broken, _⟩ := Option.map_eq_some_iff.mp found
  simp [isValid, broken]

end Verification

theorem ChainFault.toNat_sequence_wrongSequence (expected found : UInt64) :
    (wrongSequence expected found).sequence.toNat = min expected.toNat found.toNat := by
  simp only [ChainFault.sequence, UInt64.lt_iff_toNat_lt]
  split <;> omega

namespace ChainHead

theorem toNat_after {event : SealedEvent} (bound : event.sequenceNumber < maxSequence) :
    (after event).nextSequence.toNat = event.sequenceNumber.toNat + 1 := by
  have small : event.sequenceNumber.toNat < 18446744073709551615 := UInt64.lt_iff_toNat_lt.mp bound
  simp only [after_eq, UInt64.toNat_add, UInt64.reduceToNat]
  omega

theorem Admits.toNat_past {head : ChainHead} {events : List SealedEvent}
    (admits : head.Admits events) (bound : ∀ event ∈ events, event.sequenceNumber < maxSequence) :
    (head.past events).nextSequence.toNat = head.nextSequence.toNat + events.length := by
  induction events generalizing head with
  | nil => rfl
  | cons event rest ih =>
      obtain ⟨number, _, _⟩ := Chain.faultOf_eq_none_iff.mp admits.1
      have later := ih admits.2 fun other member => bound other (List.mem_cons_of_mem _ member)
      rw [past_cons, later, toNat_after (bound event List.mem_cons_self), number, List.length_cons]
      omega

end ChainHead

namespace Chain

open ChainHead

section

variable {expected : UInt64} {previous : String} {event : SealedEvent}

theorem faultOf_of_number (wrong : event.sequenceNumber ≠ expected) :
    faultOf expected previous event = some (.wrongSequence expected event.sequenceNumber) := by
  rw [faultOf, if_pos wrong]

theorem faultOf_of_link (number : event.sequenceNumber = expected)
    (wrong : event.previousEventHash ≠ previous) :
    faultOf expected previous event =
      some (.wrongLink event.sequenceNumber event.previousEventHash previous) := by
  rw [faultOf, if_neg (not_not_intro number), if_pos wrong]

theorem faultOf_of_hash (number : event.sequenceNumber = expected)
    (link : event.previousEventHash = previous) (wrong : event.computeHash ≠ event.eventHash) :
    faultOf expected previous event =
      some (.wrongHash event.sequenceNumber event.eventHash event.computeHash) := by
  rw [faultOf, if_neg (not_not_intro number), if_neg (not_not_intro link), if_pos wrong]

theorem faultOf_cases {fault : ChainFault} (found : faultOf expected previous event = some fault) :
    (event.sequenceNumber ≠ expected ∧ fault = .wrongSequence expected event.sequenceNumber) ∨
    (event.sequenceNumber = expected ∧
      ((event.previousEventHash ≠ previous ∧
        fault = .wrongLink event.sequenceNumber event.previousEventHash previous) ∨
      (event.previousEventHash = previous ∧ event.computeHash ≠ event.eventHash ∧
        fault = .wrongHash event.sequenceNumber event.eventHash event.computeHash))) := by
  by_cases number : event.sequenceNumber = expected
  · refine Or.inr ⟨number, ?_⟩
    by_cases link : event.previousEventHash = previous
    · by_cases hash : event.computeHash = event.eventHash
      · rw [faultOf_eq_none_iff.mpr ⟨number, link, hash⟩] at found
        cases found
      · rw [faultOf_of_hash number link hash] at found
        exact Or.inr ⟨link, hash, (Option.some.inj found).symm⟩
    · rw [faultOf_of_link number link] at found
      exact Or.inl ⟨link, (Option.some.inj found).symm⟩
  · rw [faultOf_of_number number] at found
    exact Or.inl ⟨number, (Option.some.inj found).symm⟩

theorem kind_ne_chainBroken {fault : ChainFault} (link : event.previousEventHash = previous)
    (found : faultOf expected previous event = some fault) : fault.kind ≠ .chainBroken := by
  rcases faultOf_cases found with ⟨_, rfl⟩ | ⟨_, ⟨astray, _⟩ | ⟨_, _, rfl⟩⟩
  · simp [ChainFault.kind]
  · exact absurd link astray
  · simp [ChainFault.kind]

theorem sequence_of_faultOf {fault : ChainFault}
    (found : faultOf expected previous event = some fault) :
    fault.sequence =
      if event.sequenceNumber < expected then event.sequenceNumber else expected := by
  rcases faultOf_cases found with ⟨_, rfl⟩ | ⟨rfl, ⟨_, rfl⟩ | ⟨_, _, rfl⟩⟩
  · rfl
  · exact (ite_self _).symm
  · exact (ite_self _).symm

end

/-- A chain is either followed to its end or split at the first event with a fault. -/
theorem follow_cases (head : ChainHead) (events : List SealedEvent) :
    (head.Admits events ∧
      (follow head.nextSequence head.hash events).result = ((head.past events).hash, none)) ∨
    ∃ before event rest fault, events = before ++ event :: rest ∧ head.Admits before ∧
      faultOf (head.past before).nextSequence (head.past before).hash event = some fault ∧
      (follow head.nextSequence head.hash events).result =
        ((head.past before).hash, some fault) := by
  induction events generalizing head with
  | nil => exact Or.inl ⟨trivial, rfl⟩
  | cons event rest ih =>
      cases found : faultOf head.nextSequence head.hash event with
      | some fault =>
          exact Or.inr ⟨[], event, rest, fault, rfl, trivial, found, by simp [follow, found, pure]⟩
      | none =>
          rw [follow_cons rest found]
          rcases ih (after event) with
            ⟨admits, done⟩ | ⟨before, bad, tail, fault, split, admits, stopped⟩
          · exact Or.inl ⟨⟨found, admits⟩, by rw [past_cons]; exact done⟩
          · refine Or.inr ⟨event :: before, bad, tail, fault, by rw [split]; rfl,
              ⟨found, admits⟩, ?_⟩
            rw [past_cons]
            exact stopped

/-- The number and the hash that the first event is held against. -/
def origin (anchor : Option String) : List SealedEvent → ChainHead
  | [] => ⟨0, anchor.getD ""⟩
  | first :: _ =>
    match anchor with
    | some link => ⟨first.sequenceNumber, link⟩
    | none => .fresh first.sessionId

/-- A wrong link is told as a wrong genesis where the genesis is what the first event links to. -/
def toldAs (anchor : Option String) (before : List SealedEvent) (fault : ChainFault) : BreakKind :=
  if anchor = none ∧ before = [] ∧ fault.kind = .chainBroken then .invalidGenesis else fault.kind

/-- The verdict on a chain that is intact up to an event with a fault. -/
structure StopsAt (verdict : Verification) (anchor : Option String) (head : ChainHead)
    (before : List SealedEvent) (event : SealedEvent) (fault : ChainFault) : Prop where
  admits : head.Admits before
  found : faultOf (head.past before).nextSequence (head.past before).hash event = some fault
  last : verdict.lastValidHash = (head.past before).hash
  sequence : verdict.firstBreak = some fault.sequence
  kind : verdict.errorType = some (toldAs anchor before fault)

theorem toldAs_anchored (link : String) (before : List SealedEvent) (fault : ChainFault) :
    toldAs (some link) before fault = fault.kind := by
  simp [toldAs]

theorem verifyFrom_cases (session : String) (count : Nat) (anchor : Option String)
    (head : ChainHead) (events : List SealedEvent)
    (told : ∀ before event rest fault, events = before ++ event :: rest →
      faultOf (head.past before).nextSequence (head.past before).hash event = some fault →
        toldAs anchor before fault = fault.kind) :
    let verdict := verifyFrom session count head.nextSequence head.hash events
    (head.Admits events ∧ verdict.isValid = true) ∨
    ∃ before event rest fault, events = before ++ event :: rest ∧
      StopsAt verdict anchor head before event fault := by
  simp only [verifyFrom]
  rcases follow_cases head events with
    ⟨admits, done⟩ | ⟨before, event, rest, fault, split, admits, found, stopped⟩
  · exact Or.inl ⟨admits, by simp [Verification.isValid, done]⟩
  · rw [stopped]
    have kind := told before event rest fault split found
    exact Or.inr ⟨before, event, rest, fault, split, admits, found, rfl, rfl,
      congrArg some kind.symm⟩

/-- The verifier's own look at the first event and its loop find the same fault. -/
theorem verifyEvents_cases (events : List SealedEvent) (anchor : Option String) :
    ((origin anchor events).Admits events ∧ (verifyEvents events anchor).isValid = true) ∨
    ∃ before event rest fault, events = before ++ event :: rest ∧
      StopsAt (verifyEvents events anchor) anchor (origin anchor events) before event fault := by
  cases events with
  | nil => exact Or.inl ⟨trivial, rfl⟩
  | cons first rest =>
      cases anchor with
      | some link =>
          exact verifyFrom_cases _ _ (some link) ⟨first.sequenceNumber, link⟩ _
            fun before _ _ fault _ _ => toldAs_anchored link before fault
      | none =>
          simp only [verifyEvents, verifyAnchored]
          by_cases number : first.sequenceNumber = 0
          · by_cases link : first.previousEventHash = genesis first.sessionId
            · rw [if_neg (not_not_intro number), if_neg (not_not_intro link)]
              refine verifyFrom_cases _ _ none (fresh first.sessionId) _ ?_
              intro before event tail fault split found
              cases before with
              | nil =>
                  obtain ⟨rfl, _⟩ := List.cons.inj split
                  simp [toldAs, kind_ne_chainBroken link found]
              | cons earlier before => simp [toldAs]
            · rw [if_neg (not_not_intro number), if_pos link]
              exact Or.inr ⟨[], first, rest, _, rfl, trivial, faultOf_of_link number link, rfl,
                by rw [number]; rfl, rfl⟩
          · rw [if_pos number]
            refine Or.inr ⟨[], first, rest, _, rfl, trivial, faultOf_of_number number, rfl, ?_,
              rfl⟩
            have zero : ¬first.sequenceNumber < 0 := by simp
            simp [Verification.firstBreak, ChainFault.sequence, origin, fresh, zero]

theorem exists_append_of_getElem? {events : List SealedEvent} {index : Nat} {event : SealedEvent}
    (found : events[index]? = some event) :
    ∃ before rest, events = before ++ event :: rest ∧ before.length = index := by
  obtain ⟨within, rfl⟩ := List.getElem?_eq_some_iff.mp found
  exact ⟨events.take index, events.drop (index + 1), by simp, by simp; omega⟩

def hashBefore (first : String) (events : List SealedEvent) : Nat → String
  | 0 => first
  | index + 1 => (events[index]?.map SealedEvent.eventHash).getD first

theorem hash_past (head : ChainHead) (before : List SealedEvent) (rest : List SealedEvent) :
    (head.past before).hash = hashBefore head.hash (before ++ rest) before.length := by
  cases before using List.reverseRecOn with
  | nil => rfl
  | append_singleton before last => simp [past_append, after_eq, hashBefore]

/-- What an event must satisfy for itself at its place in a chain. -/
structure IntactAt (head : ChainHead) (events : List SealedEvent) (index : Nat)
    (event : SealedEvent) : Prop where
  number : event.sequenceNumber.toNat = head.nextSequence.toNat + index
  link : event.previousEventHash = hashBefore head.hash events index
  hash : event.computeHash = event.eventHash

section

variable {head : ChainHead} {before : List SealedEvent}

theorem intactAt_iff_faultOf (admits : head.Admits before)
    (bound : ∀ event ∈ before, event.sequenceNumber < maxSequence) (event : SealedEvent)
    (rest : List SealedEvent) :
    IntactAt head (before ++ event :: rest) before.length event ↔
      faultOf (head.past before).nextSequence (head.past before).hash event = none := by
  rw [faultOf_eq_none_iff, ← UInt64.toNat_inj, admits.toNat_past bound,
    hash_past head before (event :: rest)]
  exact ⟨fun intact => ⟨intact.number, intact.link, intact.hash⟩,
    fun ⟨number, link, own⟩ => ⟨number, link, own⟩⟩

theorem intactAt_of_admits (admits : head.Admits before)
    (bound : ∀ event ∈ before, event.sequenceNumber < maxSequence) (rest : List SealedEvent)
    {index : Nat} {event : SealedEvent} (found : before[index]? = some event) :
    IntactAt head (before ++ rest) index event := by
  obtain ⟨earlier, later, rfl, rfl⟩ := exists_append_of_getElem? found
  obtain ⟨admitsEarlier, here⟩ := (admits_append _ _ _).mp admits
  rw [List.append_assoc, List.cons_append, intactAt_iff_faultOf admitsEarlier]
  · exact here.1
  · exact fun other member => bound other (List.mem_append_left _ member)

end

theorem admits_iff_intactAt {head : ChainHead} {events : List SealedEvent}
    (bound : ∀ event ∈ events, event.sequenceNumber < maxSequence) :
    head.Admits events ↔
      ∀ index event, events[index]? = some event → IntactAt head events index event := by
  constructor
  · intro admits index event found
    simpa using intactAt_of_admits admits bound [] found
  · intro intact
    rcases follow_cases head events with
      ⟨admits, _⟩ | ⟨before, event, rest, fault, rfl, admits, found, _⟩
    · exact admits
    · have here := intact before.length event (by simp)
      rw [intactAt_iff_faultOf admits (fun other member => bound other (by simp [member])),
        found] at here
      cases here

/-- What is told of the first event that is not intact. -/
structure BreaksAt (anchor : Option String) (events : List SealedEvent) (index : Nat)
    (event : SealedEvent) : Prop where
  broken : ¬IntactAt (origin anchor events) events index event
  earlier : ∀ i other, i < index → events[i]? = some other →
    IntactAt (origin anchor events) events i other
  validBefore : (verifyEvents (events.take index) anchor).isValid = true
  last : (verifyEvents events anchor).lastValidHash =
    hashBefore (origin anchor events).hash events index
  wrongNumber :
    let expected := (origin anchor events).nextSequence.toNat + index
    event.sequenceNumber.toNat ≠ expected →
      (verifyEvents events anchor).errorType = some .sequenceGap ∧
        (verifyEvents events anchor).firstBreak.map UInt64.toNat =
          some (min expected event.sequenceNumber.toNat)
  wrongLink :
    event.sequenceNumber.toNat = (origin anchor events).nextSequence.toNat + index →
    event.previousEventHash ≠ hashBefore (origin anchor events).hash events index →
      (verifyEvents events anchor).errorType =
        some (if index = 0 ∧ anchor = none then .invalidGenesis else .chainBroken) ∧
      (verifyEvents events anchor).firstBreak = some event.sequenceNumber
  wrongHash :
    event.sequenceNumber.toNat = (origin anchor events).nextSequence.toNat + index →
    event.previousEventHash = hashBefore (origin anchor events).hash events index →
      (verifyEvents events anchor).errorType = some .hashMismatch ∧
        (verifyEvents events anchor).firstBreak = some event.sequenceNumber

theorem origin_append (anchor : Option String) {before : List SealedEvent}
    (nonempty : before ≠ []) (rest : List SealedEvent) :
    origin anchor (before ++ rest) = origin anchor before := by
  obtain ⟨first, before, rfl⟩ := List.exists_cons_of_ne_nil nonempty
  rfl

theorem isValid_iff_origin_admits {anchor : Option String} {events : List SealedEvent} :
    (verifyEvents events anchor).isValid = true ↔ (origin anchor events).Admits events := by
  rcases verifyEvents_cases events anchor with
    ⟨admits, valid⟩ | ⟨before, event, rest, fault, split, stops⟩
  · exact iff_of_true valid admits
  · refine iff_of_false (by simp [Verification.isValid_eq_false_of_firstBreak stops.sequence]) ?_
    intro admits
    rw [split, admits_append, ← split] at admits
    have clear := admits.2.1
    rw [stops.found] at clear
    cases clear

section

variable {anchor : Option String} {before rest : List SealedEvent} {event : SealedEvent}
  {fault : ChainFault}

theorem StopsAt.breaksAt
    (bound : ∀ other ∈ before ++ event :: rest, other.sequenceNumber < maxSequence)
    (stops : StopsAt (verifyEvents (before ++ event :: rest) anchor) anchor
      (origin anchor (before ++ event :: rest)) before event fault) :
    BreaksAt anchor (before ++ event :: rest) before.length event := by
  have boundBefore : ∀ other ∈ before, other.sequenceNumber < maxSequence :=
    fun other member => bound other (List.mem_append_left _ member)
  have number := stops.admits.toNat_past boundBefore
  have link := hash_past (origin anchor (before ++ event :: rest)) before (event :: rest)
  have found := stops.found
  constructor
  case broken =>
    rw [intactAt_iff_faultOf stops.admits boundBefore, found]
    exact Option.some_ne_none fault
  case earlier =>
    intro i other less inChain
    rw [List.getElem?_append_left less] at inChain
    exact intactAt_of_admits stops.admits boundBefore _ inChain
  case validBefore =>
    rw [List.take_left, isValid_iff_origin_admits]
    by_cases empty : before = []
    · rw [empty]
      trivial
    · rw [← origin_append anchor empty (event :: rest)]
      exact stops.admits
  case last => rw [stops.last, link]
  case wrongNumber =>
    intro expected wrong
    rw [faultOf_of_number (fun same => wrong (by rw [same, number]))] at found
    obtain rfl := Option.some.inj found
    refine ⟨by rw [stops.kind]; simp [toldAs, ChainFault.kind], ?_⟩
    rw [stops.sequence, Option.map_some, ChainFault.toNat_sequence_wrongSequence, number]
  case wrongLink =>
    intro right wrong
    rw [← link] at wrong
    rw [faultOf_of_link (UInt64.toNat_inj.mp (right.trans number.symm)) wrong] at found
    obtain rfl := Option.some.inj found
    refine ⟨?_, stops.sequence⟩
    rw [stops.kind]
    simp [toldAs, ChainFault.kind, and_comm]
  case wrongHash =>
    intro right linked
    rw [← link] at linked
    have right := UInt64.toNat_inj.mp (right.trans number.symm)
    have wrong : event.computeHash ≠ event.eventHash := by
      intro own
      rw [faultOf_eq_none_iff.mpr ⟨right, linked, own⟩] at found
      cases found
    rw [faultOf_of_hash right linked wrong] at found
    obtain rfl := Option.some.inj found
    refine ⟨?_, stops.sequence⟩
    rw [stops.kind]
    simp [toldAs, ChainFault.kind]

end

/-- Wherever the verifier stops, its verdict is the one that the chain itself calls for. -/
theorem verifyEvents_verdict (events : List SealedEvent) (anchor : Option String)
    (bound : ∀ event ∈ events, event.sequenceNumber < maxSequence) :
    ((verifyEvents events anchor).isValid = true ↔
      ∀ index event, events[index]? = some event →
        IntactAt (origin anchor events) events index event) ∧
    ((verifyEvents events anchor).isValid = false →
      ∃ index event, events[index]? = some event ∧ BreaksAt anchor events index event) := by
  refine ⟨isValid_iff_origin_admits.trans (admits_iff_intactAt bound), ?_⟩
  intro invalid
  rcases verifyEvents_cases events anchor with
    ⟨_, valid⟩ | ⟨before, event, rest, fault, rfl, stops⟩
  · rw [valid] at invalid
    cases invalid
  · exact ⟨before.length, event, by simp, stops.breaksAt bound⟩

def beheaded : List SealedEvent :=
  ((fresh "s").sealAll sampleTime [sampleRaw "a", sampleRaw "b"]).1.tail

theorem breaksAt_of_beheaded :
    (∀ event ∈ beheaded, event.sequenceNumber < maxSequence) ∧
      (verifyEvents beheaded none).isValid = false ∧
      ∃ index event, beheaded[index]? = some event ∧ BreaksAt none beheaded index event := by
  have bound : ∀ event ∈ beheaded, event.sequenceNumber < maxSequence :=
    List.forall_mem_singleton.mpr (by decide)
  have invalid : (verifyEvents beheaded none).isValid = false := rfl
  exact ⟨bound, invalid, (verifyEvents_verdict beheaded none bound).2 invalid⟩

end Chain

end AuditTrail
