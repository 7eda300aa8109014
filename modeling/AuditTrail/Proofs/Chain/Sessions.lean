import AuditTrail.Proofs.Chain.Links
import AuditTrail.Proofs.Chain.Verdict

/-!
Which sessions a valid verdict is about. The verifier holds numbers, links and hashes against each
other and never the sessions of two events, so events of several sessions that were sealed behind
each other are valid. What it leaves open is just what the check for extensions asks for beyond it:
a valid list is of one session exactly if, wherever it is cut, its end extends its beginning.
-/

namespace AuditTrail.Chain

open ChainHead

def OfSession (session : String) (events : List SealedEvent) : Prop :=
  ∀ event ∈ events, event.sessionId = session

/-- Wherever the list is cut in two, its end extends its beginning. -/
def ExtendsThroughout (events : List SealedEvent) : Prop :=
  ∀ base extension, base ≠ [] → extension ≠ [] → base ++ extension = events →
    isExtension base extension = true

theorem isExtension_eq (base extension : List SealedEvent) :
    isExtension base extension =
      match base.getLast?, extension.head? with
      | some last, some first =>
        first.sessionId == last.sessionId && first.previousEventHash == last.eventHash &&
          first.sequenceNumber == last.sequenceNumber + 1
      | _, _ => false := by
  unfold isExtension checkExtension
  cases base.getLast? with
  | none => rfl
  | some last =>
      cases extension.head? with
      | none => rfl
      | some first =>
          dsimp only
          cases first.sessionId == last.sessionId && first.previousEventHash == last.eventHash with
          | true => rfl
          | false => rfl

section

variable {head : ChainHead} {event next : SealedEvent} {rest : List SealedEvent}

/-- Between two events of a valid chain the check for extensions is a check of their sessions. -/
theorem isExtension_iff_of_admits (admits : head.Admits (event :: next :: rest)) :
    isExtension [event] (next :: rest) = true ↔ next.sessionId = event.sessionId := by
  obtain ⟨number, link, _⟩ := faultOf_eq_none_iff.mp admits.2.1
  simp [isExtension_eq, number, link, after_eq]

theorem isExtension_cons (event : SealedEvent) {base : List SealedEvent} (nonempty : base ≠ [])
    (extension : List SealedEvent) :
    isExtension (event :: base) extension = isExtension base extension := by
  obtain ⟨first, base, rfl⟩ := List.exists_cons_of_ne_nil nonempty
  rw [isExtension_eq, isExtension_eq, List.getLast?_cons_cons]

theorem extendsThroughout_cons :
    ExtendsThroughout (event :: next :: rest) ↔
      isExtension [event] (next :: rest) = true ∧ ExtendsThroughout (next :: rest) := by
  constructor
  · intro extends_
    refine ⟨extends_ [event] _ (List.cons_ne_nil _ _) (List.cons_ne_nil _ _) rfl, ?_⟩
    intro base extension first second cut
    rw [← isExtension_cons event first]
    exact extends_ _ _ (List.cons_ne_nil _ _) second (congrArg (event :: ·) cut)
  · rintro ⟨first, later⟩ base extension nonempty second cut
    obtain ⟨one, base, rfl⟩ := List.exists_cons_of_ne_nil nonempty
    rw [List.cons_append, List.cons_eq_cons] at cut
    obtain ⟨rfl, cut⟩ := cut
    by_cases empty : base = []
    · subst empty
      rw [List.nil_append] at cut
      rwa [cut]
    · rw [isExtension_cons one empty]
      exact later base extension empty second cut

end

theorem extendsThroughout_iff {head : ChainHead} {events : List SealedEvent}
    (admits : head.Admits events) :
    ExtendsThroughout events ↔ ∀ first ∈ events.head?, OfSession first.sessionId events := by
  induction events generalizing head with
  | nil =>
      refine iff_of_true (fun base extension first second cut => ?_) (by simp)
      exact absurd (List.append_eq_nil_iff.mp cut).1 first
  | cons event rest ih =>
      cases rest with
      | nil =>
          refine iff_of_true (fun base extension first second cut => ?_) (by simp [OfSession])
          rcases List.append_eq_singleton_iff.mp cut with ⟨empty, _⟩ | ⟨_, empty⟩
          · exact absurd empty first
          · exact absurd empty second
      | cons next rest =>
          rw [extendsThroughout_cons, isExtension_iff_of_admits admits, ih admits.2]
          simp only [OfSession, List.head?_cons, Option.mem_some_iff, forall_eq',
            List.forall_mem_cons, true_and]
          constructor
          · rintro ⟨same, all⟩
            exact ⟨same, fun other member => (all other member).trans same⟩
          · rintro ⟨same, all⟩
            exact ⟨same, fun other member => (all other member).trans same.symm⟩

theorem ofSession_iff {head : ChainHead} {events : List SealedEvent} (session : String)
    (admits : head.Admits events) :
    OfSession session events ↔
      (∀ first ∈ events.head?, first.sessionId = session) ∧ ExtendsThroughout events := by
  rw [extendsThroughout_iff admits]
  cases events with
  | nil => simp [OfSession]
  | cons first rest =>
      simp only [List.head?_cons, Option.mem_some_iff, forall_eq']
      constructor
      · intro own
        have same := own first List.mem_cons_self
        exact ⟨same, same ▸ own⟩
      · rintro ⟨rfl, own⟩
        exact own

/-! ### The events that a verdict is about -/

/-- What the first examined event is held against. -/
def startOf (start : UInt64) : Anchor → List SealedEvent → ChainHead
  | .genesis link, _ => ⟨0, link⟩
  | .stored number link, _ => ⟨number, link⟩
  | .firstEvent, [] => ⟨start, ""⟩
  | .firstEvent, first :: _ =>
    ⟨if start < first.sequenceNumber then first.sequenceNumber else start, first.previousEventHash⟩

section

variable {session : String} {events rest : List SealedEvent} {first : SealedEvent} {start : UInt64}

theorem verifyFrom_isValid_iff {count : Nat} {expected : UInt64} {previous : String} :
    (verifyFrom session count expected previous events).isValid = true ↔
      (ChainHead.mk expected previous).Admits events := by
  simp only [Verification.isValid, verifyFrom, Option.isNone_iff_eq_none]
  exact @follow_eq_none_iff ⟨expected, previous⟩ _

theorem verifyAnchored_stored_isValid_iff {next : UInt64} {hash : String} :
    (verifyAnchored session events start (.stored next hash)).isValid = true ↔
      (ChainHead.mk next hash).Admits events := by
  cases events with
  | nil => exact iff_of_true rfl trivial
  | cons first rest => exact verifyFrom_isValid_iff

theorem verifyAnchored_firstEvent_isValid_iff :
    (verifyAnchored session (first :: rest) start .firstEvent).isValid = true ↔
      (ChainHead.mk (if start < first.sequenceNumber then first.sequenceNumber else start)
        first.previousEventHash).Admits (first :: rest) :=
  verifyFrom_isValid_iff

theorem verifyAnchored_isValid_iff {anchor : Anchor} :
    (verifyAnchored session events start anchor).isValid = true ↔
      (startOf start anchor events).Admits events := by
  cases anchor with
  | genesis link => exact verifyAnchored_genesis_isValid_iff
  | stored number link => exact verifyAnchored_stored_isValid_iff
  | firstEvent =>
      cases events with
      | nil => exact iff_of_true rfl trivial
      | cons first rest => exact verifyAnchored_firstEvent_isValid_iff

end

theorem verifyAnchored_names (session : String) (events : List SealedEvent) (start : UInt64)
    (anchor : Anchor) :
    (verifyAnchored session events start anchor).sessionId = session ∧
      (verifyAnchored session events start anchor).eventCount = events.length := by
  unfold verifyAnchored
  repeat' split
  all_goals exact ⟨rfl, rfl⟩

/-- What is left of the events that were read when the first one serves as the anchor. -/
def examined (start : UInt64) : List SealedEvent → List SealedEvent
  | [] => []
  | before :: rest =>
    if start ≠ 0 ∧ before.sequenceNumber = start - 1 then rest else before :: rest

theorem mem_of_mem_examined {start : UInt64} {read : List SealedEvent} {event : SealedEvent}
    (member : event ∈ examined start read) : event ∈ read := by
  unfold examined at member
  split at member
  · exact member
  · split at member
    · exact List.mem_cons_of_mem _ member
    · exact member

theorem examined_zero (read : List SealedEvent) : examined 0 read = read := by
  cases read <;> simp [examined]

theorem ne_maxSequence_of_before {number start : UInt64} (later : start ≠ 0)
    (before : number = start - 1) : number ≠ maxSequence := by
  rintro rfl
  apply later
  have same : start = maxSequence + 1 := by
    rw [before]
    simp
  rw [same]
  rfl

theorem verifyRange_anchored {start : UInt64} {before : SealedEvent} (session : String)
    (rest : List SealedEvent) (later : start ≠ 0) (number : before.sequenceNumber = start - 1) :
    verifyRange session start (before :: rest) =
      verifyAnchored session rest start (.stored (before.sequenceNumber + 1) before.eventHash) := by
  have small := ne_maxSequence_of_before later number
  have fits : (successor before.sequenceNumber).overflowed = false := by simp [successor, small]
  simp only [verifyRange, if_neg later, if_pos number, fits, Bool.false_or, successor_result]

def anchorOf (session : String) (start : UInt64) (read : List SealedEvent) : Anchor :=
  if start = 0 then .genesis (genesis session)
  else
    match read with
    | before :: _ =>
      if before.sequenceNumber = start - 1 then
        .stored (before.sequenceNumber + 1) before.eventHash
      else .firstEvent
    | [] => .firstEvent

theorem verifyRange_eq (session : String) (start : UInt64) (read : List SealedEvent) :
    verifyRange session start read =
      verifyAnchored session (examined start read) start (anchorOf session start read) := by
  by_cases zero : start = 0
  · subst zero
    simp only [examined_zero, verifyRange, anchorOf, if_true]
  · cases read with
    | nil => simp [verifyRange, examined, anchorOf, zero]
    | cons before rest =>
        by_cases anchored : before.sequenceNumber = start - 1
        · rw [verifyRange_anchored session rest zero anchored]
          simp [examined, anchorOf, zero, anchored]
        · simp [verifyRange, examined, anchorOf, zero, anchored]

def rangeStart (session : String) (start : UInt64) (read : List SealedEvent) : ChainHead :=
  startOf start (anchorOf session start read) (examined start read)

theorem verifyRange_isValid_iff {session : String} {start : UInt64} {read : List SealedEvent} :
    (verifyRange session start read).isValid = true ↔
      (rangeStart session start read).Admits (examined start read) := by
  rw [verifyRange_eq, verifyAnchored_isValid_iff, rangeStart]

theorem verifyRange_later {start : UInt64} (later : start ≠ 0) (read : List SealedEvent) :
    ∃ anchor, ∀ session, verifyRange session start read =
      verifyAnchored session (examined start read) start anchor := by
  refine ⟨anchorOf "" start read, fun session => ?_⟩
  rw [verifyRange_eq]
  simp only [anchorOf, if_neg later]

theorem verifyRange_names (session : String) (start : UInt64) (read : List SealedEvent) :
    (verifyRange session start read).sessionId = session ∧
      (verifyRange session start read).eventCount = (examined start read).length := by
  rw [verifyRange_eq]
  exact verifyAnchored_names _ _ _ _

theorem verifyRange_anchored_isValid_iff {session : String} {start : UInt64}
    {before : SealedEvent} {rest : List SealedEvent} (later : start ≠ 0)
    (number : before.sequenceNumber = start - 1) :
    (verifyRange session start (before :: rest)).isValid = true ↔ (after before).Admits rest := by
  rw [verifyRange_anchored session rest later number]
  exact verifyAnchored_stored_isValid_iff

theorem admits_of_verifyRange {session : String} {start : UInt64} {read : List SealedEvent}
    (valid : (verifyRange session start read).isValid = true) :
    ∃ head : ChainHead, head.Admits (examined start read) :=
  ⟨_, verifyRange_isValid_iff.mp valid⟩

theorem verifyAnchored_isValid_eq (session other : String) (events : List SealedEvent)
    (start : UInt64) (anchor : Anchor) :
    (verifyAnchored session events start anchor).isValid =
      (verifyAnchored other events start anchor).isValid := by
  unfold verifyAnchored
  repeat' split
  all_goals rfl

theorem admits_fresh_iff {session other : String} {events : List SealedEvent}
    (admits : (fresh session).Admits events) :
    (fresh other).Admits events ↔ events = [] ∨ genesis other = genesis session := by
  cases events with
  | nil => simp [Admits]
  | cons first rest =>
      obtain ⟨_, link, _⟩ := faultOf_eq_none_iff.mp admits.1
      constructor
      · intro both
        obtain ⟨_, linkOther, _⟩ := faultOf_eq_none_iff.mp both.1
        exact Or.inr (linkOther.symm.trans link)
      · rintro (empty | same)
        · cases empty
        · rwa [show fresh other = fresh session from congrArg (ChainHead.mk 0) same]

theorem sessionId_verifyEvents (first : SealedEvent) (rest : List SealedEvent)
    (anchor : Option String) :
    (verifyEvents (first :: rest) anchor).sessionId = first.sessionId := by
  cases anchor <;> exact (verifyAnchored_names _ _ _ _).1

theorem ofSession_verifyEvents_iff {events : List SealedEvent} {anchor : Option String}
    (valid : (verifyEvents events anchor).isValid = true) :
    OfSession (verifyEvents events anchor).sessionId events ↔ ExtendsThroughout events := by
  rw [ofSession_iff _ (isValid_iff_origin_admits.mp valid)]
  refine and_iff_right fun first found => ?_
  cases events with
  | nil => cases found
  | cons one rest =>
      rw [sessionId_verifyEvents]
      exact congrArg SealedEvent.sessionId (Option.some.inj found).symm

end AuditTrail.Chain
