import AuditTrail.Proofs.Chain.Sessions

/-!
Additions that overflow. Verification adds one to the number of every event that it has accepted, so
it overflows behind an accepted event with the greatest number of 64 bits, whether or not another
event follows. As long as it does not, the numbers of what it finds valid follow on one another.
-/

namespace AuditTrail

theorem overflowed_successor_iff {number : UInt64} :
    (successor number).overflowed = true ↔ number = maxSequence :=
  beq_iff_eq

namespace Chain

open ChainHead

/-- A beginning of the events is accepted and ends with the greatest number there is. -/
def RunsOut (head : ChainHead) (events : List SealedEvent) : Prop :=
  ∃ before last rest, events = before ++ last :: rest ∧ head.Admits (before ++ [last]) ∧
    last.sequenceNumber = maxSequence

theorem not_runsOut_nil (head : ChainHead) : ¬RunsOut head [] := by
  rintro ⟨before, last, rest, split, -⟩
  simp at split

theorem runsOut_cons_iff {head : ChainHead} {event : SealedEvent} {rest : List SealedEvent} :
    RunsOut head (event :: rest) ↔ faultOf head.nextSequence head.hash event = none ∧
      (event.sequenceNumber = maxSequence ∨ RunsOut (after event) rest) := by
  constructor
  · rintro ⟨before, last, tail, split, admits, greatest⟩
    cases before with
    | nil =>
        obtain ⟨rfl, rfl⟩ := List.cons.inj split
        exact ⟨admits.1, Or.inl greatest⟩
    | cons first before =>
        obtain ⟨rfl, rfl⟩ := List.cons.inj split
        exact ⟨admits.1, Or.inr ⟨before, last, tail, rfl, admits.2, greatest⟩⟩
  · rintro ⟨found, greatest | ⟨before, last, tail, rfl, admits, greatest⟩⟩
    · exact ⟨[], event, rest, rfl, ⟨found, trivial⟩, greatest⟩
    · exact ⟨event :: before, last, tail, rfl, ⟨found, admits⟩, greatest⟩

theorem overflowed_follow_iff {head : ChainHead} {events : List SealedEvent} :
    (follow head.nextSequence head.hash events).overflowed = true ↔ RunsOut head events := by
  induction events generalizing head with
  | nil => exact iff_of_false Bool.false_ne_true (not_runsOut_nil head)
  | cons event rest ih =>
      rw [runsOut_cons_iff]
      cases found : faultOf head.nextSequence head.hash event with
      | some fault => simp [follow, found, pure]
      | none =>
          rw [follow_cons rest found, Bool.or_eq_true, overflowsAfter_iff, @ih (after event)]
          simp

theorem overflowed_verifyAnchored_iff {session : String} {events : List SealedEvent}
    {start : UInt64} {anchor : Anchor} :
    (verifyAnchored session events start anchor).overflowed = true ↔
      RunsOut (startOf start anchor events) events := by
  cases events with
  | nil => cases anchor <;> exact iff_of_false Bool.false_ne_true (not_runsOut_nil _)
  | cons first rest =>
      cases anchor with
      | genesis hash =>
          simp only [verifyAnchored]
          by_cases number : first.sequenceNumber = 0
          · by_cases link : first.previousEventHash = hash
            · rw [if_neg (not_not_intro number), if_neg (not_not_intro link)]
              exact @overflowed_follow_iff ⟨0, hash⟩ _
            · rw [if_neg (not_not_intro number), if_pos link, runsOut_cons_iff, startOf,
                faultOf_of_link number link]
              simp
          · rw [if_pos number, runsOut_cons_iff, startOf, faultOf_of_number number]
            simp
      | stored number hash => exact @overflowed_follow_iff ⟨number, hash⟩ _
      | firstEvent => exact @overflowed_follow_iff (startOf start .firstEvent (first :: rest)) _

theorem overflowed_verifyEvents_iff {events : List SealedEvent} {anchor : Option String} :
    (verifyEvents events anchor).overflowed = true ↔ RunsOut (origin anchor events) events := by
  cases events with
  | nil => exact iff_of_false Bool.false_ne_true (not_runsOut_nil _)
  | cons first rest => cases anchor <;> exact overflowed_verifyAnchored_iff

theorem overflowed_verifyRange_iff {session : String} {start : UInt64} {read : List SealedEvent} :
    (verifyRange session start read).overflowed = true ↔
      RunsOut (rangeStart session start read) (examined start read) := by
  rw [verifyRange_eq, overflowed_verifyAnchored_iff, rangeStart]

theorem overflowed_checkExtension_iff {base extension : List SealedEvent} :
    (checkExtension base extension).overflowed = true ↔
      ∃ last first, base.getLast? = some last ∧ extension.head? = some first ∧
        first.sessionId = last.sessionId ∧ first.previousEventHash = last.eventHash ∧
        last.sequenceNumber = maxSequence := by
  unfold checkExtension
  cases base.getLast? with
  | none => simp [pure]
  | some last =>
      cases extension.head? with
      | none => simp [pure]
      | some first =>
          by_cases linked :
              first.sessionId = last.sessionId ∧ first.previousEventHash = last.eventHash
          · simp [linked, bind, pure, overflowed_successor_iff]
          · have apart := not_and.mp linked
            simp only [Bool.and_eq_true, beq_iff_eq, if_neg linked]
            simpa [pure] using fun own link => absurd link (apart own)

/-- The numbers of neighbours differ by one, as natural numbers. -/
def Consecutive (events : List SealedEvent) : Prop :=
  events.IsChain fun event following =>
    following.sequenceNumber.toNat = event.sequenceNumber.toNat + 1

theorem toNat_after_iff (event : SealedEvent) :
    (after event).nextSequence.toNat = event.sequenceNumber.toNat + 1 ↔
      event.sequenceNumber ≠ maxSequence := by
  have below := event.sequenceNumber.toNat_lt
  rw [after_eq, UInt64.toNat_add, UInt64.toNat_one, ne_eq, ← UInt64.toNat_inj]
  simp only [maxSequence, UInt64.reduceToNat]
  omega

theorem consecutive_iff_of_admits {head : ChainHead} {events : List SealedEvent}
    (admits : head.Admits events) :
    Consecutive events ↔ ∀ event ∈ events.dropLast, event.sequenceNumber ≠ maxSequence := by
  induction events generalizing head with
  | nil => simp [Consecutive]
  | cons event rest ih =>
      cases rest with
      | nil => simp [Consecutive]
      | cons following rest =>
          obtain ⟨number, _, _⟩ := faultOf_eq_none_iff.mp admits.2.1
          have later := ih admits.2
          simp only [Consecutive, List.isChain_cons_cons, List.dropLast_cons_cons,
            List.forall_mem_cons] at later ⊢
          rw [later, number, toNat_after_iff]

theorem runsOut_iff_of_admits {head : ChainHead} {events : List SealedEvent}
    (admits : head.Admits events) :
    RunsOut head events ↔ ∃ event ∈ events, event.sequenceNumber = maxSequence := by
  induction events generalizing head with
  | nil => simp [not_runsOut_nil]
  | cons event rest ih =>
      rw [runsOut_cons_iff, ih admits.2]
      simp [admits.1]

theorem consecutive_of_not_runsOut {head : ChainHead} {events : List SealedEvent}
    (admits : head.Admits events) (still : ¬RunsOut head events) : Consecutive events := by
  rw [consecutive_iff_of_admits admits]
  intro event member greatest
  apply still
  rw [runsOut_iff_of_admits admits]
  exact ⟨event, List.dropLast_subset _ member, greatest⟩

theorem overflowed_verifyEvents_of_valid {events : List SealedEvent} {anchor : Option String}
    (valid : (verifyEvents events anchor).isValid = true) :
    (verifyEvents events anchor).overflowed = true ↔
      ∃ event ∈ events, event.sequenceNumber = maxSequence := by
  rw [overflowed_verifyEvents_iff, runsOut_iff_of_admits (isValid_iff_origin_admits.mp valid)]

theorem overflowed_verifyRange_of_valid {session : String} {start : UInt64}
    {read : List SealedEvent} (valid : (verifyRange session start read).isValid = true) :
    (verifyRange session start read).overflowed = true ↔
      ∃ event ∈ examined start read, event.sequenceNumber = maxSequence := by
  rw [overflowed_verifyRange_iff, runsOut_iff_of_admits (verifyRange_isValid_iff.mp valid)]

end Chain

end AuditTrail
