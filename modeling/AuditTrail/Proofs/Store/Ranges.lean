import AuditTrail.Proofs.Chain.Ranges
import AuditTrail.Proofs.Chain.Tampering
import AuditTrail.Proofs.Store.ReadBack
import AuditTrail.Proofs.Store.Sessions

/-!
Verification in parts. A store that reads ranges of numbers out of one list per session finds a
session valid exactly if it finds both sides of any of its numbers valid, in whatever order and
with whatever numbers the list was written.
-/

namespace AuditTrail

namespace Store

open Chain

/-- What a store tells of a session is a list, out of which it reads ranges of numbers. -/
def Tells {σ : Type} [Store σ] (store : σ) (session : String) (stored : List SealedEvent) : Prop :=
  ∀ first last, readRange session first last store = .ok (stored.filter (·.inRange first last))

theorem tells_memory (store : MemoryStore) (session : String) :
    Tells store session (store.session session) :=
  fun _ _ => rfl

theorem tells_listed (store : ListedStore) (session : String) :
    Tells store session (store.events.filter fun event => event.sessionId = session) := by
  intro first last
  simp only [readRange, List.filter_filter, Bool.decide_and, Bool.decide_eq_true, Bool.and_comm]

theorem tells_files {store : LineFileStore} {session : String} {stored : List SealedEvent}
    (loaded : store.load session = .ok stored) : Tells store session stored := by
  intro first last
  show (do return (← store.load session).filter (SealedEvent.inRange first last)) = _
  rw [loaded]
  rfl

section

variable {σ : Type} [Store σ] {store : σ} {session : String} {stored : List SealedEvent}

theorem Tells.verify (tells : Tells store session stored) {first last : UInt64}
    (ranged : ¬last < first) :
    Store.verify store session first last = .ok (verifyRange session first
      (stored.filter (·.inRange (if first = 0 then 0 else first - 1) last))) :=
  verify_of_readRange ranged (tells _ last)

theorem Tells.admits_of_valid (tells : Tells store session stored)
    (whole : ∃ verdict, Store.verify store session 0 maxSequence = .ok verdict ∧
      verdict.isValid = true) : (ChainHead.fresh session).Admits stored := by
  obtain ⟨verdict, told, valid⟩ := whole
  have all := List.filter_eq_self.mpr fun event (_ : event ∈ stored) => inRange_all event
  rw [tells.verify UInt64.not_lt_zero, if_pos rfl, all] at told
  rw [← Except.ok.inj told] at valid
  exact verifyRange_zero_isValid_iff.mp valid

theorem Tells.verify_of_admits {head : ChainHead} (tells : Tells store session stored)
    (admits : head.Admits stored)
    (room : head.nextSequence.toNat + stored.length ≤ UInt64.size) {first : UInt64}
    (later : first ≠ 0) (last : UInt64) :
    ∃ verdict, Store.verify store session first last = .ok verdict ∧ verdict.isValid = true ∧
      verdict.eventCount = (stored.filter (·.inRange first last)).length := by
  by_cases crossed : last < first
  · have none : stored.filter (·.inRange first last) = [] :=
      List.filter_eq_nil_iff.mpr fun event _ ranged => by
        obtain ⟨lower, upper⟩ := SealedEvent.inRange_iff.mp ranged
        exact UInt64.not_lt.mpr (UInt64.le_trans lower upper) crossed
    exact ⟨_, by rw [Store.verify, if_pos crossed], rfl, by rw [none]; rfl⟩
  · obtain ⟨earlier, segment⟩ := admits.filter_inRange room (first - 1) last
    have above : ∀ event ∈ stored.filter (·.inRange (first - 1) last),
        first - 1 ≤ event.sequenceNumber := by
      intro event member
      exact (SealedEvent.inRange_iff.mp (List.mem_filter.mp member).2).1
    have rising : Rising (stored.filter (·.inRange (first - 1) last)) :=
      (admits.rising room).filter _
    refine ⟨_, tells.verify crossed, ?_, ?_⟩
    · rw [if_neg later]
      exact verifyRange_isValid_of_admits segment later above
    · rw [if_neg later, (verifyRange_names _ _ _).2, examined_of_rising rising later above,
        List.filter_filter]
      refine congrArg List.length (List.filter_congr fun event _ => ?_)
      have weaker : first ≤ event.sequenceNumber → first - 1 ≤ event.sequenceNumber :=
        UInt64.le_trans (pred_le later)
      by_cases reached : first ≤ event.sequenceNumber
      · simp [SealedEvent.inRange, reached, weaker reached]
      · simp [SealedEvent.inRange, reached]

/-- A session is valid as a whole exactly if it is up to the number of any of its events and from
the next number on. -/
theorem valid_iff_ranges_valid (tells : Tells store session stored)
    (bound : ∀ event ∈ stored, event.sequenceNumber < maxSequence) (number : UInt64)
    (held : ∃ event ∈ stored, event.sequenceNumber = number) :
    ∃ whole lower upper, Store.verify store session 0 maxSequence = .ok whole ∧
      Store.verify store session 0 number = .ok lower ∧
      Store.verify store session (number + 1) maxSequence = .ok upper ∧
      (whole.isValid = true ↔ lower.isValid = true ∧ upper.isValid = true) := by
  have next : number + 1 ≠ 0 := by
    obtain ⟨event, member, rfl⟩ := held
    exact succ_ne_zero (bound event member)
  refine ⟨_, _, _, tells.verify (by decide), tells.verify UInt64.not_lt_zero,
    tells.verify (UInt64.not_lt.mpr (le_maxSequence _)), ?_⟩
  have all := List.filter_eq_self.mpr fun event (_ : event ∈ stored) => inRange_all event
  simp only [if_true, if_neg next, UInt64.add_sub_cancel, all]
  exact verifyRange_isValid_iff_ranges number bound held

def swappedPair : ListedStore := ⟨samplePair.reverse⟩

/-- A list that is out of order is not split into two valid ranges at its lower number. -/
theorem ranges_of_swappedPair :
    Tells swappedPair "s" swappedPair.events ∧
      (∀ event ∈ swappedPair.events, event.sequenceNumber < maxSequence) ∧
      (∃ event ∈ swappedPair.events, event.sequenceNumber = 0) ∧
      ∃ whole lower upper, Store.verify swappedPair "s" 0 maxSequence = .ok whole ∧
        Store.verify swappedPair "s" 0 0 = .ok lower ∧
        Store.verify swappedPair "s" 1 maxSequence = .ok upper ∧
        whole.isValid = false ∧ lower.isValid = true ∧ upper.isValid = false := by
  have tells : Tells swappedPair "s" swappedPair.events := tells_listed swappedPair "s"
  have bound : ∀ event ∈ swappedPair.events, event.sequenceNumber < maxSequence := by decide
  have held : ∃ event ∈ swappedPair.events, event.sequenceNumber = 0 := by decide
  have first : swappedPair.events.filter (·.inRange 0 0) = [samplePair[0]] := rfl
  have both : swappedPair.events.filter (·.inRange 0 maxSequence) =
      [samplePair[1], samplePair[0]] := rfl
  obtain ⟨whole, lower, upper, all, low, high, law⟩ := valid_iff_ranges_valid tells bound 0 held
  have broken : ¬whole.isValid = true := by
    rw [tells.verify UInt64.not_lt_zero, if_pos rfl, both] at all
    rw [← Except.ok.inj all, verifyRange_zero_isValid_iff]
    exact fun admits => absurd (faultOf_eq_none_iff.mp admits.1).1 (by decide)
  have starts : lower.isValid = true := by
    rw [tells.verify UInt64.not_lt_zero, if_pos rfl, first] at low
    rw [← Except.ok.inj low, verifyRange_zero_isValid_iff]
    exact ChainHead.admits_sealAll (.fresh "s") sampleTime [sampleRaw "a"]
  refine ⟨tells, bound, held, whole, lower, upper, all, low, high, Bool.eq_false_iff.mpr broken,
    starts, Bool.eq_false_iff.mpr fun ends => broken (law.mpr ⟨starts, ends⟩)⟩

end

end Store

end AuditTrail
