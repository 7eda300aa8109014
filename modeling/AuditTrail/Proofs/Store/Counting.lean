import AuditTrail.Proofs.Chain.Counting
import AuditTrail.Proofs.Chain.Ranges
import AuditTrail.Proofs.Store.Sessions

/-!
Sequence numbers at the end of 64 bits. Verifying a list, verifying a range of a store, checking an
extension and loading a head add one to stored numbers, and each of them overflows at a number that
a store may well hold. What is found valid without an overflow has consecutive numbers.
-/

namespace AuditTrail

open Chain

variable {σ : Type} [Store σ]

namespace Store

variable {store : σ} {session : String} {first last : UInt64}

/-- What is read for a verification runs out of numbers. -/
def RunsOut (store : σ) (session : String) (first last : UInt64) : Prop :=
  ¬last < first ∧ ∃ read,
    readRange session (if first = 0 then 0 else first - 1) last store = .ok read ∧
      Chain.RunsOut (rangeStart session first read) (Chain.examined first read)

theorem overflowed_verify_iff :
    (∃ verdict, verify store session first last = .ok verdict ∧ verdict.overflowed = true) ↔
      RunsOut store session first last := by
  constructor
  · rintro ⟨verdict, told, stopped⟩
    rcases verify_cases told with ⟨_, rfl⟩ | ⟨ranged, read, found, rfl⟩
    · exact absurd stopped Bool.false_ne_true
    · exact ⟨ranged, read, found, overflowed_verifyRange_iff.mp stopped⟩
  · rintro ⟨ranged, read, found, runsOut⟩
    exact ⟨_, verify_of_readRange ranged found, overflowed_verifyRange_iff.mpr runsOut⟩

theorem consecutive_of_verify {verdict : Verification}
    (told : verify store session first last = .ok verdict) (valid : verdict.isValid = true)
    (given : verdict.overflowed = false) :
    ∃ read, examined store session first last = .ok read ∧ Consecutive read := by
  rcases verify_cases told with ⟨crossed, rfl⟩ | ⟨ranged, read, found, rfl⟩
  · exact ⟨[], by rw [examined, if_pos crossed], List.IsChain.nil⟩
  · refine ⟨Chain.examined first read, by rw [examined, if_neg ranged, found]; rfl, ?_⟩
    have still := overflowed_verifyRange_iff.not.mp (Bool.eq_false_iff.mp given)
    exact consecutive_of_not_runsOut (verifyRange_isValid_iff.mp valid) still

end Store

namespace ChainBuilder

/-- The last stored event of a session whose head is not known has the greatest number. -/
def RunsOut (builder : ChainBuilder σ) (session : String) : Prop :=
  (builder.heads.find? session).join = none ∧ ∃ last : SealedEvent,
    (Store.lastEvent session builder.store).1 = .ok (some last) ∧
      last.sequenceNumber = maxSequence

theorem overflowed_head_iff {builder : ChainBuilder σ} {session : String} :
    (builder.head session).2.overflowed = true ↔
      builder.overflowed = true ∨ builder.RunsOut session := by
  unfold head RunsOut
  cases known : (builder.heads.find? session).join with
  | some head => simp
  | none =>
      rcases asked : Store.lastEvent session builder.store with ⟨error | _ | last, store⟩
      · simp [setHead]
      · simp [ChainHead.ofLast, pure]
      · simp [ChainHead.ofLast, ChainHead.behind, overflowed_successor_iff]

end ChainBuilder

theorem consecutive_of_verifyEvents {events : List SealedEvent} {anchor : Option String}
    (valid : (verifyEvents events anchor).isValid = true)
    (given : (verifyEvents events anchor).overflowed = false) : Consecutive events := by
  have still := overflowed_verifyEvents_iff.not.mp (Bool.eq_false_iff.mp given)
  exact consecutive_of_not_runsOut (isValid_iff_origin_admits.mp valid) still

/-- The four places where one is added to a sequence number overflow exactly where they run out of
numbers, and a verdict that is given and valid is about consecutive numbers. -/
theorem overflowed_iff_runsOut (events : List SealedEvent) (anchor : Option String) (store : σ)
    (session : String) (first last : UInt64) (base extension : List SealedEvent)
    (builder : ChainBuilder σ) :
    ((verifyEvents events anchor).overflowed = true ↔
      Chain.RunsOut (origin anchor events) events) ∧
    ((∃ verdict, Store.verify store session first last = .ok verdict ∧
        verdict.overflowed = true) ↔ Store.RunsOut store session first last) ∧
    ((checkExtension base extension).overflowed = true ↔
      ∃ before after, base.getLast? = some before ∧ extension.head? = some after ∧
        after.sessionId = before.sessionId ∧ after.previousEventHash = before.eventHash ∧
        before.sequenceNumber = maxSequence) ∧
    ((builder.head session).2.overflowed = true ↔
      builder.overflowed = true ∨ builder.RunsOut session) ∧
    ((verifyEvents events anchor).isValid = true →
      (verifyEvents events anchor).overflowed = false → Consecutive events) ∧
    ∀ verdict, Store.verify store session first last = .ok verdict → verdict.isValid = true →
      verdict.overflowed = false →
        ∃ read, Store.examined store session first last = .ok read ∧ Consecutive read :=
  ⟨overflowed_verifyEvents_iff, Store.overflowed_verify_iff, overflowed_checkExtension_iff,
    ChainBuilder.overflowed_head_iff, consecutive_of_verifyEvents,
    fun _ told valid given => Store.consecutive_of_verify told valid given⟩

def pairFrom (number : UInt64) : List SealedEvent :=
  ((ChainHead.mk number (genesis "s")).sealAll sampleTime [sampleRaw "a", sampleRaw "b"]).1

theorem admits_pairFrom (number : UInt64) :
    (ChainHead.mk number (genesis "s")).Admits (pairFrom number) :=
  ChainHead.admits_sealAll _ sampleTime [sampleRaw "a", sampleRaw "b"]

def lastPair : List SealedEvent :=
  pairFrom (maxSequence - 2)

theorem verify_lastPair :
    ∃ verdict, Store.verify (⟨lastPair⟩ : MemoryStore) "s" (maxSequence - 2) maxSequence =
      .ok verdict ∧ verdict.isValid = true ∧ verdict.overflowed = false := by
  have read : Store.readRange "s" (maxSequence - 2 - 1) maxSequence (⟨lastPair⟩ : MemoryStore) =
      .ok lastPair := rfl
  have above : ∀ event ∈ lastPair, maxSequence - 2 - 1 ≤ event.sequenceNumber := by decide
  have valid : (verifyRange "s" (maxSequence - 2) lastPair).isValid = true :=
    verifyRange_isValid_of_admits (admits_pairFrom _) (by decide) above
  refine ⟨_, Store.verify_of_readRange (by decide) read, valid, ?_⟩
  rw [← Bool.not_eq_true, overflowed_verifyRange_of_valid valid]
  decide

theorem consecutive_lastPair :
    (verifyEvents lastPair (some (genesis "s"))).isValid = true ∧
      (verifyEvents lastPair (some (genesis "s"))).overflowed = false ∧ Consecutive lastPair ∧
      ∃ verdict read, Store.verify (⟨lastPair⟩ : MemoryStore) "s" (maxSequence - 2) maxSequence =
          .ok verdict ∧ verdict.isValid = true ∧ verdict.overflowed = false ∧
        Store.examined (⟨lastPair⟩ : MemoryStore) "s" (maxSequence - 2) maxSequence = .ok read ∧
        Consecutive read := by
  have valid : (verifyEvents lastPair (some (genesis "s"))).isValid = true :=
    isValid_iff_origin_admits.mpr (admits_pairFrom _)
  have given : (verifyEvents lastPair (some (genesis "s"))).overflowed = false := by
    rw [← Bool.not_eq_true, overflowed_verifyEvents_of_valid valid]
    decide
  obtain ⟨_, _, _, _, listed, ranges⟩ := overflowed_iff_runsOut lastPair (some (genesis "s"))
    (⟨lastPair⟩ : MemoryStore) "s" (maxSequence - 2) maxSequence [] []
    { store := ({} : MemoryStore) }
  obtain ⟨verdict, told, holds, answered⟩ := verify_lastPair
  obtain ⟨read, found, inOrder⟩ := ranges verdict told holds answered
  exact ⟨valid, given, listed valid given, verdict, read, told, holds, answered, found, inOrder⟩

/-- The event with the greatest number passes every check, and behind it all four overflow. -/
theorem overflowed_of_greatest :
    let greatest := (pairFrom maxSequence).take 1
    let store : MemoryStore := ⟨greatest⟩
    greatest.map (·.sequenceNumber) = [maxSequence] ∧
      (verifyEvents greatest (some (genesis "s"))).isValid = true ∧
      (verifyEvents greatest (some (genesis "s"))).overflowed = true ∧
      (∃ verdict, Store.verify store "s" maxSequence maxSequence = .ok verdict ∧
        verdict.isValid = true ∧ verdict.overflowed = true) ∧
      (checkExtension greatest ((pairFrom maxSequence).drop 1)).overflowed = true ∧
      (ChainBuilder.head { store } "s").2.overflowed = true := by
  intro greatest store
  have admits : (ChainHead.mk maxSequence (genesis "s")).Admits greatest :=
    ChainHead.admits_sealAll _ sampleTime [sampleRaw "a"]
  have valid : (verifyEvents greatest (some (genesis "s"))).isValid = true :=
    isValid_iff_origin_admits.mpr admits
  have read : Store.readRange "s" (maxSequence - 1) maxSequence store = .ok greatest := rfl
  have ranged : (verifyRange "s" maxSequence greatest).isValid = true :=
    verifyRange_isValid_of_admits admits (by decide) (by decide)
  refine ⟨rfl, valid, ?_, ⟨_, Store.verify_of_readRange (by decide) read, ranged, ?_⟩, ?_, ?_⟩
  · rw [overflowed_verifyEvents_of_valid valid]
    exact ⟨_, List.mem_cons_self, rfl⟩
  · rw [overflowed_verifyRange_of_valid ranged]
    exact ⟨_, List.mem_cons_self, rfl⟩
  · rw [overflowed_checkExtension_iff]
    exact ⟨_, _, rfl, rfl, rfl, rfl, rfl⟩
  · rw [ChainBuilder.overflowed_head_iff]
    exact Or.inr ⟨rfl, _, rfl, rfl⟩

end AuditTrail
