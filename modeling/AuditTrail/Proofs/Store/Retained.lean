import AuditTrail.Proofs.Settings.Retention
import AuditTrail.Proofs.Store.Ranges

/-!
What is left of a session once its expired events are deleted. Only a beginning of a chain is ever
offered for deletion, and without it the rest is still found valid in every range.
-/

namespace AuditTrail

open Chain ChainHead

namespace Retention

variable {rules : List RetentionRule} {now : Timestamp} {stored : List SealedEvent} {p : UInt64}

/-- What may be deleted is a beginning of the events; all of it has expired and what comes next has
not. -/
theorem split_of_deletable (deletable : deletable? rules now stored = some p) :
    ∃ gone last left, stored = gone ++ last :: left ∧ last.sequenceNumber = p ∧
      (∀ event ∈ gone ++ [last], Outlived rules now event) ∧
      ∀ first ∈ left.head?, ¬Outlived rules now first := by
  obtain ⟨last, ends, rfl⟩ := Option.map_eq_some_iff.mp deletable
  obtain ⟨gone, expired⟩ := List.getLast?_eq_some_iff.mp ends
  refine ⟨gone, last, stored.dropWhile (isExpired rules now), ?_, rfl, ?_, ?_⟩
  · rw [List.append_cons, ← expired, List.takeWhile_append_dropWhile]
  · intro event member
    exact isExpired_iff.mp (List.mem_takeWhile_imp (expired ▸ member))
  · intro first begins outlived
    have kept := List.head?_dropWhile_not (isExpired rules now) stored
    rw [Option.mem_def.mp begins] at kept
    exact absurd (isExpired_iff.mpr outlived) (Bool.eq_false_iff.mp kept)

end Retention

namespace Store

open Retention

variable {σ : Type} [Store σ] {store pruned : σ} {session : String} {stored : List SealedEvent}
  {rules : List RetentionRule} {now : Timestamp} {p : UInt64}

/-- Of a valid chain exactly expired events are offered for deletion, and once they are gone every
range behind them is valid. -/
theorem verifiable_of_deletable (tells : Tells store session stored)
    (short : stored.length < UInt64.size)
    (whole : ∃ verdict, Store.verify store session 0 maxSequence = .ok verdict ∧
      verdict.isValid = true)
    (deletable : deletable? rules now stored = some p)
    (cut : Tells pruned session (stored.filter (p < ·.sequenceNumber))) :
    (∀ event ∈ stored, event.sequenceNumber ≤ p → Outlived rules now event) ∧
    (∀ event ∈ stored, event.sequenceNumber = p + 1 → ¬Outlived rules now event) ∧
    ∀ first last, p < first → ∃ verdict, Store.verify pruned session first last = .ok verdict ∧
      verdict.isValid = true ∧ verdict.eventCount =
        ((stored.filter (p < ·.sequenceNumber)).filter (·.inRange first last)).length := by
  have chain := tells.admits_of_valid whole
  obtain ⟨gone, last, left, rfl, rfl, expired, next⟩ := split_of_deletable deletable
  have rising := chain.rising (by simpa [fresh] using Nat.le_of_lt short)
  obtain ⟨before, behind⟩ := rising.parts
  obtain ⟨earlier, rest⟩ := (admits_append _ _ _).mp chain
  rw [List.length_append, List.length_cons] at short
  have place : last.sequenceNumber.toNat = gone.length := by
    rw [(faultOf_eq_none_iff.mp rest.1).1, earlier.toNat_nextSequence (by omega)]
  have bound : last.sequenceNumber < maxSequence := by
    rw [UInt64.lt_iff_toNat_lt, place]
    simp only [maxSequence, UInt64.reduceToNat]
    simp only [UInt64.size] at short
    omega
  have following := toNat_after bound
  refine ⟨fun event member low => ?_, fun event member own outlived => ?_,
    fun first final above => ?_⟩
  · rw [List.append_cons] at member
    rcases List.mem_append.mp member with found | later
    · exact expired event found
    · exact absurd (behind event later) (UInt64.not_lt.mpr low)
  · have high : last.sequenceNumber < event.sequenceNumber := by
      rw [UInt64.lt_iff_toNat_lt, own]
      exact Nat.lt_of_lt_of_eq (Nat.lt_succ_self _) following.symm
    have later : event ∈ left := by
      rcases List.mem_append.mp member with found | found
      · exact absurd (UInt64.lt_trans high (before event found)) (UInt64.lt_irrefl _)
      · rcases List.mem_cons.mp found with rfl | found
        · exact absurd high (UInt64.lt_irrefl _)
        · exact found
    obtain ⟨first, left, rfl⟩ := List.exists_cons_of_ne_nil (List.ne_nil_of_mem later)
    have starts := (faultOf_eq_none_iff.mp rest.2.1).1
    rcases List.mem_cons.mp later with rfl | further
    · exact next _ rfl outlived
    · rw [List.append_cons] at rising
      have beyond := rising.parts.2 event further
      rw [own, starts] at beyond
      exact absurd beyond (UInt64.lt_irrefl _)
  · rw [above_of_parts ⟨before, behind⟩] at cut ⊢
    have later : first ≠ 0 := fun zero => UInt64.not_lt_zero (zero ▸ above)
    refine cut.verify_of_admits rest.2 ?_ later final
    rw [following, place]
    omega

def agedPair : List SealedEvent :=
  ((fresh "s").sealAll sampleTime
    [sampleRaw "a", { sampleRaw "b" with eventType := "session.ended" }]).1

def sampleRules : List RetentionRule :=
  [⟨"custom", 3600⟩, ⟨"custom", 0⟩, ⟨"customs", 3600⟩]

theorem verifiable_of_agedPair :
    Tells (ListedStore.mk agedPair) "s" agedPair ∧
      deletable? sampleRules sampleTime agedPair = some 0 ∧
      Tells (ListedStore.mk agedPair.tail) "s" agedPair.tail ∧
      Outlived sampleRules sampleTime agedPair[0] ∧ ¬Outlived sampleRules sampleTime agedPair[1] ∧
      ∃ verdict, Store.verify (ListedStore.mk agedPair.tail) "s" 1 maxSequence = .ok verdict ∧
        verdict.isValid = true ∧ verdict.eventCount = 1 := by
  have tells : Tells (ListedStore.mk agedPair) "s" agedPair := tells_listed ⟨agedPair⟩ "s"
  have cut : Tells (ListedStore.mk agedPair.tail) "s" agedPair.tail :=
    tells_listed ⟨agedPair.tail⟩ "s"
  have all : agedPair.filter (·.inRange 0 maxSequence) = agedPair := rfl
  have whole : ∃ verdict, Store.verify (ListedStore.mk agedPair) "s" 0 maxSequence = .ok verdict ∧
      verdict.isValid = true := by
    refine ⟨_, tells.verify UInt64.not_lt_zero, ?_⟩
    rw [if_pos rfl, all]
    exact verifyRange_zero_isValid_iff.mpr (admits_sealAll _ _ _)
  have deletable : deletable? sampleRules sampleTime agedPair = some 0 := by decide
  obtain ⟨expired, kept, ranges⟩ :=
    verifiable_of_deletable tells (by decide) whole deletable cut
  exact ⟨tells, deletable, cut, expired _ (List.getElem_mem _) (by decide),
    kept _ (List.getElem_mem _) (by decide), ranges 1 maxSequence (by decide)⟩

end Store

end AuditTrail
