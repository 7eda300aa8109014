import AuditTrail.Proofs.Chain.Sessions
import AuditTrail.Proofs.Chain.Tampering

/-!
Chains that are checked segment by segment. A segment is held against the last event before it in
two ways: the check for extensions looks at its first event, and a pass anchored at the last hash
looks at everything but the number that it begins with. Together they find what one pass over the
whole finds.
-/

namespace AuditTrail

namespace Verification

def finding (verdict : Verification) : String × Option ChainFault :=
  (verdict.lastValidHash, verdict.fault)

theorem isValid_iff_finding {verdict : Verification} :
    verdict.isValid = true ↔ verdict.finding.2 = none := by
  simp [isValid, finding]

end Verification

namespace Chain

open ChainHead

theorem follow_append (head : ChainHead) (before rest : List SealedEvent) :
    (follow head.nextSequence head.hash (before ++ rest)).result =
      if (follow head.nextSequence head.hash before).result.2 = none then
        (follow (head.past before).nextSequence (head.past before).hash rest).result
      else (follow head.nextSequence head.hash before).result := by
  induction before generalizing head with
  | nil => simp [follow, pure]
  | cons event before ih =>
      cases found : faultOf head.nextSequence head.hash event with
      | some fault => simp [follow, found, pure]
      | none =>
          rw [List.cons_append, follow_cons _ found, follow_cons _ found, past_cons]
          exact ih (after event)

theorem finding_cases (anchor : Option String) (first : SealedEvent) :
    (∃ stop, stop.2 ≠ none ∧
      ∀ rest, (verifyEvents (first :: rest) anchor).finding = stop) ∨
    ∀ rest, (verifyEvents (first :: rest) anchor).finding =
      (follow (origin anchor [first]).nextSequence (origin anchor [first]).hash
        (first :: rest)).result := by
  cases anchor with
  | some link =>
      right
      intro rest
      rfl
  | none =>
      by_cases number : first.sequenceNumber = 0
      · by_cases link : first.previousEventHash = genesis first.sessionId
        · right
          intro rest
          simp only [verifyEvents, verifyAnchored, ne_eq, number, link, not_true_eq_false, if_false]
          rfl
        · left
          refine ⟨(genesis first.sessionId,
            some (.wrongGenesis first.previousEventHash (genesis first.sessionId))),
            Option.some_ne_none _, ?_⟩
          intro rest
          simp only [verifyEvents, verifyAnchored, ne_eq, number, link, not_true_eq_false,
            not_false_eq_true, if_false, if_true]
          rfl
      · left
        refine ⟨(genesis first.sessionId, some (.startsLate first.sequenceNumber)),
          Option.some_ne_none _, ?_⟩
        intro rest
        simp only [verifyEvents, verifyAnchored, ne_eq, number, not_false_eq_true, if_true]
        rfl

section

variable {anchor : Option String} {base rest extension : List SealedEvent}
  {last first : SealedEvent}

theorem finding_append (ends : base.getLast? = some last) :
    (verifyEvents (base ++ rest) anchor).finding =
      if (verifyEvents base anchor).isValid = true then
        (follow (last.sequenceNumber + 1) last.eventHash rest).result
      else (verifyEvents base anchor).finding := by
  cases base with
  | nil => cases ends
  | cons first base =>
      simp only [Verification.isValid_iff_finding, List.cons_append]
      rcases finding_cases anchor first with ⟨stop, broken, same⟩ | loop
      · rw [same, same, if_neg broken]
      · rw [loop, loop, ← List.cons_append, follow_append, past_of_getLast? ends]
        rfl

theorem isExtension_iff (ends : base.getLast? = some last) :
    isExtension base (first :: rest) = true ↔ first.sessionId = last.sessionId ∧
      first.previousEventHash = last.eventHash ∧
      first.sequenceNumber = last.sequenceNumber + 1 := by
  simp [isExtension_eq, ends, and_assoc]

theorem finding_of_extension (ends : base.getLast? = some last)
    (valid : (verifyEvents base anchor).isValid = true)
    (extends_ : isExtension base extension = true) :
    (verifyEvents (base ++ extension) anchor).finding =
      (verifyEvents extension (some last.eventHash)).finding := by
  rw [finding_append ends, if_pos valid]
  cases extension with
  | nil => simp [isExtension_eq] at extends_
  | cons first rest =>
      obtain ⟨_, _, number⟩ := (isExtension_iff ends).mp extends_
      rw [← number]
      rfl

theorem finding_of_astray (ends : base.getLast? = some last)
    (valid : (verifyEvents base anchor).isValid = true)
    (own : first.sessionId = last.sessionId)
    (astray : isExtension base (first :: rest) = false) :
    ∃ fault, faultOf (last.sequenceNumber + 1) last.eventHash first = some fault ∧
      (verifyEvents (base ++ first :: rest) anchor).finding = (last.eventHash, some fault) := by
  cases found : faultOf (last.sequenceNumber + 1) last.eventHash first with
  | none =>
      obtain ⟨number, link, _⟩ := faultOf_eq_none_iff.mp found
      rw [(isExtension_iff ends).mpr ⟨own, link, number⟩] at astray
      cases astray
  | some fault =>
      refine ⟨fault, rfl, ?_⟩
      rw [finding_append ends, if_pos valid, follow, found]
      rfl

theorem isValid_append_iff_of_last (ends : base.getLast? = some last)
    (own : ∀ first ∈ extension.head?, first.sessionId = last.sessionId) (more : extension ≠ []) :
    (verifyEvents (base ++ extension) anchor).isValid = true ↔
      (verifyEvents base anchor).isValid = true ∧ isExtension base extension = true ∧
        (verifyEvents extension (some last.eventHash)).isValid = true := by
  obtain ⟨first, rest, rfl⟩ := List.exists_cons_of_ne_nil more
  rw [Verification.isValid_iff_finding]
  by_cases valid : (verifyEvents base anchor).isValid = true
  · cases extends_ : isExtension base (first :: rest) with
    | true =>
        rw [finding_of_extension ends valid extends_, ← Verification.isValid_iff_finding]
        simp [valid]
    | false =>
        obtain ⟨fault, _, found⟩ := finding_of_astray ends valid (own first rfl) extends_
        simp [found]
  · rw [finding_append ends, if_neg valid, ← Verification.isValid_iff_finding]
    simp [valid]

end

/-- A segment extends the one before it and is intact behind its last hash. -/
def Joins (base extension : List SealedEvent) : Prop :=
  isExtension base extension = true ∧
    ∀ last ∈ base.getLast?, (verifyEvents extension (some last.eventHash)).isValid = true

section

variable {session : String} {anchor : Option String} {base extension : List SealedEvent}

theorem isValid_append_iff_joins (filled : base ≠ []) (more : extension ≠ [])
    (own : OfSession session (base ++ extension)) :
    (verifyEvents (base ++ extension) anchor).isValid = true ↔
      (verifyEvents base anchor).isValid = true ∧ Joins base extension := by
  have ends := List.getLast?_eq_some_getLast filled
  have same : ∀ first ∈ extension.head?, first.sessionId = (base.getLast filled).sessionId := by
    intro first starts
    rw [own first (List.mem_append_right _ (List.mem_of_mem_head? starts)),
      own _ (List.mem_append_left _ (List.getLast_mem filled))]
  rw [isValid_append_iff_of_last ends same more, Joins, ends]
  simp

theorem joins_append_iff (filled : base ≠ []) (before next : List SealedEvent) :
    Joins (before ++ base) next ↔ Joins base next := by
  obtain ⟨first, rest, rfl⟩ := List.exists_cons_of_ne_nil filled
  simp only [Joins, isExtension_eq, List.getLast?_append, List.getLast?_cons, Option.some_or]

/-- Events in any number of segments are valid exactly if the first segment is and each of the
others joins the one before it. -/
theorem isValid_flatten_iff {first : List SealedEvent} {rest : List (List SealedEvent)}
    (filled : ∀ segment ∈ first :: rest, segment ≠ [])
    (own : OfSession session (first :: rest).flatten) :
    (verifyEvents (first :: rest).flatten anchor).isValid = true ↔
      (verifyEvents first anchor).isValid = true ∧ (first :: rest).IsChain Joins := by
  -- On the segments: the first two count as one, which joins a third as its own end does.
  induction rest generalizing first with
  | nil => simp
  | cons second rest ih =>
      have one : first ≠ [] := filled first List.mem_cons_self
      have two : second ≠ [] := filled second (by simp)
      have joined : (first :: second :: rest).flatten = ((first ++ second) :: rest).flatten := by
        simp
      have both : ∀ segment ∈ (first ++ second) :: rest, segment ≠ [] := by
        intro segment member
        rcases List.mem_cons.mp member with rfl | later
        · simp [one]
        · exact filled segment (by simp [later])
      rw [joined] at own ⊢
      have begun : OfSession session (first ++ second) := by
        intro event member
        apply own
        rw [List.flatten_cons]
        exact List.mem_append_left _ member
      rw [ih both own, isValid_append_iff_joins one two begun, List.isChain_cons_cons]
      cases rest with
      | nil => simp
      | cons third rest =>
          rw [List.isChain_cons_cons, List.isChain_cons_cons, joins_append_iff two, and_assoc]

end

/-- One pass over the whole is as strict as the three checks of a chain and what is added to it. -/
theorem isValid_append_iff_extends {session : String} {base extension : List SealedEvent}
    (anchor : Option String) (filled : base ≠ []) (more : extension ≠ [])
    (own : OfSession session (base ++ extension)) :
    (verifyEvents (base ++ extension) anchor).isValid = true ↔
      (verifyEvents base anchor).isValid = true ∧ isExtension base extension = true ∧
        (verifyEvents extension (some (base.getLast filled).eventHash)).isValid = true := by
  rw [isValid_append_iff_joins filled more own, Joins, List.getLast?_eq_some_getLast filled]
  simp

def sampleAddition : List SealedEvent :=
  (((fresh "s").past samplePair).sealAll sampleTime [sampleRaw "c"]).1

theorem joins_sampleAddition :
    OfSession "s" (samplePair ++ sampleAddition) ∧
      isExtension samplePair sampleAddition = true ∧
      (verifyEvents sampleAddition
        (some (samplePair.getLast (List.cons_ne_nil _ _)).eventHash)).isValid = true := by
  have own : OfSession "s" (samplePair ++ sampleAddition) := by
    intro event member
    rcases List.mem_append.mp member with first | second
    · exact sessionId_of_mem_sealAll (by simp [sampleRaw]) first
    · exact sessionId_of_mem_sealAll (by simp [sampleRaw]) second
  have valid : (verifyEvents (samplePair ++ sampleAddition) none).isValid = true := by
    rw [isValid_iff_origin_admits]
    apply (admits_append (fresh "s") samplePair sampleAddition).mpr
    exact ⟨admits_sealAll _ _ _, admits_sealAll _ _ _⟩
  have checks := isValid_append_iff_extends none (List.cons_ne_nil _ _) (List.cons_ne_nil _ _) own
  exact ⟨own, (checks.mp valid).2⟩

end Chain

end AuditTrail
