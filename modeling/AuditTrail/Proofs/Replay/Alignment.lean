import AuditTrail.Proofs.Chain.Links
import AuditTrail.Replay.Engine
import Mathlib.Data.List.Forall2

/-!
Replay by position. An optional expectation is passed over exactly when the next event has another
type, and a replay passes exactly if what is not passed over suits the events one by one. This
finds a way to leave optional expectations out whenever there is one, provided that the type of the
next event tells which expectation it can only meet.
-/

namespace AuditTrail

theorem ReplayReport.passed_iff {report : ReplayReport} :
    report.passed = true ↔ ∀ comparison ∈ report.events, comparison.status.isFailure = false := by
  simp [passed, failures]

namespace ReplayEngine

/-- No check of an expectation finds fault with an event. -/
def Suits (engine : ReplayEngine) (expected : Expectation) (event : SealedEvent) : Prop :=
  (engine.isIgnored "event_type" = true ∨ event.eventType = expected.eventType) ∧
    ∀ entry ∈ expected.matchers,
      engine.check entry.1 entry.2 (Path.lookup? (document event) entry.1) = []

variable {engine : ReplayEngine} {expected : Expectation} {event : SealedEvent}
  {actual : List SealedEvent} {index next : Nat}

theorem differences_eq_nil_iff :
    engine.differences expected event = [] ↔ engine.Suits expected event := by
  simp only [differences, List.append_eq_nil_iff, List.flatMap_eq_nil_iff, Suits, Bool.or_eq_true,
    decide_eq_true_eq, ite_eq_left_iff, List.cons_ne_nil, imp_false, not_not]

/-! ### Comparisons -/

theorem comparePair_both (wanted : engine.expected[index]? = some expected)
    (found : actual[next]? = some event) :
    engine.comparePair actual (.both index next) =
      ⟨.both index next, expected.eventType, some event.sequenceNumber,
        if (engine.differences expected event).isEmpty then .passed else .failed,
        engine.differences expected event⟩ := by
  simp [comparePair, Pairing.expected?, Pairing.actual?, wanted, found]

theorem comparePair_of_suits (wanted : engine.expected[index]? = some expected)
    (found : actual[next]? = some event) (suits : engine.Suits expected event) :
    engine.comparePair actual (.both index next) =
      ⟨.both index next, expected.eventType, some event.sequenceNumber, .passed, []⟩ := by
  rw [comparePair_both wanted found, differences_eq_nil_iff.mpr suits]
  rfl

theorem isFailure_both (wanted : engine.expected[index]? = some expected)
    (found : actual[next]? = some event) :
    (engine.comparePair actual (.both index next)).status.isFailure = false ↔
      engine.Suits expected event := by
  rw [comparePair_both wanted found, ← differences_eq_nil_iff]
  dsimp only
  split
  · rename_i none
    simpa [EventStatus.isFailure] using none
  · rename_i some
    simpa [EventStatus.isFailure] using some

theorem isFailure_expectedOnly (wanted : engine.expected[index]? = some expected) :
    (engine.comparePair actual (.expectedOnly index)).status.isFailure = false ↔
      expected.optional = true := by
  cases optional : expected.optional <;>
    simp [comparePair, Pairing.expected?, Pairing.actual?, wanted, optional, EventStatus.isFailure]

theorem isFailure_actualOnly :
    (engine.comparePair actual (.actualOnly next)).status.isFailure = true := by
  cases found : actual[next]? <;>
    simp [comparePair, Pairing.expected?, Pairing.actual?, found, EventStatus.isFailure]

theorem pairByPosition_of_required {rest : List Expectation}
    (required : ∀ expected ∈ rest, expected.optional = false)
    (length : next + rest.length = actual.length) :
    pairByPosition actual index next rest =
      (List.range rest.length).map fun offset => .both (index + offset) (next + offset) := by
  induction rest generalizing index next with
  | nil =>
      rw [pairByPosition, ← length]
      simp
  | cons expected rest ih =>
      rw [List.length_cons] at length
      have present : actual[next]? = some actual[next] := List.getElem?_eq_getElem (by omega)
      have later := @ih (index + 1) (next + 1)
        (fun other member => required other (List.mem_cons_of_mem _ member)) (by omega)
      rw [pairByPosition, present]
      simp [required expected List.mem_cons_self, later, List.range_succ_eq_map, Nat.add_assoc,
        Nat.add_comm 1]

/-! ### What is passed over -/

/-- The expectations that are not passed over. -/
def taken : List Expectation → List SealedEvent → List Expectation
  | [], _ => []
  | expected :: rest, [] =>
    if expected.optional then taken rest [] else expected :: taken rest []
  | expected :: rest, event :: more =>
    if !expected.optional || event.eventType = expected.eventType then
      expected :: taken rest more
    else taken rest (event :: more)

/-- All comparisons from some place on are free of failures exactly if the expectations that are
taken from there suit the events from there. -/
theorem passes_from {rest : List Expectation} (behind : engine.expected.drop index = rest) :
    (∀ pairing ∈ pairByPosition actual index next rest,
      (engine.comparePair actual pairing).status.isFailure = false) ↔
    List.Forall₂ engine.Suits (taken rest (actual.drop next)) (actual.drop next) := by
  induction rest generalizing index next with
  | nil =>
      rw [taken, List.forall₂_nil_left_iff, List.drop_eq_nil_iff, pairByPosition]
      constructor
      · intro passes
        by_contra short
        have unexpected := passes (.actualOnly next) (List.mem_map_of_mem (by simp; omega))
        rw [isFailure_actualOnly] at unexpected
        cases unexpected
      · intro ended pairing member
        simp [Nat.sub_eq_zero_of_le ended] at member
  | cons expected rest ih =>
      have wanted : engine.expected[index]? = some expected := by
        rw [← List.head?_drop, behind, List.head?_cons]
      have later : engine.expected.drop (index + 1) = rest := by
        rw [← List.tail_drop, behind, List.tail_cons]
      rw [pairByPosition]
      cases found : actual[next]? with
      | none =>
          have ended : actual.drop next = [] := by simpa using found
          have same := @ih (index + 1) next later
          rw [ended] at same ⊢
          simp only [List.forall_mem_cons, isFailure_expectedOnly wanted, same, taken]
          cases optional : expected.optional <;> simp
      | some event =>
          have ahead : actual.drop next = event :: actual.drop (next + 1) := by
            obtain ⟨bound, rfl⟩ := List.getElem?_eq_some_iff.mp found
            exact List.drop_eq_getElem_cons bound
          rw [ahead, taken]
          dsimp only
          split
          · rw [List.forall_mem_cons, isFailure_both wanted found, ih later,
              List.forall₂_cons]
          · rename_i passed
            have optional : expected.optional = true := by
              by_contra required
              exact passed (by simp [required])
            have same := @ih (index + 1) next later
            rw [ahead] at same
            simp only [List.forall_mem_cons, isFailure_expectedOnly wanted, optional, same,
              true_and]

theorem passed_iff_taken (positional : engine.correlationKey = none) :
    (engine.replay actual).passed = true ↔
      List.Forall₂ engine.Suits (taken engine.expected actual) actual := by
  have whole := @passes_from engine actual 0 0 engine.expected rfl
  rw [List.drop_zero] at whole
  rw [ReplayReport.passed_iff, ← whole]
  simp [replay, pairings, positional]

end ReplayEngine

end AuditTrail
