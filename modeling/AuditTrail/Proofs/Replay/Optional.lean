import AuditTrail.Proofs.Replay.Alignment
import AuditTrail.Proofs.Replay.Compiled

/-!
Optional expectations that are absent from a run. The ones that a replay passes over are one way to
leave optional expectations out, and a replay passes only if this way suits the run. Whenever the
type of an event tells which expectation it meets, no other way can suit the run. An optional
expectation in front of a required one of its type, however, is never absent: it takes the event
that the required one goes without.
-/

namespace AuditTrail

namespace ReplayEngine

/-- The second list is the first without some of its optional expectations. -/
inductive LeavesOut : List Expectation → List Expectation → Prop where
  | nil : LeavesOut [] []
  | keep (expected : Expectation) {all rest : List Expectation} :
      LeavesOut all rest → LeavesOut (expected :: all) (expected :: rest)
  | leave {expected : Expectation} {all rest : List Expectation} :
      expected.optional = true → LeavesOut all rest → LeavesOut (expected :: all) rest

def required (expected : List Expectation) : List Expectation :=
  expected.filter fun one => !one.optional

/-- Those that can be the first to be met, when optional ones are left out. -/
def firstMet : List Expectation → List Expectation
  | [] => []
  | expected :: rest => if expected.optional then expected :: firstMet rest else [expected]

/-- No optional expectation has the type of one of those that stand next behind it. -/
def ApartFrom (next : List Expectation → List Expectation) : List Expectation → Prop
  | [] => True
  | expected :: rest =>
    (expected.optional = true → ∀ other ∈ next rest, other.eventType ≠ expected.eventType) ∧
      ApartFrom next rest

def TypesApart : List Expectation → Prop :=
  ApartFrom firstMet

def RequiredApart : List Expectation → Prop :=
  ApartFrom fun rest => (required rest).take 1

variable {engine : ReplayEngine} {expected rest : List Expectation} {actual : List SealedEvent}

theorem leavesOut_taken (expected : List Expectation) (actual : List SealedEvent) :
    LeavesOut expected (taken expected actual) := by
  induction expected generalizing actual with
  | nil => exact .nil
  | cons one rest ih =>
      cases actual with
      | nil =>
          rw [taken]
          split
          · rename_i optional
            exact .leave optional (ih [])
          · exact .keep one (ih [])
      | cons event more =>
          rw [taken]
          split
          · exact .keep one (ih more)
          · rename_i passed
            exact .leave (by simp_all) (ih (event :: more))

theorem LeavesOut.eq_of_required (left : LeavesOut expected rest)
    (all : ∀ one ∈ expected, one.optional = false) : rest = expected := by
  induction left with
  | nil => rfl
  | keep one _ ih => rw [ih fun other member => all other (List.mem_cons_of_mem _ member)]
  | leave optional _ _ => simp [all _ List.mem_cons_self] at optional

theorem LeavesOut.mem_firstMet {first : Expectation} {more : List Expectation}
    (left : LeavesOut expected (first :: more)) : first ∈ firstMet expected := by
  induction expected with
  | nil => cases left
  | cons one rest ih =>
      rw [firstMet]
      cases left with
      | keep _ _ => split <;> exact List.mem_cons_self
      | leave optional later =>
          rw [if_pos optional]
          exact List.mem_cons_of_mem _ (ih later)

theorem LeavesOut.required_sublist (left : LeavesOut expected rest) :
    (required expected).Sublist rest := by
  induction left with
  | nil => exact .slnil
  | keep one _ ih =>
      cases optional : one.optional
      · simpa [required, optional] using ih
      · simpa [required, optional] using ih.cons one
  | leave optional _ ih => simpa [required, optional] using ih

/-- With types apart, the only way that suits a run is the one of the replay. -/
theorem taken_of_suits (typed : engine.isIgnored "event_type" = false)
    (apart : TypesApart expected) (left : LeavesOut expected rest)
    (suits : List.Forall₂ engine.Suits rest actual) : taken expected actual = rest := by
  have sameType : ∀ {one : Expectation} {event : SealedEvent}, engine.Suits one event →
      event.eventType = one.eventType := by
    intro one event suit
    exact suit.1.resolve_left (by simp [typed])
  -- On the way; in front of an event that suits a later expectation, one left out is passed over.
  induction left generalizing actual with
  | nil => rfl
  | keep one _ ih =>
      cases suits with
      | cons suit others => simp [taken, sameType suit, ih apart.2 others]
  | leave optional later ih =>
      have same := ih apart.2 suits
      cases suits with
      | nil => simpa [taken, optional] using same
      | cons suit _ =>
          have other := apart.1 optional _ later.mem_firstMet
          simpa [taken, optional, sameType suit, other] using same

theorem taken_eq_required_iff (typed : engine.isIgnored "event_type" = false)
    (suits : List.Forall₂ engine.Suits (required expected) actual) :
    taken expected actual = required expected ↔ RequiredApart expected := by
  induction expected generalizing actual with
  | nil => simp [taken, required, RequiredApart, ApartFrom]
  | cons one rest ih =>
      simp only [RequiredApart, ApartFrom] at ih ⊢
      cases optional : one.optional with
      | false =>
          have front : required (one :: rest) = one :: required rest := by
            simp [required, optional]
          rw [front] at suits ⊢
          cases suits with
          | cons _ others => simpa [taken, optional] using ih others
      | true =>
          have behind : required (one :: rest) = required rest := by simp [required, optional]
          rw [behind] at suits ⊢
          have same := ih suits
          generalize needed : required rest = others at suits same ⊢
          cases suits with
          | nil => simpa [taken, optional] using same
          | @cons first event _ more suit _ =>
              have sameType : event.eventType = first.eventType :=
                suit.1.resolve_left (by simp [typed])
              by_cases equal : first.eventType = one.eventType
              · have notOptional : first.optional = false := by
                  have member : first ∈ required rest := needed ▸ List.mem_cons_self
                  simpa [required] using (List.mem_filter.mp member).2
                have different : one ≠ first := by
                  rintro rfl
                  simp [optional] at notOptional
                simp [taken, optional, sameType, equal, different]
              · simpa [taken, optional, sameType, equal] using same

end ReplayEngine

namespace Manifest

open ReplayEngine

variable {manifest : Manifest} {engine : ReplayEngine}

/-- Which runs a manifest without a correlation key accepts. -/
theorem passed_iff_leavesOut (compiled : ofManifest manifest = .ok engine)
    (positional : manifest.correlationKey = none) (actual : List SealedEvent) :
    -- A replay passes exactly if the way on which the replay leaves expectations out suits the run,
    ((engine.replay actual).passed = true ↔
      LeavesOut engine.expected (taken engine.expected actual) ∧
        List.Forall₂ engine.Suits (taken engine.expected actual) actual) ∧
    -- which is as good as any other way if no expectation is optional, or if types are compared and
    -- tell each optional expectation from those that can be met in its place.
    ((∀ one ∈ engine.expected, one.optional = false) ∨
      engine.isIgnored "event_type" = false ∧ TypesApart engine.expected →
      ((engine.replay actual).passed = true ↔ ∃ rest,
        LeavesOut engine.expected rest ∧ List.Forall₂ engine.Suits rest actual)) ∧
    -- A run without any optional event passes exactly if no optional expectation stands in front of
    -- a required one of the same type.
    (engine.isIgnored "event_type" = false →
      List.Forall₂ engine.Suits (required engine.expected) actual →
      ((engine.replay actual).passed = true ↔ RequiredApart engine.expected)) := by
  have byPosition : engine.correlationKey = none := by
    obtain ⟨_, _, _, _, rfl⟩ := ofManifest_eq_ok_iff.mp compiled
    exact positional
  have exact := @passed_iff_taken engine actual byPosition
  have left := leavesOut_taken engine.expected actual
  refine ⟨exact.trans (and_iff_right left).symm, fun condition => ?_, fun typed absent => ?_⟩
  · rw [exact]
    constructor
    · intro suits
      exact ⟨_, left, suits⟩
    · rintro ⟨rest, other, suits⟩
      have same : taken engine.expected actual = rest := by
        rcases condition with all | ⟨typed, apart⟩
        · rw [left.eq_of_required all, other.eq_of_required all]
        · exact taken_of_suits typed apart other suits
      rwa [same]
  · rw [exact, ← taken_eq_required_iff typed absent]
    constructor
    · intro suits
      exact (left.required_sublist.eq_of_length (absent.length_eq.trans suits.length_eq.symm)).symm
    · intro same
      rwa [same]

def optionalFirst (eventType : String) : Manifest where
  name := "m"
  expectedEvents := [{ eventType, optional := true }, { eventType := "custom" }]

def optionalFirstEngine (eventType : String) : ReplayEngine :=
  ofParts (optionalFirst eventType) [⟨eventType, true, []⟩, ⟨"custom", false, []⟩] []

theorem ofManifest_optionalFirst (eventType : String) :
    ofManifest (optionalFirst eventType) = .ok (optionalFirstEngine eventType) :=
  rfl

theorem suits_required (eventType : String) :
    List.Forall₂ (optionalFirstEngine eventType).Suits
      (required (optionalFirstEngine eventType).expected) [sampleSealed "s" 0] :=
  .cons ⟨Or.inr rfl, nofun⟩ .nil

theorem passed_without_optional :
    ofManifest (optionalFirst "first") = .ok (optionalFirstEngine "first") ∧
      (optionalFirst "first").correlationKey = none ∧
      ((optionalFirstEngine "first").replay [sampleSealed "s" 0]).passed = true := by
  have law := passed_iff_leavesOut (ofManifest_optionalFirst "first") rfl [sampleSealed "s" 0]
  refine ⟨ofManifest_optionalFirst "first", rfl, (law.2.2 rfl (suits_required "first")).mpr ?_⟩
  simp [optionalFirstEngine, ofParts, RequiredApart, ApartFrom, required]

/-- The only event of the run is taken for the optional one, and the required one is missing. -/
theorem failed_without_optional :
    ofManifest (optionalFirst "custom") = .ok (optionalFirstEngine "custom") ∧
      (optionalFirst "custom").correlationKey = none ∧
      (∃ rest, LeavesOut (optionalFirstEngine "custom").expected rest ∧
        List.Forall₂ (optionalFirstEngine "custom").Suits rest [sampleSealed "s" 0]) ∧
      ((optionalFirstEngine "custom").replay [sampleSealed "s" 0]).passed = false := by
  refine ⟨ofManifest_optionalFirst "custom", rfl,
    ⟨_, .leave rfl (.keep _ .nil), suits_required "custom"⟩, ?_⟩
  by_contra passed
  have suits := (passed_iff_taken rfl).mp (Bool.of_not_eq_false passed)
  have sameType : (sampleSealed "s" 0).eventType = "custom" := rfl
  simpa [optionalFirstEngine, ofParts, taken, sameType] using suits.length_eq

end Manifest

end AuditTrail
