import AuditTrail.Proofs.Replay.Accounting
import AuditTrail.Proofs.Replay.Derived

/-!
Loosening a manifest. Neither a rule that is added nor, where events are paired by position, a
predicate that is taken away changes how events are paired, and each comparison finds some of its
former differences and no others. So a run that passes still passes.
-/

namespace AuditTrail

/-- The comparison of the same two events with fewer differences; only a failed one may change its
status, and then it passes. -/
structure EventComparison.Loosens (looser comparison : EventComparison) : Prop where
  pairing : looser.pairing = comparison.pairing
  eventType : looser.eventType = comparison.eventType
  actualSequence : looser.actualSequence = comparison.actualSequence
  diffs : looser.diffs.Sublist comparison.diffs
  status : looser.status = comparison.status ∨
    comparison.status = .failed ∧ looser.status = .passed

structure ReplayReport.Loosens (looser report : ReplayReport) : Prop where
  alignment : looser.events.map (·.pairing) = report.events.map (·.pairing)
  comparisons : List.Forall₂ EventComparison.Loosens looser.events report.events
  passed : report.passed = true → looser.passed = true

theorem EventComparison.Loosens.isFailure {looser comparison : EventComparison}
    (loosens : looser.Loosens comparison) (passes : comparison.status.isFailure = false) :
    looser.status.isFailure = false := by
  rcases loosens.status with same | ⟨-, passed⟩
  · rw [same, passes]
  · rw [passed, EventStatus.isFailure]

theorem ReplayReport.loosens_of_comparisons {looser report : ReplayReport}
    (comparisons : List.Forall₂ EventComparison.Loosens looser.events report.events) :
    looser.Loosens report := by
  refine ⟨?_, comparisons, fun passed => ?_⟩
  · rw [← List.forall₂_eq_eq_eq, List.forall₂_map_left_iff, List.forall₂_map_right_iff]
    exact comparisons.imp fun _ _ loosens => loosens.pairing
  · rw [passed_iff] at passed ⊢
    intro comparison member
    obtain ⟨former, inFormer, loosens⟩ := exists_of_mem_right comparisons.flip member
    exact loosens.isFailure (passed former inFormer)

/-- The first expectation is the second with some of its predicates. -/
structure Expectation.Weakens (weaker expected : Expectation) : Prop where
  eventType : weaker.eventType = expected.eventType
  optional : weaker.optional = expected.optional
  matchers : weaker.matchers.Sublist expected.matchers

theorem Expectation.Weakens.refl (expected : Expectation) : expected.Weakens expected :=
  ⟨rfl, rfl, .refl _⟩

theorem exists_sublist_of_forall₂ {α β : Type} {Goes : α → β → Prop} {part items : List α}
    {results : List β} (picked : part.Sublist items) (all : List.Forall₂ Goes items results) :
    ∃ kept, kept.Sublist results ∧ List.Forall₂ Goes part kept := by
  induction picked generalizing results with
  | slnil => exact ⟨[], List.nil_sublist _, .nil⟩
  | cons item _ ih =>
      cases all with
      | cons _ others =>
          obtain ⟨kept, picked, goes⟩ := ih others
          exact ⟨kept, picked.cons _, goes⟩
  | cons_cons item _ ih =>
      cases all with
      | cons first others =>
          obtain ⟨kept, picked, goes⟩ := ih others
          exact ⟨_ :: kept, picked.cons_cons _, .cons first goes⟩

namespace ReplayEngine

variable {engine looser : ReplayEngine} {actual : List SealedEvent}

theorem differences_sublist (more : looser.HasRulesOf engine) {weaker expected : Expectation}
    (weakens : weaker.Weakens expected) (event : SealedEvent) :
    (looser.differences weaker event).Sublist (engine.differences expected event) := by
  unfold differences
  simp only [weakens.eventType, Bool.or_eq_true]
  refine (ite_nil_sublist (Or.imp more.isIgnored id) _).append ?_
  exact (weakens.matchers.flatMap _).trans
    (.flatMap_right _ fun entry _ => more.check_sublist entry.1 entry.2 _)

theorem comparePair_loosens (more : looser.HasRulesOf engine)
    (weakens : List.Forall₂ Expectation.Weakens looser.expected engine.expected)
    (pairing : Pairing) :
    (looser.comparePair actual pairing).Loosens (engine.comparePair actual pairing) := by
  have wanted : Option.Rel Expectation.Weakens (pairing.expected?.bind (looser.expected[·]?))
      (pairing.expected?.bind (engine.expected[·]?)) := by
    cases pairing.expected? with
    | none => exact .none
    | some index => exact rel_getElem? weakens index
  unfold comparePair
  revert wanted
  generalize pairing.expected?.bind (looser.expected[·]?) = weaker
  generalize pairing.expected?.bind (engine.expected[·]?) = expected
  generalize pairing.actual?.bind (actual[·]?) = event
  rintro (weakens | _)
  · rename_i weaker expected
    cases event with
    | none =>
        simp only [weakens.eventType, weakens.optional]
        exact ⟨rfl, rfl, rfl, .refl _, .inl rfl⟩
    | some event =>
        have fewer := differences_sublist more weakens event
        refine ⟨rfl, weakens.eventType, rfl, fewer, ?_⟩
        dsimp only
        split
        · split
          · exact .inl rfl
          · exact .inr ⟨rfl, rfl⟩
        · rename_i different
          rw [if_neg fun none => different ?_]
          · exact .inl rfl
          · rw [List.isEmpty_iff] at none ⊢
            exact List.eq_nil_of_sublist_nil (none ▸ fewer)
  · cases event <;> exact ⟨rfl, rfl, rfl, .refl _, .inl rfl⟩

theorem replay_loosens (more : looser.HasRulesOf engine)
    (weakens : List.Forall₂ Expectation.Weakens looser.expected engine.expected)
    (aligned : looser.pairings actual = engine.pairings actual) :
    (looser.replay actual).Loosens (engine.replay actual) := by
  refine ReplayReport.loosens_of_comparisons ?_
  unfold replay
  rw [aligned, List.forall₂_map_left_iff, List.forall₂_map_right_iff, List.forall₂_same]
  exact fun pairing _ => comparePair_loosens more weakens pairing

theorem pairByPosition_of_weakens {weaker expected : List Expectation}
    (weakens : List.Forall₂ Expectation.Weakens weaker expected) (index next : Nat) :
    pairByPosition actual index next weaker = pairByPosition actual index next expected := by
  induction weakens generalizing index next with
  | nil => rfl
  | cons first _ ih => simp only [pairByPosition, first.eventType, first.optional, ih]

end ReplayEngine

structure ExpectedEvent.Weakens (weaker event : ExpectedEvent) : Prop where
  eventType : weaker.eventType = event.eventType
  optional : weaker.optional = event.optional
  fields : weaker.fields.Sublist event.fields

namespace Manifest

open ReplayEngine

variable {manifest : Manifest} {engine : ReplayEngine}

theorem exists_weaker {weaker event : ExpectedEvent} {expected : Expectation}
    (weakens : weaker.Weakens event) (compiled : compileEvent event = .ok expected) :
    ∃ result, compileEvent weaker = .ok result ∧ result.Weakens expected := by
  obtain ⟨eventType, optional, matchers⟩ := compileEvent_eq_ok_iff.mp compiled
  rw [compileMatchers_eq_mapM, mapM_eq_ok_iff] at matchers
  obtain ⟨fewer, picked, compiles⟩ := exists_sublist_of_forall₂ weakens.fields matchers
  refine ⟨⟨weaker.eventType, weaker.optional, fewer⟩, ?_, ?_, ?_, picked⟩
  · rw [compileEvent_eq_ok_iff, compileMatchers_eq_mapM, mapM_eq_ok_iff]
    exact ⟨rfl, rfl, compiles⟩
  · exact weakens.eventType.trans eventType.symm
  · exact weakens.optional.trans optional.symm

theorem exists_weaker_expectations {fewer events : List ExpectedEvent}
    {expected : List Expectation} (weakens : List.Forall₂ ExpectedEvent.Weakens fewer events)
    (compiled : List.Forall₂ (compileEvent · = .ok ·) events expected) :
    ∃ results, List.Forall₂ (compileEvent · = .ok ·) fewer results ∧
      List.Forall₂ Expectation.Weakens results expected := by
  induction weakens generalizing expected with
  | nil =>
      cases compiled
      exact ⟨[], .nil, .nil⟩
  | cons first _ ih =>
      cases compiled with
      | cons compiles others =>
          obtain ⟨result, own, weaker⟩ := exists_weaker first compiles
          obtain ⟨results, all, weakers⟩ := ih others
          exact ⟨result :: results, .cons own all, .cons weaker weakers⟩

theorem rulesOf_subset {rules more : List FieldRule} {compiled added : List (RuleKind × PathRule)}
    (subset : rules ⊆ more) (all : List.Forall₂ (compileRule · = .ok ·) rules compiled)
    (allAdded : List.Forall₂ (compileRule · = .ok ·) more added) (kind : RuleKind) :
    rulesOf kind compiled ⊆ rulesOf kind added := by
  refine List.map_subset _ (List.filter_subset _ ?_)
  intro pattern member
  obtain ⟨rule, inRules, compiles⟩ := exists_of_mem_right all member
  obtain ⟨same, inAdded, again⟩ := exists_of_mem_right allAdded.flip (subset inRules)
  cases compiles.symm.trans again
  exact inAdded

/-- Adding rules, and taking predicates away from a manifest without a correlation key, never
breaks a replay. -/
theorem loosens_of_loosened (compiled : ofManifest manifest = .ok engine) :
    (∀ more, manifest.rules ⊆ more →
      (∀ rule ∈ more, ∃ pattern, PathRule.compile rule.field = .ok pattern) →
      ∃ looser, ofManifest { manifest with rules := more } = .ok looser ∧
        ∀ actual, (looser.replay actual).Loosens (engine.replay actual)) ∧
    (manifest.correlationKey = none →
      ∀ fewer, List.Forall₂ ExpectedEvent.Weakens fewer manifest.expectedEvents →
      ∃ looser, ofManifest { manifest with expectedEvents := fewer } = .ok looser ∧
        ∀ actual, (looser.replay actual).Loosens (engine.replay actual)) := by
  obtain ⟨expected, rules, events, patterns, rfl⟩ := ofManifest_eq_ok_iff.mp compiled
  constructor
  · intro more added compiles
    obtain ⟨morePatterns, patterned⟩ := exists_forall₂ fun rule member =>
      exists_compileRule (compiles rule member)
    refine ⟨_, ofManifest_eq_ok_iff.mpr ⟨expected, morePatterns, events, patterned, rfl⟩,
      fun actual => replay_loosens ⟨?_, ?_⟩ ?_ rfl⟩
    · exact rulesOf_subset added patterns patterned .ignore
    · exact rulesOf_subset added patterns patterned .normalize
    · exact List.forall₂_same.mpr fun one _ => .refl one
  · intro positional fewer weakens
    obtain ⟨results, all, weakers⟩ := exists_weaker_expectations weakens events
    refine ⟨_, ofManifest_eq_ok_iff.mpr ⟨results, rules, all, patterns, rfl⟩,
      fun actual => replay_loosens ⟨fun _ member => member, fun _ member => member⟩ weakers ?_⟩
    simp only [pairings, ofParts, positional]
    exact pairByPosition_of_weakens weakers 0 0

def strict : Manifest where
  name := "m"
  expectedEvents := [{
    eventType := "custom"
    fields := [("payload.result", .string "allow"), ("severity", .string "info")] }]

def strictEngine : ReplayEngine :=
  ofParts strict [⟨"custom", false, [("payload.result", .literal (.string "allow")),
    ("severity", .literal (.string "info"))]⟩] []

def strictRun : List SealedEvent :=
  [{ sampleSealed "s" 0 with payload := .object [("result", .string "deny")] }]

theorem loosens_of_strict :
    ofManifest strict = .ok strictEngine ∧ (strictEngine.replay strictRun).passed = false ∧
      (∃ looser, ofManifest (strict.withRule ⟨"payload.result", .ignore⟩) = .ok looser ∧
        ∀ actual, (looser.replay actual).Loosens (strictEngine.replay actual)) ∧
      (∃ looser, ofManifest { strict with expectedEvents := [{
          eventType := "custom"
          fields := [("severity", .string "info")] }] } = .ok looser ∧
        ∀ actual, (looser.replay actual).Loosens (strictEngine.replay actual)) := by
  refine ⟨rfl, by decide +kernel, ?_, ?_⟩
  · refine (loosens_of_loosened rfl).1 [⟨"payload.result", .ignore⟩] (List.nil_subset _) ?_
    rw [List.forall_mem_singleton]
    exact ⟨_, rfl⟩
  · exact (loosens_of_loosened rfl).2 rfl _ (.cons ⟨rfl, rfl, List.sublist_cons_self _ _⟩ .nil)

end Manifest

end AuditTrail
