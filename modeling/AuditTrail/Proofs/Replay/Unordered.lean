import AuditTrail.Proofs.Replay.Correlated

/-!
Replay by a key that tells the expectations apart. No event then correlates with two of them, so the
pairs do not depend on which event is met first: a replay passes exactly if every event correlates
with some expectation and every expectation with one event, which suits it, or with none if it is
optional. The order of the events does not matter.
-/

namespace AuditTrail

namespace ReplayEngine

/-- Every expectation declares a literal at a key, and no two of them the same. -/
structure Distinguished (key : String) (expected : List Expectation) : Prop where
  declared : ∀ one ∈ expected, ∃ wanted, correlation? key one = some wanted
  apart : expected.Pairwise fun one other => ∀ wanted literal,
    correlation? key one = some wanted → correlation? key other = some literal →
      wanted.same literal = false

def Exclusive (key : String) (expected : List Expectation) : Prop :=
  expected.Pairwise fun one other => ∀ event,
    correlates key one event = true → correlates key other event = false

theorem Distinguished.exclusive {key : String} {expected : List Expectation}
    (distinguished : Distinguished key expected) : Exclusive key expected := by
  refine distinguished.apart.imp_of_mem fun {one other} inside insideToo apart event goes => ?_
  obtain ⟨wanted, declared⟩ := distinguished.declared one inside
  obtain ⟨literal, declaredToo⟩ := distinguished.declared other insideToo
  rw [Bool.eq_false_iff]
  intro goesToo
  obtain ⟨found, there, same⟩ := (correlates_iff.mp goes).1 wanted declared
  obtain ⟨again, thereToo, sameToo⟩ := (correlates_iff.mp goesToo).1 literal declaredToo
  obtain rfl : found = again := Option.some.inj (there.symm.trans thereToo)
  have both := Json.same_trans (Json.same_symm same) sameToo
  rw [apart wanted literal declared declaredToo] at both
  cases both

/-- What a run without failures holds for one expectation. -/
def Served (engine : ReplayEngine) (key : String) (events : List SealedEvent)
    (expected : Expectation) : Prop :=
  (events.filter (correlates key expected) = [] ∧ expected.optional = true) ∨
    ∃ event, events.filter (correlates key expected) = [event] ∧ engine.Suits expected event

/-- What a run without failures holds, in whatever order. -/
structure Covers (engine : ReplayEngine) (key : String) (expected : List Expectation)
    (events : List SealedEvent) : Prop where
  served : ∀ one ∈ expected, engine.Served key events one
  claimed : ∀ event ∈ events, ∃ one ∈ expected, correlates key one event = true

variable {engine : ReplayEngine} {key : String} {expected : Expectation} {rest : List Expectation}
  {event : SealedEvent} {events others : List SealedEvent}

theorem Covers.perm (covers : engine.Covers key rest events) (same : events.Perm others) :
    engine.Covers key rest others where
  served one inside := by
    have own := same.filter (correlates key one)
    rcases covers.served one inside with ⟨none, optional⟩ | ⟨event, alone, suits⟩
    · exact .inl ⟨(none ▸ own).symm.eq_nil, optional⟩
    · exact .inr ⟨event, (alone ▸ own).symm.eq_singleton, suits⟩
  claimed event member := covers.claimed event (same.mem_iff.mpr member)

theorem covers_cons_of_none (none : ∀ event ∈ events, correlates key expected event = false) :
    engine.Covers key (expected :: rest) events ↔
      expected.optional = true ∧ engine.Covers key rest events := by
  have nobody : events.filter (correlates key expected) = [] :=
    List.filter_eq_nil_iff.mpr fun event member => by simp [none event member]
  constructor
  · intro covers
    refine ⟨?_, fun one inside => covers.served one (List.mem_cons_of_mem _ inside), ?_⟩
    · rcases covers.served expected List.mem_cons_self with ⟨-, optional⟩ | ⟨event, alone, -⟩
      · exact optional
      · rw [nobody] at alone
        cases alone
    · intro event member
      obtain ⟨one, inside, goes⟩ := covers.claimed event member
      rcases List.mem_cons.mp inside with rfl | later
      · rw [none event member] at goes
        cases goes
      · exact ⟨one, later, goes⟩
  · rintro ⟨optional, covers⟩
    refine ⟨List.forall_mem_cons.mpr ⟨.inl ⟨nobody, optional⟩, covers.served⟩, ?_⟩
    intro event member
    obtain ⟨one, inside, goes⟩ := covers.claimed event member
    exact ⟨one, List.mem_cons_of_mem _ inside, goes⟩

theorem covers_cons_of_correlates (exclusive : Exclusive key (expected :: rest))
    (goes : correlates key expected event = true) :
    engine.Covers key (expected :: rest) (event :: events) ↔
      engine.Suits expected event ∧ engine.Covers key rest events := by
  have apart := (List.pairwise_cons.mp exclusive).1
  -- The event is the first one's alone, so the other expectations do not see it.
  have unseen : ∀ one ∈ rest, (event :: events).filter (correlates key one) =
      events.filter (correlates key one) := fun one inside =>
    List.filter_cons_of_neg (by simp [apart one inside event goes])
  have own : (event :: events).filter (correlates key expected) =
      event :: events.filter (correlates key expected) := List.filter_cons_of_pos goes
  constructor
  · intro covers
    rcases covers.served expected List.mem_cons_self with ⟨none, -⟩ | ⟨other, alone, suits⟩
    · rw [own] at none
      cases none
    · rw [own] at alone
      obtain ⟨rfl, nobody⟩ := List.cons.inj alone
      refine ⟨suits, fun one inside => ?_, fun other member => ?_⟩
      · have served := covers.served one (List.mem_cons_of_mem _ inside)
        rwa [Served, unseen one inside] at served
      · obtain ⟨one, inside, goesToo⟩ := covers.claimed other (List.mem_cons_of_mem _ member)
        rcases List.mem_cons.mp inside with rfl | later
        · exact absurd goesToo (List.filter_eq_nil_iff.mp nobody other member)
        · exact ⟨one, later, goesToo⟩
  · rintro ⟨suits, covers⟩
    have nobody : events.filter (correlates key expected) = [] := by
      refine List.filter_eq_nil_iff.mpr fun other member goesToo => ?_
      obtain ⟨one, inside, claimed⟩ := covers.claimed other member
      rw [apart one inside other goesToo] at claimed
      cases claimed
    refine ⟨List.forall_mem_cons.mpr ⟨.inr ⟨event, ?_, suits⟩, fun one inside => ?_⟩, ?_⟩
    · rw [own, nobody]
    · rw [Served, unseen one inside]
      exact covers.served one inside
    · refine List.forall_mem_cons.mpr ⟨⟨expected, List.mem_cons_self, goes⟩, fun other member => ?_⟩
      obtain ⟨one, inside, claimed⟩ := covers.claimed other member
      exact ⟨one, List.mem_cons_of_mem _ inside, claimed⟩

theorem passes_iff_covers {actual : List SealedEvent} {free : List (Nat × SealedEvent)}
    {index : Nat} (exclusive : Exclusive key rest) (behind : engine.expected.drop index = rest)
    (held : ∀ entry ∈ free, actual[entry.1]? = some entry.2)
    (distinct : (free.map Prod.fst).Nodup) :
    (∀ pairing ∈ pairByKey key free index rest,
      (engine.comparePair actual pairing).status.isFailure = false) ↔
    engine.Covers key rest (free.map Prod.snd) := by
  induction rest generalizing free index with
  | nil =>
      cases free with
      | nil => exact ⟨fun _ => ⟨by simp, by simp⟩, by simp [pairByKey]⟩
      | cons entry free =>
          constructor
          · intro fine
            have failed := fine (.actualOnly entry.1) List.mem_cons_self
            rw [isFailure_actualOnly] at failed
            cases failed
          · intro covers
            obtain ⟨one, inside, -⟩ := covers.claimed entry.2 List.mem_cons_self
            cases inside
  | cons expected rest ih =>
      have wanted : engine.expected[index]? = some expected := by
        rw [← List.head?_drop, behind, List.head?_cons]
      have later : engine.expected.drop (index + 1) = rest := by
        rw [← List.tail_drop, behind, List.tail_cons]
      have exclusiveLater := (List.pairwise_cons.mp exclusive).2
      rw [pairByKey]
      split
      · rename_i place event found
        have goes : correlates key expected event = true := by simpa using List.find?_some found
        have member := List.mem_of_find?_eq_some found
        have left : ((free.filter fun entry => entry.1 ≠ place).map Prod.fst).Nodup :=
          distinct.sublist (List.filter_sublist.map Prod.fst)
        have others := ih exclusiveLater later
          (fun entry inside => held entry (List.mem_of_mem_filter inside)) left
        have same := (perm_cons_filter distinct member).map Prod.snd
        rw [List.forall_mem_cons, isFailure_both wanted (held _ member), others,
          ← covers_cons_of_correlates exclusive goes]
        exact ⟨fun covers => covers.perm same.symm, fun covers => covers.perm same⟩
      · rename_i missing
        have none : ∀ event ∈ free.map Prod.snd, correlates key expected event = false := by
          refine List.forall_mem_map.mpr fun entry inside => ?_
          simpa using List.find?_eq_none.mp missing entry inside
        rw [List.forall_mem_cons, isFailure_expectedOnly wanted,
          ih exclusiveLater later held distinct, covers_cons_of_none none]

theorem passed_iff_covers {actual : List SealedEvent}
    (correlated : engine.correlationKey = some key) (exclusive : Exclusive key engine.expected) :
    (engine.replay actual).passed = true ↔ engine.Covers key engine.expected actual := by
  have distinct : ((numbered 0 actual).map Prod.fst).Nodup := by
    rw [map_fst_numbered]
    exact List.nodup_range'
  have whole := passes_iff_covers exclusive List.drop_zero
    (fun _ member => getElem?_of_mem_numbered member) distinct
  rw [map_snd_numbered] at whole
  rw [ReplayReport.passed_iff, ← whole]
  simp only [replay, List.forall_mem_map, pairings_of_key correlated]

end ReplayEngine

namespace Manifest

open ReplayEngine

/-- With a correlation key that tells the expectations apart, a run passes in any order or in none,
and does so exactly if it holds what the expectations ask for. -/
theorem passed_in_any_order {manifest : Manifest} {engine : ReplayEngine} {key : String}
    (compiled : ofManifest manifest = .ok engine) (correlated : manifest.correlationKey = some key)
    (distinguished : Distinguished key engine.expected) {actual permuted : List SealedEvent}
    (reordered : actual.Perm permuted) :
    (engine.replay permuted).passed = (engine.replay actual).passed ∧
      ((engine.replay actual).passed = true ↔ engine.Covers key engine.expected actual) := by
  obtain ⟨expected, rules, -, -, rfl⟩ := ofManifest_eq_ok_iff.mp compiled
  have whole (actual : List SealedEvent) :=
    @passed_iff_covers _ key actual correlated distinguished.exclusive
  refine ⟨?_, whole actual⟩
  rw [Bool.eq_iff_iff, whole, whole]
  exact ⟨fun covers => covers.perm reordered.symm, fun covers => covers.perm reordered⟩

def stepped : Manifest where
  name := "m"
  expectedEvents := [
    { eventType := "custom", fields := [("payload.step", .string "a")] },
    { eventType := "custom", optional := true, fields := [("payload.step", .string "c")] },
    { eventType := "custom", fields := [("payload.step", .string "b")] }]
  correlationKey := some "payload.step"

def steppedEngine : ReplayEngine :=
  ofParts stepped [
    ⟨"custom", false, [("payload.step", .literal (.string "a"))]⟩,
    ⟨"custom", true, [("payload.step", .literal (.string "c"))]⟩,
    ⟨"custom", false, [("payload.step", .literal (.string "b"))]⟩] []

theorem distinguished_stepped : Distinguished "payload.step" steppedEngine.expected where
  declared := by
    simp [steppedEngine, ofParts, correlation?, Matcher.literalAmong?, Matcher.literalAt?]
  apart := by
    simp [steppedEngine, ofParts, correlation?, Matcher.literalAmong?, Matcher.literalAt?,
      Json.same]

theorem passed_of_reversed :
    ofManifest stepped = .ok steppedEngine ∧
      Distinguished "payload.step" steppedEngine.expected ∧
      crossedRun.Perm crossedRun.reverse ∧
      (steppedEngine.replay crossedRun.reverse).passed = true ∧
      steppedEngine.Covers "payload.step" steppedEngine.expected crossedRun := by
  have compiled : ofManifest stepped = .ok steppedEngine := rfl
  have reordered : crossedRun.Perm crossedRun.reverse := crossedRun.reverse_perm.symm
  have passed : (steppedEngine.replay crossedRun).passed = true := by decide +kernel
  obtain ⟨same, covers⟩ := passed_in_any_order compiled rfl distinguished_stepped reordered
  exact ⟨compiled, distinguished_stepped, reordered, same.trans passed, covers.mp passed⟩

end Manifest

end AuditTrail
