import AuditTrail.Proofs.Replay.Alignment
import AuditTrail.Proofs.Replay.Compiled

/-!
What a replay tells of every event. However expectations and recorded events are paired, by
position or by a key, each expectation is told of once and in order, and each recorded event once,
so the numbers of a report add up to what was expected and to what was recorded.
-/

namespace AuditTrail

namespace ReplayReport

theorem count_expected (report : ReplayReport) :
    report.count .passed + report.count .failed + report.count .missing + report.count .skipped =
      report.events.countP fun event => event.status ≠ .unexpected := by
  simp only [count, ← List.countP_eq_length_filter]
  induction report.events with
  | nil => rfl
  | cons event rest ih => cases told : event.status <;> simp [told] at ih ⊢ <;> omega

theorem count_recorded (report : ReplayReport) :
    report.count .passed + report.count .failed + report.count .unexpected =
      report.events.countP fun event => event.status ≠ .missing ∧ event.status ≠ .skipped := by
  simp only [count, ← List.countP_eq_length_filter]
  induction report.events with
  | nil => rfl
  | cons event rest ih => cases told : event.status <;> simp [told] at ih ⊢ <;> omega

theorem map_pairing_of_both {events : List EventComparison}
    (both : ∀ event ∈ events, event.pairing.expected?.isSome ∧ event.pairing.actual?.isSome) :
    events.map (·.pairing) = List.zipWith Pairing.both
      (events.filterMap (·.pairing.expected?)) (events.filterMap (·.pairing.actual?)) := by
  induction events with
  | nil => rfl
  | cons event rest ih =>
      obtain ⟨expected, recorded⟩ := both event List.mem_cons_self
      have later := ih fun other member => both other (List.mem_cons_of_mem _ member)
      cases told : event.pairing with
      | both index place => simp [Pairing.expected?, Pairing.actual?, told, later]
      | expectedOnly index => simp [Pairing.actual?, told] at recorded
      | actualOnly place => simp [Pairing.expected?, told] at expected

end ReplayReport

namespace ReplayEngine

variable {engine : ReplayEngine} {actual : List SealedEvent} {pairing : Pairing}

/-! ### Pairings -/

theorem expected_pairByPosition (index next : Nat) (rest : List Expectation) :
    (pairByPosition actual index next rest).filterMap Pairing.expected? =
      List.range' index rest.length := by
  induction rest generalizing index next with
  | nil =>
      rw [pairByPosition, List.filterMap_map]
      exact List.filterMap_eq_nil_iff.mpr fun _ _ => rfl
  | cons expected rest ih =>
      rw [pairByPosition, List.length_cons, List.range'_succ]
      split
      · split <;> exact congrArg (index :: ·) (ih _ _)
      · exact congrArg (index :: ·) (ih _ _)

theorem actual_pairByPosition (index : Nat) {next : Nat} (bound : next ≤ actual.length)
    (rest : List Expectation) :
    (pairByPosition actual index next rest).filterMap Pairing.actual? =
      List.range' next (actual.length - next) := by
  induction rest generalizing index next with
  | nil =>
      rw [pairByPosition, List.filterMap_map]
      exact List.filterMap_some
  | cons expected rest ih =>
      rw [pairByPosition]
      split
      · rename_i event found
        obtain ⟨ahead, -⟩ := List.getElem?_eq_some_iff.mp found
        split
        · have left : actual.length - next = actual.length - (next + 1) + 1 := by omega
          rw [left, List.range'_succ]
          exact congrArg (next :: ·) (ih (index + 1) ahead)
        · exact ih (index + 1) bound
      · exact ih (index + 1) bound

theorem expected_pairByKey (key : String) (free : List (Nat × SealedEvent)) (index : Nat)
    (rest : List Expectation) :
    (pairByKey key free index rest).filterMap Pairing.expected? = List.range' index rest.length := by
  induction rest generalizing free index with
  | nil =>
      rw [pairByKey, List.filterMap_map]
      exact List.filterMap_eq_nil_iff.mpr fun _ _ => rfl
  | cons expected rest ih =>
      rw [pairByKey, List.length_cons, List.range'_succ]
      split <;> exact congrArg (index :: ·) (ih _ _)

def numbered (first : Nat) (events : List SealedEvent) : List (Nat × SealedEvent) :=
  (events.zipIdx first).map fun (event, place) => (place, event)

theorem numbered_cons (first : Nat) (event : SealedEvent) (rest : List SealedEvent) :
    numbered first (event :: rest) = (first, event) :: numbered (first + 1) rest := rfl

theorem map_fst_numbered (first : Nat) (events : List SealedEvent) :
    (numbered first events).map Prod.fst = List.range' first events.length := by
  rw [numbered, List.map_map, ← List.zipIdx_map_snd first events]
  rfl

theorem map_snd_numbered (first : Nat) (events : List SealedEvent) :
    (numbered first events).map Prod.snd = events := by
  rw [numbered, List.map_map]
  exact List.zipIdx_map_fst first events

theorem getElem?_of_mem_numbered {events : List SealedEvent} {entry : Nat × SealedEvent}
    (member : entry ∈ numbered 0 events) : events[entry.1]? = some entry.2 := by
  obtain ⟨counted, inside, rfl⟩ := List.mem_map.mp member
  exact List.mem_zipIdx_iff_getElem?.mp inside

theorem pairings_of_key {key : String} (correlated : engine.correlationKey = some key)
    (actual : List SealedEvent) :
    engine.pairings actual = pairByKey key (numbered 0 actual) 0 engine.expected := by
  rw [pairings, correlated]
  rfl

theorem perm_cons_filter {free : List (Nat × SealedEvent)} (distinct : (free.map Prod.fst).Nodup)
    {taken : Nat × SealedEvent} (member : taken ∈ free) :
    free.Perm (taken :: free.filter fun entry => entry.1 ≠ taken.1) := by
  induction free with
  | nil => cases member
  | cons first rest ih =>
      obtain ⟨fresh, distinct⟩ := List.nodup_cons.mp distinct
      rcases List.mem_cons.mp member with rfl | later
      · have others : (rest.filter fun entry => entry.1 ≠ taken.1) = rest :=
          List.filter_eq_self.mpr fun entry inside => decide_eq_true fun same =>
            fresh (same ▸ List.mem_map_of_mem inside)
        rw [List.filter_cons_of_neg (by simp), others]
      · have different : first.1 ≠ taken.1 := fun same =>
          fresh (same ▸ List.mem_map_of_mem later)
        rw [List.filter_cons_of_pos (by simpa using different)]
        exact ((ih distinct later).cons first).trans (.swap _ _ _)

theorem actual_pairByKey (key : String) {free : List (Nat × SealedEvent)}
    (distinct : (free.map Prod.fst).Nodup) (index : Nat) (rest : List Expectation) :
    ((pairByKey key free index rest).filterMap Pairing.actual?).Perm (free.map Prod.fst) := by
  induction rest generalizing free index with
  | nil =>
      rw [pairByKey, List.filterMap_map]
      exact .of_eq (List.filterMap_eq_map' ▸ rfl)
  | cons expected rest ih =>
      rw [pairByKey]
      split
      · rename_i place event found
        have taken := perm_cons_filter distinct (List.mem_of_find?_eq_some found)
        have left : ((free.filter fun entry => entry.1 ≠ place).map Prod.fst).Nodup :=
          distinct.sublist (List.filter_sublist.map Prod.fst)
        exact ((ih left (index + 1)).cons place).trans (taken.map Prod.fst).symm
      · exact ih distinct (index + 1)

theorem expected_pairings (engine : ReplayEngine) (actual : List SealedEvent) :
    (engine.pairings actual).filterMap Pairing.expected? = List.range engine.expected.length := by
  rw [pairings, List.range_eq_range']
  split
  · exact expected_pairByKey _ _ _ _
  · exact expected_pairByPosition _ _ _

theorem actual_pairings (engine : ReplayEngine) (actual : List SealedEvent) :
    ((engine.pairings actual).filterMap Pairing.actual?).Perm (List.range actual.length) := by
  rw [List.range_eq_range']
  cases correlated : engine.correlationKey with
  | some key =>
      have numbers := map_fst_numbered 0 actual
      rw [pairings_of_key correlated, ← numbers]
      exact actual_pairByKey _ (numbers ▸ List.nodup_range') _ _
  | none =>
      rw [pairings, correlated]
      exact .of_eq (actual_pairByPosition 0 (Nat.zero_le _) engine.expected)

theorem exists_expected (inside : pairing ∈ engine.pairings actual) (index : Nat)
    (own : pairing.expected? = some index) : ∃ expected, engine.expected[index]? = some expected :=
  have listed := engine.expected_pairings actual ▸ List.mem_filterMap.mpr ⟨_, inside, own⟩
  ⟨_, List.getElem?_eq_getElem (List.mem_range.mp listed)⟩

theorem exists_recorded (inside : pairing ∈ engine.pairings actual) (index : Nat)
    (own : pairing.actual? = some index) : ∃ event, actual[index]? = some event :=
  have listed := (engine.actual_pairings actual).mem_iff.mp
    (List.mem_filterMap.mpr ⟨_, inside, own⟩)
  ⟨_, List.getElem?_eq_getElem (List.mem_range.mp listed)⟩

/-! ### Statuses -/

/-- What the status of a pairing's comparison tells of it. -/
structure StatusTells (engine : ReplayEngine) (pairing : Pairing) (status : EventStatus) :
    Prop where
  expected : status ≠ .unexpected ↔ pairing.expected?.isSome
  recorded : status ≠ .missing ∧ status ≠ .skipped ↔ pairing.actual?.isSome
  optional : status = .missing ∨ status = .skipped → ∃ index expected,
    pairing = .expectedOnly index ∧ engine.expected[index]? = some expected ∧
      (status = .skipped ↔ expected.optional = true)

theorem statusTells (inside : pairing ∈ engine.pairings actual) :
    engine.StatusTells pairing (engine.comparePair actual pairing).status := by
  cases pairing with
  | both index place =>
      obtain ⟨expected, wanted⟩ := exists_expected inside index rfl
      obtain ⟨event, found⟩ := exists_recorded inside place rfl
      rw [comparePair_both wanted found]
      dsimp only
      split <;> exact ⟨by simp [Pairing.expected?], by simp [Pairing.actual?], by simp⟩
  | expectedOnly index =>
      obtain ⟨expected, wanted⟩ := exists_expected inside index rfl
      have status : (engine.comparePair actual (.expectedOnly index)).status =
          if expected.optional then .skipped else .missing := by
        simp [comparePair, Pairing.expected?, Pairing.actual?, wanted]
      rw [status]
      refine ⟨?_, ?_, fun _ => ⟨index, expected, rfl, wanted, ?_⟩⟩ <;>
        cases expected.optional <;> simp [Pairing.expected?, Pairing.actual?]
  | actualOnly place =>
      obtain ⟨event, found⟩ := exists_recorded inside place rfl
      have status : (engine.comparePair actual (.actualOnly place)).status = .unexpected := by
        simp [comparePair, Pairing.expected?, Pairing.actual?, found]
      rw [status]
      exact ⟨by simp [Pairing.expected?], by simp [Pairing.actual?], by simp⟩

/-! ### Reports -/

theorem pairing_comparePair (engine : ReplayEngine) (actual : List SealedEvent)
    (pairing : Pairing) : (engine.comparePair actual pairing).pairing = pairing := by
  unfold comparePair
  dsimp only
  split <;> rfl

theorem pairings_replay (engine : ReplayEngine) (actual : List SealedEvent) :
    (engine.replay actual).events.map (·.pairing) = engine.pairings actual := by
  unfold replay
  rw [List.map_map]
  exact (List.map_congr_left fun pairing _ => engine.pairing_comparePair actual pairing).trans
    (List.map_id _)

theorem filterMap_replay {α : Type} (f : Pairing → Option α) (actual : List SealedEvent) :
    (engine.replay actual).events.filterMap (fun comparison => f comparison.pairing) =
      (engine.pairings actual).filterMap f := by
  rw [← pairings_replay, List.filterMap_map]
  rfl

theorem tells_of_mem {comparison : EventComparison}
    (member : comparison ∈ (engine.replay actual).events) :
    engine.StatusTells comparison.pairing comparison.status := by
  obtain ⟨pairing, inside, rfl⟩ := List.mem_map.mp member
  rw [pairing_comparePair]
  exact statusTells inside

theorem count_expected_replay (engine : ReplayEngine) (actual : List SealedEvent) :
    (engine.replay actual).events.countP (fun event => event.status ≠ .unexpected) =
      engine.expected.length := by
  have listed := congrArg List.length (engine.expected_pairings actual)
  rw [← filterMap_replay, List.length_filterMap_eq_countP, List.length_range] at listed
  rw [← listed]
  refine List.countP_congr fun comparison member => ?_
  simpa using (tells_of_mem member).expected

theorem count_recorded_replay (engine : ReplayEngine) (actual : List SealedEvent) :
    (engine.replay actual).events.countP (fun event =>
      event.status ≠ .missing ∧ event.status ≠ .skipped) = actual.length := by
  have listed := (engine.actual_pairings actual).length_eq
  rw [← filterMap_replay, List.length_filterMap_eq_countP, List.length_range] at listed
  rw [← listed]
  refine List.countP_congr fun comparison member => ?_
  simpa using (tells_of_mem member).recorded

/-- By position, what is not skipped in a run that passes are the recorded events in order, each
with an expectation. -/
theorem kept_of_passed (positional : engine.correlationKey = none)
    (passed : (engine.replay actual).passed = true) : ∃ kept,
      kept.Sublist (List.range engine.expected.length) ∧ kept.length = actual.length ∧
      ((engine.replay actual).events.filter fun comparison => comparison.status ≠ .skipped).map
        (·.pairing) = List.zipWith .both kept (List.range actual.length) := by
  generalize held : ((engine.replay actual).events.filter fun comparison =>
    comparison.status ≠ .skipped) = events
  have both : ∀ event ∈ events, event.pairing.expected?.isSome ∧ event.pairing.actual?.isSome := by
    subst held
    intro event member
    obtain ⟨inside, notSkipped⟩ := List.mem_filter.mp member
    have tells := tells_of_mem inside
    have fine := ReplayReport.passed_iff.mp passed event inside
    refine ⟨tells.expected.mp ?_, tells.recorded.mp ⟨?_, by simpa using notSkipped⟩⟩ <;>
    · intro status
      simp [status, EventStatus.isFailure] at fine
  have recorded : events.filterMap (·.pairing.actual?) = List.range actual.length := by
    -- A skipped comparison is of no recorded event.
    have all : (engine.replay actual).events.filterMap (·.pairing.actual?) =
        List.range actual.length := by
      rw [filterMap_replay Pairing.actual?, pairings, positional, List.range_eq_range']
      exact actual_pairByPosition 0 (Nat.zero_le _) engine.expected
    rw [← all, ← held, List.filterMap_filter]
    refine List.filterMap_congr fun comparison member => ?_
    split
    · rfl
    · rename_i skipped
      have tells := (tells_of_mem member).recorded
      cases told : comparison.pairing.actual? with
      | none => rfl
      | some place =>
          rw [told] at tells
          exact absurd (tells.mpr rfl).2 (by simpa using skipped)
  have paired := ReplayReport.map_pairing_of_both both
  rw [recorded] at paired
  refine ⟨_, ?_, ?_, paired⟩
  · rw [← engine.expected_pairings actual, ← filterMap_replay, ← held]
    exact List.filter_sublist.filterMap _
  · have each := congrArg List.length recorded
    rw [List.length_range, List.length_filterMap_eq_countP,
      List.countP_eq_length.mpr fun event member => (both event member).2] at each
    rw [List.length_filterMap_eq_countP,
      List.countP_eq_length.mpr fun event member => (both event member).1, each]

end ReplayEngine

namespace Manifest

open ReplayEngine

/-- What a report tells of the events of a manifest and of those that were recorded. -/
structure Accounted (manifest : Manifest) (actual : List SealedEvent) (report : ReplayReport) :
    Prop where
  expected : report.events.filterMap (·.pairing.expected?) =
    List.range manifest.expectedEvents.length
  recorded : (report.events.filterMap (·.pairing.actual?)).Perm (List.range actual.length)
  expectedNumber : report.expectedEvents = manifest.expectedEvents.length ∧
    report.count .passed + report.count .failed + report.count .missing + report.count .skipped =
      report.expectedEvents
  recordedNumber : report.actualEvents = actual.length ∧
    report.count .passed + report.count .failed + report.count .unexpected = report.actualEvents
  skipped : ∀ comparison ∈ report.events, comparison.status = .skipped → ∃ index event,
    comparison.pairing = .expectedOnly index ∧ manifest.expectedEvents[index]? = some event ∧
      event.optional = true
  passed : report.passed = true ↔ ∀ comparison ∈ report.events,
    comparison.status ≠ .failed ∧ comparison.status ≠ .missing ∧ comparison.status ≠ .unexpected
  /-- By position, a run that passes holds one event for each expectation that is not skipped. -/
  inOrder : manifest.correlationKey = none → report.passed = true → ∃ kept,
    kept.Sublist (List.range manifest.expectedEvents.length) ∧ kept.length = actual.length ∧
      (report.events.filter fun comparison => comparison.status ≠ .skipped).map (·.pairing) =
        List.zipWith .both kept (List.range actual.length)

variable {manifest : Manifest} {engine : ReplayEngine}

/-- Every event is accounted for once, whichever way events are paired. -/
theorem replay_accounted (compiled : ofManifest manifest = .ok engine)
    (actual : List SealedEvent) : manifest.Accounted actual (engine.replay actual) := by
  obtain ⟨expected, rules, events, -, rfl⟩ := ofManifest_eq_ok_iff.mp compiled
  generalize same : ofParts manifest expected rules = engine
  have own : engine.expected = expected := same ▸ rfl
  have length : engine.expected.length = manifest.expectedEvents.length :=
    own ▸ events.length_eq.symm
  refine ⟨?_, ?_, ⟨length, ?_⟩, ⟨rfl, ?_⟩, ?_, ?_, ?_⟩
  · rw [filterMap_replay Pairing.expected?, expected_pairings, length]
  · rw [filterMap_replay Pairing.actual?]
    exact actual_pairings engine actual
  · rw [ReplayReport.count_expected, count_expected_replay]
    rfl
  · rw [ReplayReport.count_recorded, count_recorded_replay]
    rfl
  · intro comparison member skipped
    obtain ⟨index, one, pairing, wanted, optional⟩ :=
      (tells_of_mem member).optional (Or.inr skipped)
    obtain ⟨bound, rfl⟩ := List.getElem?_eq_some_iff.mp (own ▸ wanted)
    have compiles := events.get (events.length_eq ▸ bound) bound
    exact ⟨index, _, pairing, List.getElem?_eq_getElem (events.length_eq ▸ bound),
      (compileEvent_eq_ok_iff.mp compiles).2.1 ▸ optional.mp skipped⟩
  · rw [ReplayReport.passed_iff]
    refine forall₂_congr fun comparison _ => ?_
    cases comparison.status <;> simp [EventStatus.isFailure]
  · intro positional passed
    rw [← length]
    have byPosition : engine.correlationKey = none := by rw [← same]; exact positional
    exact kept_of_passed byPosition passed

def crossed : Manifest where
  name := "m"
  expectedEvents := [
    { eventType := "custom", fields := [("payload.step", .string "a")] },
    { eventType := "other", optional := true },
    { eventType := "custom", fields := [("payload.step", .string "b")] }]
  correlationKey := some "payload.step"

def crossedEngine : ReplayEngine :=
  ofParts crossed [
    ⟨"custom", false, [("payload.step", .literal (.string "a"))]⟩,
    ⟨"other", true, []⟩,
    ⟨"custom", false, [("payload.step", .literal (.string "b"))]⟩] []

def crossedRun : List SealedEvent :=
  ["b", "a"].map fun step =>
    { sampleSealed "s" 0 with payload := .object [("step", .string step)] }

theorem accounted_of_crossed :
    ofManifest crossed = .ok crossedEngine ∧
      crossed.Accounted crossedRun (crossedEngine.replay crossedRun) ∧
      (crossedEngine.replay crossedRun).events.map (·.pairing) =
        [.both 0 1, .expectedOnly 1, .both 2 0] := by
  refine ⟨rfl, replay_accounted rfl crossedRun, ?_⟩
  rw [pairings_replay]
  decide +kernel

end Manifest

end AuditTrail
