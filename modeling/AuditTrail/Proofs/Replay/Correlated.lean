import AuditTrail.Proofs.Replay.Accounting
import AuditTrail.Proofs.Replay.Contained
import AuditTrail.Proofs.Replay.Paths
import Mathlib.Algebra.Order.BigOperators.Group.List

/-!
Replay of a run against the manifest derived from it, with a correlation key. It passes exactly if
every event correlates with the expectation that is derived from it. An expectation joins the keys
of nested objects by dots and a path is cut at its dots, so this can fail where a key of a payload
has a dot in it, and there only.
-/

namespace AuditTrail

/-! ### Literals by their paths -/

namespace Json

mutual

/-- Whether no key of an object, nor of the objects in its fields, has a dot. -/
def undotted : Json → Bool
  | .object fields => undottedFields fields
  | _ => true

def undottedFields : List (String × Json) → Bool
  | [] => true
  | (key, value) :: rest => !key.toList.contains '.' && undotted value && undottedFields rest

end

theorem undotted_object_iff {fields : List (String × Json)} :
    (object fields).undotted = true ↔
      ∀ field ∈ fields, '.' ∉ field.1.toList ∧ field.2.undotted = true := by
  rw [undotted]
  induction fields with
  | nil => simp [undottedFields]
  | cons field rest ih => simp [undottedFields, ih]

end Json

namespace Path

theorem follow_cons_object (fields : List (String × Json)) (key : String) (rest : List String) :
    follow (some (.object fields)) (key :: rest) = follow (Table.find? key fields) rest := rfl

theorem sameFound_child? {first second : Json} (same : first.same second = true)
    (segment : String) : Json.SameFound (child? first segment) (child? second segment) := by
  cases first with
  | object fields =>
      obtain ⟨others, rfl, -⟩ := Json.object_same_iff.mp same
      exact Json.find?_of_same same segment
  | array items =>
      obtain ⟨others, rfl, paired⟩ := Json.array_same_iff.mp same
      simp only [child?]
      cases index? segment with
      | none => exact .none
      | some index => exact rel_getElem? paired index
  | _ => cases second <;> first | exact .none | simp [Json.same] at same

theorem sameFound_follow {first second : Option Json} (same : Json.SameFound first second)
    (place : List String) : Json.SameFound (follow first place) (follow second place) := by
  induction place generalizing first second with
  | nil => exact same
  | cons segment rest ih =>
      refine ih ?_
      cases same with
      | none => exact .none
      | some same => exact sameFound_child? same segment

end Path

namespace Matcher

theorem toList_of_below? {path key rest : String} (below : below? path key = some rest) :
    key.toList = path.toList ++ '.' :: rest.toList := by
  unfold below? at below
  split at below
  · rename_i chars dropped
    split at below
    · rename_i begins
      obtain ⟨back, whole⟩ := List.isPrefixOf_iff_prefix.mp begins
      obtain rfl := Option.some.inj below
      rw [← whole, List.drop_left] at dropped
      rw [← whole, dropped, String.toList_ofList]
    · cases below
  · cases below

theorem segments_of_below? {path key rest : String} (whole : Path.segments path = [path])
    (below : below? path key = some rest) : Path.segments key = path :: Path.segments rest := by
  rw [Path.segments, toList_of_below? below, Path.splitDots_append, List.map_append]
  exact congrArg (· ++ Path.segments rest) whole

theorem exists_of_literalAmong? {key : String} {children : List (String × Matcher)} {wanted : Json}
    (found : literalAmong? key children = some wanted) :
    ∃ child ∈ children, literalAt? child.1 key child.2 = some wanted := by
  induction children with
  | nil => cases found
  | cons child rest ih =>
      rw [literalAmong?] at found
      split at found
      · rename_i here
        exact ⟨child, List.mem_cons_self, here.trans found⟩
      · obtain ⟨other, member, there⟩ := ih found
        exact ⟨other, List.mem_cons_of_mem _ member, there⟩

variable {name key : String} {wanted : Json}

theorem literalAt?_literal {value : Json} :
    literalAt? name key (.literal value) = some wanted ↔ name = key ∧ value = wanted := by
  simp [literalAt?]

theorem exists_of_literalAt?_every {children : List (String × Matcher)}
    (found : literalAt? name key (.every children) = some wanted) :
    ∃ rest, below? name key = some rest ∧
      ∃ child ∈ children, literalAt? child.1 rest child.2 = some wanted := by
  rw [literalAt?] at found
  split at found
  · rename_i rest below
    exact ⟨rest, below, exists_of_literalAmong? found⟩
  · cases found

theorem segments_of_literalAt? {matcher : Matcher} (whole : Path.segments name = [name])
    (found : literalAt? name key matcher = some wanted) :
    ∃ rest, Path.segments key = name :: rest := by
  cases matcher with
  | literal value =>
      obtain ⟨rfl, -⟩ := literalAt?_literal.mp found
      exact ⟨[], whole⟩
  | every children =>
      obtain ⟨rest, below, -⟩ := exists_of_literalAt?_every found
      exact ⟨_, segments_of_below? whole below⟩
  | present | pattern => simp [literalAt?] at found

theorem follow_of_literalAt? {value : Json} (normal : value.Normal)
    (undotted : value.undotted = true) (whole : Path.segments name = [name])
    (found : literalAt? name key (ofValue value) = some wanted) :
    ∃ rest, Path.segments key = name :: rest ∧ Path.follow (some value) rest = some wanted := by
  have literal {name key : String} {value : Json} (whole : Path.segments name = [name])
      (found : literalAt? name key (.literal value) = some wanted) :
      ∃ rest, Path.segments key = name :: rest ∧ Path.follow (some value) rest = some wanted := by
    obtain ⟨rfl, rfl⟩ := literalAt?_literal.mp found
    exact ⟨[], whole, rfl⟩
  -- On the value; each name that is taken off the key is that of one field.
  induction value using Json.structural generalizing name key with
  | object fields each =>
      rw [ofValue] at found
      split at found
      · exact literal whole found
      · obtain ⟨ordered, parts⟩ := Json.normal_object_iff.mp normal
        rw [ofValues_eq_map] at found
        obtain ⟨below, taken, _, listed, there⟩ := exists_of_literalAt?_every found
        obtain ⟨field, member, rfl⟩ := List.mem_map.mp listed
        obtain ⟨undottedKey, undotted⟩ := Json.undotted_object_iff.mp undotted field member
        obtain ⟨rest, tail, leads⟩ := each field member (parts field member) undotted
          (Path.segments_of_undotted undottedKey) there
        refine ⟨field.1 :: rest, ?_, ?_⟩
        · rw [segments_of_below? whole taken, tail]
        · rw [Path.follow_cons_object, ordered.find?_of_mem member]
          exact leads
  | _ => exact literal whole found

end Matcher

namespace ReplayEngine

variable {engine : ReplayEngine} {key : String} {actual : List SealedEvent}

theorem correlates_iff {expected : Expectation} {event : SealedEvent} :
    correlates key expected event = true ↔
      (∀ wanted, correlation? key expected = some wanted →
        ∃ found, Path.lookup? (document event) key = some found ∧ found.same wanted = true) ∧
      (correlation? key expected = none → event.eventType = expected.eventType) := by
  unfold correlates
  cases correlation? key expected <;> simp [Option.any_eq_true]

/-! ### Pairing by key -/

theorem pairByKey_of_correlates {rest : List Expectation}
    (own : List.Forall₂ (fun expected event => correlates key expected event = true) rest actual)
    (index : Nat) :
    pairByKey key (numbered index actual) index rest =
      (List.range' index rest.length).map fun place => .both place place := by
  induction own generalizing index with
  | nil => rfl
  | @cons expected event rest actual goes _ ih =>
      have others : ((numbered (index + 1) actual).filter fun entry => entry.1 ≠ index) =
          numbered (index + 1) actual := by
        refine List.filter_eq_self.mpr fun entry member => ?_
        have listed := List.mem_map_of_mem (f := Prod.fst) member
        rw [map_fst_numbered, List.mem_range'_1] at listed
        exact decide_eq_true (by omega)
      have first : (numbered index (event :: actual)).find?
          (fun entry => correlates key expected entry.2) = some (index, event) :=
        List.find?_cons_of_pos goes
      rw [pairByKey, first, List.length_cons, List.range'_succ, List.map_cons, ← ih (index + 1)]
      dsimp only
      rw [numbered_cons, List.filter_cons_of_neg (by simp), others]

/-- When the pairs of the rest pass, the events that are free are, in some order, one event for each
expectation, which suits it and correlates with it. -/
theorem exists_perm_of_pairs {rest : List Expectation} {free : List (Nat × SealedEvent)}
    {index : Nat} (behind : engine.expected.drop index = rest)
    (required : ∀ expected ∈ rest, expected.optional = false)
    (held : ∀ entry ∈ free, actual[entry.1]? = some entry.2)
    (distinct : (free.map Prod.fst).Nodup)
    (fine : ∀ pairing ∈ pairByKey key free index rest,
      (engine.comparePair actual pairing).status.isFailure = false) :
    ∃ others, others.Perm (free.map Prod.snd) ∧ List.Forall₂ (fun expected event =>
      engine.Suits expected event ∧ correlates key expected event = true) rest others := by
  induction rest generalizing free index with
  | nil =>
      cases free with
      | nil => exact ⟨[], .refl _, .nil⟩
      | cons entry free =>
          have failed := fine (.actualOnly entry.1) List.mem_cons_self
          rw [isFailure_actualOnly] at failed
          cases failed
  | cons expected rest ih =>
      have wanted : engine.expected[index]? = some expected := by
        rw [← List.head?_drop, behind, List.head?_cons]
      have later : engine.expected.drop (index + 1) = rest := by
        rw [← List.tail_drop, behind, List.tail_cons]
      have requiredLater := fun other member => required other (List.mem_cons_of_mem _ member)
      rw [pairByKey] at fine
      split at fine
      · rename_i place event found
        have goes : correlates key expected event = true := by simpa using List.find?_some found
        rw [List.forall_mem_cons] at fine
        have member := List.mem_of_find?_eq_some found
        have left : ((free.filter fun entry => entry.1 ≠ place).map Prod.fst).Nodup :=
          distinct.sublist (List.filter_sublist.map Prod.fst)
        obtain ⟨others, same, paired⟩ := ih later requiredLater
          (fun entry inside => held entry (List.mem_of_mem_filter inside)) left fine.2
        refine ⟨event :: others, ?_, .cons ⟨?_, goes⟩ paired⟩
        · exact (same.cons event).trans ((perm_cons_filter distinct member).map Prod.snd).symm
        · exact (isFailure_both wanted (held _ member)).mp fine.1
      · have failed := fine _ List.mem_cons_self
        rw [isFailure_expectedOnly wanted, required expected List.mem_cons_self] at failed
        cases failed

theorem exists_perm_of_passed (correlated : engine.correlationKey = some key)
    (required : ∀ expected ∈ engine.expected, expected.optional = false)
    (passed : (engine.replay actual).passed = true) :
    ∃ others, others.Perm actual ∧ List.Forall₂ (fun expected event =>
      engine.Suits expected event ∧ correlates key expected event = true) engine.expected others := by
  have fine := ReplayReport.passed_iff.mp passed
  simp only [replay, List.forall_mem_map, pairings_of_key correlated] at fine
  have distinct : ((numbered 0 actual).map Prod.fst).Nodup := by
    rw [map_fst_numbered]
    exact List.nodup_range'
  obtain ⟨others, same, paired⟩ := exists_perm_of_pairs (List.drop_zero) required
    (fun _ member => getElem?_of_mem_numbered member) distinct fine
  exact ⟨others, map_snd_numbered 0 actual ▸ same, paired⟩

end ReplayEngine

/-! ### The run of a derived manifest -/

theorem forall₂_of_sum_le {α : Type} (size : α → Nat) {Goes : α → α → Prop} {items others : List α}
    (paired : List.Forall₂ Goes items others)
    (more : ∀ item other, Goes item other → size item ≤ size other)
    (less : (others.map size).sum ≤ (items.map size).sum) :
    List.Forall₂ (fun item other => Goes item other ∧ size other ≤ size item) items others := by
  induction paired with
  | nil => exact .nil
  | @cons item other items others goes rest ih =>
      have first := more item other goes
      have later : (items.map size).sum ≤ (others.map size).sum :=
        List.Forall₂.sum_le_sum
          (List.forall₂_map_left_iff.mpr (List.forall₂_map_right_iff.mpr (rest.imp more)))
      simp only [List.map_cons, List.sum_cons] at less
      exact .cons ⟨goes, by omega⟩ (ih (by omega))

namespace Manifest

open ReplayEngine

variable {key : String} {event other : SealedEvent}

theorem mem_ownValues_payload (event : SealedEvent) : ("payload", event.payload) ∈ ownValues event := by
  refine Table.mem_of_find? ?_
  rw [ownValues, Table.find?_ofList, ownEntries]
  split <;> simp [Table.lastOf]

theorem fieldCount_of_suits {engine : ReplayEngine} (bare : engine.Bare)
    (normal : event.payload.Normal) (normalOther : other.payload.Normal)
    (suits : engine.Suits (ownExpectation event) other) :
    event.payload.fieldCount ≤ other.payload.fieldCount ∧
      (other.payload.fieldCount ≤ event.payload.fieldCount →
        event.payload.same other.payload = true) := by
  have holds := suits.2 _ (List.mem_map_of_mem (mem_ownValues_payload event))
  rw [lookup?_ownValues normalOther _ (mem_ownValues_payload other)] at holds
  exact bare.fieldCount_le normal normalOther holds

theorem exists_of_correlation? {wanted : Json}
    (found : correlation? key (ownExpectation event) = some wanted) :
    ∃ entry ∈ ownValues event, Matcher.literalAt? entry.1 key (.ofValue entry.2) = some wanted := by
  obtain ⟨_, listed, there⟩ := Matcher.exists_of_literalAmong? found
  obtain ⟨entry, member, rfl⟩ := List.mem_map.mp listed
  exact ⟨entry, member, there⟩

theorem lookup?_below {entry : String × Json} (normal : event.payload.Normal)
    (member : entry ∈ ownValues event) {rest : List String}
    (begins : Path.segments key = entry.1 :: rest) :
    Path.lookup? (document event) key = Path.follow (some entry.2) rest := by
  have whole := lookup?_ownValues normal entry member
  rw [Path.lookup?_eq_follow, segments_of_mem_ownValues event entry member] at whole
  rw [Path.lookup?_eq_follow, begins]
  exact congrArg (Path.follow · rest) whole

theorem undotted_of_mem_ownValues (event : SealedEvent) : ∀ entry ∈ ownValues event,
    entry = ("payload", event.payload) ∨ entry.2.undotted = true := by
  refine forall_mem_ownValues (.inr ?_) (.inr rfl) (.inl rfl) (.inr rfl)
  rw [Actor.normalize_toJson, Json.undotted_object_iff]
  simp [Json.undotted]

theorem lookup?_of_correlation? {entry : String × Json} {wanted : Json}
    (normal : event.payload.Normal) (member : entry ∈ ownValues event)
    (undotted : entry.2.undotted = true)
    (named : Matcher.literalAt? entry.1 key (.ofValue entry.2) = some wanted) :
    Path.lookup? (document event) key = some wanted := by
  obtain ⟨rest, begins, leads⟩ := Matcher.follow_of_literalAt?
    (normal_of_mem_ownValues normal entry member) undotted
    (segments_of_mem_ownValues event entry member) named
  rw [lookup?_below normal member begins, leads]

theorem correlates_of_undotted (normal : event.payload.Normal)
    (undotted : event.payload.undotted = true) : correlates key (ownExpectation event) event = true := by
  refine correlates_iff.mpr ⟨fun wanted named => ?_, fun _ => rfl⟩
  obtain ⟨entry, member, there⟩ := exists_of_correlation? named
  have parts : entry.2.undotted = true := by
    rcases undotted_of_mem_ownValues event entry member with rfl | parts
    · exact undotted
    · exact parts
  exact ⟨wanted, lookup?_of_correlation? normal member parts there, Json.same_refl wanted⟩

theorem correlates_of_same (normal : event.payload.Normal) (normalOther : other.payload.Normal)
    (same : event.payload.same other.payload = true)
    (goes : correlates key (ownExpectation event) other = true) :
    correlates key (ownExpectation event) event = true := by
  refine correlates_iff.mpr ⟨fun wanted named => ?_, fun _ => rfl⟩
  obtain ⟨entry, member, there⟩ := exists_of_correlation? named
  rcases undotted_of_mem_ownValues event entry member with rfl | undotted
  · obtain ⟨rest, begins⟩ := Matcher.segments_of_literalAt?
      (segments_of_mem_ownValues event _ member) there
    obtain ⟨found, inOther, holds⟩ := (correlates_iff.mp goes).1 wanted named
    have alike := Path.sameFound_follow (.some same) rest
    rw [lookup?_below normalOther (mem_ownValues_payload other) begins] at inOther
    rw [inOther] at alike
    rw [lookup?_below normal member begins]
    revert alike
    generalize Path.follow (some event.payload) rest = own
    rintro (agrees | _)
    exact ⟨_, rfl, Json.same_trans agrees holds⟩
  · exact ⟨wanted, lookup?_of_correlation? normal member undotted there, Json.same_refl wanted⟩

section

variable {engine : ReplayEngine} {events : List SealedEvent}
  (normal : ∀ event ∈ events, event.payload.Normal)
  (expects : engine.expected = events.map ownExpectation)
  (correlated : engine.correlationKey = some key)

include normal expects correlated

theorem passed_of_correlates
    (own : ∀ event ∈ events, correlates key (ownExpectation event) event = true) :
    (engine.replay events).passed = true := by
  have pairs : engine.pairings events =
      (List.range engine.expected.length).map fun index => .both index index := by
    rw [pairings_of_key correlated, List.range_eq_range', expects]
    exact pairByKey_of_correlates (List.forall₂_map_left_iff.mpr (List.forall₂_same.mpr own)) 0
  have suits := suits_ownExpectations normal engine
  refine ReplayReport.passed_iff.mpr fun comparison member => ?_
  rw [((replay_of_pairs pairs (expects ▸ suits)).1 comparison member).1]
  rfl

theorem correlates_of_passed (bare : engine.Bare) (passed : (engine.replay events).passed = true) :
    ∀ event ∈ events, correlates key (ownExpectation event) event = true := by
  have required : ∀ expected ∈ engine.expected, expected.optional = false := by
    rw [expects]
    exact List.forall_mem_map.mpr fun _ _ => rfl
  obtain ⟨others, same, paired⟩ := exists_perm_of_passed correlated required passed
  have whole : List.Forall₂ (fun event other => event.payload.Normal ∧ other.payload.Normal ∧
      engine.Suits (ownExpectation event) other ∧
      correlates key (ownExpectation event) other = true) events others := by
    rw [expects, List.forall₂_map_left_iff] at paired
    have left := (List.forall₂_and_left _ _).mpr ⟨normal, paired⟩
    have right := (List.forall₂_and_left _ _).mpr
      ⟨fun other member => normal other (same.mem_iff.mp member), left.flip⟩
    exact right.flip.imp fun _ _ goes => ⟨goes.2.1, goes.1, goes.2.2⟩
  -- No payload has more fields than the one its event was paired with, and in total these are the
  -- same payloads, so each pair has the same payload twice.
  have counted := forall₂_of_sum_le (fun event => event.payload.fieldCount) whole
    (fun _ _ goes => (fieldCount_of_suits bare goes.1 goes.2.1 goes.2.2.1).1)
    ((same.map _).sum_eq).le
  intro event member
  obtain ⟨other, -, ⟨normal, normalOther, suits, goes⟩, less⟩ :=
    exists_of_mem_right counted.flip member
  exact correlates_of_same normal normalOther
    ((fieldCount_of_suits bare normal normalOther suits).2 less) goes

end

/-- The manifest that is derived from a run, with a correlation key, compiles. The run passes it
exactly if each event correlates with the expectation in its place, and always when no key of a
payload has a dot in it. Payloads are values as any are read or built. -/
theorem passes_self_iff_correlates (name key : String) {events : List SealedEvent}
    (normal : ∀ event ∈ events, event.payload.Normal) :
    ∃ engine, ofManifest { ofEvents name events with correlationKey := some key } = .ok engine ∧
      ((engine.replay events).passed = true ↔ List.Forall₂ (fun expected event =>
        correlates key expected event = true) engine.expected events) ∧
      ((∀ event ∈ events, event.payload.undotted = true) →
        (engine.replay events).passed = true) := by
  let engine := ofParts { ofEvents name events with correlationKey := some key }
    (events.map ownExpectation) []
  have own_iff : List.Forall₂ (fun expected event => correlates key expected event = true)
      engine.expected events ↔
        ∀ event ∈ events, correlates key (ownExpectation event) event = true :=
    List.forall₂_map_left_iff.trans List.forall₂_same
  refine ⟨engine, ofManifest_derived rfl rfl, ⟨fun passed => ?_, fun own => ?_⟩, fun undotted => ?_⟩
  · exact own_iff.mpr (correlates_of_passed normal rfl rfl ⟨rfl, rfl⟩ passed)
  · exact passed_of_correlates normal rfl rfl (own_iff.mp own)
  · exact passed_of_correlates normal rfl rfl fun event member =>
      correlates_of_undotted (normal event member) (undotted event member)

def calledRun : List SealedEvent :=
  [{ sampleSealed "s" 0 with
    payload := .object [("call", .object [("id", .string "a")]), ("step", .ofNat 1)] },
  { sampleSealed "s" 1 with payload := .object [("step", .ofNat 2)] },
  { sampleSealed "s" 2 with
    payload := .object [("call", .object [("id", .string "a")]), ("step", .ofNat 3)] }]

theorem passes_self_called : (∀ event ∈ calledRun, event.payload.Normal) ∧
    (∀ event ∈ calledRun, event.payload.undotted = true) ∧
    ∃ engine, ofManifest { ofEvents "calls" calledRun with
        correlationKey := some "payload.call.id" } = .ok engine ∧
      (engine.replay calledRun).passed = true ∧ List.Forall₂ (fun expected event =>
        correlates "payload.call.id" expected event = true) engine.expected calledRun := by
  have normal : ∀ event ∈ calledRun, event.payload.Normal := by
    have after : ¬"step" < "call" := by decide
    simp [calledRun, Json.Normal, Json.normalize, Json.normalizeFields, Table.ofList, Table.insert,
      Json.ofNat, after]
  have undotted : ∀ event ∈ calledRun, event.payload.undotted = true := by decide +kernel
  obtain ⟨engine, compiled, own_iff, passed⟩ :=
    passes_self_iff_correlates "calls" "payload.call.id" normal
  exact ⟨normal, undotted, engine, compiled, passed undotted, own_iff.mp (passed undotted)⟩

def dottedRun : List SealedEvent :=
  [{ sampleSealed "s" 0 with payload := .object [("a.b", .ofNat 1)] }]

/-- The literal is found under the dotted key, and what is looked up is in an object that is not
there. -/
theorem fails_self_dotted : (∀ event ∈ dottedRun, event.payload.Normal) ∧
    ∃ engine, ofManifest { ofEvents "m" dottedRun with
        correlationKey := some "payload.a.b" } = .ok engine ∧
      (engine.replay dottedRun).passed = false := by
  refine ⟨?_, _, rfl, by decide +kernel⟩
  simp [dottedRun, Json.Normal, Json.normalize, Json.normalizeFields, Table.ofList, Table.insert,
    Json.ofNat]

end Manifest

end AuditTrail
