import AuditTrail.Proofs.Ledger.Runs
import AuditTrail.Proofs.Replay.Derived
import AuditTrail.Proofs.Replay.Format

/-!
Derived manifests that are written and loaded again. Loading asks for something that neither the
ledger nor the derivation asks for: a type of every event. But for this, and for the depth of texts,
a derived manifest is loaded as it was, and the run it was derived from passes.
-/

namespace AuditTrail

theorem Matcher.normal_selfPredicate {value : Json} (normal : value.Normal) :
    (selfPredicate value).Normal := by
  induction value using Json.structural with
  | object fields each =>
      rw [selfPredicate]
      split
      · exact Json.normal_object_iff.mpr ⟨List.pairwise_singleton _ _, by simpa using normal⟩
      · obtain ⟨ordered, parts⟩ := Json.normal_object_iff.mp normal
        rw [selfPredicates_eq_map]
        refine Json.normal_object_iff.mpr ⟨ordered.map _, List.forall_mem_map.mpr ?_⟩
        exact fun field member => each field member (parts field member)
  | _ => exact normal

namespace Manifest

open ReplayEngine

theorem apart_fieldsOf (event : SealedEvent) :
    ∀ field ∈ fieldsOf event, field.1 ∉ ExpectedEvent.reader.names := by
  have foreign : ∀ key ∈ ["actor", "severity", "payload", "artifacts"],
      key ∉ ExpectedEvent.reader.names := by decide
  rw [fieldsOf_eq_map, List.forall_mem_map]
  exact forall_mem_ownValues (foreign _ (by simp)) (foreign _ (by simp)) (foreign _ (by simp))
    (foreign _ (by simp))

theorem storable_expectation {event : SealedEvent} (typed : event.eventType ≠ "")
    (normal : event.payload.Normal) :
    ExpectedEvent.Storable { eventType := event.eventType, fields := fieldsOf event } where
  named := typed
  ordered := Table.ordered_ofList _
  normal := by
    rw [fieldsOf_eq_map, List.forall_mem_map]
    exact fun entry member =>
      Matcher.normal_selfPredicate (normal_of_mem_ownValues normal entry member)
  apart := apart_fieldsOf event

section

variable {name : String} {events : List SealedEvent}
  (normal : ∀ event ∈ events, event.payload.Normal)

include normal

theorem storable_ofEvents (named : name ≠ "") (typed : ∀ event ∈ events, event.eventType ≠ "") :
    (ofEvents name events).Storable where
  named := named
  input := rfl
  events := List.forall_mem_map.mpr fun event member =>
    storable_expectation (typed event member) (normal event member)
  rules := nofun
  correlation := nofun

theorem exists_engine_ofEvents (name : String) :
    ∃ engine, ofManifest (ofEvents name events) = .ok engine ∧
      (engine.replay events).passed = true := by
  let engine := ofParts (ofEvents name events) (events.map ownExpectation) []
  have required : ∀ expected ∈ engine.expected, expected.optional = false :=
    List.forall_mem_map.mpr fun _ _ => rfl
  refine ⟨engine, ofManifest_derived rfl rfl,
    ReplayReport.passed_iff.mpr fun comparison member => ?_⟩
  rw [((replay_of_suits rfl required (suits_ownExpectations normal engine)).1 comparison member).1]
  rfl

end

/-- A derived manifest is loaded from its own text exactly if every event has a type and the text is
not too deep; what is loaded is the manifest, and the run passes it. Payloads are values as any are
read or built, with each key of an object once and in order. -/
theorem reloaded_iff_typed {name : String} {events : List SealedEvent} (named : name ≠ "")
    (normal : ∀ event ∈ events, event.payload.Normal) :
    ((∃ manifest, ofText (ofEvents name events).toText = .ok manifest) ↔
      (∀ event ∈ events, event.eventType ≠ "") ∧
        (Document.ofJson (ofEvents name events).toJson).nesting ≤ Json.maxDepth) ∧
    ∀ manifest, ofText (ofEvents name events).toText = .ok manifest →
      manifest = ofEvents name events ∧ ∃ engine, ofManifest manifest = .ok engine ∧
        (engine.replay events).passed = true := by
  have typed {manifest : Manifest} (taken : ofText (ofEvents name events).toText = .ok manifest) :
      ∀ event ∈ events, event.eventType ≠ "" := fun event member =>
    named_of_admits (admits_of_ofText_toText taken).1 (List.mem_map_of_mem member)
      (apart_fieldsOf event)
  have loaded (typed : ∀ event ∈ events, event.eventType ≠ "")
      (shallow : (Document.ofJson (ofEvents name events).toJson).nesting ≤ Json.maxDepth) :
      ofText (ofEvents name events).toText = .ok (ofEvents name events) :=
    ofText_toText_iff.mpr ⟨rfl, storable_ofEvents normal named typed, shallow⟩
  refine ⟨⟨?_, ?_⟩, fun manifest taken => ?_⟩
  · rintro ⟨manifest, taken⟩
    exact ⟨typed taken, (admits_of_ofText_toText taken).2⟩
  · rintro ⟨typed, shallow⟩
    exact ⟨_, loaded typed shallow⟩
  · have own := loaded (typed taken) (admits_of_ofText_toText taken).2
    obtain rfl : manifest = ofEvents name events := Except.ok.inj (taken.symm.trans own)
    exact ⟨rfl, exists_engine_ofEvents normal name⟩

def referringEvent : SealedEvent :=
  { sampleSealed "s" 0 with payload := .object [("$ref", .array [.null])] }

theorem reloaded_of_referring :
    referringEvent.payload.Normal ∧
    ofText (ofEvents "m" [referringEvent]).toText = .ok (ofEvents "m" [referringEvent]) ∧
    ∃ engine, ofManifest (ofEvents "m" [referringEvent]) = .ok engine ∧
      (engine.replay [referringEvent]).passed = true := by
  have normal : ∀ event ∈ [referringEvent], event.payload.Normal := List.forall_mem_singleton.mpr rfl
  have typed : ∀ event ∈ [referringEvent], event.eventType ≠ "" :=
    List.forall_mem_singleton.mpr (by decide)
  have shallow : (Document.ofJson (ofEvents "m" [referringEvent]).toJson).nesting ≤
      Json.maxDepth := by decide +kernel
  obtain ⟨loads, told⟩ := reloaded_iff_typed (show "m" ≠ "" by decide) normal
  obtain ⟨manifest, taken⟩ := loads.mpr ⟨typed, shallow⟩
  obtain ⟨rfl, passes⟩ := told manifest taken
  exact ⟨rfl, taken, passes⟩

def untypedRaw : RawEvent :=
  { sampleRaw "e" with eventType := "" }

def untypedLedger : Ledger MemoryStore :=
  ((Ledger.sampleLedger {}).perform (.emit untypedRaw) sampleTime).perform (.cycle true) sampleTime

/-- The manifest that is derived from its event is written and cannot be loaded. -/
theorem refused_without_type : ∃ event : SealedEvent,
    (Ledger.sampleLedger ({} : MemoryStore)).Run [untypedRaw] untypedLedger ∧
    untypedLedger.readCommitted "s" = .ok [event] ∧ event.payload.Normal ∧
    (Document.ofJson (ofEvents "m" [event]).toJson).nesting ≤ Json.maxDepth ∧
    ∀ manifest, ofText (ofEvents "m" [event]).toText ≠ .ok manifest := by
  have run : (Ledger.sampleLedger ({} : MemoryStore)).Run [untypedRaw] untypedLedger :=
    (Ledger.Run.nil.step (.emit untypedRaw) sampleTime).step (.cycle true) sampleTime
  have stored : untypedLedger.readCommitted "s" =
      .ok [.sealAt untypedRaw 0 (genesis "s") sampleTime] := rfl
  refine ⟨_, run, stored, rfl, by decide +kernel, fun manifest taken => ?_⟩
  exact named_of_admits (admits_of_ofText_toText taken).1 List.mem_cons_self (apart_fieldsOf _) rfl

end Manifest

end AuditTrail
