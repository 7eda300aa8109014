import AuditTrail.Chain.Verify

/-!
Comparison of two recorded runs. Behind their common beginning events are compared in pairs as long
as their types agree; the rest of each run stands alone.
-/

namespace AuditTrail

structure EventDifference where
  index : Nat
  eventType : String
  field : String
  first : Json
  second : Json

namespace EventDifference

def toJson (difference : EventDifference) : Json :=
  .object [
    ("index", .ofNat difference.index),
    ("event_type", .string difference.eventType),
    ("field", .string difference.field),
    ("first_value", difference.first),
    ("second_value", difference.second)]

end EventDifference

structure TraceDiff where
  divergence : Option Nat
  commonLength : Nat
  differences : List EventDifference
  onlyInFirst : List (Nat × SealedEvent)
  onlyInSecond : List (Nat × SealedEvent)
  firstCount : Nat
  secondCount : Nat

namespace TraceDiff

def differencesAt (index : Nat) (a b : SealedEvent) : List EventDifference :=
  (if a.payload.same b.payload then []
    else [⟨index, a.eventType, "payload", a.payload, b.payload⟩]) ++
  (if a.actor = b.actor then []
    else [⟨index, a.eventType, "actor", a.actor.toJson, b.actor.toJson⟩])

def indexed (start : Nat) (events : List SealedEvent) : List (Nat × SealedEvent) :=
  (events.zipIdx start).map fun (event, index) => (index, event)

def compareFrom (index : Nat) : List SealedEvent → List SealedEvent →
    List EventDifference × List (Nat × SealedEvent) × List (Nat × SealedEvent)
  | a :: as, b :: bs =>
    if a.eventType = b.eventType then
      let (later, left) := compareFrom (index + 1) as bs
      (differencesAt index a b ++ later, left)
    else ([], indexed index (a :: as), indexed index (b :: bs))
  | as, bs => ([], indexed index as, indexed index bs)

def between (first second : List SealedEvent) : TraceDiff :=
  let divergence := Chain.divergence? first second
  let commonLength := divergence.getD first.length
  let (differences, onlyInFirst, onlyInSecond) :=
    compareFrom commonLength (first.drop commonLength) (second.drop commonLength)
  { divergence, commonLength, differences, onlyInFirst, onlyInSecond
    firstCount := first.length
    secondCount := second.length }

def summary (entry : Nat × SealedEvent) : Json :=
  .object [
    ("index", .ofNat entry.1),
    ("event_type", .string entry.2.eventType),
    ("event_hash", .string entry.2.eventHash)]

def toJson (diff : TraceDiff) : Json :=
  .object [
    ("identical", .bool diff.divergence.isNone),
    ("only_in_first", .array (diff.onlyInFirst.map summary)),
    ("only_in_second", .array (diff.onlyInSecond.map summary)),
    ("differences", .array (diff.differences.map EventDifference.toJson)),
    ("summary", .object [
      ("first_count", .ofNat diff.firstCount),
      ("second_count", .ofNat diff.secondCount),
      ("common_prefix_length", .ofNat diff.commonLength),
      ("divergence_point", .ofOption .ofNat diff.divergence)])]

end TraceDiff

end AuditTrail
