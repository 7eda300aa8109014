import AuditTrail.Event.Sealed
import AuditTrail.Settings.Basic

/-!
How long events are kept. Of all rules that cover an event type the one with the longest prefix
decides, the last one among equals; a type that no rule covers is kept for ever.
-/

namespace AuditTrail.Retention

/-- Whether a prefix covers an event type: all of it, or up to a dot. -/
def covers (typePrefix eventType : List Char) : Bool :=
  typePrefix.isPrefixOf eventType &&
    (let rest := eventType.drop typePrefix.length
    rest.isEmpty || typePrefix.getLast? == some '.' || rest.head? == some '.')

/-- Of two rules the one with the longer prefix, of equal ones the second. -/
def longer (first second : RetentionRule) : RetentionRule :=
  if second.typePrefix.utf8ByteSize < first.typePrefix.utf8ByteSize then first else second

def ruleFor? (rules : List RetentionRule) (eventType : String) : Option RetentionRule :=
  rules.foldl (fun best rule =>
    if covers rule.typePrefix.toList eventType.toList then
      some ((best.map (longer · rule)).getD rule)
    else best) none

def secondsFor? (rules : List RetentionRule) (eventType : String) : Option Nat :=
  (ruleFor? rules eventType).map (·.seconds)

def maxSeconds : Nat := 9223372036854775807

def isExpired (rules : List RetentionRule) (now : Timestamp) (event : SealedEvent) : Bool :=
  match secondsFor? rules event.eventType with
  | some seconds => min seconds maxSeconds ≤ now.secondsSince event.persistedAt
  | none => false

def expiredSequences (rules : List RetentionRule) (now : Timestamp) (events : List SealedEvent) :
    List UInt64 :=
  (events.filter (isExpired rules now)).map (·.sequenceNumber)

/-- The number of the last event that may be deleted together with all before it. -/
def deletable? (rules : List RetentionRule) (now : Timestamp) (events : List SealedEvent) :
    Option UInt64 :=
  (events.takeWhile (isExpired rules now)).getLast?.map (·.sequenceNumber)

end AuditTrail.Retention
