import AuditTrail.Json.Basic
import AuditTrail.Pattern.Regex.Parser
import AuditTrail.Replay.Path

/-!
Predicates on values. A predicate is written as a value: an object whose only key begins with a
dollar sign applies an operator, any other object constrains its fields, and everything else
stands for itself.
-/

namespace AuditTrail

inductive PredicateFault where
  | notAlone
  | existsOperand
  | regexOperand
  | badRegex
  | unknownOperator (name : String)

def PredicateFault.message : PredicateFault → String
  | .notAlone => "an operator must be the only key of its object"
  | .existsOperand => "$exists takes a boolean"
  | .regexOperand => "$regex takes a string"
  | .badRegex => "bad $regex"
  | .unknownOperator name => s!"unknown operator {name}"

structure PredicateError where
  path : String
  fault : PredicateFault

inductive Matcher where
  | literal (value : Json)
  | present (wanted : Bool)
  | pattern (source : String) (regex : Regex)
  | every (children : List (String × Matcher))

namespace Matcher

def isOperator (key : String) : Bool :=
  key.toList.head? = some '$'

def hasOperator : Json → Bool
  | .object fields => fields.any fun field => isOperator field.1
  | _ => false

def ofOperator (name : String) (operand : Json) : Except PredicateFault Matcher :=
  if name = "$exists" then
    match operand with
    | .bool wanted => .ok (.present wanted)
    | _ => .error .existsOperand
  else if name = "$regex" then
    match operand with
    | .string source =>
      match Regex.parse? source with
      | some regex => .ok (.pattern source regex)
      | none => .error .badRegex
    | _ => .error .regexOperand
  else if name = "$eq" then .ok (.literal operand)
  else .error (.unknownOperator name)

mutual

def compile (path : String) : Json → Except PredicateError Matcher
  | .object fields =>
    match fields.find? fun field => isOperator field.1 with
    | some (name, operand) =>
      if fields.length ≠ 1 then .error ⟨path, .notAlone⟩
      else (ofOperator name operand).mapError fun fault => ⟨path, fault⟩
    | none => (compileFields path fields).map .every
  | value => .ok (.literal value)

def compileFields (path : String) :
    List (String × Json) → Except PredicateError (List (String × Matcher))
  | [] => .ok []
  | (key, value) :: rest => do
    let child ← compile (Path.join path key) value
    return (key, child) :: (← compileFields path rest)

end

def operator (name : String) (operand : Json) : Json :=
  .object [(name, operand)]

mutual

def toJson : Matcher → Json
  | .literal value => if hasOperator value then operator "$eq" value else value
  | .present wanted => operator "$exists" (.bool wanted)
  | .pattern source _ => operator "$regex" (.string source)
  | .every children => .object (childrenToJson children)

def childrenToJson : List (String × Matcher) → List (String × Json)
  | [] => []
  | (key, child) :: rest => (key, child.toJson) :: childrenToJson rest

end

mutual

def selfPredicate : Json → Json
  | .object fields =>
    if hasOperator (.object fields) then operator "$eq" (.object fields)
    else .object (selfPredicates fields)
  | value => value

def selfPredicates : List (String × Json) → List (String × Json)
  | [] => []
  | (key, value) :: rest => (key, selfPredicate value) :: selfPredicates rest

end

def below? (path key : String) : Option String :=
  match key.toList.drop path.toList.length with
  | '.' :: rest => if path.toList.isPrefixOf key.toList then some (String.ofList rest) else none
  | _ => none

mutual

def literalAt? (path key : String) : Matcher → Option Json
  | .literal value => if path = key then some value else none
  | .every children =>
    match below? path key with
    | some rest => literalAmong? rest children
    | none => none
  | _ => none

def literalAmong? (key : String) : List (String × Matcher) → Option Json
  | [] => none
  | (path, child) :: rest =>
    match literalAt? path key child with
    | some value => some value
    | none => literalAmong? key rest

end

end Matcher

end AuditTrail
