import AuditTrail.Json.Printer

/-!
Schemas of JSON values. A schema lists all places where a value departs from it, inner places
before the value that holds them.
-/

namespace AuditTrail

inductive Schema where
  | any
  | boolean
  | text (minLength : Nat)
  | choice (options : List String)
  | list (items : Schema)
  | record (properties : List (String × Schema)) (required : List String) (closed : Bool)

structure Violation where
  pointer : List String
  reason : String

namespace Violation

def pointerText (pointer : List String) : String :=
  String.join (pointer.map fun step => s!"/{step}")

def message (violation : Violation) : String :=
  s!"{pointerText violation.pointer}: {violation.reason}"

end Violation

namespace Schema

def wrongType (pointer : List String) (value : Json) (name : String) : List Violation :=
  [⟨pointer, value.print ++ " is not of type \"" ++ name ++ "\""⟩]

def tooShort (pointer : List String) (value : Json) (limit : Nat) : List Violation :=
  let unit := if limit = 1 then "character" else "characters"
  [⟨pointer, s!"{value.print} is shorter than {limit} {unit}"⟩]

def missing (pointer : List String) (fields : List (String × Json)) (required : List String) :
    List Violation :=
  (required.filter fun name => (Table.find? name fields).isNone).map fun name =>
    ⟨pointer, "\"" ++ name ++ "\" is a required property"⟩

def unexpected (pointer : List String) (fields : List (String × Json)) (known : List String) :
    List Violation :=
  let names := (fields.map Prod.fst).filter fun name => !known.contains name
  if names.isEmpty then []
  else
    let quoted := ", ".intercalate (names.map fun name => s!"'{name}'")
    let verb := if names.length = 1 then "was" else "were"
    [⟨pointer, s!"Additional properties are not allowed ({quoted} {verb} unexpected)"⟩]

mutual

def violations (pointer : List String) : Schema → Json → List Violation
  | .any, _ => []
  | .boolean, .bool _ => []
  | .boolean, value => wrongType pointer value "boolean"
  | .text minLength, .string s =>
    if s.length < minLength then tooShort pointer (.string s) minLength else []
  | .text _, value => wrongType pointer value "string"
  | .choice options, value =>
    let chosen := match value with
      | .string s => options.contains s
      | _ => false
    if chosen then []
    else [⟨pointer, s!"{value.print} is not one of {(Json.array (options.map .string)).print}"⟩]
  | .list items, .array values =>
    values.zipIdx.flatMap fun (value, index) =>
      items.violations (pointer ++ [toString index]) value
  | .list _, value => wrongType pointer value "array"
  | .record properties required closed, .object fields =>
    fieldViolations pointer fields properties ++
      (if closed then unexpected pointer fields (properties.map Prod.fst) else []) ++
      missing pointer fields required
  | .record _ _ _, value => wrongType pointer value "object"

def fieldViolations (pointer : List String) (fields : List (String × Json)) :
    List (String × Schema) → List Violation
  | [] => []
  | (name, schema) :: rest =>
    (match Table.find? name fields with
      | some value => schema.violations (pointer ++ [name]) value
      | none => []) ++ fieldViolations pointer fields rest

end

end Schema

end AuditTrail
