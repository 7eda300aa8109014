import AuditTrail.Json.Basic
import AuditTrail.Pattern.Glob

/-!
Dotted paths into JSON values, and shell patterns that select paths.
-/

namespace AuditTrail.Path

def splitDots : List Char → List (List Char)
  | [] => [[]]
  | c :: rest =>
    if c = '.' then [] :: splitDots rest
    else
      match splitDots rest with
      | part :: more => (c :: part) :: more
      | [] => [[c]]

def segments (path : String) : List String :=
  (splitDots path.toList).map String.ofList

/-- What a path begins with, up to each of its dots, and the whole path at last. -/
def ancestorChars : List Char → List (List Char)
  | [] => [[]]
  | c :: rest =>
    if c = '.' then [] :: (ancestorChars rest).map ('.' :: ·)
    else (ancestorChars rest).map (c :: ·)

def ancestors (path : String) : List String :=
  (ancestorChars path.toList).map String.ofList

def join (parent key : String) : String :=
  if parent = "" then key else s!"{parent}.{key}"

def index? (segment : String) : Option Nat :=
  let digits := match segment.toList with
    | '+' :: rest => rest
    | chars => chars
  let value := digits.foldl (fun n c => 10 * n + (c.toNat - '0'.toNat)) 0
  if !digits.isEmpty && digits.all Char.isDigit && value < UInt64.size then some value else none

def child? (value : Json) (segment : String) : Option Json :=
  match value with
  | .object fields => Table.find? segment fields
  | .array items => (index? segment).bind (items[·]?)
  | _ => none

def lookup? (value : Json) (path : String) : Option Json :=
  (segments path).foldlM child? value

end AuditTrail.Path

namespace AuditTrail

/-- A pattern on paths; one that begins with a star and a dot also holds of the path without
them. -/
structure PathRule where
  pattern : Glob
  topLevel : Option Glob

namespace PathRule

def compile (field : String) : Except GlobError PathRule := do
  let pattern ← Glob.compile field
  match field.toList with
  | '*' :: '.' :: rest => return ⟨pattern, some (← Glob.compile (String.ofList rest))⟩
  | _ => return ⟨pattern, none⟩

def selects (rule : PathRule) (path : String) : Bool :=
  rule.pattern.accepts path || rule.topLevel.any (·.accepts path)

def covers (rules : List PathRule) (path : String) : Bool :=
  (Path.ancestors path).any fun ancestor => rules.any (·.selects ancestor)

end PathRule

end AuditTrail
