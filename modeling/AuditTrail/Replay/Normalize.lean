import AuditTrail.Json.Basic
import AuditTrail.Text.Blank
import AuditTrail.Text.Category
import AuditTrail.Text.Hex

/-!
Values whose exact text differs from run to run. Points in time, unique identifiers, digests,
numbers and other single words are replaced by marks for what they are, so that values compare by
their shape.
-/

namespace AuditTrail.Normalize

abbrev Scanner := List Char → Option (List Char)

def one (accepts : Char → Bool) : Scanner
  | c :: rest => if accepts c then some rest else none
  | [] => none

def times (accepts : Char → Bool) : Nat → Scanner
  | 0, text => some text
  | count + 1, text => (one accepts text).bind (times accepts count)

def isHexDigit (c : Char) : Bool :=
  (Hex.digitValue? c).isSome

def groups (accepts : Char → Bool) (first : Nat) (more : List (String × Nat)) : Scanner :=
  fun text => do
    more.foldlM (fun rest (separators, count) => do
      times accepts count (← one separators.toList.contains rest)) (← times accepts first text)

def skipFraction (text : List Char) : List Char :=
  match text with
  | '.' :: rest =>
    let after := rest.dropWhile isDecimalDigit
    if after.length < rest.length then after else text
  | _ => text

def zone (text : List Char) : Option (List Char) :=
  match text with
  | 'Z' :: rest => some rest
  | 'z' :: rest => some rest
  | sign :: rest =>
    if sign = '+' || sign = '-' then groups isDecimalDigit 2 [(":", 2)] rest else none
  | [] => none

def isInWord (c : Option Char) : Bool :=
  c.any isWordChar

def wholeWord (scan : Scanner) (before : Option Char) : Scanner := fun text => do
  let rest ← scan text
  if isInWord before || isInWord rest.head? then none else some rest

def timestamp (_before : Option Char) : Scanner := fun text => do
  let rest ← groups isDecimalDigit 4 [("-", 2), ("-", 2), ("Tt ", 2), (":", 2), (":", 2)] text
  zone (skipFraction rest)

def uuid : Option Char → Scanner :=
  wholeWord (groups isHexDigit 8 [("-", 4), ("-", 4), ("-", 4), ("-", 12)])

def digest : Option Char → Scanner :=
  wholeWord fun text => (times isHexDigit 32 text).map (·.dropWhile isHexDigit)

/-- Replaces what a scanner takes off, from left to right; `skip` characters belong to what was
replaced last. -/
def replaceAll (scan : Option Char → Scanner) (mark : List Char) :
    (skip : Nat) → (before : Option Char) → List Char → List Char
  | _, _, [] => []
  | skip + 1, _, c :: rest => replaceAll scan mark skip (some c) rest
  | 0, before, c :: rest =>
    match scan before (c :: rest) with
    | some after => mark ++ replaceAll scan mark (rest.length - after.length) (some c) rest
    | none => c :: replaceAll scan mark 0 (some c) rest

def marks : List ((Option Char → Scanner) × String) :=
  [(timestamp, "<timestamp>"), (uuid, "<uuid>"), (digest, "<hash>")]

def replaceMarked (text : List Char) : List Char :=
  marks.foldl (fun text (scan, mark) => replaceAll scan mark.toList 0 none text) text

def isWordOnly (text : List Char) : Bool :=
  !text.isEmpty && text.all fun c => !isBlank c

def string (text : String) : String :=
  let replaced := replaceMarked text.toList
  if replaced = text.toList && isWordOnly text.toList then "<id>" else String.ofList replaced

mutual

def value : Json → Json
  | .number _ => .string "<number>"
  | .string s => .string (string s)
  | .array items => .array (values items)
  | .object fields => .object (valuesOf fields)
  | other => other

def values : List Json → List Json
  | [] => []
  | item :: rest => value item :: values rest

def valuesOf : List (String × Json) → List (String × Json)
  | [] => []
  | (key, item) :: rest => (key, value item) :: valuesOf rest

end

end AuditTrail.Normalize
