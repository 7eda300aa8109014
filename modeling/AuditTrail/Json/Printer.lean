import AuditTrail.Json.Basic
import AuditTrail.Text.Hex

/-!
JSON text of a value, compact or indented by two spaces. Fields are written in the order in which
the value holds them; floats keep a point or an exponent, so they read back as floats.
-/

namespace AuditTrail

def escapeChar (c : Char) : List Char :=
  if c = '"' then ['\\', '"']
  else if c = '\\' then ['\\', '\\']
  else if c = '\n' then ['\\', 'n']
  else if c = '\r' then ['\\', 'r']
  else if c = '\t' then ['\\', 't']
  else if c = '\x08' then ['\\', 'b']
  else if c = '\x0c' then ['\\', 'f']
  else if c.toNat < 0x20 then '\\' :: 'u' :: Hex.four c.toNat
  else [c]

def quote (text : String) : List Char :=
  '"' :: text.toList.flatMap escapeChar ++ ['"']

/-- Positional for magnitudes from `1e-5` up to `1e16`, one digit and an exponent otherwise. -/
def Binary64.jsonChars (x : Binary64) : List Char :=
  let sign := if x.negative then ['-'] else []
  if x.isZero then sign ++ ['0', '.', '0']
  else
    let d := x.shortest .toEven
    let exponent := d.leadingExponent
    if -5 ≤ exponent ∧ exponent < 16 then
      sign ++ d.positional ++ (if 0 ≤ d.exponent then ['.', '0'] else [])
    else sign ++ d.scientific

def Number.jsonChars : Number → List Char
  | .int n _ => decimalChars n
  | .float x => x.jsonChars

namespace Json

mutual

def writeWith (number : Number → List Char) : Json → List Char
  | .null => "null".toList
  | .bool true => "true".toList
  | .bool false => "false".toList
  | .number n => number n
  | .string s => quote s
  | .array items => '[' :: writeItems number items ++ [']']
  | .object fields => '\x7b' :: writeFields number fields ++ ['\x7d']

def writeItems (number : Number → List Char) : List Json → List Char
  | [] => []
  | [item] => item.writeWith number
  | item :: rest => item.writeWith number ++ ',' :: writeItems number rest

def writeFields (number : Number → List Char) : List (String × Json) → List Char
  | [] => []
  | [(key, value)] => quote key ++ ':' :: value.writeWith number
  | (key, value) :: rest =>
    quote key ++ ':' :: value.writeWith number ++ ',' :: writeFields number rest

end

def newline (depth : Nat) : List Char :=
  '\n' :: List.replicate (2 * depth) ' '

mutual

def prettyChars (depth : Nat) : Json → List Char
  | .array [] => ['[', ']']
  | .array items =>
    '[' :: newline (depth + 1) ++ prettyItems (depth + 1) items ++ newline depth ++ [']']
  | .object [] => ['\x7b', '\x7d']
  | .object fields =>
    '\x7b' :: newline (depth + 1) ++ prettyFields (depth + 1) fields ++ newline depth ++ ['\x7d']
  | .null => "null".toList
  | .bool true => "true".toList
  | .bool false => "false".toList
  | .number n => n.jsonChars
  | .string s => quote s

def prettyItems (depth : Nat) : List Json → List Char
  | [] => []
  | [item] => item.prettyChars depth
  | item :: rest => item.prettyChars depth ++ ',' :: newline depth ++ prettyItems depth rest

def prettyFields (depth : Nat) : List (String × Json) → List Char
  | [] => []
  | [(key, value)] => quote key ++ ':' :: ' ' :: value.prettyChars depth
  | (key, value) :: rest =>
    quote key ++ ':' :: ' ' :: value.prettyChars depth ++ ',' :: newline depth ++
      prettyFields depth rest

end

def print (value : Json) : String :=
  String.ofList (value.writeWith Number.jsonChars)

def pretty (value : Json) : String :=
  String.ofList (value.prettyChars 0)

end Json

end AuditTrail
