import AuditTrail.Canonical.Text
import AuditTrail.Json.Document

/-!
Typed data and its canonical text. Unlike a JSON value a datum may have no canonical text: numbers
may be infinite, strings may be raw bytes, keys may be of any type and may repeat.
-/

namespace AuditTrail

/-- A value of a typed data model. A map entry without a key is a value offered before its key,
and `fault` is a value that refuses to be written. -/
inductive Datum where
  | bool (value : Bool)
  | integer (value : Int)
    (inRange : -170141183460469231731687303715884105728 ≤ value ∧
      value < 340282366920938463463374607431768211456)
  | float (value : Double)
  | char (value : Char)
  | text (value : String)
  | bytes (octets : List UInt8)
  | absent
  | present (value : Datum)
  | unit
  | unitVariant (name : String)
  | wrapped (value : Datum)
  | variant (name : String) (value : Datum)
  | sequence (items : List Datum)
  | sequenceVariant (name : String) (items : List Datum)
  | map (entries : List (Option Datum × Datum))
  | record (fields : List (String × Datum))
  | recordVariant (name : String) (fields : List (String × Datum))
  | fault (message : String)

inductive EncodeError where
  | nonFinite (value : Double)
  | invalidUtf8 (fault : Utf8.Fault)
  | duplicateKey (key : String)
  | badKey (text : String)
  | valueBeforeKey
  | custom (message : String)

def EncodeError.message : EncodeError → String
  | .nonFinite value => s!"non-finite number {value.text} has no canonical encoding"
  | .invalidUtf8 fault => s!"byte string is not valid UTF-8: {fault.message}"
  | .duplicateKey key => s!"duplicate key '{key}'"
  | .badKey text => s!"map key must be a string or integer, got {text}"
  | .valueBeforeKey => "map value serialized before its key"
  | .custom message => message

namespace Canonical

def isInteger (text : List Char) : Bool :=
  let (negative, digits) := match text with
    | '-' :: rest => (true, rest)
    | _ => (false, text)
  let magnitude := Document.digitsValue digits
  !digits.isEmpty && digits.all Char.isDigit &&
    (if negative then magnitude ≤ 170141183460469231731687303715884105728
    else magnitude < 340282366920938463463374607431768211456)

def decodeKey (encoded : List Char) : Except EncodeError String :=
  match encoded with
  | '"' :: rest =>
    match Document.string? rest with
    | some (some key, []) => .ok key
    | _ => .error (.badKey (String.ofList encoded))
  | _ =>
    if isInteger encoded then .ok (String.ofList encoded)
    else .error (.badKey (String.ofList encoded))

def insertNew (key : String) (text : List Char) (table : Table (List Char)) :
    Except EncodeError (Table (List Char)) :=
  if table.contains key then .error (.duplicateKey key) else .ok (table.insert key text)

def joinItems : List (List Char) → List Char
  | [] => []
  | [item] => item
  | item :: rest => item ++ ',' :: joinItems rest

def brackets (items : List (List Char)) : List Char :=
  '[' :: joinItems items ++ [']']

def braces (table : Table (List Char)) : List Char :=
  '\x7b' :: joinItems (table.map fun (key, text) => quote key ++ ':' :: text) ++ ['\x7d']

def singleEntry (name : String) (text : List Char) : List Char :=
  braces [(name, text)]

end Canonical

namespace Datum

open Canonical

mutual

def encode : Datum → Except EncodeError (List Char)
  | .bool true => .ok "true".toList
  | .bool false => .ok "false".toList
  | .integer n _ => .ok (decimalChars n)
  | .float (.finite x) => .ok x.canonicalChars
  | .float x => .error (.nonFinite x)
  | .char c => .ok (quote (String.ofList [c]))
  | .text s => .ok (quote s)
  | .bytes octets =>
    match Utf8.decode octets with
    | .ok s => .ok (quote s)
    | .error broken => .error (.invalidUtf8 broken)
  | .absent => .ok "null".toList
  | .present d => d.encode
  | .unit => .ok "null".toList
  | .unitVariant name => .ok (quote name)
  | .wrapped d => d.encode
  | .variant name d => do return singleEntry name (← d.encode)
  | .sequence items => do return brackets (← encodeItems items)
  | .sequenceVariant name items => do return singleEntry name (brackets (← encodeItems items))
  | .map entries => do return braces (← encodeEntries [] entries)
  | .record fields => do return braces (← encodeFields [] fields)
  | .recordVariant name fields => do return singleEntry name (braces (← encodeFields [] fields))
  | .fault message => .error (.custom message)

def encodeItems : List Datum → Except EncodeError (List (List Char))
  | [] => .ok []
  | item :: rest => do
    let text ← item.encode
    return text :: (← encodeItems rest)

def encodeEntries (table : Table (List Char)) :
    List (Option Datum × Datum) → Except EncodeError (Table (List Char))
  | [] => .ok table
  | (none, _) :: _ => .error .valueBeforeKey
  | (some key, value) :: rest => do
    let key ← decodeKey (← key.encode)
    let table ← insertNew key (← value.encode) table
    encodeEntries table rest

def encodeFields (table : Table (List Char)) :
    List (String × Datum) → Except EncodeError (Table (List Char))
  | [] => .ok table
  | (key, value) :: rest => do
    let table ← insertNew key (← value.encode) table
    encodeFields table rest

end

mutual

def ofJson : Json → Datum
  | .null => .unit
  | .bool b => .bool b
  | .number (.int n h) => .integer n ⟨by omega, by omega⟩
  | .number (.float x) => .float (.finite x)
  | .string s => .text s
  | .array items => .sequence (ofItems items)
  | .object fields => .map (ofFields fields)

def ofItems : List Json → List Datum
  | [] => []
  | item :: rest => ofJson item :: ofItems rest

def ofFields : List (String × Json) → List (Option Datum × Datum)
  | [] => []
  | (key, value) :: rest => (some (.text key), ofJson value) :: ofFields rest

end

end Datum

end AuditTrail
