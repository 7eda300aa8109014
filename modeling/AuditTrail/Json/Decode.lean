import AuditTrail.Json.Document
import AuditTrail.Json.Printer
import AuditTrail.Text.Quoted

/-!
Typed reading of documents. A record is described once, by its fields in declared order; members
are checked in the order of the document, missing fields afterwards in the declared order. The
description also reads a record given as an array of its fields.
-/

namespace AuditTrail

inductive DecodeError where
  | malformed
  | badTimestamp
  | invalidType (found expected : String)
  | invalidValue (found expected : String)
  | invalidLength (length : Nat) (expected : String)
  | unknownVariant (name : String) (expected : List String)
  | missingField (name : String)
  | duplicateField (name : String)
  | custom (message : String)

namespace DecodeError

def alternatives : List String → String
  | [] => "there are no variants"
  | [name] => s!"`{name}`"
  | [first, second] => s!"`{first}` or `{second}`"
  | names => "one of " ++ ", ".intercalate (names.map fun name => s!"`{name}`")

def message : DecodeError → String
  | .malformed => "malformed JSON"
  | .badTimestamp => "malformed timestamp"
  | .invalidType found expected => s!"invalid type: {found}, expected {expected}"
  | .invalidValue found expected => s!"invalid value: {found}, expected {expected}"
  | .invalidLength length expected => s!"invalid length {length}, expected {expected}"
  | .unknownVariant name expected =>
    s!"unknown variant `{name}`, expected {alternatives expected}"
  | .missingField name => s!"missing field `{name}`"
  | .duplicateField name => s!"duplicate field `{name}`"
  | .custom message => message

end DecodeError

/-- Where a document comes from: a text, whose nesting is limited, or a value already read. -/
inductive Origin where
  | text (depth : Nat)
  | value

def Origin.descend : Origin → Except DecodeError Origin
  | .text 0 => .error .malformed
  | .text (depth + 1) => .ok (.text depth)
  | .value => .ok .value

abbrev Decoder (α : Type) := Origin → Document → Except DecodeError α

namespace Document

mutual

def wellFormed : Document → Bool
  | .malformed => false
  | .array items closed => wellFormedItems items && closed
  | .object members closed => wellFormedMembers members && closed
  | _ => true

def wellFormedItems : List Document → Bool
  | [] => true
  | item :: rest => item.wellFormed && wellFormedItems rest

def wellFormedMembers : List (Option String × Document) → Bool
  | [] => true
  | (_, value) :: rest => value.wellFormed && wellFormedMembers rest

end

mutual

def nesting : Document → Nat
  | .array items _ => nestingItems items + 1
  | .object members _ => nestingMembers members + 1
  | _ => 0

def nestingItems : List Document → Nat
  | [] => 0
  | item :: rest => max item.nesting (nestingItems rest)

def nestingMembers : List (Option String × Document) → Nat
  | [] => 0
  | (_, value) :: rest => max value.nesting (nestingMembers rest)

end

def describe : Document → Except DecodeError String
  | .null => .ok "null"
  | .bool true => .ok "boolean `true`"
  | .bool false => .ok "boolean `false`"
  | .number (.int n _) => .ok s!"integer `{String.ofList (decimalChars n)}`"
  | .number (.float x) => .ok s!"floating point `{String.ofList x.jsonChars}`"
  | .string s => .ok s!"string {Quoted.text s}"
  | .array _ _ => .ok "sequence"
  | .object _ _ => .ok "map"
  | _ => .error .malformed

end Document

namespace Decoder

variable {α β : Type}

def mismatch (document : Document) (expected : String) : Except DecodeError α := do
  .error (.invalidType (← document.describe) expected)

def string : Decoder String
  | _, .string s => .ok s
  | _, document => mismatch document "a string"

def bool : Decoder Bool
  | _, .bool b => .ok b
  | _, document => mismatch document "a boolean"

def natBelow (limit : Nat) (typeName : String) : Decoder Nat
  | _, .number (.int n h) =>
    if 0 ≤ n ∧ n.toNat < limit then .ok n.toNat
    else do .error (.invalidValue (← (Document.number (.int n h)).describe) typeName)
  | _, document => mismatch document typeName

def uint64 : Decoder UInt64 := fun origin document =>
  (natBelow UInt64.size "u64" origin document).map UInt64.ofNat

def json : Decoder Json
  | .text depth, document =>
    match document.toJson? depth with
    | some value => .ok value
    | none => .error .malformed
  | .value, document =>
    match document.toJson? document.nesting with
    | some value => .ok value
    | none => .error .malformed

def option (decode : Decoder α) : Decoder (Option α)
  | _, .null => .ok none
  | origin, document => (decode origin document).map some

def listItems (decode : Decoder α) (origin : Origin) : List Document → Except DecodeError (List α)
  | [] => .ok []
  | item :: rest => do
    let first ← decode origin item
    return first :: (← listItems decode origin rest)

def list (decode : Decoder α) : Decoder (List α)
  | origin, .array items closed => do
    let inner ← origin.descend
    let values ← listItems decode inner items
    if closed then .ok values else .error .malformed
  | _, document => mismatch document "a sequence"

def tableMembers (decode : Decoder α) (origin : Origin) (table : Table α) :
    List (Option String × Document) → Except DecodeError (Table α)
  | [] => .ok table
  | (none, _) :: _ => .error .malformed
  | (some key, value) :: rest => do
    let value ← decode origin value
    tableMembers decode origin (table.insert key value) rest

def table (decode : Decoder α) : Decoder (Table α)
  | origin, .object members closed => do
    let inner ← origin.descend
    let values ← tableMembers decode inner [] members
    if closed then .ok values else .error .malformed
  | _, document => mismatch document "a map"

def unit : Decoder Unit
  | _, .null => .ok ()
  | _, document => mismatch document "unit"

def variantNamed (variants : List (String × α)) (name : String) : Except DecodeError α :=
  match variants.find? fun variant => variant.1 = name with
  | some variant => .ok variant.2
  | none => .error (.unknownVariant name (variants.map Prod.fst))

def variant (variants : List (String × α)) : Decoder α
  | _, .string name => variantNamed variants name
  | .text depth, .object members closed => do
    let inner ← (Origin.text depth).descend
    match members with
    | (some name, value) :: rest =>
      let chosen ← variantNamed variants name
      unit inner value
      if rest.isEmpty && closed then .ok chosen else .error .malformed
    | _ => .error .malformed
  | .value, .object members _ =>
    match members with
    | [(some name, value)] => do
      let chosen ← variantNamed variants name
      unit .value value
      .ok chosen
    | _ => .error (.invalidValue "map" "map with a single key")
  | .text _, _ => .error .malformed
  | .value, document => mismatch document "string or map"

end Decoder

structure FieldCheck where
  name : String
  required : Bool
  check : Origin → Document → Except DecodeError Unit

/-- A description of a record: its fields in declared order, and how to build it from a look-up of
its members. -/
structure RecordReader (α : Type) where
  fields : List FieldCheck
  build : Origin → (String → Option Document) → Except DecodeError α

namespace RecordReader

variable {α β : Type}

def pure (value : α) : RecordReader α :=
  ⟨[], fun _ _ => .ok value⟩

def app (first : RecordReader (α → β)) (second : RecordReader α) : RecordReader β where
  fields := first.fields ++ second.fields
  build := fun origin lookup => do
    let f ← first.build origin lookup
    let x ← second.build origin lookup
    .ok (f x)

instance : Applicative RecordReader where
  pure := RecordReader.pure
  seq first second := first.app (second ())

def field (name : String) (required : Bool) (decode : Decoder α)
    (missing : Except DecodeError α) : RecordReader α where
  fields := [⟨name, required, fun origin document => (decode origin document).map fun _ => ()⟩]
  build := fun origin lookup =>
    match lookup name with
    | some document => decode origin document
    | none => missing

def required (name : String) (decode : Decoder α) : RecordReader α :=
  field name true decode (.error (.missingField name))

def withDefault (name : String) (decode : Decoder α) (default : α) : RecordReader α :=
  field name false decode (.ok default)

def scan (reader : RecordReader α) (origin : Origin) (known : List (String × Document)) :
    List (Option String × Document) → Except DecodeError (List (String × Document))
  | [] => .ok known
  | (none, _) :: _ => .error .malformed
  | (some key, value) :: rest =>
    match reader.fields.find? fun field => field.name = key with
    | some field =>
      if known.any fun entry => entry.1 = key then .error (.duplicateField key)
      else do
        field.check origin value
        scan reader origin ((key, value) :: known) rest
    | none =>
      if value.wellFormed then scan reader origin known rest else .error .malformed

def scanItems (total : Nat) (name : String) (origin : Origin) (closed : Bool) :
    List FieldCheck → List Document → Except DecodeError (List (String × Document))
  | [], [] => if closed then .ok [] else .error .malformed
  | [], extra =>
    match origin with
    | .text _ => .error .malformed
    | .value => .error (.invalidLength (total + extra.length) "fewer elements in array")
  | field :: fields, [] =>
    if !closed then .error .malformed
    else if field.required then
      let noun := if total = 1 then "element" else "elements"
      .error (.invalidLength (total - (fields.length + 1)) s!"struct {name} with {total} {noun}")
    else scanItems total name origin closed fields []
  | field :: fields, item :: items => do
    field.check origin item
    return (field.name, item) :: (← scanItems total name origin closed fields items)

def lookup (known : List (String × Document)) (key : String) : Option Document :=
  (known.find? fun entry => entry.1 = key).map Prod.snd

def decode (reader : RecordReader α) (name : String) : Decoder α
  | origin, .object members closed => do
    let inner ← origin.descend
    let known ← reader.scan inner [] members
    if closed then reader.build inner (lookup known) else .error .malformed
  | origin, .array items closed => do
    let inner ← origin.descend
    let known ← scanItems reader.fields.length name inner closed reader.fields items
    reader.build inner (lookup known)
  | _, document => Decoder.mismatch document s!"struct {name}"

end RecordReader

namespace Decoder

variable {α : Type}

def tagKind (kinds : List (String × RecordReader α)) :
    Document → Except DecodeError (RecordReader α)
  | .string name => variantNamed kinds name
  | document => mismatch document "variant identifier"

def tagMembers (tag : String) (kinds : List (String × RecordReader α)) (origin : Origin)
    (chosen : Option (RecordReader α)) (others : List (Option String × Document)) :
    List (Option String × Document) →
      Except DecodeError (Option (RecordReader α) × List (Option String × Document))
  | [] => .ok (chosen, others)
  | (none, _) :: _ => .error .malformed
  | (some key, value) :: rest =>
    if key = tag then
      match chosen with
      | some _ => .error (.duplicateField tag)
      | none => do
        let kind ← tagKind kinds value
        tagMembers tag kinds origin (some kind) others rest
    else do
      let _ ← json origin value
      tagMembers tag kinds origin chosen ((some key, value) :: others) rest

def tagged (name tag : String) (kinds : List (String × RecordReader α)) : Decoder α
  | origin, .object members closed => do
    let inner ← origin.descend
    let (chosen, others) ← tagMembers tag kinds inner none [] members
    if !closed then .error .malformed
    else
      match chosen with
      | some kind => kind.decode name .value (.object others.reverse true)
      | none => .error (.missingField tag)
  | origin, .array items closed => do
    let inner ← origin.descend
    match items with
    | [] => if closed then .error (.missingField tag) else .error .malformed
    | first :: rest =>
      let kind ← tagKind kinds first
      let _ ← listItems json inner rest
      if closed then kind.decode name .value (.array rest true) else .error .malformed
  | _, document => mismatch document s!"internally tagged enum {name}"

def ofText (decode : Decoder α) (text : String) : Except DecodeError α :=
  match Document.ofText text with
  | (document, ended) => do
    let value ← decode (.text Json.maxDepth) document
    if ended then .ok value else .error .malformed

def ofJson (decode : Decoder α) (value : Json) : Except DecodeError α :=
  decode .value (Document.ofJson value)

end Decoder

end AuditTrail
