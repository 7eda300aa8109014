import AuditTrail.Json.Document
import AuditTrail.Toml.Scalar

/-!
TOML texts. Every line adds to the table that the last header named; a table, a key or a value is
defined once.
-/

namespace AuditTrail.Toml

/-- How a table came about: as a step of a header, by a header of its own, or by a dotted key. -/
inductive TableKind where
  | implicit
  | header
  | dotted
deriving DecidableEq

inductive Node where
  | value (value : Document)
  | table (kind : TableKind) (entries : List (String × Node))
  | tables (items : List (List (String × Node)))

abbrev Entries := List (String × Node)

namespace Node

mutual

def toDocument : Node → Document
  | .value document => document
  | .table _ entries => .object (membersOf entries) true
  | .tables items => .array (itemsOf items) true

def membersOf : List (String × Node) → List (Option String × Document)
  | [] => []
  | (key, node) :: rest => (some key, node.toDocument) :: membersOf rest

def itemsOf : List (List (String × Node)) → List Document
  | [] => []
  | entries :: rest => .object (membersOf entries) true :: itemsOf rest

end

end Node

namespace Entries

def find? (key : String) (entries : Entries) : Option Node :=
  (List.find? (fun entry => entry.1 = key) entries).map Prod.snd

def put (key : String) (node : Node) : Entries → Entries
  | [] => [(key, node)]
  | (k, old) :: rest => if k = key then (k, node) :: rest else (k, old) :: put key node rest

/-- Changes the table at the end of a path. Steps that are missing are made; a dotted key cannot
step into a table that has a header. -/
def atPath (dotted : Bool) (change : TableKind → Entries → Option Entries) (kind : TableKind) :
    List String → Entries → Option Entries
  | [], entries => change kind entries
  | key :: path, entries =>
    let made := if dotted then TableKind.dotted else .implicit
    match find? key entries with
    | none => (atPath dotted change made path []).map fun inner =>
      put key (.table made inner) entries
    | some (.table kind inner) =>
      if dotted && kind = .header then none
      else (atPath dotted change kind path inner).map fun inner =>
        put key (.table kind inner) entries
    | some (.tables items) =>
      match items.getLast? with
      | some last =>
        if dotted then none
        else (atPath dotted change .header path last).map fun last =>
          put key (.tables (items.dropLast ++ [last])) entries
      | none => none
    | some (.value _) => none

def define (path : List String) (key : String) (value : Document) (entries : Entries) :
    Option Entries :=
  atPath true (fun kind inner =>
    if !path.isEmpty && kind ≠ .dotted then none
    else if (find? key inner).isSome then none
    else some (inner ++ [(key, .value value)])) .header path entries

def openTable (path : List String) (key : String) (entries : Entries) : Option Entries :=
  atPath false (fun _ inner =>
    match find? key inner with
    | none => some (put key (.table .header []) inner)
    | some (.table .implicit entries) => some (put key (.table .header entries) inner)
    | some _ => none) .header path entries

def openItem (path : List String) (key : String) (entries : Entries) : Option Entries :=
  atPath false (fun _ inner =>
    match find? key inner with
    | none => some (put key (.tables [[]]) inner)
    | some (.tables items) => some (put key (.tables (items ++ [[]])) inner)
    | some _ => none) .header path entries

def defineIn (table : List String) (path : List String) (key : String) (value : Document)
    (entries : Entries) : Option Entries :=
  atPath false (fun _ inner => define path key value inner) .header table entries

end Entries

/-! ### Reading -/

def isBareKey (c : Char) : Bool :=
  c.isAlphanum || c = '_' || c = '-'

def simpleKey? (text : List Char) : Reading String :=
  match text with
  | c :: rest =>
    if c = '"' then
      (lineString '"' true (text.length + 1) rest).map fun (k, rest) => (String.ofList k, rest)
    else if c = '\'' then
      (lineString '\'' false (text.length + 1) rest).map fun (k, rest) => (String.ofList k, rest)
    else
      let key := text.takeWhile isBareKey
      if key.isEmpty then none else some (String.ofList key, text.drop key.length)
  | [] => none

def key? : Nat → List Char → Reading (List String × String)
  | 0, _ => none
  | fuel + 1, text =>
    match simpleKey? (skipBlanks text) with
    | none => none
    | some (key, rest) =>
      match skipBlanks rest with
      | '.' :: rest => (key? fuel rest).map fun ((path, last), rest) => ((key :: path, last), rest)
      | rest => some (([], key), rest)

def skipComment? (text : List Char) : Option (List Char) :=
  match text with
  | '#' :: rest =>
    let rest := rest.dropWhile fun c => !isControl c
    if rest.isEmpty || (newline? rest).isSome then some rest else none
  | _ => some text

def skipLines? : Nat → List Char → Option (List Char)
  | 0, text => some text
  | fuel + 1, text => do
    let rest ← skipComment? (skipBlanks text)
    match newline? rest with
    | some rest => skipLines? fuel rest
    | none => some rest

def isScalarChar (c : Char) : Bool :=
  c.isAlphanum || c = '_' || c = '-' || c = '+' || c = '.'

def scalar? (text : List Char) : Reading Document :=
  match dateTime? text with
  | some rest =>
    let written := String.ofList (text.take (text.length - rest.length))
    some (.object [(some "$__toml_private_datetime", .string written)] true, rest)
  | none =>
    let word := text.takeWhile isScalarChar
    let rest := text.drop word.length
    if word = "true".toList then some (.bool true, rest)
    else if word = "false".toList then some (.bool false, rest)
    else
      match integer? word with
      | some n =>
        if h : -9223372036854775808 ≤ n ∧ n < 18446744073709551616 then
          some (.number (.int n h), rest)
        else none
      | none =>
        match float? word with
        | some (.finite x) => some (.number (.float x), rest)
        | some _ => some (.hugeNumber, rest)
        | none => none

mutual

def value? : Nat → List Char → Reading Document
  | 0, _ => none
  | fuel + 1, text =>
    match text with
    | '[' :: rest => (items? fuel rest).map fun (items, rest) => (.array items true, rest)
    | '\x7b' :: rest =>
      match skipBlanks rest with
      | '\x7d' :: rest => some (.object [] true, rest)
      | rest => (members? fuel [] rest).map fun (entries, rest) =>
        ((Node.table .header entries).toDocument, rest)
    | c :: _ =>
      if c = '"' || c = '\'' then (string? text).map fun (s, rest) => (.string s, rest)
      else scalar? text
    | [] => none

def items? : Nat → List Char → Reading (List Document)
  | 0, _ => none
  | fuel + 1, text =>
    match skipLines? text.length text with
    | none => none
    | some (']' :: rest) => some ([], rest)
    | some text =>
      match value? fuel text with
      | none => none
      | some (item, rest) =>
        match skipLines? rest.length rest with
        | some (']' :: rest) => some ([item], rest)
        | some (',' :: rest) =>
          (items? fuel rest).map fun (more, rest) => (item :: more, rest)
        | _ => none

def members? : Nat → Entries → List Char → Reading Entries
  | 0, _, _ => none
  | fuel + 1, entries, text =>
    match key? text.length text with
    | some ((path, key), '=' :: rest) =>
      match value? fuel (skipBlanks rest) with
      | none => none
      | some (value, rest) =>
        match Entries.define path key value entries with
        | none => none
        | some entries =>
          match skipBlanks rest with
          | '\x7d' :: rest => some (entries, rest)
          | ',' :: rest => members? fuel entries rest
          | _ => none
    | _ => none

end

structure Reader where
  entries : Entries := []
  table : List String := []

def header? (close : List Char) (text : List Char) : Reading (List String × String) :=
  match key? text.length text with
  | some (key, rest) =>
    if close.isPrefixOf rest then some (key, rest.drop close.length) else none
  | none => none

def line? (reader : Reader) (text : List Char) : Reading Reader :=
  match text with
  | '[' :: '[' :: rest =>
    match header? "]]".toList rest with
    | some ((path, key), rest) =>
      (Entries.openItem path key reader.entries).map fun entries =>
        (⟨entries, path ++ [key]⟩, rest)
    | none => none
  | '[' :: rest =>
    match header? "]".toList rest with
    | some ((path, key), rest) =>
      (Entries.openTable path key reader.entries).map fun entries =>
        (⟨entries, path ++ [key]⟩, rest)
    | none => none
  | text =>
    match key? text.length text with
    | some ((path, key), '=' :: rest) =>
      match value? text.length (skipBlanks rest) with
      | some (value, rest) =>
        (Entries.defineIn reader.table path key value reader.entries).map fun entries =>
          (⟨entries, reader.table⟩, rest)
      | none => none
    | _ => none

def lines? : Nat → Reader → List Char → Option Entries
  | 0, _, _ => none
  | fuel + 1, reader, text =>
    match skipLines? text.length text with
    | none => none
    | some [] => some reader.entries
    | some text =>
      match line? reader text with
      | none => none
      | some (reader, rest) =>
        match skipComment? (skipBlanks rest) with
        | none => none
        | some [] => some reader.entries
        | some rest =>
          match newline? rest with
          | some rest => lines? fuel reader rest
          | none => none

def parse? (text : String) : Option Document :=
  let chars := match text.toList with
    | '\ufeff' :: rest => rest
    | chars => chars
  (lines? (chars.length + 1) {} chars).map fun entries => (Node.table .header entries).toDocument

end AuditTrail.Toml
