import AuditTrail.Json.Basic
import AuditTrail.Text.Hex

/-!
The syntax tree of a JSON text. Members keep their order and repetitions. A text that stops being
JSON still has a tree up to that place, so a reader of the tree meets the faults of a text in the
order in which they stand in it.
-/

namespace AuditTrail

/-- A tree of a text: `closed` is false where a list of items is not followed by its bracket. A
member's key, a string or a number may be well formed and yet have no value: a lone surrogate
escape, a number beyond all binary64 numbers. -/
inductive Document where
  | null
  | bool (value : Bool)
  | number (value : Number)
  | hugeNumber
  | string (value : String)
  | loneSurrogate
  | array (items : List Document) (closed : Bool)
  | object (members : List (Option String × Document)) (closed : Bool)
  | malformed

namespace Document

instance : Inhabited Document := ⟨.malformed⟩

def isBlank (c : Char) : Bool :=
  c = ' ' || c = '\n' || c = '\t' || c = '\r'

def skipBlanks (text : List Char) : List Char :=
  text.dropWhile isBlank

def hexUnit? (a b c d : Char) : Option Nat := do
  let a ← Hex.digitValue? a
  let b ← Hex.digitValue? b
  let c ← Hex.digitValue? c
  let d ← Hex.digitValue? d
  return a * 4096 + b * 256 + c * 16 + d

def simpleEscape? : Char → Option Char
  | '"' => some '"'
  | '\\' => some '\\'
  | '/' => some '/'
  | 'b' => some '\x08'
  | 'f' => some '\x0c'
  | 'n' => some '\n'
  | 'r' => some '\r'
  | 't' => some '\t'
  | _ => none

def isHighSurrogate (unit : Nat) : Bool := 0xD800 ≤ unit && unit ≤ 0xDBFF

def isLowSurrogate (unit : Nat) : Bool := 0xDC00 ≤ unit && unit ≤ 0xDFFF

inductive Piece where
  | char (c : Char)
  | unit (n : Nat)

def pieces? : List Char → Option (List Piece × List Char)
  | [] => none
  | '"' :: rest => some ([], rest)
  | '\\' :: 'u' :: a :: b :: c :: d :: rest =>
    match hexUnit? a b c d with
    | none => none
    | some n => (pieces? rest).map fun (ps, rest) => (.unit n :: ps, rest)
  | '\\' :: c :: rest =>
    match simpleEscape? c with
    | none => none
    | some c => (pieces? rest).map fun (ps, rest) => (.char c :: ps, rest)
  | c :: rest =>
    if c.toNat < 0x20 || c = '\\' then none
    else (pieces? rest).map fun (ps, rest) => (.char c :: ps, rest)

def joinPieces : List Piece → Option (List Char)
  | [] => some []
  | .char c :: rest => (joinPieces rest).map (c :: ·)
  | .unit n :: .unit m :: rest =>
    if isHighSurrogate n then
      if isLowSurrogate m then
        (joinPieces rest).map
          (Char.ofNat (0x10000 + (n - 0xD800) * 0x400 + (m - 0xDC00)) :: ·)
      else none
    else if isLowSurrogate n then none
    else (joinPieces (.unit m :: rest)).map (Char.ofNat n :: ·)
  | .unit n :: rest =>
    if isHighSurrogate n || isLowSurrogate n then none
    else (joinPieces rest).map (Char.ofNat n :: ·)

def string? (text : List Char) : Option (Option String × List Char) :=
  (pieces? text).map fun (ps, rest) => ((joinPieces ps).map String.ofList, rest)

def digitsValue (digits : List Char) : Nat :=
  digits.foldl (fun n c => 10 * n + (c.toNat - '0'.toNat)) 0

structure Literal where
  negative : Bool
  whole : List Char
  fraction : Option (List Char)
  exponent : Option (Bool × List Char)

def literal? (text : List Char) : Option (Literal × List Char) := do
  let (negative, text) := match text with
    | '-' :: rest => (true, rest)
    | _ => (false, text)
  let whole := text.takeWhile Char.isDigit
  let text := text.dropWhile Char.isDigit
  if whole.isEmpty || (whole.head? == some '0' && whole.length != 1) then none
  let (fraction, text) ← match text with
    | '.' :: rest =>
      let digits := rest.takeWhile Char.isDigit
      if digits.isEmpty then none
      else some (some digits, rest.dropWhile Char.isDigit)
    | _ => some (none, text)
  let (exponent, text) ← match text with
    | c :: rest =>
      if c = 'e' || c = 'E' then
        let (down, rest) := match rest with
          | '-' :: rest => (true, rest)
          | '+' :: rest => (false, rest)
          | _ => (false, rest)
        let digits := rest.takeWhile Char.isDigit
        if digits.isEmpty then none
        else some (some (down, digits), rest.dropWhile Char.isDigit)
      else some (none, text)
    | [] => some (none, text)
  return (⟨negative, whole, fraction, exponent⟩, text)

/-- A literal without fraction and exponent is an integer if it fits 64 bits; `-0` and all others
are binary64 numbers, out of range when there is none near enough. -/
def Literal.number? (l : Literal) : Option Number :=
  let fraction := l.fraction.getD []
  let exponent : Int := match l.exponent with
    | some (true, digits) => -(digitsValue digits : Int)
    | some (false, digits) => digitsValue digits
    | none => 0
  let float := (Binary64.ofDecimal l.negative (digitsValue (l.whole ++ fraction))
    (exponent - fraction.length)).map Number.float
  if l.fraction.isNone && l.exponent.isNone then
    let magnitude : Int := digitsValue l.whole
    let value := if l.negative then -magnitude else magnitude
    if l.negative && magnitude == 0 then float
    else if h : -9223372036854775808 ≤ value ∧ value < 18446744073709551616 then
      some (.int value h)
    else float
  else float

def keyword? (word : List Char) (text : List Char) : Option (List Char) :=
  if word.isPrefixOf text then some (text.drop word.length) else none

mutual

/-- Reads one value. Fuel bounds the number of nested calls and never runs out when it exceeds
twice the length of the text. -/
def readValue : Nat → List Char → Document × List Char
  | 0, text => (.malformed, text)
  | fuel + 1, text =>
    match skipBlanks text with
    | [] => (.malformed, [])
    | c :: rest =>
      if c = '"' then
        match string? rest with
        | some (some s, rest) => (.string s, rest)
        | some (none, rest) => (.loneSurrogate, rest)
        | none => (.malformed, [])
      else if c = '[' then
        match skipBlanks rest with
        | ']' :: rest => (.array [] true, rest)
        | rest =>
          let (items, closed, rest) := readItems fuel rest
          (.array items closed, rest)
      else if c = '\x7b' then
        match skipBlanks rest with
        | '\x7d' :: rest => (.object [] true, rest)
        | rest =>
          let (members, closed, rest) := readMembers fuel rest
          (.object members closed, rest)
      else if c = 'n' then literalWord "ull".toList .null rest
      else if c = 't' then literalWord "rue".toList (.bool true) rest
      else if c = 'f' then literalWord "alse".toList (.bool false) rest
      else
        match literal? (c :: rest) with
        | none => (.malformed, [])
        | some (l, rest) =>
          match l.number? with
          | some n => (.number n, rest)
          | none => (.hugeNumber, rest)

def readItems : Nat → List Char → List Document × Bool × List Char
  | 0, text => ([], false, text)
  | fuel + 1, text =>
    let (item, rest) := readValue fuel text
    match item with
    | .malformed => ([.malformed], false, [])
    | _ =>
      match skipBlanks rest with
      | ']' :: rest => ([item], true, rest)
      | ',' :: rest =>
        match skipBlanks rest with
        | ']' :: _ => ([item], false, [])
        | rest =>
          let (items, closed, rest) := readItems fuel rest
          (item :: items, closed, rest)
      | _ => ([item], false, [])

def readMembers : Nat → List Char → List (Option String × Document) × Bool × List Char
  | 0, text => ([], false, text)
  | fuel + 1, text =>
    match skipBlanks text with
    | '"' :: rest =>
      match string? rest with
      | none => ([], false, [])
      | some (key, rest) =>
        match skipBlanks rest with
        | ':' :: rest =>
          let (value, rest) := readValue fuel rest
          match value with
          | .malformed => ([(key, .malformed)], false, [])
          | _ =>
            match skipBlanks rest with
            | '\x7d' :: rest => ([(key, value)], true, rest)
            | ',' :: rest =>
              let (members, closed, rest) := readMembers fuel rest
              ((key, value) :: members, closed, rest)
            | _ => ([(key, value)], false, [])
        | _ => ([(key, .malformed)], false, [])
    | _ => ([], false, [])

def literalWord (word : List Char) (value : Document) (text : List Char) : Document × List Char :=
  match keyword? word text with
  | some rest => (value, rest)
  | none => (.malformed, [])

end

def ofChars (text : List Char) : Document × Bool :=
  let (value, rest) := readValue (2 * text.length + 2) text
  (value, (skipBlanks rest).isEmpty)

def ofText (text : String) : Document × Bool :=
  ofChars text.toList

mutual

def ofJson : Json → Document
  | .null => .null
  | .bool b => .bool b
  | .number n => .number n
  | .string s => .string s
  | .array items => .array (ofItems items) true
  | .object fields => .object (ofFields fields) true

def ofItems : List Json → List Document
  | [] => []
  | item :: rest => ofJson item :: ofItems rest

def ofFields : List (String × Json) → List (Option String × Document)
  | [] => []
  | (key, value) :: rest => (some key, ofJson value) :: ofFields rest

end

mutual

/-- The value that a tree stands for, at most `depth` levels deep; members keep their order. -/
def toTree? (depth : Nat) : Document → Option Json
  | .null => some .null
  | .bool b => some (.bool b)
  | .number n => some (.number n)
  | .string s => some (.string s)
  | .array items closed =>
    match depth with
    | 0 => none
    | depth + 1 => if closed then (itemTrees? depth items).map Json.array else none
  | .object members closed =>
    match depth with
    | 0 => none
    | depth + 1 => if closed then (memberTrees? depth members).map Json.object else none
  | _ => none

def itemTrees? (depth : Nat) : List Document → Option (List Json)
  | [] => some []
  | item :: rest => do return (← toTree? depth item) :: (← itemTrees? depth rest)

def memberTrees? (depth : Nat) : List (Option String × Document) → Option (List (String × Json))
  | [] => some []
  | (key, value) :: rest => do
    return (← key, ← toTree? depth value) :: (← memberTrees? depth rest)

end

def toJson? (depth : Nat) (document : Document) : Option Json :=
  (document.toTree? depth).map Json.normalize

end Document

def Json.maxDepth : Nat := 127

/-- Reads a whole text strictly; of repeated keys the last value stays. -/
def Json.parse? (text : String) : Option Json :=
  match Document.ofText text with
  | (document, true) => document.toJson? Json.maxDepth
  | (_, false) => none

end AuditTrail
