import AuditTrail.Number.Binary64
import AuditTrail.Text.Hex
import AuditTrail.Time.Date

/-!
Scalar values of TOML texts: strings in four notations, integers in four bases, floating point
numbers and dates with or without times.
-/

namespace AuditTrail.Toml

abbrev Reading (α : Type) := Option (α × List Char)

def isBlank (c : Char) : Bool :=
  c = ' ' || c = '\t'

def skipBlanks (text : List Char) : List Char :=
  text.dropWhile isBlank

def isControl (c : Char) : Bool :=
  (c.toNat < 0x20 && c ≠ '\t') || c.toNat = 0x7f

def newline? : List Char → Option (List Char)
  | '\n' :: rest => some rest
  | '\r' :: '\n' :: rest => some rest
  | _ => none

/-! ### Strings -/

def codePoint? (digits : List Char) : Option Char := do
  let code ← digits.foldlM (fun n c => (Hex.digitValue? c).map (16 * n + ·)) 0
  if code < 0xd800 ∨ (0xdfff < code ∧ code < 0x110000) then some (Char.ofNat code) else none

def escape? (text : List Char) : Reading Char :=
  let sized (count : Nat) (rest : List Char) : Reading Char :=
    if rest.length < count then none
    else (codePoint? (rest.take count)).map (·, rest.drop count)
  match text with
  | 'b' :: rest => some ('\x08', rest)
  | 't' :: rest => some ('\t', rest)
  | 'n' :: rest => some ('\n', rest)
  | 'f' :: rest => some ('\x0c', rest)
  | 'r' :: rest => some ('\r', rest)
  | '"' :: rest => some ('"', rest)
  | '\\' :: rest => some ('\\', rest)
  | 'u' :: rest => sized 4 rest
  | 'U' :: rest => sized 8 rest
  | _ => none

def lineString (close : Char) (escapes : Bool) : Nat → List Char → Reading (List Char)
  | 0, _ => none
  | _ + 1, [] => none
  | fuel + 1, c :: rest =>
    if c = close then some ([], rest)
    else if c = '\\' && escapes then
      match escape? rest with
      | some (c, rest) =>
        (lineString close escapes fuel rest).map fun (more, rest) => (c :: more, rest)
      | none => none
    else if isControl c then none
    else (lineString close escapes fuel rest).map fun (more, rest) => (c :: more, rest)

def joinLine? (text : List Char) : Option (List Char) :=
  match newline? (skipBlanks text) with
  | some rest => some (rest.dropWhile fun c => isBlank c || c = '\n' || c = '\r')
  | none => none

def blockString (close : Char) (escapes : Bool) : Nat → List Char → Reading (List Char)
  | 0, _ => none
  | _ + 1, [] => none
  | fuel + 1, c :: rest =>
    let continued (c : Char) (rest : List Char) : Reading (List Char) :=
      (blockString close escapes fuel rest).map fun (more, rest) => (c :: more, rest)
    if c = close then
      let quotes := (c :: rest).takeWhile (· = close)
      if quotes.length < 3 then continued c rest
      else if 5 < quotes.length then none
      else some (quotes.drop 3, rest.drop (quotes.length - 1))
    else if c = '\\' && escapes then
      match joinLine? rest with
      | some rest => blockString close escapes fuel rest
      | none =>
        match escape? rest with
        | some (c, rest) => continued c rest
        | none => none
    else
      match newline? (c :: rest) with
      | some rest => continued '\n' rest
      | none => if isControl c then none else continued c rest

def string? (text : List Char) : Reading String :=
  let finish (reading : Reading (List Char)) : Reading String :=
    reading.map fun (chars, rest) => (String.ofList chars, rest)
  let body (rest : List Char) : List Char := (newline? rest).getD rest
  match text with
  | '"' :: '"' :: '"' :: rest => finish (blockString '"' true (text.length + 1) (body rest))
  | '\'' :: '\'' :: '\'' :: rest => finish (blockString '\'' false (text.length + 1) (body rest))
  | '"' :: rest => finish (lineString '"' true (text.length + 1) rest)
  | '\'' :: rest => finish (lineString '\'' false (text.length + 1) rest)
  | _ => none

/-! ### Numbers -/

def separatedDigits? (accepts : Char → Bool) (text : List Char) : Option (List Char) :=
  let rec go (afterDigit : Bool) : List Char → Option (List Char)
    | [] => if afterDigit then some [] else none
    | c :: rest =>
      if accepts c then (go true rest).map (c :: ·)
      else if c = '_' && afterDigit then go false rest
      else none
  go false text

def valueOf (base : Nat) (digits : List Char) : Nat :=
  digits.foldl (fun n c => base * n + (Hex.digitValue? c).getD 0) 0

def ofBase? (base : Nat) (text : List Char) : Option Int := do
  let digits ← separatedDigits?
    (fun c => (Hex.digitValue? c).any (· < base)) text
  return (valueOf base digits : Int)

def sign : List Char → Bool × List Char
  | '-' :: rest => (true, rest)
  | '+' :: rest => (false, rest)
  | text => (false, text)

def decimal? (text : List Char) : Option (List Char) := do
  let digits ← separatedDigits? Char.isDigit text
  if digits.head? = some '0' ∧ digits.length ≠ 1 then none else some digits

def integer? (text : List Char) : Option Int := do
  let value ← match text with
    | '0' :: 'x' :: rest => ofBase? 16 rest
    | '0' :: 'o' :: rest => ofBase? 8 rest
    | '0' :: 'b' :: rest => ofBase? 2 rest
    | _ => do
      let (negative, rest) := sign text
      let value : Int := valueOf 10 (← decimal? rest)
      some (if negative then -value else value)
  if -9223372036854775808 ≤ value ∧ value ≤ 9223372036854775807 then some value else none

def float? (text : List Char) : Option Double := do
  let (negative, rest) := sign text
  if rest = "inf".toList then some (.infinity negative)
  else if rest = "nan".toList then some .nan
  else
    let whole := rest.takeWhile fun c => c ≠ '.' && c ≠ 'e' && c ≠ 'E'
    let tail := rest.drop whole.length
    let whole ← decimal? whole
    let (fraction, tail) ← match tail with
      | '.' :: tail =>
        let fraction := tail.takeWhile fun c => c ≠ 'e' && c ≠ 'E'
        (separatedDigits? Char.isDigit fraction).map (·, tail.drop fraction.length)
      | _ => some ([], tail)
    let exponent : Int ← match tail with
      | [] => if fraction.isEmpty then none else some 0
      | _ :: tail => do
        let (down, digits) := sign tail
        let value : Int := valueOf 10 (← separatedDigits? Char.isDigit digits)
        some (if down then -value else value)
    match Binary64.ofDecimal negative (valueOf 10 (whole ++ fraction))
      (exponent - fraction.length) with
    | some x => some (.finite x)
    | none => some (.infinity negative)

/-! ### Dates and times -/

def fixed? (count : Nat) (text : List Char) : Reading Nat :=
  let digits := text.take count
  if digits.length = count && digits.all Char.isDigit then
    some (valueOf 10 digits, text.drop count)
  else none

def literal? (c : Char) : List Char → Option (List Char)
  | d :: rest => if c = d then some rest else none
  | [] => none

def date? (text : List Char) : Option (List Char) := do
  let (year, rest) ← fixed? 4 text
  let (month, rest) ← fixed? 2 (← literal? '-' rest)
  let (day, rest) ← fixed? 2 (← literal? '-' rest)
  let _ ← Date.of? year month day
  return rest

def time? (text : List Char) : Option (List Char) := do
  let (hour, rest) ← fixed? 2 text
  let (minute, rest) ← fixed? 2 (← literal? ':' rest)
  let (second, rest) ← fixed? 2 (← literal? ':' rest)
  if 23 < hour ∨ 59 < minute ∨ 60 < second then none
  match rest with
  | '.' :: rest =>
    let digits := rest.takeWhile Char.isDigit
    if digits.isEmpty then none else some (rest.drop digits.length)
  | _ => some rest

def offset? (text : List Char) : Option (List Char) :=
  match text with
  | 'Z' :: rest => some rest
  | 'z' :: rest => some rest
  | sign :: rest =>
    if sign = '+' || sign = '-' then do
      let (hour, rest) ← fixed? 2 rest
      let (minute, rest) ← fixed? 2 (← literal? ':' rest)
      if 23 < hour ∨ 59 < minute then none else some rest
    else none
  | [] => none

/-- A date, a time or both, with an offset only if both are there: what follows it. -/
def dateTime? (text : List Char) : Option (List Char) :=
  match date? text with
  | none => time? text
  | some rest =>
    let timed := match rest with
      | c :: after => if c = 'T' || c = 't' || c = ' ' then time? after else none
      | [] => none
    match timed with
    | some rest => some ((offset? rest).getD rest)
    | none => some rest

end AuditTrail.Toml
