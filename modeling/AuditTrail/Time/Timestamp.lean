import AuditTrail.Text.Blank
import AuditTrail.Time.Date

/-!
Points in time, read from and written as RFC 3339 text. A leap second is kept as the second before
it with more than a second's worth of nanoseconds; texts have it at the end of a minute only, values
may have it behind any second.
-/

namespace AuditTrail

structure Timestamp where
  date : Date
  second : Nat
  nano : Nat
  valid : second < 86400 ∧ nano < 2000000000
deriving DecidableEq

namespace Timestamp

def of? (date : Date) (second nano : Nat) : Option Timestamp :=
  if h : second < 86400 ∧ nano < 2000000000 then some ⟨date, second, nano, h⟩ else none

/-- Moves a local time to UTC; `offset` is in seconds and less than a day. -/
def ofLocal? (date : Date) (second nano : Nat) (offset : Int) : Option Timestamp := do
  let shifted := (second : Int) - offset
  if shifted < 0 then of? (← date.previous?) (shifted + 86400).toNat nano
  else if 86400 ≤ shifted then of? (← date.next?) (shifted - 86400).toNat nano
  else of? date shifted.toNat nano

def digitsOf (text : List Char) (limit : Nat) : List Char :=
  (text.take limit).takeWhile Char.isDigit

def valueOf (digits : List Char) : Nat :=
  digits.foldl (fun n c => 10 * n + (c.toNat - '0'.toNat)) 0

def number? (limit : Nat) (text : List Char) : Option (Nat × List Char) :=
  let text := trimStart text
  let digits := digitsOf text limit
  if digits.isEmpty then none else some (valueOf digits, text.drop digits.length)

def year? (text : List Char) : Option (Int × List Char) :=
  match trimStart text with
  | '-' :: rest =>
    let digits := digitsOf rest rest.length
    if digits.isEmpty then none else some (-(valueOf digits : Int), rest.drop digits.length)
  | '+' :: rest =>
    let digits := digitsOf rest rest.length
    if digits.isEmpty then none else some ((valueOf digits : Int), rest.drop digits.length)
  | text => (number? 4 text).map fun (year, rest) => ((year : Int), rest)

def literal? (c : Char) (text : List Char) : Option (List Char) :=
  match trimStart text with
  | first :: rest => if first = c then some rest else none
  | [] => none

def fraction? : List Char → Option (Nat × List Char)
  | '.' :: rest =>
    let digits := digitsOf rest 9
    if digits.isEmpty then none
    else some (valueOf digits * Nat.pow 10 (9 - digits.length), rest.dropWhile Char.isDigit)
  | text => some (0, text)

def offset? (text : List Char) : Option (Int × List Char) :=
  match text with
  | 'Z' :: rest => some (0, rest)
  | 'z' :: rest => some (0, rest)
  | u :: t :: c :: rest =>
    if u.toUpper = 'U' ∧ t.toUpper = 'T' ∧ c.toUpper = 'C' then some (0, rest)
    else if u = '+' ∨ u = '-' ∨ u.toNat = 0x2212 then do
      if !t.isDigit || !c.isDigit then none
      let rest := rest.dropWhile fun c => c = ':' || isBlank c
      match rest with
      | a :: b :: rest =>
        if !a.isDigit || !b.isDigit || '5' < a then none
        let seconds : Int := valueOf [t, c] * 3600 + valueOf [a, b] * 60
        if 86400 ≤ seconds then none
        return (if u = '+' then seconds else -seconds, rest)
      | _ => none
    else none
  | _ => none

def ofChars? (text : List Char) : Option Timestamp := do
  let (year, text) ← year? text
  let text ← literal? '-' text
  let (month, text) ← number? 2 text
  let text ← literal? '-' text
  let (day, text) ← number? 2 text
  let text ← match text with
    | c :: rest => if c = 't' ∨ c = 'T' ∨ c = ' ' then some rest else none
    | [] => none
  let (hour, text) ← number? 2 text
  let text ← literal? ':' text
  let (minute, text) ← number? 2 text
  let text ← literal? ':' text
  let (second, text) ← number? 2 text
  let (nano, text) ← fraction? text
  let (offset, text) ← offset? (trimStart text)
  if !(trimStart text).isEmpty then none
  let date ← Date.of? year month day
  if 24 ≤ hour ∨ 60 ≤ minute ∨ 60 < second then none
  let leap := second = 60
  let second := if leap then 59 else second
  let nano := if leap then nano + 1000000000 else nano
  ofLocal? date (hour * 3600 + minute * 60 + second) nano offset

def parse? (text : String) : Option Timestamp :=
  ofChars? text.toList

def padded (width n : Nat) : List Char :=
  let digits := Nat.toDigits 10 n
  List.replicate (width - digits.length) '0' ++ digits

def yearChars (year : Int) : List Char :=
  if 0 ≤ year ∧ year ≤ 9999 then padded 4 year.toNat
  else (if year < 0 then '-' else '+') :: padded 4 year.natAbs

def fractionChars (nano : Nat) : List Char :=
  if nano = 0 then []
  else if nano % 1000000 = 0 then '.' :: padded 3 (nano / 1000000)
  else if nano % 1000 = 0 then '.' :: padded 6 (nano / 1000)
  else '.' :: padded 9 nano

def chars (t : Timestamp) : List Char :=
  let leap := 1000000000 ≤ t.nano
  let second := if leap then t.second % 60 + 1 else t.second % 60
  let nano := if leap then t.nano - 1000000000 else t.nano
  yearChars t.date.year ++ '-' :: padded 2 t.date.month ++ '-' :: padded 2 t.date.day ++
    'T' :: padded 2 (t.second / 3600) ++ ':' :: padded 2 (t.second / 60 % 60) ++
    ':' :: padded 2 second ++ fractionChars nano ++ ['Z']

def text (t : Timestamp) : String :=
  String.ofList t.chars

/-- Nanoseconds from an earlier to a later time of day; a leap second between them counts. -/
def nanosWithinDay (later earlier : Timestamp) : Int :=
  let leap : Int :=
    if earlier.second < later.second then (if 1000000000 ≤ earlier.nano then 1 else 0)
    else if later.second < earlier.second then (if 1000000000 ≤ later.nano then -1 else 0)
    else 0
  ((later.second : Int) - earlier.second + leap) * 1000000000 + ((later.nano : Int) - earlier.nano)

def secondsSince (later earlier : Timestamp) : Int :=
  let days := later.date.dayNumber - earlier.date.dayNumber
  (days * 86400000000000 + nanosWithinDay later earlier).tdiv 1000000000

end Timestamp

end AuditTrail
