import AuditTrail.Text.Blank
import AuditTrail.Text.LetterCase

/-!
Regular expressions and what they match. An expression takes a place in a text to the places where
a match may end; there are finitely many places, so repetition needs no bound of its own.
-/

namespace AuditTrail

inductive CharClass where
  | within (ranges : List CodeRange)
  | word
  | blank
  | union (a b : CharClass)
  | intersection (a b : CharClass)
  | difference (a b : CharClass)
  | symmetricDifference (a b : CharClass)
  | complement (a : CharClass)
  | folded (unicode : Bool) (a : CharClass)

namespace CharClass

def asciiForms (code : Nat) : List Nat :=
  if (Char.ofNat code).isLower then [code, code - 32]
  else if (Char.ofNat code).isUpper then [code, code + 32]
  else [code]

def contains : CharClass → Nat → Bool
  | .within ranges, code => Category.contains ranges code
  | .word, code => isWordChar (Char.ofNat code)
  | .blank, code => isBlank (Char.ofNat code)
  | .union a b, code => a.contains code || b.contains code
  | .intersection a b, code => a.contains code && b.contains code
  | .difference a b, code => a.contains code && !b.contains code
  | .symmetricDifference a b, code => a.contains code != b.contains code
  | .complement a, code => !a.contains code
  | .folded unicode a, code =>
    (if unicode then LetterCase.forms code else asciiForms code).any a.contains

def char (c : Char) : CharClass := .within [(c.toNat, c.toNat)]

def weight : CharClass → Nat
  | .within ranges => ranges.length
  | .word => (Category.wordRanges.map List.length).sum
  | .blank => 10
  | .union a b => a.weight + b.weight
  | .intersection a b => a.weight + b.weight
  | .difference a b => a.weight + b.weight
  | .symmetricDifference a b => a.weight + b.weight
  | .complement a => a.weight + 1
  | .folded _ a => a.weight + 1

end CharClass

inductive Look where
  | textStart
  | textEnd
  | lineStart (crlf : Bool)
  | lineEnd (crlf : Bool)
  | wordBoundary (unicode : Bool)
  | noWordBoundary (unicode : Bool)
  | wordStart (unicode : Bool)
  | wordEnd (unicode : Bool)
  | wordStartHalf (unicode : Bool)
  | wordEndHalf (unicode : Bool)
deriving DecidableEq

structure Place where
  before : Option Char
  rest : List Char

namespace Look

def isWord (unicode : Bool) (c : Option Char) : Bool :=
  c.any fun c => if unicode then isWordChar c else c.isAlphanum || c = '_'

def holds (place : Place) : Look → Bool
  | .textStart => place.before.isNone
  | .textEnd => place.rest.isEmpty
  | .lineStart crlf =>
    match place.before with
    | none => true
    | some '\n' => true
    | some '\r' => crlf && place.rest.head? != some '\n'
    | _ => false
  | .lineEnd crlf =>
    match place.rest with
    | [] => true
    | '\n' :: _ => !crlf || place.before != some '\r'
    | '\r' :: _ => crlf
    | _ => false
  | .wordBoundary unicode => isWord unicode place.before != isWord unicode place.rest.head?
  | .noWordBoundary unicode => isWord unicode place.before == isWord unicode place.rest.head?
  | .wordStart unicode => !isWord unicode place.before && isWord unicode place.rest.head?
  | .wordEnd unicode => isWord unicode place.before && !isWord unicode place.rest.head?
  | .wordStartHalf unicode => !isWord unicode place.before
  | .wordEndHalf unicode => !isWord unicode place.rest.head?

end Look

inductive Regex where
  | empty
  | one (set : CharClass)
  | look (condition : Look)
  | seq (first second : Regex)
  | alt (first second : Regex)
  | repeated (body : Regex) (least : Nat) (most : Option Nat)

namespace Regex

def addPlace (places : List Place) (place : Place) : List Place :=
  if places.any fun p => p.rest.length = place.rest.length then places else places ++ [place]

def unite (places more : List Place) : List Place :=
  more.foldl addPlace places

def samePlaces (a b : List Place) : Bool :=
  a.map (·.rest.length) == b.map (·.rest.length)

def walk (step : List Place → List Place) : Nat → List Place → List Place
  | 0, places => places
  | count + 1, places =>
    let next := step places
    if samePlaces next places then places else walk step count next

def spread (step : List Place → List Place) : Nat → List Place → List Place
  | 0, places => places
  | count + 1, places =>
    let next := unite places (step places)
    if next.length = places.length then places else spread step count next

def ends : Regex → Place → List Place
  | .empty, place => [place]
  | .one set, place =>
    match place.rest with
    | c :: rest => if set.contains c.toNat then [⟨some c, rest⟩] else []
    | [] => []
  | .look condition, place => if condition.holds place then [place] else []
  | .seq first second, place => (first.ends place).foldl (fun all p => unite all (second.ends p)) []
  | .alt first second, place => unite (first.ends place) (second.ends place)
  | .repeated body least most, place =>
    let step := fun places => places.foldl (fun all p => unite all (body.ends p)) []
    let start := walk step least [place]
    match most with
    | some most => spread step (most - least) start
    | none => spread step (place.rest.length + 1) start

def someMatch (regex : Regex) : Option Char → List Char → Bool
  | before, [] => !(regex.ends ⟨before, []⟩).isEmpty
  | before, c :: rest =>
    !(regex.ends ⟨before, c :: rest⟩).isEmpty || someMatch regex (some c) rest

def occursIn (regex : Regex) (text : String) : Bool :=
  regex.someMatch none text.toList

def size : Regex → Nat
  | .empty => 0
  | .one set => 24 + 16 * set.weight
  | .look _ => 24
  | .seq first second => first.size + second.size
  | .alt first second => 24 + first.size + second.size
  | .repeated body least most => 24 + body.size * max (most.getD (least + 1)) least

def maxSize : Nat := 10 * 1048576

end Regex

end AuditTrail
