/-!
Shell patterns: `?` stands for one character, `*` for any number of them, brackets for one out of a
set, and `**` as a whole path component for any number of components.
-/

namespace AuditTrail

structure CharRange where
  first : Char
  last : Char
deriving DecidableEq

def CharRange.contains (range : CharRange) (c : Char) : Bool :=
  range.first ≤ c && c ≤ range.last

inductive GlobToken where
  | char (c : Char)
  | anyChar
  | anySequence
  | anyComponents
  | within (ranges : List CharRange)
  | except (ranges : List CharRange)
deriving DecidableEq

structure Glob where
  text : String
  tokens : List GlobToken

inductive GlobFault where
  | wildcards
  | recursiveWildcards
  | invalidRange

structure GlobError where
  position : Nat
  fault : GlobFault

def GlobError.message (error : GlobError) : String :=
  let reason := match error.fault with
    | .wildcards => "wildcards are either regular `*` or recursive `**`"
    | .recursiveWildcards => "recursive wildcards must form a single path component"
    | .invalidRange => "invalid range pattern"
  s!"Pattern syntax error near position {error.position}: {reason}"

namespace Glob

def ranges : List Char → List CharRange
  | a :: '-' :: b :: rest => ⟨a, b⟩ :: ranges rest
  | a :: rest => ⟨a, a⟩ :: ranges rest
  | [] => []

def bracket? (text : List Char) : Option (GlobToken × Nat) :=
  match text with
  | '[' :: '!' :: first :: rest =>
    match rest.findIdx? (· = ']') with
    | some length => some (.except (ranges (first :: rest.take length)), length + 4)
    | none => none
  | '[' :: first :: rest =>
    if first = '!' then none
    else
      match rest.findIdx? (· = ']') with
      | some length => some (.within (ranges (first :: rest.take length)), length + 3)
      | none => none
  | _ => none

/-- Two stars: they must fill a whole path component, whose separator they include. -/
def components? (index : Nat) (before : Option Char) (rest : List Char) :
    Except GlobError (List Char) :=
  if index = 0 ∨ before = some '/' then
    match rest with
    | [] => .ok []
    | '/' :: rest => .ok rest
    | _ => .error ⟨index + 2, .recursiveWildcards⟩
  else .error ⟨index - 1, .recursiveWildcards⟩

def readTokens (tokens : List GlobToken) (index : Nat) (before : Option Char) :
    Nat → List Char → Except GlobError (List GlobToken)
  | 0, _ => .ok tokens
  | _ + 1, [] => .ok tokens
  | fuel + 1, c :: rest =>
    if c = '?' then readTokens (.anyChar :: tokens) (index + 1) (some c) fuel rest
    else if c = '*' then
      let stars := (c :: rest).takeWhile (· = '*')
      let after := (c :: rest).dropWhile (· = '*')
      if 2 < stars.length then .error ⟨index + 2, .wildcards⟩
      else if stars.length = 2 then
        match components? index before after with
        | .error error => .error error
        | .ok remaining =>
          let collapsed := 1 < tokens.length && tokens.head? == some .anyComponents
          let tokens := if collapsed then tokens else .anyComponents :: tokens
          let taken := (c :: rest).length - remaining.length
          readTokens tokens (index + taken) (((c :: rest).take taken).getLast?) fuel remaining
      else readTokens (.anySequence :: tokens) (index + 1) (some c) fuel after
    else if c = '[' then
      match bracket? (c :: rest) with
      | some (token, taken) =>
        readTokens (token :: tokens) (index + taken) (some ']') fuel ((c :: rest).drop taken)
      | none => .error ⟨index, .invalidRange⟩
    else readTokens (.char c :: tokens) (index + 1) (some c) fuel rest

def compile (text : String) : Except GlobError Glob :=
  (readTokens [] 0 none text.toList.length text.toList).map fun tokens => ⟨text, tokens.reverse⟩

def someSuffix (holds : List Char → Bool) : List Char → Bool
  | [] => holds []
  | c :: rest => holds (c :: rest) || someSuffix holds rest

def someComponent (holds : List Char → Bool) : List Char → Bool
  | [] => holds []
  | c :: rest => (c = '/' && holds rest) || someComponent holds rest

def GlobToken.acceptsChar (c : Char) : GlobToken → Bool
  | .char d => c = d
  | .anyChar => true
  | .within ranges => ranges.any (·.contains c)
  | .except ranges => !ranges.any (·.contains c)
  | _ => false

def matchTokens : List GlobToken → List Char → Bool
  | [], text => text.isEmpty
  | .anySequence :: tokens, text => someSuffix (matchTokens tokens) text
  | .anyComponents :: tokens, text =>
    matchTokens tokens text || someComponent (matchTokens tokens) text
  | _ :: _, [] => false
  | token :: tokens, c :: rest => GlobToken.acceptsChar c token && matchTokens tokens rest

def accepts (glob : Glob) (text : String) : Bool :=
  matchTokens glob.tokens text.toList

end Glob

end AuditTrail
