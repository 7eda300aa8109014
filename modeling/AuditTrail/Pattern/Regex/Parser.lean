import AuditTrail.Pattern.Regex.Property
import AuditTrail.Text.Hex

/-!
The text of regular expressions: literals, classes, groups with flags and names, counted
repetition and word boundaries. There is no look-around and no reference to a group. Without the
flag `u` classes stand for bytes, so one that reaches beyond ASCII is refused.
-/

namespace AuditTrail.Regex

structure Flags where
  ignoreCase : Bool := false
  multiLine : Bool := false
  dotAll : Bool := false
  crlf : Bool := false
  unicode : Bool := true
  verbose : Bool := false

abbrev Rest := List Char

def skipVerbose (flags : Flags) (text : Rest) : Rest :=
  if flags.verbose then go text.length text else text
where
  go : Nat → Rest → Rest
    | 0, text => text
    | fuel + 1, text =>
      match text.dropWhile isBlank with
      | '#' :: rest => go fuel (rest.dropWhile (· ≠ '\n'))
      | rest => rest

def isEscapable (c : Char) : Bool :=
  c.toNat < 0x80 && !c.isAlphanum && c ≠ '<' && c ≠ '>'

def controlEscape? : Char → Option Char
  | 'a' => some '\x07'
  | 'f' => some '\x0c'
  | 't' => some '\t'
  | 'n' => some '\n'
  | 'r' => some '\r'
  | 'v' => some '\x0b'
  | _ => none

def hexValue? (digits : List Char) : Option Nat :=
  digits.foldlM (fun n c => (Hex.digitValue? c).map (16 * n + ·)) 0

def charOf? (code : Nat) : Option Char :=
  if code < 0xd800 ∨ (0xdfff < code ∧ code < 0x110000) then some (Char.ofNat code) else none

def hexEscape? (digits : Nat) (text : Rest) : Option (Char × Rest) :=
  match text with
  | '\x7b' :: rest => do
    let inner := rest.takeWhile (· ≠ '\x7d')
    let code ← if inner.isEmpty then none else hexValue? inner
    match rest.drop inner.length with
    | '\x7d' :: rest => return (← charOf? code, rest)
    | _ => none
  | _ => do
    if (text.take digits).length < digits then none
    return (← charOf? (← hexValue? (text.take digits)), text.drop digits)

def asciiDigits : CharClass := .within [(0x30, 0x39)]

def asciiWord : CharClass := .within [(0x30, 0x39), (0x41, 0x5a), (0x5f, 0x5f), (0x61, 0x7a)]

def asciiBlank : CharClass := .within [(0x09, 0x0d), (0x20, 0x20)]

def letterClass? (unicode : Bool) : Char → Option CharClass
  | 'd' => some (if unicode then .within Category.decimalDigits else asciiDigits)
  | 's' => some (if unicode then .blank else asciiBlank)
  | 'w' => some (if unicode then .word else asciiWord)
  | _ => none

def fold (flags : Flags) (set : CharClass) : CharClass :=
  if flags.ignoreCase then .folded flags.unicode set else set

def propertyQuery? (text : List Char) : Option (CharClass × Bool) :=
  let name := text.takeWhile fun c => c ≠ '!' && c ≠ ':' && c ≠ '='
  match text.drop name.length with
  | [] => (CharClass.property? text).map (·, true)
  | '!' :: '=' :: value => (CharClass.propertyValue? name value).map (·, false)
  | '!' :: _ => none
  | _ :: value => (CharClass.propertyValue? name value).map (·, true)

def propertyEscape? (flags : Flags) (wanted : Bool) (text : Rest) : Option (CharClass × Rest) := do
  if !flags.unicode then none
  let (set, positive, rest) ← match text with
    | '\x7b' :: rest =>
      let query := rest.takeWhile (· ≠ '\x7d')
      match rest.drop query.length with
      | '\x7d' :: rest => (propertyQuery? query).map fun (set, positive) => (set, positive, rest)
      | _ => none
    | c :: rest => (CharClass.property? [c]).map (·, true, rest)
    | [] => none
  let set := fold flags set
  return (if positive = wanted then set else .complement set, rest)

inductive Escape where
  | char (c : Char)
  | set (set : CharClass)
  | look (condition : Look)

def boundaryEscape? (flags : Flags) (text : Rest) : Option (Escape × Rest) :=
  match text with
  | '\x7b' :: c :: rest =>
    if c.isAlpha || c = '-' then
      let name := (c :: rest).takeWhile fun c => c.isAlpha || c = '-'
      let condition? : Option Look :=
        if name = "start".toList then some (.wordStart flags.unicode)
        else if name = "end".toList then some (.wordEnd flags.unicode)
        else if name = "start-half".toList then some (.wordStartHalf flags.unicode)
        else if name = "end-half".toList then some (.wordEndHalf flags.unicode)
        else none
      match condition?, (c :: rest).drop name.length with
      | some condition, '\x7d' :: rest => some (.look condition, rest)
      | _, _ => none
    else some (.look (.wordBoundary flags.unicode), text)
  | _ => some (.look (.wordBoundary flags.unicode), text)

def escape? (flags : Flags) (text : Rest) : Option (Escape × Rest) :=
  match text with
  | [] => none
  | c :: rest =>
    match c with
    | 'x' => (hexEscape? 2 rest).map fun (c, rest) => (.char c, rest)
    | 'u' => (hexEscape? 4 rest).map fun (c, rest) => (.char c, rest)
    | 'U' => (hexEscape? 8 rest).map fun (c, rest) => (.char c, rest)
    | 'p' => (propertyEscape? flags true rest).map fun (set, rest) => (.set set, rest)
    | 'P' => (propertyEscape? flags false rest).map fun (set, rest) => (.set set, rest)
    | 'A' => some (.look .textStart, rest)
    | 'z' => some (.look .textEnd, rest)
    | 'b' => boundaryEscape? flags rest
    | 'B' => some (.look (.noWordBoundary flags.unicode), rest)
    | '<' => some (.look (.wordStart flags.unicode), rest)
    | '>' => some (.look (.wordEnd flags.unicode), rest)
    | _ =>
      if isEscapable c then some (.char c, rest)
      else
        match letterClass? flags.unicode c, letterClass? flags.unicode c.toLower with
        | some set, _ => some (.set set, rest)
        | none, some set => some (.set (.complement set), rest)
        | none, none => (controlEscape? c).map fun c => (.char c, rest)

def reachesBeyondAscii (set : CharClass) : Bool :=
  (List.range 128).any fun n => set.contains (128 + n)

def setRegex? (flags : Flags) (set : CharClass) : Option Regex :=
  if !flags.unicode && reachesBeyondAscii set then none else some (.one set)

def charRegex? (flags : Flags) (c : Char) : Option Regex :=
  if flags.ignoreCase && !flags.unicode && 0x80 ≤ c.toNat then none
  else some (.one (fold flags (.char c)))

/-! ### Classes in brackets -/

def asciiClass? (name : List Char) : Option (List CodeRange) :=
  let classes : List (String × List CodeRange) := [
    ("alnum", [(0x30, 0x39), (0x41, 0x5a), (0x61, 0x7a)]), ("alpha", [(0x41, 0x5a), (0x61, 0x7a)]),
    ("ascii", [(0, 0x7f)]), ("blank", [(0x09, 0x09), (0x20, 0x20)]),
    ("cntrl", [(0, 0x1f), (0x7f, 0x7f)]), ("digit", [(0x30, 0x39)]), ("graph", [(0x21, 0x7e)]),
    ("lower", [(0x61, 0x7a)]), ("print", [(0x20, 0x7e)]),
    ("punct", [(0x21, 0x2f), (0x3a, 0x40), (0x5b, 0x60), (0x7b, 0x7e)]),
    ("space", [(0x09, 0x0d), (0x20, 0x20)]), ("upper", [(0x41, 0x5a)]),
    ("word", [(0x30, 0x39), (0x41, 0x5a), (0x5f, 0x5f), (0x61, 0x7a)]),
    ("xdigit", [(0x30, 0x39), (0x41, 0x46), (0x61, 0x66)])]
  (classes.find? fun entry => entry.1.toList = name).map Prod.snd

def namedClass? (flags : Flags) (text : Rest) : Option (CharClass × Rest) := do
  let inner ← match text with
    | '[' :: ':' :: rest => some rest
    | _ => none
  let (negated, inner) := match inner with
    | '^' :: rest => (true, rest)
    | _ => (false, inner)
  let name := inner.takeWhile (· ≠ ':')
  match inner.drop name.length with
  | ':' :: ']' :: rest =>
    let set := fold flags (.within (← asciiClass? name))
    return (if negated then .complement set else set, rest)
  | _ => none

def classItem? (flags : Flags) (text : Rest) : Option (Escape × Rest) :=
  match text with
  | '\\' :: rest =>
    match escape? flags rest with
    | some (.look _, _) => none
    | other => other
  | c :: rest => if !flags.unicode && 0x80 ≤ c.toNat then none else some (.char c, rest)
  | [] => none

def classRange? (flags : Flags) (text : Rest) : Option (CharClass × Rest) := do
  let (first, rest) ← classItem? flags text
  let rest := skipVerbose flags rest
  let single : CharClass := match first with
    | .char c => .char c
    | .set set => set
    | .look _ => .within []
  match rest with
  | '-' :: after =>
    match skipVerbose flags after with
    | ']' :: _ => return (single, rest)
    | '-' :: _ => return (single, rest)
    | after =>
      match first, ← classItem? flags after with
      | .char a, (.char b, rest) => if b < a then none else some (.within [(a.toNat, b.toNat)], rest)
      | _, _ => none
  | _ => return (single, rest)

inductive ClassOperator where
  | intersection
  | difference
  | symmetricDifference

def ClassOperator.apply : ClassOperator → CharClass → CharClass → CharClass
  | .intersection, a, b => .intersection a b
  | .difference, a, b => .difference a b
  | .symmetricDifference, a, b => .symmetricDifference a b

def classOperator? : Rest → Option (ClassOperator × Rest)
  | '&' :: '&' :: rest => some (.intersection, rest)
  | '-' :: '-' :: rest => some (.difference, rest)
  | '~' :: '~' :: rest => some (.symmetricDifference, rest)
  | _ => none

abbrev Pending := Option (ClassOperator × CharClass)

def settle (flags : Flags) (pending : Pending) (items : CharClass) : CharClass :=
  match pending with
  | some (operator, left) => operator.apply left (fold flags items)
  | none => fold flags items

/-- Hyphens at the beginning of a class, and a bracket right there, stand for themselves. -/
def leadingItems (flags : Flags) (text : Rest) : CharClass × Rest :=
  let text := skipVerbose flags text
  let after := text.dropWhile (· = '-')
  if after.length < text.length then (.char '-', after)
  else
    match after with
    | ']' :: rest => (.char ']', rest)
    | _ => (.within [], after)

def readItems (flags : Flags) :
    Nat → (negated : Bool) → Pending → CharClass → Rest → Option (CharClass × Rest)
  | 0, _, _, _, _ => none
  | fuel + 1, negated, pending, items, text =>
    match skipVerbose flags text with
    | [] => none
    | ']' :: rest =>
      let set := settle flags pending items
      some (if negated then .complement set else set, rest)
    | '[' :: rest =>
      match namedClass? flags ('[' :: rest) with
      | some (set, rest) => readItems flags fuel negated pending (.union items set) rest
      | none => do
        let (inner, rest) := match skipVerbose flags rest with
          | '^' :: rest => (true, rest)
          | rest => (false, rest)
        let (start, rest) := leadingItems flags rest
        let (set, rest) ← readItems flags fuel inner none start rest
        readItems flags fuel negated pending (.union items set) rest
    | text =>
      match classOperator? text with
      | some (operator, rest) =>
        readItems flags fuel negated (some (operator, settle flags pending items)) (.within []) rest
      | none => do
        let (set, rest) ← classRange? flags text
        readItems flags fuel negated pending (.union items set) rest

def readClass (flags : Flags) (text : Rest) : Option (CharClass × Rest) :=
  let (negated, rest) := match skipVerbose flags text with
    | '^' :: rest => (true, rest)
    | rest => (false, rest)
  let (start, rest) := leadingItems flags rest
  readItems flags (text.length + 1) negated none start rest

/-! ### Repetition -/

def decimal? (text : Rest) : Option (Nat × Rest) :=
  let text := text.dropWhile isBlank
  let digits := text.takeWhile Char.isDigit
  let value := digits.foldl (fun n c => 10 * n + (c.toNat - '0'.toNat)) 0
  if digits.isEmpty || UInt32.size ≤ value then none
  else some (value, (text.drop digits.length).dropWhile isBlank)

def bounds? (flags : Flags) (text : Rest) : Option ((Nat × Option Nat) × Rest) := do
  let (least, rest) ← decimal? (skipVerbose flags text)
  match rest with
  | '\x7d' :: rest => return ((least, some least), rest)
  | ',' :: rest =>
    match skipVerbose flags rest with
    | '\x7d' :: rest => return ((least, none), rest)
    | rest =>
      let (most, rest) ← decimal? rest
      match rest with
      | '\x7d' :: rest => if most < least then none else return ((least, some most), rest)
      | _ => none
  | _ => none

def skipLazy : Rest → Rest
  | '?' :: rest => rest
  | rest => rest

/-- An expression and how deep groups, choices, sequences, repetitions and classes in it are
nested. -/
structure Part where
  regex : Regex
  depth : Nat := 0

namespace Part

def depthOf (parts : List Part) : Nat :=
  let deepest := (parts.map Part.depth).foldl max 0
  if parts.length < 2 then deepest else deepest + 1

def sequence (parts : List Part) : Part :=
  ⟨parts.foldl (fun regex part => .seq part.regex regex) .empty, depthOf parts⟩

def choice (first : Part) (others : List Part) : Part :=
  ⟨branches first.regex (others.map Part.regex), depthOf (first :: others)⟩
where
  branches : Regex → List Regex → Regex
    | regex, [] => regex
    | regex, next :: regexes => .alt regex (branches next regexes)

def repeated (part : Part) (least : Nat) (most : Option Nat) : Part :=
  ⟨.repeated part.regex least most, part.depth + 1⟩

end Part

def readRepeats (flags : Flags) : Nat → Part → Rest → Option (Part × Rest)
  | 0, part, text => some (part, text)
  | fuel + 1, part, text =>
    match skipVerbose flags text with
    | '*' :: rest => readRepeats flags fuel (part.repeated 0 none) (skipLazy rest)
    | '+' :: rest => readRepeats flags fuel (part.repeated 1 none) (skipLazy rest)
    | '?' :: rest => readRepeats flags fuel (part.repeated 0 (some 1)) (skipLazy rest)
    | '\x7b' :: rest => do
      let ((least, most), rest) ← bounds? flags rest
      readRepeats flags fuel (part.repeated least most) (skipLazy rest)
    | rest => some (part, rest)

/-! ### Groups -/

def setFlag? (flags : Flags) (value : Bool) : Char → Option Flags
  | 'i' => some { flags with ignoreCase := value }
  | 'm' => some { flags with multiLine := value }
  | 's' => some { flags with dotAll := value }
  | 'R' => some { flags with crlf := value }
  | 'u' => some { flags with unicode := value }
  | 'x' => some { flags with verbose := value }
  | 'U' => some flags
  | _ => none

/-- Flags up to a colon or a closing bracket: each letter once, after one hyphen at most those that
are taken away. Gives the letters read, the flags and what follows. -/
def readFlags : Flags → (on : Bool) → (letters : List Char) → Rest →
    Option (List Char × Flags × Rest)
  | _, _, _, [] => none
  | flags, on, letters, c :: rest =>
    if c = ':' || c = ')' then
      if letters.head? = some '-' then none else some (letters, flags, c :: rest)
    else if letters.contains c then none
    else if c = '-' then readFlags flags false (c :: letters) rest
    else
      match setFlag? flags on c with
      | some flags => readFlags flags on (c :: letters) rest
      | none => none

def isNameStart (c : Char) : Bool :=
  c = '_' || Category.contains Category.letters c.toNat

def isNameChar (c : Char) : Bool :=
  isNameStart c || c = '.' || c = '[' || c = ']' || Category.contains CharClass.numbers c.toNat

def groupName? (names : List (List Char)) (text : Rest) : Option (List Char × Rest) :=
  let name := text.takeWhile (· ≠ '>')
  match name, text.drop name.length with
  | c :: more, '>' :: rest =>
    if isNameStart c && more.all isNameChar && !names.contains name then some (name, rest) else none
  | _, _ => none

structure Reader where
  flags : Flags
  names : List (List Char)
  rest : Rest

def dot (flags : Flags) : CharClass :=
  if flags.dotAll then .complement (.within [])
  else if flags.crlf then .complement (.within [(0x0a, 0x0a), (0x0d, 0x0d)])
  else .complement (.within [(0x0a, 0x0a)])

mutual

def readBranches : Nat → Reader → Option (List Part × Reader)
  | 0, _ => none
  | fuel + 1, reader => do
    let (first, reader) ← readSequence fuel [] reader
    match reader.rest with
    | '|' :: rest =>
      let (others, reader) ← readBranches fuel { reader with rest }
      return (first :: others, reader)
    | _ => return ([first], reader)

def readSequence : Nat → List Part → Reader → Option (Part × Reader)
  | 0, _, _ => none
  | fuel + 1, parts, reader =>
    let flags := reader.flags
    let continued (part : Part) (reader : Reader) : Option (Part × Reader) := do
      let (part, rest) ← readRepeats reader.flags reader.rest.length part reader.rest
      readSequence fuel (part :: parts) { reader with rest }
    match skipVerbose flags reader.rest with
    | [] => some (.sequence parts, { reader with rest := [] })
    | '|' :: rest => some (.sequence parts, { reader with rest := '|' :: rest })
    | ')' :: rest => some (.sequence parts, { reader with rest := ')' :: rest })
    | '(' :: rest =>
      match readGroup fuel { reader with rest := skipVerbose flags rest } with
      | some (some group, reader) => continued group reader
      | some (none, reader) =>
        let parts := ⟨.empty, 0⟩ :: parts
        match skipVerbose reader.flags reader.rest with
        | c :: rest =>
          if c = '*' || c = '+' || c = '?' || c = '\x7b' then none
          else readSequence fuel parts { reader with rest := c :: rest }
        | [] => some (.sequence parts, { reader with rest := [] })
      | none => none
    | '[' :: rest => do
      let (set, rest) ← readClass flags rest
      continued ⟨← setRegex? flags set, 1⟩ { reader with rest }
    | '.' :: rest => do continued ⟨← setRegex? flags (dot flags), 0⟩ { reader with rest }
    | '^' :: rest =>
      continued ⟨.look (if flags.multiLine then .lineStart flags.crlf else .textStart), 0⟩
        { reader with rest }
    | '$' :: rest =>
      continued ⟨.look (if flags.multiLine then .lineEnd flags.crlf else .textEnd), 0⟩
        { reader with rest }
    | '\\' :: rest => do
      let (escape, rest) ← escape? flags rest
      match escape with
      | .char c =>
        if !flags.unicode && 0x80 ≤ c.toNat && c.toNat < 0x100 then none
        else continued ⟨← charRegex? flags c, 0⟩ { reader with rest }
      | .set set => continued ⟨← setRegex? flags set, 0⟩ { reader with rest }
      | .look condition => continued ⟨.look condition, 0⟩ { reader with rest }
    | c :: rest =>
      if c = '*' || c = '+' || c = '?' || c = '\x7b' then none
      else do continued ⟨← charRegex? flags c, 0⟩ { reader with rest }

/-- Reads a group after its opening bracket; none in place of a part if it only sets flags. -/
def readGroup : Nat → Reader → Option (Option Part × Reader)
  | 0, _ => none
  | fuel + 1, reader =>
    let outer := reader.flags
    let inside (reader : Reader) : Option (Option Part × Reader) := do
      let (branches, reader) ← readBranches fuel reader
      match branches, reader.rest with
      | first :: others, ')' :: rest =>
        let body := Part.choice first others
        return (some ⟨body.regex, body.depth + 1⟩, { reader with flags := outer, rest })
      | _, _ => none
    let named (rest : Rest) : Option (Option Part × Reader) := do
      let (name, rest) ← groupName? reader.names rest
      inside { reader with names := name :: reader.names, rest }
    match reader.rest with
    | '?' :: '=' :: _ => none
    | '?' :: '!' :: _ => none
    | '?' :: '<' :: '=' :: _ => none
    | '?' :: '<' :: '!' :: _ => none
    | '?' :: 'P' :: '<' :: rest => named rest
    | '?' :: '<' :: rest => named rest
    | '?' :: rest => do
      let (letters, flags, rest) ← readFlags outer true [] rest
      match rest with
      | ')' :: rest => if letters.isEmpty then none else return (none, { reader with flags, rest })
      | ':' :: rest => inside { reader with flags, rest }
      | _ => none
    | _ => inside reader

end

def maxDepth : Nat := 250

def parse? (text : String) : Option Regex := do
  let chars := text.toList
  let (branches, reader) ← readBranches (3 * chars.length + 3) ⟨{}, [], chars⟩
  match branches, reader.rest with
  | first :: others, [] =>
    let whole := Part.choice first others
    if whole.depth ≤ maxDepth && whole.regex.size ≤ maxSize then some whole.regex else none
  | _, _ => none

end AuditTrail.Regex
