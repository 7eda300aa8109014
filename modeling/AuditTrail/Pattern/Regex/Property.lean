import AuditTrail.Pattern.Regex.Basic
import AuditTrail.Text.Symbol

/-!
Sets of characters by the name of a property: general categories, a few scripts, and properties of
their own. Case, blanks, hyphens and underscores in a name do not matter.
-/

namespace AuditTrail.CharClass

def numbers : List CodeRange :=
  Category.decimalDigits ++ Category.letterNumbers ++ Category.otherNumbers

def ofStrides (strides : List Stride) : CharClass :=
  .within (strides.flatMap Stride.ranges)

def caseLetters : CharClass :=
  ofStrides (LetterCase.upper ++ LetterCase.lower ++ LetterCase.title)

def punctuation : List CodeRange :=
  Category.connectors ++ Category.dashes ++ Category.openings ++ Category.closings ++
    Category.initialQuotes ++ Category.finalQuotes ++ Category.otherPunctuation

def symbols : List CodeRange :=
  Category.currencySymbols ++ Category.modifierSymbols ++ Category.mathSymbols ++
    Category.otherSymbols

def separators : List CodeRange :=
  Category.spaces ++ [(0x2028, 0x2029)]

def assigned : List CodeRange :=
  Category.letters ++ Category.marks ++ numbers ++ punctuation ++ symbols ++ separators ++
    Category.controls ++ Category.formats ++ Category.privateUse

def categories : List (List String × CharClass) := [
  (["any"], .within [(0, 0x10ffff)]),
  (["assigned"], .within assigned),
  (["ascii"], .within [(0, 0x7f)]),
  (["l", "letter"], .within Category.letters),
  (["lc", "casedletter"], caseLetters),
  (["lu", "uppercaseletter"], ofStrides LetterCase.upper),
  (["ll", "lowercaseletter"], ofStrides LetterCase.lower),
  (["lt", "titlecaseletter"], ofStrides LetterCase.title),
  (["lm", "modifierletter"], .within Category.modifierLetters),
  (["lo", "otherletter"],
    .difference (.within Category.letters)
      (.union caseLetters (.within Category.modifierLetters))),
  (["m", "mark", "combiningmark"], .within Category.marks),
  (["mc", "spacingmark"], .within Category.spacingMarks),
  (["me", "enclosingmark"], .within Category.enclosingMarks),
  (["mn", "nonspacingmark"],
    .difference (.within Category.marks)
      (.within (Category.spacingMarks ++ Category.enclosingMarks))),
  (["n", "number"], .within numbers),
  (["nd", "decimalnumber", "digit"], .within Category.decimalDigits),
  (["nl", "letternumber"], .within Category.letterNumbers),
  (["no", "othernumber"], .within Category.otherNumbers),
  (["p", "punctuation", "punct"], .within punctuation),
  (["pc", "connectorpunctuation"], .within Category.connectors),
  (["pd", "dashpunctuation"], .within Category.dashes),
  (["ps", "openpunctuation"], .within Category.openings),
  (["pe", "closepunctuation"], .within Category.closings),
  (["pi", "initialpunctuation"], .within Category.initialQuotes),
  (["pf", "finalpunctuation"], .within Category.finalQuotes),
  (["po", "otherpunctuation"], .within Category.otherPunctuation),
  (["s", "symbol"], .within symbols),
  (["sc", "currencysymbol"], .within Category.currencySymbols),
  (["sk", "modifiersymbol"], .within Category.modifierSymbols),
  (["sm", "mathsymbol"], .within Category.mathSymbols),
  (["so", "othersymbol"], .within Category.otherSymbols),
  (["z", "separator"], .within separators),
  (["zs", "spaceseparator"], .within Category.spaces),
  (["zl", "lineseparator"], .within [(0x2028, 0x2028)]),
  (["zp", "paragraphseparator"], .within [(0x2029, 0x2029)]),
  (["c", "other"],
    .complement (.within (Category.letters ++ Category.marks ++ numbers ++ punctuation ++
      symbols ++ separators))),
  (["cc", "control", "cntrl"], .within Category.controls),
  (["cf", "format"], .within Category.formats),
  (["co", "privateuse"], .within Category.privateUse),
  (["cn", "unassigned"], .complement (.within assigned))]

def otherUpper : List CodeRange := [
  (0x2160, 0x216f), (0x24b6, 0x24cf), (0x1f130, 0x1f149), (0x1f150, 0x1f169), (0x1f170, 0x1f189)]

def otherLower : List CodeRange := [
  (0xaa, 0xaa), (0xba, 0xba), (0x2b0, 0x2b8), (0x2c0, 0x2c1), (0x2e0, 0x2e4), (0x345, 0x345),
  (0x37a, 0x37a), (0x10fc, 0x10fc), (0x1d2c, 0x1d6a), (0x1d78, 0x1d78), (0x1d9b, 0x1dbf),
  (0x2071, 0x2071), (0x207f, 0x207f), (0x2090, 0x209c), (0x2170, 0x217f), (0x24d0, 0x24e9),
  (0x2c7c, 0x2c7d), (0xa69c, 0xa69d), (0xa770, 0xa770), (0xa7f2, 0xa7f4), (0xa7f8, 0xa7f9),
  (0xab5c, 0xab5f), (0xab69, 0xab69), (0x10780, 0x10780), (0x10783, 0x10785), (0x10787, 0x107b0),
  (0x107b2, 0x107ba), (0x1e030, 0x1e06d)]

def binaryProperties : List (List String × CharClass) := [
  (["alphabetic", "alpha"],
    .within (Category.letters ++ Category.letterNumbers ++ Category.enclosedLetters)),
  (["uppercase", "upper"], .union (ofStrides LetterCase.upper) (.within otherUpper)),
  (["lowercase", "lower"], .union (ofStrides LetterCase.lower) (.within otherLower)),
  (["whitespace", "wspace", "space"], .blank),
  (["joincontrol", "joinc"], .within Category.joiners),
  (["asciihexdigit", "ahex"], .within [(0x30, 0x39), (0x41, 0x46), (0x61, 0x66)]),
  (["hexdigit", "hex"], .within [(0x30, 0x39), (0x41, 0x46), (0x61, 0x66), (0xff10, 0xff19),
    (0xff21, 0xff26), (0xff41, 0xff46)])]

def scripts : List (List String × CharClass) := [
  (["greek", "grek"], .within [(0x370, 0x373), (0x375, 0x377), (0x37a, 0x37d), (0x37f, 0x37f),
    (0x384, 0x384), (0x386, 0x386), (0x388, 0x3e1), (0x3f0, 0x3ff), (0x1f00, 0x1ffe)]),
  (["cyrillic", "cyrl"], .within [(0x400, 0x484), (0x487, 0x52f), (0x1c80, 0x1c88),
    (0x1d2b, 0x1d2b), (0x1d78, 0x1d78), (0x2de0, 0x2dff), (0xa640, 0xa69f)]),
  (["latin", "latn"], .within [(0x41, 0x5a), (0x61, 0x7a), (0xaa, 0xaa), (0xba, 0xba),
    (0xc0, 0xd6), (0xd8, 0xf6), (0xf8, 0x2b8), (0x2e0, 0x2e4), (0x1e00, 0x1eff)]),
  (["han", "hani"], .within [(0x2e80, 0x2fd5), (0x3005, 0x3005), (0x3007, 0x3007),
    (0x3021, 0x3029), (0x3400, 0x4dbf), (0x4e00, 0x9fff), (0xf900, 0xfad9), (0x20000, 0x3134a)]),
  (["hiragana", "hira"], .within [(0x3041, 0x3096), (0x309d, 0x309f), (0x1b001, 0x1b11f),
    (0x1f200, 0x1f200)]),
  (["katakana", "kana"], .within [(0x30a1, 0x30fa), (0x30fd, 0x30ff), (0x31f0, 0x31ff),
    (0x32d0, 0x32fe), (0x3300, 0x3357), (0xff66, 0xff6f), (0xff71, 0xff9d)]),
  (["hebrew", "hebr"], .within [(0x591, 0x5c7), (0x5d0, 0x5ea), (0x5ef, 0x5f4),
    (0xfb1d, 0xfb4f)]),
  (["arabic", "arab"], .within [(0x600, 0x604), (0x606, 0x60b), (0x60d, 0x61a), (0x61c, 0x61e),
    (0x620, 0x63f), (0x641, 0x64a), (0x656, 0x66f), (0x671, 0x6dc), (0x6de, 0x6ff),
    (0x750, 0x77f), (0x870, 0x8e1), (0x8e3, 0x8ff), (0xfb50, 0xfdff), (0xfe70, 0xfefc)])]

def looseName (name : List Char) : String :=
  let bare := match name with
    | a :: b :: rest => if (a = 'i' || a = 'I') && (b = 's' || b = 'S') then rest else name
    | _ => name
  let plain := (bare.filter fun c => c.toNat < 0x80 && c ≠ ' ' && c ≠ '-' && c ≠ '_').map
    Char.toLower
  if bare.length < name.length && plain = ['c'] then "isc" else String.ofList plain

def lookup? (table : List (List String × CharClass)) (name : String) : Option CharClass :=
  (table.find? fun entry => entry.1.contains name).map Prod.snd

def property? (name : List Char) : Option CharClass :=
  lookup? (binaryProperties ++ categories ++ scripts) (looseName name)

def propertyValue? (name value : List Char) : Option CharClass :=
  let name := looseName name
  if name = "gc" || name = "generalcategory" then lookup? categories (looseName value)
  else if name = "sc" || name = "script" || name = "scx" || name = "scriptextensions" then
    lookup? scripts (looseName value)
  else none

end AuditTrail.CharClass
