import AuditTrail.Proofs.Canonical.Names
import AuditTrail.Proofs.Canonical.Numbers
import AuditTrail.Proofs.Canonical.Parts

/-!
Which data have a canonical text. A datum is refused for what stands somewhere inside it and for
nothing else: a number that is not finite, octets that are no text, a key that is no name, a name
that comes twice, a value without a key, a part that refuses to be written. Whether a key is a name
is told from the text of the key, so a float that is written as an integer passes for one.
-/

namespace AuditTrail

open Document

/-! ### Texts that are integers -/

namespace Canonical

theorem isInteger_decimalChars (n : Int) : isInteger (decimalChars n) = true ↔
    -170141183460469231731687303715884105728 ≤ n ∧
      n < 340282366920938463463374607431768211456 := by
  have digits : (Nat.toDigits 10 n.natAbs).all Char.isDigit = true :=
    List.all_eq_true.mpr (digits_toDigits n.natAbs)
  have nonempty : (Nat.toDigits 10 n.natAbs).isEmpty = false := by simp [Nat.toDigits_ne_nil]
  unfold isInteger decimalChars
  by_cases down : n < 0
  · simp [down, digits, nonempty, digitsValue_toDigits]
    omega
  · have unsigned : ∀ rest, Nat.toDigits 10 n.natAbs = '-' :: rest → False := by
      intro rest same
      exact absurd (digits_toDigits n.natAbs '-' (by simp [same])) (by decide)
    simp [down, digits, nonempty, digitsValue_toDigits]
    omega

theorem isInteger_of_other {c : Char} {text : List Char} (member : c ∈ text)
    (digit : c.isDigit = false) (sign : c ≠ '-') : isInteger text = false := by
  have other {digits : List Char} (member : c ∈ digits) : digits.all Char.isDigit = false :=
    List.all_eq_false.mpr ⟨c, member, by simp [digit]⟩
  unfold isInteger
  split
  next negative digits split =>
    have member : c ∈ digits := by
      split at split
      next rest =>
        cases split
        simpa [sign] using member
      next =>
        cases split
        exact member
    simp [other member]

theorem isInteger_text {l : Literal} {negative : Bool} {d : Decimal}
    (denotes : l.Denotes negative d) : isInteger l.text = false := by
  have real := denotes.real
  cases fraction : l.fraction with
  | some digits =>
      exact isInteger_of_other (c := '.') (by simp [Literal.text, Literal.fractionText, fraction])
        (by decide) (by decide)
  | none =>
      cases exponent : l.exponent with
      | some part =>
          exact isInteger_of_other (c := 'e')
            (by simp [Literal.text, Literal.exponentText, exponent]) (by decide) (by decide)
      | none => simp [fraction, exponent] at real

theorem decodeKey_of_opens {c : Char} {text : List Char} (opens : text.head? = some c)
    (other : c.isDigit = false ∧ c ≠ '-' ∧ c ≠ '"') : (decodeKey text).toOption = none := by
  obtain ⟨rest, rfl⟩ := List.head?_eq_some_iff.mp opens
  obtain ⟨digit, sign, quote⟩ := other
  unfold decodeKey
  split
  next same => exact absurd (List.cons.inj same).1 quote
  next =>
    rw [isInteger_of_other List.mem_cons_self digit sign]
    rfl

theorem decodeKey_text {l : Literal} (plain : l.Plain) : (decodeKey l.text).toOption =
    if isInteger l.text then some (String.ofList l.text) else none := by
  have unquoted : ∀ rest, l.text ≠ '"' :: rest := by
    intro rest same
    obtain ⟨c, digits, whole⟩ := List.exists_cons_of_ne_nil plain.nonempty
    have digit := plain.whole c (by simp [whole])
    unfold Literal.text at same
    rw [whole] at same
    cases sign : l.negative with
    | true => simp [sign] at same
    | false =>
        simp only [sign, Bool.false_eq_true, if_false, List.nil_append, List.cons_append,
          List.cons.injEq] at same
        rw [same.1] at digit
        exact absurd digit (by decide)
  unfold decodeKey
  split
  next same => exact absurd same (unquoted _)
  next => split <;> rfl

theorem decodeKey_decimalChars {n : Int} (inRange : -170141183460469231731687303715884105728 ≤ n ∧
    n < 340282366920938463463374607431768211456) :
    (decodeKey (decimalChars n)).toOption = some (String.ofList (decimalChars n)) := by
  rw [← Literal.text_ofInt, decodeKey_text (Literal.plain_ofInt n), Literal.text_ofInt,
    if_pos ((isInteger_decimalChars n).mpr inRange)]

end Canonical

def Binary64.WrittenWhole (x : Binary64) : Prop :=
  ∃ n : Int, x.canonicalChars = decimalChars n ∧
    -170141183460469231731687303715884105728 ≤ n ∧ n < 340282366920938463463374607431768211456

theorem Binary64.isInteger_canonicalChars {x : Binary64} :
    Canonical.isInteger x.canonicalChars = true ↔ x.WrittenWhole := by
  rcases x.canonicalChars_cases with ⟨n, _, written⟩ | ⟨l, _, denotes, written⟩
  · rw [written, Canonical.isInteger_decimalChars]
    constructor
    · exact fun inRange => ⟨n, written, inRange⟩
    · rintro ⟨m, same, inRange⟩
      rwa [decimalChars_injective (written.symm.trans same)]
  · rw [← written, Canonical.isInteger_text denotes]
    refine iff_of_false Bool.false_ne_true ?_
    rintro ⟨n, same, _⟩
    exact decimalChars_ne_text denotes n (same.symm.trans written.symm)

theorem Binary64.plain_canonicalChars (x : Binary64) :
    ∃ l : Literal, l.Plain ∧ l.text = x.canonicalChars := by
  rcases x.canonicalChars_cases with ⟨n, _, written⟩ | ⟨l, _, denotes, written⟩
  · exact ⟨.ofInt n, Literal.plain_ofInt n, (Literal.text_ofInt n).trans written.symm⟩
  · exact ⟨l, denotes.plain, written⟩

namespace Datum

open Canonical

/-! ### Keys -/

/-- The name that a datum is as a key. A float is a name only if `Passes` lets it be one. -/
inductive Names (Passes : Binary64 → Prop) : Datum → String → Prop
  | text (name : String) : Names Passes (.text name) name
  | char (c : Char) : Names Passes (.char c) (String.ofList [c])
  | bytes {octets : List UInt8} {name : String} (decodes : Utf8.decode octets = .ok name) :
      Names Passes (.bytes octets) name
  | unitVariant (name : String) : Names Passes (.unitVariant name) name
  | integer (n : Int) (inRange) : Names Passes (.integer n inRange) (String.ofList (decimalChars n))
  | float {x : Binary64} (passes : Passes x) :
      Names Passes (.float (.finite x)) (String.ofList x.canonicalChars)
  | present {key : Datum} {name : String} : Names Passes key name → Names Passes (.present key) name
  | wrapped {key : Datum} {name : String} : Names Passes key name → Names Passes (.wrapped key) name

def name? (key : Datum) : Option String :=
  key.text?.bind fun text => (decodeKey text).toOption

theorem name?_of_encode {key : Datum} (written : List Char) (encodes : key.encode = .ok written) :
    key.name? = (decodeKey written).toOption := by
  simp only [name?, text?, encodes, Except.toOption, Option.bind_some]

theorem name?_of_quote {key : Datum} (name : String) (encodes : key.encode = .ok (quote name)) :
    key.name? = some name := by
  rw [name?_of_encode _ encodes, decodeKey_quote]
  rfl

theorem name?_of_opens {key : Datum} {α : Type} {parts : Option α} {write : α → List Char}
    (written : key.text? = parts.map write) {c : Char} (opens : ∀ part, (write part).head? = some c)
    (other : c.isDigit = false ∧ c ≠ '-' ∧ c ≠ '"') : key.name? = none := by
  rw [name?, written]
  cases parts with
  | none => rfl
  | some part => exact decodeKey_of_opens (opens part) other

section

variable {key : Datum} {name : String}

theorem name?_iff_of_none (nameless : key.name? = none)
    (kind : ¬ key.Names Binary64.WrittenWhole name) :
    key.name? = some name ↔ key.Names Binary64.WrittenWhole name :=
  iff_of_false (by simp [nameless]) kind

theorem name?_iff_of_some {told : String} (named : key.name? = some told)
    (names : key.Names Binary64.WrittenWhole told)
    (only : key.Names Binary64.WrittenWhole name → name = told) :
    key.name? = some name ↔ key.Names Binary64.WrittenWhole name := by
  rw [named, Option.some.injEq]
  constructor
  · rintro rfl
    exact names
  · intro other
    exact (only other).symm

theorem name?_bytes_iff (octets : List UInt8) :
    (bytes octets).name? = some name ↔ (bytes octets).Names Binary64.WrittenWhole name := by
  cases decodes : Utf8.decode octets with
  | ok s =>
      refine name?_iff_of_some (name?_of_quote s (by simp only [encode, decodes])) (.bytes decodes)
        fun names => ?_
      cases names
      next other => exact Except.ok.inj (other.symm.trans decodes)
  | error broken =>
      refine name?_iff_of_none (by simp [name?, text?, encode, decodes, Except.toOption])
        fun names => ?_
      cases names
      next other => cases decodes.symm.trans other

theorem name?_float_iff (x : Binary64) : (float (.finite x)).name? = some name ↔
    (float (.finite x)).Names Binary64.WrittenWhole name := by
  obtain ⟨l, plain, written⟩ := x.plain_canonicalChars
  have read : (float (.finite x)).name? = (decodeKey x.canonicalChars).toOption :=
    name?_of_encode _ (by simp only [encode])
  rw [← written, decodeKey_text plain, written] at read
  by_cases whole : x.WrittenWhole
  · rw [if_pos (x.isInteger_canonicalChars.mpr whole)] at read
    refine name?_iff_of_some read (.float whole) fun names => ?_
    cases names
    rfl
  · rw [if_neg (x.isInteger_canonicalChars.not.mpr whole)] at read
    refine name?_iff_of_none read fun names => ?_
    cases names
    next passes => exact whole passes

end

theorem name?_eq_some_iff (key : Datum) (name : String) :
    key.name? = some name ↔ key.Names Binary64.WrittenWhole name := by
  have opened : Char.isDigit '\x7b' = false ∧ '\x7b' ≠ '-' ∧ '\x7b' ≠ '"' := by decide
  induction key using childwise with
  | step key ih => ?_
  cases key with
  | bool b => exact name?_iff_of_none (by cases b <;> rfl) fun names => by cases names
  | absent => exact name?_iff_of_none rfl fun names => by cases names
  | unit => exact name?_iff_of_none rfl fun names => by cases names
  | fault message => exact name?_iff_of_none rfl fun names => by cases names
  | text s =>
      refine name?_iff_of_some (name?_of_quote s (by simp only [encode])) (.text s) fun names => ?_
      cases names
      rfl
  | char c =>
      refine name?_iff_of_some (name?_of_quote (.ofList [c]) (by simp only [encode])) (.char c)
        fun names => ?_
      cases names
      rfl
  | unitVariant s =>
      refine name?_iff_of_some (name?_of_quote s (by simp only [encode])) (.unitVariant s)
        fun names => ?_
      cases names
      rfl
  | bytes octets => exact name?_bytes_iff octets
  | integer n inRange =>
      have read : (integer n inRange).name? = (decodeKey (decimalChars n)).toOption :=
        name?_of_encode _ (by simp only [encode])
      refine name?_iff_of_some (read.trans (decodeKey_decimalChars inRange)) (.integer n inRange)
        fun names => ?_
      cases names
      rfl
  | float x =>
      cases x with
      | nan => exact name?_iff_of_none rfl fun names => by cases names
      | infinity negative => exact name?_iff_of_none rfl fun names => by cases names
      | finite x => exact name?_float_iff x
  | present inner =>
      have inside : (present inner).name? = inner.name? := by simp only [name?, text?, encode]
      rw [inside]
      refine (ih inner List.mem_cons_self).trans ⟨.present, fun names => ?_⟩
      cases names
      next names => exact names
  | wrapped inner =>
      have inside : (wrapped inner).name? = inner.name? := by simp only [name?, text?, encode]
      rw [inside]
      refine (ih inner List.mem_cons_self).trans ⟨.wrapped, fun names => ?_⟩
      cases names
      next names => exact names
  -- The text of anything else opens with a bracket, so it is no key.
  | variant name inner =>
      have nameless := name?_of_opens (text?_variant name inner) (fun _ => rfl) opened
      exact name?_iff_of_none nameless fun names => by cases names
  | sequence items =>
      have opens (texts : List (List Char)) : (brackets texts).head? = some '[' := rfl
      have nameless := name?_of_opens (text?_sequence items) opens (by decide)
      exact name?_iff_of_none nameless fun names => by cases names
  | sequenceVariant name items =>
      have nameless := name?_of_opens (text?_sequenceVariant name items) (fun _ => rfl) opened
      exact name?_iff_of_none nameless fun names => by cases names
  | map entries =>
      have nameless := name?_of_opens (text?_map entries) (fun _ => rfl) opened
      exact name?_iff_of_none nameless fun names => by cases names
  | record fields =>
      have written := (text?_record fields).trans (text?_map _)
      have nameless := name?_of_opens written (fun _ => rfl) opened
      exact name?_iff_of_none nameless fun names => by cases names
  | recordVariant name fields =>
      have nameless := name?_of_opens (text?_recordVariant name fields) (fun _ => rfl) opened
      exact name?_iff_of_none nameless fun names => by cases names

/-! ### What is refused -/

/-- What a datum itself must satisfy to be written, whatever stands inside it. -/
def Sound (Passes : Binary64 → Prop) : Datum → Prop
  | .float x => ∃ y, x = .finite y
  | .bytes octets => ∃ text, Utf8.decode octets = .ok text
  | .map entries => ∃ names : List String, names.Nodup ∧
      entries.Forall₂ (fun entry name => ∃ key, entry.1 = some key ∧ key.Names Passes name) names
  | .record fields | .recordVariant _ fields => (fields.map Prod.fst).Nodup
  | .fault _ => False
  | _ => True

def Encodes (datum : Datum) : Prop :=
  ∃ text, datum.text? = some text

theorem pair?_eq_some_iff {entry : Option Datum × Datum} {name : String} {text : List Char} :
    pair? entry = some (name, text) ↔
      (∃ key, entry.1 = some key ∧ key.Names Binary64.WrittenWhole name) ∧
        entry.2.text? = some text := by
  obtain ⟨key, value⟩ := entry
  cases key with
  | none => simp [pair?]
  | some key =>
      simp only [Option.some.injEq, exists_eq_left', ← name?_eq_some_iff]
      simp only [pair?, name?, Option.bind_eq_bind, Option.pure_def, ← Option.bind_assoc,
        Option.bind_eq_some_iff, Option.some.injEq, Prod.mk.injEq]
      constructor
      · rintro ⟨_, named, _, written, rfl, rfl⟩
        exact ⟨named, written⟩
      · rintro ⟨named, written⟩
        exact ⟨name, named, text, written, rfl, rfl⟩

theorem step?_eq_some_iff {table added : Table (List Char)} {entry : Option Datum × Datum} :
    step? table entry = some added ↔ ∃ name text,
      ((∃ key, entry.1 = some key ∧ key.Names Binary64.WrittenWhole name) ∧
        entry.2.text? = some text) ∧
      table.find? name = none ∧ added = table.insert name text := by
  simp only [step?, Option.bind_eq_some_iff, Prod.exists, pair?_eq_some_iff, add?_eq_some_iff]

theorem exists_offers_iff {entries : List (Option Datum × Datum)} {names : List String} :
    (∃ pairs, entries.Forall₂ Offers pairs ∧ pairs.map Prod.fst = names) ↔
      entries.Forall₂ (fun entry name => entry.2.Encodes ∧
        ∃ key, entry.1 = some key ∧ key.Names Binary64.WrittenWhole name) names := by
  have offers {entry : Option Datum × Datum} {pair : String × List Char} :=
    (@pair?_eq_some_iff_offers entry pair).symm.trans pair?_eq_some_iff
  constructor
  · rintro ⟨pairs, each, rfl⟩
    refine List.forall₂_map_right_iff.mpr (each.imp fun entry pair offered => ?_)
    obtain ⟨named, written⟩ := offers.mp offered
    exact ⟨⟨pair.2, written⟩, named⟩
  · intro each
    induction each with
    | nil => exact ⟨[], .nil, rfl⟩
    | cons first _ ih =>
        obtain ⟨⟨text, written⟩, named⟩ := first
        obtain ⟨pairs, each, rfl⟩ := ih
        exact ⟨(_, text) :: pairs, .cons (offers.mpr ⟨named, written⟩) each, rfl⟩

theorem encodes_map_iff {entries : List (Option Datum × Datum)} : (map entries).Encodes ↔
    (map entries).Sound Binary64.WrittenWhole ∧ ∀ entry ∈ entries, entry.2.Encodes := by
  have written : (map entries).Encodes ↔ ∃ names : List String, names.Nodup ∧
      ∃ pairs, entries.Forall₂ Offers pairs ∧ pairs.map Prod.fst = names := by
    simp only [Encodes, text?, Except.toOption_eq_some_iff, encode_map_eq_ok_iff]
    constructor
    · rintro ⟨_, pairs, each, distinct, _⟩
      exact ⟨_, distinct, pairs, each, rfl⟩
    · rintro ⟨_, distinct, pairs, each, rfl⟩
      have folded : pairs.foldlM add? [] = _ := foldlM_add? distinct fun _ _ => rfl
      obtain ⟨_, ordered, kept⟩ := foldlM_add?_nil_iff.mp folded
      exact ⟨_, pairs, each, distinct, _, ordered, kept, rfl⟩
  rw [written]
  simp only [exists_offers_iff, List.forall₂_and_left, Sound]
  constructor
  · rintro ⟨names, distinct, values, each⟩
    exact ⟨⟨names, distinct, each⟩, values⟩
  · rintro ⟨⟨names, distinct, each⟩, values⟩
    exact ⟨names, distinct, values, each⟩

theorem sound_asEntries_iff {Passes : Binary64 → Prop} {fields : List (String × Datum)} :
    (map (asEntries fields)).Sound Passes ↔ (fields.map Prod.fst).Nodup := by
  have names (names : List String) : (asEntries fields).Forall₂
      (fun entry name => ∃ key, entry.1 = some key ∧ key.Names Passes name) names ↔
      names = fields.map Prod.fst := by
    have named {field : String × Datum} {name : String} :
        (∃ key, some (text field.1) = some key ∧ key.Names Passes name) ↔ name = field.1 := by
      simp only [Option.some.injEq, exists_eq_left']
      constructor
      · intro names
        cases names
        rfl
      · rintro rfl
        exact .text _
    simp only [asEntries, List.forall₂_map_left_iff, named]
    induction fields generalizing names with
    | nil => simp
    | cons field rest ih =>
        simp [List.forall₂_cons_left_iff, ih]
  simp only [Sound, names, exists_eq_right]

theorem mapM_text?_iff {items : List Datum} :
    (∃ texts, items.mapM text? = some texts) ↔ ∀ item ∈ items, item.Encodes := by
  induction items with
  | nil => simp
  | cons item rest ih =>
      rw [List.forall_mem_cons, ← ih]
      cases first : item.text? <;> cases later : rest.mapM text? <;>
        simp [List.mapM_cons, Encodes, first, later]

theorem encodes_iff_sound (datum : Datum) : datum.Encodes ↔
    datum.Sound Binary64.WrittenWhole ∧ ∀ child ∈ datum.children, child.Encodes := by
  have leaf {datum : Datum} (text : List Char) (encodes : datum.encode = .ok text)
      (sound : datum.Sound Binary64.WrittenWhole) (none : datum.children = []) : datum.Encodes ↔
      datum.Sound Binary64.WrittenWhole ∧ ∀ child ∈ datum.children, child.Encodes := by
    refine iff_of_true ⟨text, by rw [text?, encodes]; rfl⟩ ⟨sound, ?_⟩
    simp [none]
  have refused {datum : Datum} (none : datum.text? = none)
      (sound : ¬ datum.Sound Binary64.WrittenWhole) : datum.Encodes ↔
      datum.Sound Binary64.WrittenWhole ∧ ∀ child ∈ datum.children, child.Encodes :=
    iff_of_false (by simp [Encodes, none]) fun both => sound both.1
  cases datum with
  | bool b =>
      cases b with
      | true => exact leaf _ (by simp only [encode]; rfl) trivial rfl
      | false => exact leaf _ (by simp only [encode]; rfl) trivial rfl
  | integer n inRange => exact leaf _ (by simp only [encode]; rfl) trivial rfl
  | float x =>
      cases x with
      | nan =>
          refine refused rfl ?_
          rintro ⟨_, other⟩
          cases other
      | infinity negative =>
          refine refused rfl ?_
          rintro ⟨_, other⟩
          cases other
      | finite x => exact leaf _ (by simp only [encode]; rfl) ⟨x, rfl⟩ rfl
  | char c => exact leaf (quote (.ofList [c])) (by simp only [encode]) trivial rfl
  | text s => exact leaf (quote s) (by simp only [encode]) trivial rfl
  | bytes octets =>
      cases decodes : Utf8.decode octets with
      | ok s => exact leaf (quote s) (by simp only [encode, decodes]) ⟨s, decodes⟩ rfl
      | error broken =>
          refine refused (by simp [text?, encode, decodes, Except.toOption]) ?_
          rintro ⟨s, other⟩
          cases decodes.symm.trans other
  | absent => exact leaf _ (by simp only [encode]; rfl) trivial rfl
  | unit => exact leaf _ (by simp only [encode]; rfl) trivial rfl
  | unitVariant name => exact leaf (quote name) (by simp only [encode]) trivial rfl
  | present inner => simp [Encodes, Sound, children, text?, encode]
  | wrapped inner => simp [Encodes, Sound, children, text?, encode]
  | variant name inner => simp [Encodes, Sound, children, text?_variant]
  | sequence items =>
      simp only [children, Sound, true_and, ← mapM_text?_iff]
      simp [Encodes, text?_sequence]
  | sequenceVariant name items =>
      simp only [children, Sound, true_and, ← mapM_text?_iff]
      simp [Encodes, text?_sequenceVariant]
  | map entries =>
      rw [encodes_map_iff, children, List.forall_mem_map]
  | record fields =>
      have asMap : (record fields).Encodes ↔ (map (asEntries fields)).Encodes := by
        simp [Encodes, text?_record]
      rw [asMap, encodes_map_iff, sound_asEntries_iff, asEntries, List.forall_mem_map, children,
        List.forall_mem_map, Sound]
  | recordVariant name fields =>
      have asMap : (recordVariant name fields).Encodes ↔ (map (asEntries fields)).Encodes := by
        simp [Encodes, text?_recordVariant]
      rw [asMap, encodes_map_iff, sound_asEntries_iff, asEntries, List.forall_mem_map, children,
        List.forall_mem_map, Sound]
  | fault message => exact refused rfl id

theorem encodes_iff_everywhere (datum : Datum) :
    datum.Encodes ↔ datum.Everywhere (Sound Binary64.WrittenWhole) := by
  induction datum using childwise with
  | step datum ih =>
      rw [encodes_iff_sound, everywhere_iff]
      exact and_congr_right fun _ => forall₂_congr ih

/-! ### Floats as keys -/

def core : Datum → Datum
  | .present datum | .wrapped datum => datum.core
  | datum => datum

theorem Names.weaken {Passes Others : Binary64 → Prop} {key : Datum} {name : String}
    (names : key.Names Passes name)
    (weaker : ∀ x, key.core = .float (.finite x) → Passes x → Others x) :
    key.Names Others name := by
  induction names with
  | text name => exact .text name
  | char c => exact .char c
  | bytes decodes => exact .bytes decodes
  | unitVariant name => exact .unitVariant name
  | integer n inRange => exact .integer n inRange
  | float passes => exact .float (weaker _ rfl passes)
  | present _ ih => exact .present (ih weaker)
  | wrapped _ ih => exact .wrapped (ih weaker)

def FloatKey (datum : Datum) (x : Binary64) : Prop :=
  ∃ entries entry key, datum = .map entries ∧ entry ∈ entries ∧ entry.1 = some key ∧
    key.core = .float (.finite x)

theorem Sound.weaken {Passes Others : Binary64 → Prop} {datum : Datum} (sound : datum.Sound Passes)
    (weaker : ∀ x, datum.FloatKey x → Passes x → Others x) : datum.Sound Others := by
  cases datum with
  | map entries =>
      obtain ⟨names, distinct, each⟩ := sound
      have inside := (List.forall₂_and_left _ _).mpr ⟨fun _ member => member, each⟩
      refine ⟨names, distinct, inside.imp ?_⟩
      rintro entry name ⟨member, key, here, names⟩
      exact ⟨key, here, names.weaken fun x float =>
        weaker x ⟨entries, entry, key, rfl, member, here, float⟩⟩
  | _ => exact sound

/-- A datum has a canonical text exactly if everywhere inside it numbers are finite, octets are text,
nothing refuses to be written, every key of a map stands before its value and is a name, and the
names are pairwise different. Names are strings, characters, octets, unit variants and integers, but
floats that are written as an integer as well. -/
theorem encode_ok_iff (datum : Datum) :
    ((∃ text, datum.encode = .ok text) ↔ datum.Everywhere (Sound Binary64.WrittenWhole)) ∧
    (datum.Everywhere (fun part => ∀ x, part.FloatKey x → ¬ x.WrittenWhole) →
      ((∃ text, datum.encode = .ok text) ↔ datum.Everywhere (Sound fun _ => False))) := by
  have encodes : (∃ text, datum.encode = .ok text) ↔ datum.Encodes := by
    unfold Encodes text?
    cases datum.encode <;> simp [Except.toOption]
  rw [encodes, encodes_iff_everywhere]
  refine ⟨Iff.rfl, fun apart => ⟨fun sound part inside => ?_, fun sound part inside => ?_⟩⟩
  · exact (sound part inside).weaken (apart part inside)
  · exact (sound part inside).weaken fun _ _ => False.elim

def floatThree : Binary64 :=
  ⟨false, 6755399441055744, -51, by decide⟩

def floatKeyed : Datum :=
  .map [(some (.float (.finite floatThree)), .bool true)]

theorem canonicalChars_floatThree : floatThree.canonicalChars = ['3'] := by decide +kernel

theorem encode_floatKeyed : floatKeyed.encode = .ok "\x7b\"3\":true\x7d".toList ∧
    ¬ floatKeyed.Everywhere (Sound fun _ => False) := by
  constructor
  · simp only [floatKeyed, encode, encodeEntries, canonicalChars_floatThree]
    rfl
  · intro all
    obtain ⟨names, _, each⟩ := all floatKeyed (.refl _)
    obtain ⟨_, _, ⟨_, here, names⟩, _⟩ := List.forall₂_cons_left_iff.mp each
    cases here
    cases names
    assumption

def sampleKeyed : Datum :=
  .map [(some (.integer 10 (by decide)), .bool true), (some (.present (.text "k")), .unit)]

theorem sound_sampleKeyed :
    sampleKeyed.Everywhere (fun part => ∀ x, part.FloatKey x → ¬ x.WrittenWhole) ∧
    (∃ text, sampleKeyed.encode = .ok text) ∧ sampleKeyed.Everywhere (Sound fun _ => False) := by
  have apart : sampleKeyed.Everywhere (fun part => ∀ x, part.FloatKey x → ¬ x.WrittenWhole) := by
    refine everywhere_iff.mpr ⟨?_, ?_⟩
    · rintro x ⟨entries, entry, key, same, member, here, float⟩
      cases same
      rcases List.mem_cons.mp member with rfl | later
      · cases here
        cases float
      · obtain rfl := List.mem_singleton.mp later
        cases here
        cases float
    · simp only [sampleKeyed, children, List.map_cons, List.map_nil, List.forall_mem_cons]
      refine ⟨?_, ?_, by simp⟩ <;>
        exact everywhere_iff.mpr ⟨by simp [FloatKey], by simp [children]⟩
  have encodes : ∃ text, sampleKeyed.encode = .ok text :=
    ⟨"\x7b\"10\":true,\"k\":null\x7d".toList, rfl⟩
  exact ⟨apart, encodes, ((encode_ok_iff sampleKeyed).2 apart).mp encodes⟩

end Datum

end AuditTrail
