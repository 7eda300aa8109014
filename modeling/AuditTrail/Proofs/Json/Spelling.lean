import AuditTrail.Canonical.Datum
import AuditTrail.Proofs.Json.Quote
import AuditTrail.Proofs.Table

/-!
Canonical text is uniquely decodable. From left to right, the first character of a value tells its
kind, a quoted string, a number and a closed bracket tell where they end, so a text comes from one
value only, up to the numbers that have the same text.
-/

namespace AuditTrail

/-- What canonical text tells of a value: all of it, with the text of a number in its place. An
object is the map from its keys to their values, so the order of its fields is not told. -/
inductive Spelled where
  | null
  | bool (value : Bool)
  | number (text : List Char)
  | string (value : String)
  | array (items : List Spelled)
  | object (fields : String → Option Spelled)

def isNumberChar (c : Char) : Bool :=
  c.isDigit || c = '-' || c = '.'

structure NumberText (text : List Char) : Prop where
  nonempty : text ≠ []
  chars : ∀ c ∈ text, isNumberChar c = true

def EndsNumber (rest : List Char) : Prop :=
  ∀ c ∈ rest.head?, isNumberChar c = false

theorem endsNumber_cons {c : Char} (other : isNumberChar c = false) (rest : List Char) :
    EndsNumber (c :: rest) := by
  simpa [EndsNumber] using other

theorem NumberText.takeWhile_append {text rest : List Char} (plain : NumberText text)
    (ends : EndsNumber rest) : (text ++ rest).takeWhile isNumberChar = text := by
  rw [List.takeWhile_append_of_pos plain.chars]
  cases rest with
  | nil => simp
  | cons c rest => simp [ends c (by simp)]

theorem NumberText.append_inj {text other rest more : List Char} (first : NumberText text)
    (second : NumberText other) (ends : EndsNumber rest) (endsOther : EndsNumber more)
    (same : text ++ rest = other ++ more) : text = other ∧ rest = more := by
  have texts : text = other := by
    rw [← first.takeWhile_append ends, same, second.takeWhile_append endsOther]
  subst texts
  exact ⟨rfl, List.append_cancel_left same⟩

namespace Canonical

def afterItem (close : Char) (items : List (List Char)) (rest : List Char) : List Char :=
  match items with
  | [] => close :: rest
  | _ => ',' :: joinItems items ++ close :: rest

theorem joinItems_cons (close : Char) (item : List Char) (items : List (List Char))
    (rest : List Char) :
    joinItems (item :: items) ++ close :: rest = item ++ afterItem close items rest := by
  cases items <;> simp [joinItems, afterItem]

theorem endsNumber_afterItem {close : Char} (closes : isNumberChar close = false)
    (items : List (List Char)) (rest : List Char) : EndsNumber (afterItem close items rest) := by
  cases items with
  | nil => exact endsNumber_cons closes rest
  | cons item items => exact endsNumber_cons (by decide) _

/-- Items between brackets can be told apart if each of them can be told from what follows it and
none of them begins with the closing bracket. -/
theorem joinItems_append_inj {α β : Type} {write : α → List Char} (read : α → β) {close : Char}
    (closes : isNumberChar close = false) (comma : close ≠ ',')
    (opens : ∀ a, ∃ c text, write a = c :: text ∧ c ≠ close) {items others : List α}
    {rest more : List Char}
    (inj : ∀ a ∈ items, ∀ b rest more, EndsNumber rest → EndsNumber more →
      write a ++ rest = write b ++ more → read a = read b ∧ rest = more)
    (same : joinItems (items.map write) ++ close :: rest =
      joinItems (others.map write) ++ close :: more) :
    items.map read = others.map read ∧ rest = more := by
  have notEmpty (a : α) (as : List (List Char)) (rest more : List Char) :
      joinItems (write a :: as) ++ close :: rest ≠ close :: more := by
    obtain ⟨c, text, written, different⟩ := opens a
    simp [joinItems_cons, written, different]
  induction items generalizing others with
  | nil =>
      cases others with
      | nil => simpa [joinItems] using same
      | cons b bs => exact absurd same.symm (notEmpty b _ _ _)
  | cons a as ih =>
      cases others with
      | nil => exact absurd same (notEmpty a _ _ _)
      | cons b bs =>
          simp only [List.map_cons, joinItems_cons] at same
          obtain ⟨first, later⟩ := inj a List.mem_cons_self b _ _
            (endsNumber_afterItem closes _ _) (endsNumber_afterItem closes _ _) same
          have tail : as.map read = bs.map read ∧ rest = more := by
            cases as with
            | nil =>
                cases bs with
                | nil => simpa [afterItem] using later
                | cons b' bs => simp [afterItem, comma] at later
            | cons a' as =>
                cases bs with
                | nil => simp [afterItem, Ne.symm comma] at later
                | cons b' bs =>
                    refine ih (fun item member => inj item (List.mem_cons_of_mem _ member)) ?_
                    simpa [afterItem] using later
          exact ⟨by simp [first, tail.1], tail.2⟩

end Canonical

namespace Json

open Canonical

/-- Induction on a value that gives its hypothesis for every member of an array or object. -/
theorem structural {Holds : Json → Prop} (null : Holds .null) (bool : ∀ b, Holds (.bool b))
    (number : ∀ n, Holds (.number n)) (string : ∀ s, Holds (.string s))
    (array : ∀ items, (∀ item ∈ items, Holds item) → Holds (.array items))
    (object : ∀ fields, (∀ field ∈ fields, Holds field.2) → Holds (.object fields)) :
    ∀ value, Holds value
  | .null => null
  | .bool b => bool b
  | .number n => number n
  | .string s => string s
  | .array items =>
    array items fun item _member => structural null bool number string array object item
  | .object fields =>
    object fields fun field _member => structural null bool number string array object field.2
termination_by value => sizeOf value
decreasing_by
  · have smaller := List.sizeOf_lt_of_mem _member
    simp only [Json.array.sizeOf_spec]
    omega
  · have smaller := List.sizeOf_lt_of_mem _member
    have part : sizeOf field.2 < sizeOf field := by cases field; simp
    simp only [Json.object.sizeOf_spec]
    omega

mutual

def spellWith (number : Number → List Char) : Json → Spelled
  | .null => .null
  | .bool b => .bool b
  | .number n => .number (number n)
  | .string s => .string s
  | .array items => .array (spellItems number items)
  | .object fields => .object (spellFields number fields)

def spellItems (number : Number → List Char) : List Json → List Spelled
  | [] => []
  | item :: rest => item.spellWith number :: spellItems number rest

def spellFields (number : Number → List Char) : List (String × Json) → String → Option Spelled
  | [], _ => none
  | (k, value) :: rest, key =>
    (spellFields number rest key).or (if key = k then some (value.spellWith number) else none)

end

section

variable (number : Number → List Char)

theorem spellItems_eq_map (items : List Json) :
    spellItems number items = items.map (·.spellWith number) := by
  induction items with
  | nil => rfl
  | cons item rest ih => simp [spellItems, ih]

theorem spellFields_eq_lastOf (fields : List (String × Json)) (key : String) :
    spellFields number fields key = (Table.lastOf key fields).map (·.spellWith number) := by
  rw [← Table.lastOf_map]
  induction fields with
  | nil => rfl
  | cons field rest ih => simp only [spellFields, ih, List.map_cons, Table.lastOf]

def writeField (field : String × Json) : List Char :=
  quote field.1 ++ ':' :: field.2.writeWith number

theorem writeItems_eq_joinItems (items : List Json) :
    writeItems number items = joinItems (items.map (·.writeWith number)) := by
  induction items with
  | nil => rfl
  | cons item rest ih =>
      cases rest with
      | nil => rfl
      | cons next rest => simp only [writeItems, ih, List.map_cons, joinItems]

theorem writeFields_eq_joinItems (fields : List (String × Json)) :
    writeFields number fields = joinItems (fields.map (writeField number)) := by
  induction fields with
  | nil => rfl
  | cons field rest ih =>
      cases rest with
      | nil => rfl
      | cons next rest => simp only [writeFields, ih, List.map_cons, joinItems, writeField,
          List.append_assoc, List.cons_append]

theorem writeWith_array (items : List Json) :
    (array items).writeWith number = brackets (items.map (·.writeWith number)) := by
  rw [writeWith, writeItems_eq_joinItems]
  rfl

theorem writeWith_object (fields : List (String × Json)) : (object fields).writeWith number =
    braces (fields.map fun field => (field.1, field.2.writeWith number)) := by
  rw [writeWith, writeFields_eq_joinItems, braces, List.map_map]
  rfl

end

theorem fields_append_inj {number : Number → List Char} {fields others : List (String × Json)}
    {rest more : List Char}
    (inj : ∀ field ∈ fields, ∀ (next : Json) (rest more : List Char), EndsNumber rest →
      EndsNumber more → field.2.writeWith number ++ rest = next.writeWith number ++ more →
      field.2.spellWith number = next.spellWith number ∧ rest = more)
    (same : (object fields).writeWith number ++ rest = (object others).writeWith number ++ more) :
    (object fields).spellWith number = (object others).spellWith number ∧ rest = more := by
  simp only [writeWith, writeFields_eq_joinItems, List.cons_append, List.append_assoc,
    List.cons.injEq, true_and, List.nil_append] at same
  have opens (field : String × Json) :
      ∃ c text, writeField number field = c :: text ∧ c ≠ '\x7d' :=
    ⟨'"', _, rfl, by decide⟩
  obtain ⟨read, after⟩ := joinItems_append_inj
    (fun field => (field.1, field.2.spellWith number)) (by decide) (by decide) opens
    (fun field member next rest more ends endsOther same => by
      simp only [writeField, List.append_assoc, List.cons_append] at same
      obtain ⟨key, values⟩ := quote_append_inj same
      obtain ⟨value, after⟩ :=
        inj field member next.2 _ _ ends endsOther (List.cons.inj values).2
      exact ⟨by rw [key, value], after⟩) same
  have told : spellFields number fields = spellFields number others := by
    funext key
    rw [spellFields_eq_lastOf, spellFields_eq_lastOf, ← Table.lastOf_map,
      ← Table.lastOf_map, read]
  simp only [spellWith, told, after, and_self]

inductive Kind where
  | null
  | bool (value : Bool)
  | number
  | string
  | array
  | object
deriving DecidableEq

def kind : Json → Kind
  | .null => .null
  | .bool b => .bool b
  | .number _ => .number
  | .string _ => .string
  | .array _ => .array
  | .object _ => .object

def Kind.ofChar? (c : Char) : Option Kind :=
  if isNumberChar c then some .number
  else if c = 'n' then some .null
  else if c = 'f' then some (.bool false)
  else if c = 't' then some (.bool true)
  else if c = '"' then some .string
  else if c = '[' then some .array
  else if c = '\x7b' then some .object
  else none

inductive SameKind : Json → Json → Prop
  | null : SameKind .null .null
  | bool (b : Bool) : SameKind (.bool b) (.bool b)
  | number (m n : Number) : SameKind (.number m) (.number n)
  | string (s t : String) : SameKind (.string s) (.string t)
  | array (items others : List Json) : SameKind (.array items) (.array others)
  | object (fields others : List (String × Json)) : SameKind (.object fields) (.object others)

theorem sameKind_of_kind_eq {value other : Json} (same : value.kind = other.kind) :
    SameKind value other := by
  cases value <;> cases other <;> simp only [kind, reduceCtorEq, Kind.bool.injEq] at same
  case bool.bool => exact same ▸ SameKind.bool _
  all_goals constructor

section

variable {number : Number → List Char} (plain : ∀ n, NumberText (number n))

include plain

theorem exists_first (value : Json) :
    ∃ c text, value.writeWith number = c :: text ∧ Kind.ofChar? c = some value.kind := by
  cases value with
  | number n =>
      obtain ⟨nonempty, chars⟩ := plain n
      obtain ⟨c, text, written⟩ := List.exists_cons_of_ne_nil nonempty
      refine ⟨c, text, written, ?_⟩
      simp [Kind.ofChar?, kind, chars c (by simp [written])]
  | bool b => cases b <;> exact ⟨_, _, rfl, rfl⟩
  | _ => exact ⟨_, _, rfl, rfl⟩

theorem sameKind_of_append {value other : Json} {rest more : List Char}
    (same : value.writeWith number ++ rest = other.writeWith number ++ more) :
    SameKind value other := by
  obtain ⟨c, text, written, told⟩ := exists_first plain value
  obtain ⟨d, more, writtenOther, toldOther⟩ := exists_first plain other
  rw [written, writtenOther, List.cons_append, List.cons_append] at same
  obtain rfl : c = d := (List.cons.inj same).1
  exact sameKind_of_kind_eq (Option.some.inj (told.symm.trans toldOther))

/-- What follows the text of a value cannot change what the text tells, as long as it does not go
on with a number. -/
theorem writeWith_append_inj {value other : Json} {rest more : List Char} (ends : EndsNumber rest)
    (endsOther : EndsNumber more)
    (same : value.writeWith number ++ rest = other.writeWith number ++ more) :
    value.spellWith number = other.spellWith number ∧ rest = more := by
  have kinds := sameKind_of_append plain same
  -- Both values are of one kind. What follows differs from part to part of an array or object, so
  -- it is general, and each part must tell by itself where it ends.
  induction value using structural generalizing other rest more with
  | null =>
      cases kinds
      exact ⟨rfl, List.append_cancel_left same⟩
  | bool b =>
      cases kinds
      exact ⟨rfl, List.append_cancel_left same⟩
  | number m =>
      cases kinds with
      | number _ n =>
          obtain ⟨text, after⟩ := (plain m).append_inj (plain n) ends endsOther same
          exact ⟨congrArg Spelled.number text, after⟩
  | string s =>
      cases kinds with
      | string _ t =>
          obtain ⟨text, after⟩ := quote_append_inj same
          exact ⟨congrArg Spelled.string text, after⟩
  | array items ih =>
      cases kinds with
      | array _ others =>
          simp only [writeWith, writeItems_eq_joinItems, List.cons_append, List.append_assoc,
            List.cons.injEq, true_and, List.nil_append] at same
          have opens (item : Json) : ∃ c text, item.writeWith number = c :: text ∧ c ≠ ']' := by
            obtain ⟨c, text, written, told⟩ := exists_first plain item
            refine ⟨c, text, written, ?_⟩
            rintro rfl
            cases told
          obtain ⟨read, after⟩ := joinItems_append_inj (·.spellWith number) (by decide) (by decide)
            opens
            (fun item member next rest more ends endsOther same =>
              ih item member ends endsOther same (sameKind_of_append plain same)) same
          simp only [spellWith, spellItems_eq_map, read, after, and_self]
  | object fields ih =>
      cases kinds with
      | object _ others =>
          exact fields_append_inj (fun field member next rest more ends endsOther same =>
            ih field member ends endsOther same (sameKind_of_append plain same)) same

theorem object_append_inj {fields others : List (String × Json)} {rest more : List Char}
    (same : (object fields).writeWith number ++ rest = (object others).writeWith number ++ more) :
    (object fields).spellWith number = (object others).spellWith number ∧ rest = more :=
  fields_append_inj (fun _ _ _ _ _ ends endsOther same =>
    writeWith_append_inj plain ends endsOther same) same

end

theorem sameKind_of_spellWith_eq {number : Number → List Char} {value other : Json}
    (same : value.spellWith number = other.spellWith number) : SameKind value other := by
  cases value <;> cases other <;> simp only [spellWith, reduceCtorEq, Spelled.bool.injEq] at same
  case bool.bool => exact same ▸ SameKind.bool _
  all_goals constructor

end Json

end AuditTrail
