import AuditTrail.Proofs.Json.Literal
import AuditTrail.Proofs.Json.Spelling

/-!
The reader undoes the writer: the text of a value is read as the tree of that value, and what
follows the text is left over.
-/

namespace AuditTrail

namespace Document

open Canonical Json

theorem skipBlanks_cons {c : Char} (filled : isBlank c = false) (rest : List Char) :
    skipBlanks (c :: rest) = c :: rest := by
  simp [skipBlanks, filled]

theorem endsLiteral_cons {c : Char} (digit : c.isDigit = false) (point : c ≠ '.') (lower : c ≠ 'e')
    (upper : c ≠ 'E') (rest : List Char) : EndsLiteral (c :: rest) := by
  simp [EndsLiteral, digit, point, lower, upper]

theorem skipBlanks_blanks {blanks : List Char} (blank : ∀ c ∈ blanks, isBlank c = true)
    (text : List Char) : skipBlanks (blanks ++ text) = skipBlanks text :=
  List.dropWhile_append_of_pos blank

theorem skipBlanks_skipBlanks (text : List Char) :
    skipBlanks (skipBlanks text) = skipBlanks text := by
  have first := List.head?_dropWhile_not isBlank text
  cases rest : skipBlanks text with
  | nil => rfl
  | cons c tail =>
      rw [← skipBlanks, rest] at first
      exact skipBlanks_cons (by simpa using first) tail

theorem endsLiteral_blanks {blanks : List Char} (blank : ∀ c ∈ blanks, isBlank c = true) {c : Char}
    (closes : c = ']' ∨ c = '\x7d') (rest : List Char) : EndsLiteral (blanks ++ c :: rest) := by
  cases blanks with
  | nil => rcases closes with rfl | rfl <;> simp [EndsLiteral]
  | cons b blanks =>
      have first := blank b List.mem_cons_self
      simp only [isBlank, Bool.or_eq_true, decide_eq_true_eq] at first
      rcases first with ((rfl | rfl) | rfl) | rfl <;> simp [EndsLiteral]

def OpensNumber (c : Char) : Prop := c = '-' ∨ c.isDigit = true

theorem OpensNumber.ne {c other : Char} (opens : OpensNumber c) (dash : other ≠ '-')
    (digit : other.isDigit = false) : c ≠ other := by
  rintro rfl
  rcases opens with rfl | own
  · exact dash rfl
  · exact absurd own (by simp [digit])

theorem OpensNumber.filled {c : Char} (opens : OpensNumber c) : isBlank c = false := by
  have space := opens.ne (show ' ' ≠ '-' by decide) (by decide)
  have feed := opens.ne (show '\n' ≠ '-' by decide) (by decide)
  have tab := opens.ne (show '\t' ≠ '-' by decide) (by decide)
  have back := opens.ne (show '\r' ≠ '-' by decide) (by decide)
  simp [isBlank, space, feed, tab, back]

theorem Literal.exists_first {l : Literal} (plain : l.Plain) :
    ∃ c tail, l.text = c :: tail ∧ OpensNumber c := by
  unfold text
  cases l.negative with
  | true => exact ⟨'-', _, rfl, Or.inl rfl⟩
  | false =>
      obtain ⟨c, tail, written⟩ := List.exists_cons_of_ne_nil plain.nonempty
      refine ⟨c, tail ++ (fractionText l.fraction ++ exponentText l.exponent), ?_,
        Or.inr (plain.whole c (by simp [written]))⟩
      simp only [written, Bool.false_eq_true, if_false, List.nil_append, List.cons_append]

def LiteralOf (text : List Char) (n : Number) : Prop :=
  ∃ l : Literal, l.Plain ∧ l.text = text ∧ l.number? = some n

def OpensValue (text : List Char) : Prop :=
  ∃ c tail, text = c :: tail ∧ isBlank c = false ∧ c ≠ ']'

theorem LiteralOf.opens {text : List Char} {n : Number} (literal : LiteralOf text n) :
    OpensValue text := by
  obtain ⟨l, plain, rfl, _⟩ := literal
  obtain ⟨c, tail, first, opens⟩ := l.exists_first plain
  exact ⟨c, tail, first, opens.filled, opens.ne (by decide) (by decide)⟩

theorem opensValue_writeWith {write : Number → List Char}
    (literals : ∀ n, ∃ m, LiteralOf (write n) m) (value : Json) :
    OpensValue (value.writeWith write) := by
  cases value with
  | number n =>
      obtain ⟨m, literal⟩ := literals n
      exact literal.opens
  | bool b => cases b <;> exact ⟨_, _, rfl, by decide, by decide⟩
  | _ => exact ⟨_, _, rfl, by decide, by decide⟩

/-- A text that is read as a tree whatever follows it, as long as no number goes on there. Twice
the length of the text is fuel enough. -/
def ReadsAs (text : List Char) (document : Document) : Prop :=
  ∀ fuel rest, 2 * text.length ≤ fuel → EndsLiteral rest →
    readValue fuel (text ++ rest) = (document, rest)

theorem readsAs_literal {text : List Char} {n : Number} (literal : LiteralOf text n) :
    ReadsAs text (.number n) := by
  intro fuel rest enough ends
  obtain ⟨l, plain, rfl, value⟩ := literal
  have read := l.literal?_text plain ends
  obtain ⟨c, tail, first, opens⟩ := l.exists_first plain
  rw [first] at enough read ⊢
  obtain ⟨fuel, rfl⟩ : ∃ k, fuel = k + 1 := ⟨fuel - 1, by simp at enough; omega⟩
  have quote := opens.ne (show '"' ≠ '-' by decide) (by decide)
  have bracket := opens.ne (show '[' ≠ '-' by decide) (by decide)
  have brace := opens.ne (show '\x7b' ≠ '-' by decide) (by decide)
  have n := opens.ne (show 'n' ≠ '-' by decide) (by decide)
  have t := opens.ne (show 't' ≠ '-' by decide) (by decide)
  have f := opens.ne (show 'f' ≠ '-' by decide) (by decide)
  simp only [List.cons_append] at read ⊢
  simp only [readValue, skipBlanks_cons opens.filled, quote, bracket, brace, n, t, f, if_false, read,
    value]

theorem readsAs_string (s : String) : ReadsAs (quote s) (.string s) := by
  intro fuel rest enough _
  obtain ⟨fuel, rfl⟩ : ∃ k, fuel = k + 1 := ⟨fuel - 1, by simp [quote] at enough; omega⟩
  rw [quote_append]
  simp [readValue, skipBlanks_cons (show isBlank '"' = false by decide), string?_escaped]

theorem ofJson_ne_malformed (value : Json) : ofJson value ≠ .malformed := by
  cases value <;> simp [ofJson]

section

variable {fuel : Nat} {text after tail rest : List Char} {item : Document}

theorem readItems_last (read : readValue fuel text = (item, after)) (whole : item ≠ .malformed)
    (close : skipBlanks after = ']' :: rest) :
    readItems (fuel + 1) text = ([item], true, rest) := by
  simp only [readItems, read, close]

theorem readItems_next {c : Char} {more : List Char} {items : List Document}
    (read : readValue fuel text = (item, after)) (whole : item ≠ .malformed)
    (comma : skipBlanks after = ',' :: tail) (next : skipBlanks tail = c :: more)
    (distinct : c ≠ ']') (later : readItems fuel (c :: more) = (items, true, rest)) :
    readItems (fuel + 1) text = (item :: items, true, rest) := by
  simp [readItems, read, comma, next, distinct, later]

theorem readItems_nil (fuel : Nat) : (readItems fuel []).2.1 = false := by
  cases fuel with
  | zero => rfl
  | succ fuel => cases fuel <;> rfl

theorem readItems_cases {items : List Document}
    (read : readItems (fuel + 1) text = (items, true, rest)) :
    ∃ item after, readValue fuel text = (item, after) ∧ item ≠ .malformed ∧
      (skipBlanks after = ']' :: rest ∧ items = [item] ∨
        ∃ tail c more later, skipBlanks after = ',' :: tail ∧ skipBlanks tail = c :: more ∧
          c ≠ ']' ∧ readItems fuel (c :: more) = (later, true, rest) ∧ items = item :: later) := by
  rw [readItems] at read
  cases value : readValue fuel text with
  | mk item after =>
      rw [value] at read
      dsimp only at read
      split at read
      · cases read
      · rename_i whole
        refine ⟨item, after, rfl, whole, ?_⟩
        split at read
        · rename_i close
          cases read
          exact Or.inl ⟨close, rfl⟩
        · rename_i tail comma
          split at read
          · cases read
          · rename_i distinct
            obtain ⟨same, closed, ended⟩ := by simpa only [Prod.mk.injEq] using read
            cases next : skipBlanks tail with
            | nil => cases (readItems_nil fuel).symm.trans (next ▸ closed)
            | cons c more =>
                rw [next] at same closed ended
                refine Or.inr ⟨tail, c, more, _, comma, next, ?_,
                  Prod.ext rfl (Prod.ext closed ended), same.symm⟩
                rintro rfl
                exact distinct more next
        · cases read

theorem readMembers_last {inside afterKey afterColon : List Char} {key : Option String}
    {value : Document} (first : skipBlanks text = '"' :: inside)
    (name : string? inside = some (key, afterKey)) (colon : skipBlanks afterKey = ':' :: afterColon)
    (read : readValue fuel afterColon = (value, after)) (whole : value ≠ .malformed)
    (close : skipBlanks after = '\x7d' :: rest) :
    readMembers (fuel + 1) text = ([(key, value)], true, rest) := by
  rw [readMembers, first]
  simp only [name, colon, read, close]

theorem readMembers_next {inside afterKey afterColon : List Char} {key : Option String}
    {value : Document} {members : List (Option String × Document)}
    (first : skipBlanks text = '"' :: inside)
    (name : string? inside = some (key, afterKey)) (colon : skipBlanks afterKey = ':' :: afterColon)
    (read : readValue fuel afterColon = (value, after)) (whole : value ≠ .malformed)
    (comma : skipBlanks after = ',' :: tail)
    (later : readMembers fuel tail = (members, true, rest)) :
    readMembers (fuel + 1) text = ((key, value) :: members, true, rest) := by
  rw [readMembers, first]
  simp only [name, colon, read, comma, later]

theorem readMembers_cases {members : List (Option String × Document)}
    (read : readMembers (fuel + 1) text = (members, true, rest)) :
    ∃ inside key afterKey afterColon value after, skipBlanks text = '"' :: inside ∧
      string? inside = some (key, afterKey) ∧ skipBlanks afterKey = ':' :: afterColon ∧
      readValue fuel afterColon = (value, after) ∧ value ≠ .malformed ∧
      (skipBlanks after = '\x7d' :: rest ∧ members = [(key, value)] ∨
        ∃ tail later, skipBlanks after = ',' :: tail ∧
          readMembers fuel tail = (later, true, rest) ∧ members = (key, value) :: later) := by
  rw [readMembers] at read
  split at read
  · rename_i inside first
    split at read
    · cases read
    · rename_i key afterKey name
      split at read
      · rename_i afterColon colon
        cases found : readValue fuel afterColon with
        | mk value after =>
            rw [found] at read
            dsimp only at read
            split at read
            · cases read
            · rename_i whole
              refine ⟨inside, key, afterKey, afterColon, value, after, first, name, colon, found,
                whole, ?_⟩
              split at read
              · rename_i close
                cases read
                exact Or.inl ⟨close, rfl⟩
              · rename_i tail comma
                obtain ⟨same, closed, ended⟩ := by simpa only [Prod.mk.injEq] using read
                exact Or.inr ⟨tail, _, comma, Prod.ext rfl (Prod.ext closed ended), same.symm⟩
              · cases read
      · cases read
  · cases read

end

theorem ReadsAs.blanks {blanks text : List Char} {document : Document}
    (reads : ReadsAs text document) (blank : ∀ c ∈ blanks, isBlank c = true) :
    ReadsAs (blanks ++ text) document := by
  intro fuel rest enough ends
  have read := reads fuel rest (by rw [List.length_append] at enough; omega) ends
  cases fuel with
  | zero =>
      have nothing : blanks = [] := by
        cases blanks with
        | nil => rfl
        | cons c blanks => simp at enough
      rwa [nothing, List.nil_append]
  | succ fuel =>
      rw [readValue] at read ⊢
      rwa [List.append_assoc, skipBlanks_blanks blank]

theorem readItems_skipBlanks (fuel : Nat) (text : List Char) :
    readItems (fuel + 2) (skipBlanks text) = readItems (fuel + 2) text := by
  have value : readValue (fuel + 1) (skipBlanks text) = readValue (fuel + 1) text := by
    rw [readValue, readValue, skipBlanks_skipBlanks]
  rw [readItems, readItems, value]

theorem readMembers_skipBlanks (fuel : Nat) (text : List Char) :
    readMembers (fuel + 1) (skipBlanks text) = readMembers (fuel + 1) text := by
  rw [readMembers, readMembers, skipBlanks_skipBlanks]

section

variable {fuel : Nat} {text more rest : List Char}

theorem readValue_items {c : Char} {items : List Document} (begins : skipBlanks text = c :: more)
    (distinct : c ≠ ']') (read : readItems fuel (c :: more) = (items, true, rest)) :
    readValue (fuel + 1) ('[' :: text) = (.array items true, rest) := by
  simp [readValue, skipBlanks_cons (show isBlank '[' = false by decide), begins, distinct, read]

theorem readValue_members {members : List (Option String × Document)}
    (begins : skipBlanks text = '"' :: more)
    (read : readMembers fuel ('"' :: more) = (members, true, rest)) :
    readValue (fuel + 1) ('\x7b' :: text) = (.object members true, rest) := by
  simp [readValue, skipBlanks_cons (show isBlank '\x7b' = false by decide), begins, read]

end

/-! ### Layouts

Items between brackets may be set apart: `lead` stands before each of them and `gap` before the
closing bracket. -/

section

variable {lead gap : List Char} (leadBlank : ∀ c ∈ lead, isBlank c = true)

include leadBlank

theorem skipBlanks_joinItems {α : Type} (write : α → List Char) {item : α} {c : Char}
    (opens : ∃ tail, write item = c :: tail) (filled : isBlank c = false) (items : List α)
    (rest : List Char) :
    ∃ more, skipBlanks (joinItems ((item :: items).map (lead ++ write ·)) ++ rest) = c :: more := by
  obtain ⟨tail, written⟩ := opens
  cases items <;> simp only [List.map_cons, List.map_nil, joinItems, List.append_assoc,
    skipBlanks_blanks leadBlank, written, List.cons_append, skipBlanks_cons filled] <;>
    exact ⟨_, rfl⟩

variable {α : Type} (write : α → List Char) (value : α → Json)
  (gapBlank : ∀ c ∈ gap, isBlank c = true)

include gapBlank

theorem readItems_joinItems (fuel : Nat) {items : List α} (nonempty : items ≠ [])
    (each : ∀ item ∈ items, ReadsAs (write item) (ofJson (value item)))
    (opens : ∀ item ∈ items, OpensValue (write item))
    (enough : 2 * (joinItems (items.map (lead ++ write ·))).length + 1 ≤ fuel)
    (rest : List Char) :
    readItems fuel (joinItems (items.map (lead ++ write ·)) ++ (gap ++ ']' :: rest)) =
      (ofItems (items.map value), true, rest) := by
  induction items generalizing fuel with
  | nil => exact absurd rfl nonempty
  | cons item items ih =>
      obtain ⟨fuel, rfl⟩ : ∃ k, fuel = k + 1 := ⟨fuel - 1, by omega⟩
      have first := (each item List.mem_cons_self).blanks leadBlank
      cases items with
      | nil =>
          refine readItems_last (first _ _ ?_ (endsLiteral_blanks gapBlank (Or.inl rfl) rest))
            (ofJson_ne_malformed (value item)) ?_
          · simp only [List.map_cons, List.map_nil, joinItems] at enough
            omega
          · rw [skipBlanks_blanks gapBlank, skipBlanks_cons (by decide)]
      | cons next items =>
          obtain ⟨c, tail, written, filled, distinct⟩ :=
            opens next (List.mem_cons_of_mem item List.mem_cons_self)
          have long : 0 < (write next).length := by rw [written]; exact Nat.succ_pos _
          have parts (first : List Char) : first.length ≤ (joinItems (first ::
              items.map (lead ++ write ·))).length := by
            cases items <;> simp [joinItems]
          have part := parts (lead ++ write next)
          simp only [List.map_cons, joinItems, List.length_append, List.length_cons] at enough part
          obtain ⟨fuel, rfl⟩ : ∃ k, fuel = k + 2 := ⟨fuel - 2, by omega⟩
          have later := ih (fuel + 2) (List.cons_ne_nil _ _)
            (fun other member => each other (List.mem_cons_of_mem item member))
            (fun other member => opens other (List.mem_cons_of_mem item member))
            (by simp only [List.map_cons]; omega)
          have begins := skipBlanks_joinItems leadBlank write ⟨tail, written⟩ filled items
            (gap ++ ']' :: rest)
          obtain ⟨more, begins⟩ := begins
          rw [← readItems_skipBlanks, begins] at later
          have split : joinItems ((item :: next :: items).map (lead ++ write ·)) ++
              (gap ++ ']' :: rest) = (lead ++ write item) ++
                ',' :: (joinItems ((next :: items).map (lead ++ write ·)) ++
                  (gap ++ ']' :: rest)) := by
            simp only [List.map_cons, joinItems, List.append_assoc, List.cons_append]
          rw [split]
          refine readItems_next (first _ _ ?_ ?_) (ofJson_ne_malformed (value item))
            (skipBlanks_cons (by decide) _) begins distinct later
          · rw [List.length_append]
            omega
          · exact endsLiteral_cons (by decide) (by decide) (by decide) (by decide) _

theorem readMembers_joinItems (fuel : Nat) {fields : List (String × α)} (nonempty : fields ≠ [])
    (each : ∀ field ∈ fields, ReadsAs (write field.2) (ofJson (value field.2)))
    (enough : 2 * (joinItems (fields.map fun field =>
      lead ++ (quote field.1 ++ ':' :: write field.2))).length + 1 ≤ fuel)
    (rest : List Char) :
    readMembers fuel (joinItems (fields.map fun field =>
      lead ++ (quote field.1 ++ ':' :: write field.2)) ++ (gap ++ '\x7d' :: rest)) =
      (ofFields (fields.map fun field => (field.1, value field.2)), true, rest) := by
  induction fields generalizing fuel with
  | nil => exact absurd rfl nonempty
  | cons field fields ih =>
      obtain ⟨fuel, rfl⟩ : ∃ k, fuel = k + 1 := ⟨fuel - 1, by omega⟩
      obtain ⟨key, inner⟩ := field
      have first := each (key, inner) List.mem_cons_self
      have name (after : List Char) : skipBlanks (lead ++ (quote key ++ ':' :: after)) =
          '"' :: (key.toList.flatMap escapeChar ++ '"' :: ':' :: after) := by
        rw [skipBlanks_blanks leadBlank, quote_append, skipBlanks_cons (by decide)]
      have colon := skipBlanks_cons (show isBlank ':' = false by decide)
      cases fields with
      | nil =>
          simp only [List.map_cons, List.map_nil, joinItems, List.append_assoc,
            List.cons_append, List.length_append, List.length_cons] at enough ⊢
          refine readMembers_last (name _) (string?_escaped key _) (colon _)
            (first _ _ ?_ (endsLiteral_blanks gapBlank (Or.inr rfl) rest))
            (ofJson_ne_malformed (value inner)) ?_
          · dsimp only
            omega
          · rw [skipBlanks_blanks gapBlank, skipBlanks_cons (by decide)]
      | cons next fields =>
          have later := ih fuel (List.cons_ne_nil _ _)
            (fun other member => each other (List.mem_cons_of_mem (key, inner) member))
          simp only [List.map_cons, joinItems, List.append_assoc,
            List.cons_append, List.length_append, List.length_cons] at enough later ⊢
          refine readMembers_next (name _) (string?_escaped key _) (colon _)
            (first _ _ ?_ (endsLiteral_cons (by decide) (by decide) (by decide) (by decide) _))
            (ofJson_ne_malformed (value inner)) (skipBlanks_cons (by decide) _) (later ?_)
          · dsimp only
            omega
          · omega

theorem readsAs_array {items : List α} (nonempty : items ≠ [])
    (each : ∀ item ∈ items, ReadsAs (write item) (ofJson (value item)))
    (opens : ∀ item ∈ items, OpensValue (write item)) :
    ReadsAs ('[' :: (joinItems (items.map (lead ++ write ·)) ++ (gap ++ [']'])))
      (ofJson (.array (items.map value))) := by
  intro fuel rest enough _
  simp only [List.cons_append, List.append_assoc, List.nil_append, List.length_cons,
    List.length_append, List.length_nil] at enough ⊢
  obtain ⟨fuel, rfl⟩ : ∃ k, fuel = k + 3 := ⟨fuel - 3, by omega⟩
  have read := readItems_joinItems leadBlank write value gapBlank (fuel + 2) nonempty each opens
    (by omega) rest
  obtain ⟨item, others, rfl⟩ := List.exists_cons_of_ne_nil nonempty
  obtain ⟨c, tail, written, filled, distinct⟩ := opens item List.mem_cons_self
  obtain ⟨more, begins⟩ := skipBlanks_joinItems leadBlank write ⟨tail, written⟩ filled others
    (gap ++ ']' :: rest)
  rw [← readItems_skipBlanks, begins] at read
  exact readValue_items begins distinct read

theorem readsAs_object {fields : List (String × α)} (nonempty : fields ≠ [])
    (each : ∀ field ∈ fields, ReadsAs (write field.2) (ofJson (value field.2))) :
    ReadsAs ('\x7b' :: (joinItems (fields.map fun field =>
      lead ++ (quote field.1 ++ ':' :: write field.2)) ++ (gap ++ ['\x7d'])))
      (ofJson (.object (fields.map fun field => (field.1, value field.2)))) := by
  intro fuel rest enough _
  simp only [List.cons_append, List.append_assoc, List.nil_append, List.length_cons,
    List.length_append, List.length_nil] at enough ⊢
  obtain ⟨fuel, rfl⟩ : ∃ k, fuel = k + 2 := ⟨fuel - 2, by omega⟩
  have read := readMembers_joinItems leadBlank write value gapBlank (fuel + 1) nonempty each
    (by omega) rest
  obtain ⟨field, others, rfl⟩ := List.exists_cons_of_ne_nil nonempty
  obtain ⟨more, begins⟩ := skipBlanks_joinItems leadBlank
    (fun field : String × α => quote field.1 ++ ':' :: write field.2)
    ⟨_, quote_append field.1 _⟩ (by decide) others (gap ++ '\x7d' :: rest)
  rw [← readMembers_skipBlanks, begins] at read
  exact readValue_members begins read

end

theorem literalWord_append_self (word : List Char) (document : Document) (rest : List Char) :
    literalWord word document (word ++ rest) = (document, rest) := by
  simp [literalWord, keyword?]

theorem readsAs_keyword {c : Char} {word : List Char} {document : Document}
    (told : ∀ fuel rest, readValue (fuel + 1) (c :: rest) = literalWord word document rest) :
    ReadsAs (c :: word) document := by
  intro fuel rest enough _
  obtain ⟨fuel, rfl⟩ : ∃ k, fuel = k + 1 := ⟨fuel - 1, by simp at enough; omega⟩
  rw [List.cons_append, told, literalWord_append_self]

theorem readsAs_null : ReadsAs "null".toList .null :=
  readsAs_keyword fun _ _ => rfl

theorem readsAs_bool (b : Bool) : ReadsAs ((Json.bool b).writeWith Number.jsonChars) (.bool b) := by
  cases b with
  | true => exact readsAs_keyword fun _ _ => rfl
  | false => exact readsAs_keyword fun _ _ => rfl

theorem readsAs_emptyArray : ReadsAs ['[', ']'] (ofJson (.array [])) := by
  intro fuel rest enough _
  obtain ⟨fuel, rfl⟩ : ∃ k, fuel = k + 1 := ⟨fuel - 1, by simp at enough; omega⟩
  simp [readValue, skipBlanks, isBlank, ofJson, ofItems]

theorem readsAs_emptyObject : ReadsAs ['\x7b', '\x7d'] (ofJson (.object [])) := by
  intro fuel rest enough _
  obtain ⟨fuel, rfl⟩ : ∃ k, fuel = k + 1 := ⟨fuel - 1, by simp at enough; omega⟩
  simp [readValue, skipBlanks, isBlank, ofJson, ofFields]

section

variable {α : Type} (write : α → List Char) (value : α → Json)

theorem readsAs_brackets {items : List α}
    (each : ∀ item ∈ items, ReadsAs (write item) (ofJson (value item)))
    (opens : ∀ item ∈ items, OpensValue (write item)) :
    ReadsAs (brackets (items.map write)) (ofJson (.array (items.map value))) := by
  cases items with
  | nil => exact readsAs_emptyArray
  | cons item items =>
      have tight := List.forall_mem_nil (isBlank · = true)
      exact readsAs_array tight write value tight (List.cons_ne_nil _ _) each opens

theorem readsAs_braces {fields : List (String × α)}
    (each : ∀ field ∈ fields, ReadsAs (write field.2) (ofJson (value field.2))) :
    ReadsAs (braces (fields.map fun field => (field.1, write field.2)))
      (ofJson (.object (fields.map fun field => (field.1, value field.2)))) := by
  cases fields with
  | nil => exact readsAs_emptyObject
  | cons field fields =>
      have tight := List.forall_mem_nil (isBlank · = true)
      have reads := readsAs_object tight write value tight (List.cons_ne_nil field fields) each
      rw [braces, List.map_map]
      exact reads

end

/-- The text of a value is read as its tree, whatever follows. -/
theorem readsAs_writeWith (value : Json) :
    ReadsAs (value.writeWith Number.jsonChars) (ofJson value) := by
  induction value using structural with
  | null => exact readsAs_null
  | bool b => exact readsAs_bool b
  | number n => exact readsAs_literal (exists_literal n)
  | string s => exact readsAs_string s
  | array items each =>
      have opens (item : Json) (_ : item ∈ items) : OpensValue (item.writeWith Number.jsonChars) :=
        opensValue_writeWith (fun n => ⟨n, exists_literal n⟩) item
      rw [writeWith_array]
      simpa using readsAs_brackets _ id each opens
  | object fields each =>
      rw [writeWith_object]
      simpa using readsAs_braces _ id each

theorem ofChars_of_readsAs {text : List Char} {document : Document}
    (reads : ReadsAs text document) : ofChars text = (document, true) := by
  have read := reads (2 * text.length + 2) [] (by omega) (by simp [EndsLiteral])
  rw [List.append_nil] at read
  rw [ofChars, read]
  rfl

theorem ofChars_blanks {blanks : List Char} (blank : ∀ c ∈ blanks, isBlank c = true)
    (value : Json) :
    ofChars (blanks ++ value.writeWith Number.jsonChars) = (ofJson value, true) :=
  ofChars_of_readsAs ((readsAs_writeWith value).blanks blank)

theorem ofText_print (value : Json) : ofText value.print = (ofJson value, true) := by
  rw [ofText, Json.print, String.toList_ofList, ofChars_of_readsAs (readsAs_writeWith value)]

end Document

end AuditTrail
