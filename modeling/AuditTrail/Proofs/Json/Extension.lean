import AuditTrail.Json.Decode
import AuditTrail.Proofs.Json.Reader
import AuditTrail.Text.Blank
import Mathlib.Data.List.TakeWhile

/-!
Text behind a value does not change how the value is read. A container or a string tells where it
ends; a number is over where something else follows.
-/

namespace AuditTrail

namespace Document

section

variable {text rest : List Char}

theorem takeWhile_append_of_stopped {p : Char → Bool} (stopped : text.dropWhile p ≠ [])
    (more : List Char) : (text ++ more).takeWhile p = text.takeWhile p := by
  rw [List.takeWhile_append, if_neg]
  intro whole
  have parts := congrArg List.length (List.takeWhile_append_dropWhile (p := p) (l := text))
  rw [List.length_append] at parts
  exact stopped (List.eq_nil_of_length_eq_zero (by omega))

theorem dropWhile_append_of_stopped {p : Char → Bool} (stopped : text.dropWhile p ≠ [])
    (more : List Char) : (text ++ more).dropWhile p = text.dropWhile p ++ more := by
  rw [List.dropWhile_append, if_neg]
  simpa using stopped

theorem skipBlanks_append {c : Char} (found : skipBlanks text = c :: rest) (more : List Char) :
    skipBlanks (text ++ more) = c :: (rest ++ more) := by
  have stopped : text.dropWhile isBlank ≠ [] := by
    rw [← skipBlanks, found]
    exact List.cons_ne_nil _ _
  rw [skipBlanks, dropWhile_append_of_stopped stopped, ← skipBlanks, found, List.cons_append]

theorem pieces?_append {pieces : List Piece} (read : pieces? text = some (pieces, rest))
    (more : List Char) : pieces? (text ++ more) = some (pieces, rest ++ more) := by
  fun_induction pieces? text generalizing pieces rest with
  | case1 => cases read
  | case2 rest' =>
      obtain ⟨rfl, rfl⟩ := by simpa using read
      rfl
  | case3 a b c d rest' hex => cases read
  | case4 a b c d rest' n hex ih => 
      obtain ⟨⟨later, after⟩, found, same⟩ := Option.map_eq_some_iff.mp read
      obtain ⟨rfl, rfl⟩ := by simpa using same
      simp [pieces?, hex, ih found]
  | case5 c rest' other escape => cases read
  | case6 c rest' other d escape ih =>
      obtain ⟨⟨later, after⟩, found, same⟩ := Option.map_eq_some_iff.mp read
      obtain ⟨rfl, rfl⟩ := by simpa using same
      have notUnit : c ≠ 'u' := by
        rintro rfl
        cases escape
      simp [pieces?, notUnit, escape, ih found]
  | case7 c rest' quote unit escape plain => cases read
  | case8 c rest' quote unit escape plain ih =>
      obtain ⟨⟨later, after⟩, found, same⟩ := Option.map_eq_some_iff.mp read
      obtain ⟨rfl, rfl⟩ := by simpa using same
      obtain ⟨printable, backslash⟩ : 0x20 ≤ c.toNat ∧ c ≠ '\\' := by simpa using plain
      simp [pieces?, backslash, printable, ih found]

theorem string?_append {s : Option String} (read : string? text = some (s, rest))
    (more : List Char) : string? (text ++ more) = some (s, rest ++ more) := by
  obtain ⟨⟨pieces, after⟩, found, same⟩ := Option.map_eq_some_iff.mp read
  obtain ⟨rfl, rfl⟩ := by simpa using same
  simp [string?, pieces?_append found]

theorem readFraction?_append {fraction : Option (List Char)}
    (read : readFraction? text = some (fraction, rest)) (further : rest ≠ []) (more : List Char) :
    readFraction? (text ++ more) = some (fraction, rest ++ more) := by
  cases text with
  | nil =>
      cases read
      exact absurd rfl further
  | cons c text =>
      by_cases point : c = '.'
      · subst point
        simp only [readFraction?] at read
        split at read
        · cases read
        · rename_i digits
          cases read
          simp [readFraction?, takeWhile_append_of_stopped further,
            dropWhile_append_of_stopped further, digits]
      · simp only [readFraction?, List.cons.injEq, point, false_and, imp_self, implies_true,
          Option.some.injEq, Prod.mk.injEq] at read
        obtain ⟨rfl, rfl⟩ := read
        simp [readFraction?, point]

theorem readExponentSign_append (further : text ≠ []) (more : List Char) :
    readExponentSign (text ++ more) =
      ((readExponentSign text).1, (readExponentSign text).2 ++ more) := by
  cases text with
  | nil => exact absurd rfl further
  | cons c text =>
      by_cases down : c = '-'
      · simp [readExponentSign, down]
      · by_cases up : c = '+'
        · simp [readExponentSign, up]
        · simp [readExponentSign, down, up]

theorem readExponent?_append {exponent : Option (Bool × List Char)}
    (read : readExponent? text = some (exponent, rest)) (further : rest ≠ []) (more : List Char) :
    readExponent? (text ++ more) = some (exponent, rest ++ more) := by
  cases text with
  | nil =>
      cases read
      exact absurd rfl further
  | cons c text =>
      by_cases power : (c = 'e' || c = 'E') = true
      · simp only [readExponent?, power, if_true] at read
        split at read
        · cases read
        · rename_i digits
          cases read
          have some : text ≠ [] := by
            rintro rfl
            exact further rfl
          simp only [List.cons_append, readExponent?, power, if_true, readExponentSign_append some,
            takeWhile_append_of_stopped further, dropWhile_append_of_stopped further, digits,
            if_false, Bool.false_eq_true]
      · simp only [readExponent?, power, if_false, Bool.false_eq_true, Option.some.injEq,
          Prod.mk.injEq] at read
        obtain ⟨rfl, rfl⟩ := read
        simp [readExponent?, power]

theorem literal?_nil : literal? [] = none := rfl

theorem literal?_dashes (text : List Char) : literal? ('-' :: '-' :: text) = none := rfl

theorem exists_parts {c : Char} (first : c ≠ '-') {l : Literal}
    (read : literal? (c :: text) = some (l, rest)) :
    ∃ after, readFraction? ((c :: text).dropWhile Char.isDigit) = some (l.fraction, after) ∧
      readExponent? after = some (l.exponent, rest) := by
  rw [literal?_unsigned first] at read
  dsimp only at read
  split at read
  · cases read
  · obtain ⟨⟨fraction, after⟩, fractionRead, read⟩ := Option.bind_eq_some_iff.mp read
    obtain ⟨⟨exponent, last⟩, exponentRead, same⟩ := Option.map_eq_some_iff.mp read
    obtain ⟨rfl, rfl⟩ := by simpa using same
    exact ⟨after, fractionRead, exponentRead⟩

theorem literal?_unsigned_append {c : Char} (first : c ≠ '-') {l : Literal}
    (read : literal? (c :: text) = some (l, rest)) (further : rest ≠ []) (more : List Char) :
    literal? (c :: text ++ more) = some (l, rest ++ more) := by
  obtain ⟨after, fractionRead, exponentRead⟩ := exists_parts first read
  have afterFraction : after ≠ [] := by
    rintro rfl
    exact further (Prod.mk.inj (Option.some.inj exponentRead)).2.symm
  have afterWhole : (c :: text).dropWhile Char.isDigit ≠ [] := by
    intro none
    rw [none] at fractionRead
    exact afterFraction (Prod.mk.inj (Option.some.inj fractionRead)).2.symm
  rw [literal?_unsigned first] at read
  rw [List.cons_append, literal?_unsigned first, ← List.cons_append,
    takeWhile_append_of_stopped afterWhole, dropWhile_append_of_stopped afterWhole]
  dsimp only at read ⊢
  split at read
  · cases read
  · rename_i valid
    rw [fractionRead, Option.bind_some, exponentRead, Option.map_some] at read
    rw [if_neg valid, readFraction?_append fractionRead afterFraction, Option.bind_some,
      readExponent?_append exponentRead further, Option.map_some]
    rw [(Prod.mk.inj (Option.some.inj read)).1]

theorem literal?_append {l : Literal} (read : literal? text = some (l, rest)) (further : rest ≠ [])
    (more : List Char) : literal? (text ++ more) = some (l, rest ++ more) := by
  cases text with
  | nil => cases literal?_nil.symm.trans read
  | cons c text =>
      by_cases sign : c = '-'
      · subst sign
        cases text with
        | nil => cases read
        | cons d text =>
            by_cases again : d = '-'
            · subst again
              cases (literal?_dashes text).symm.trans read
            · rw [literal?_sign again] at read
              obtain ⟨⟨unsigned, after⟩, found, same⟩ := Option.map_eq_some_iff.mp read
              obtain ⟨rfl, rfl⟩ := by simpa using same
              have longer := literal?_unsigned_append again found further more
              rw [List.cons_append] at longer
              rw [List.cons_append, List.cons_append, literal?_sign again, longer]
              rfl
      · exact literal?_unsigned_append sign read further more


theorem keyword?_append {word : List Char} (read : keyword? word text = some rest)
    (more : List Char) : keyword? word (text ++ more) = some (rest ++ more) := by
  unfold keyword? at read ⊢
  split at read
  · rename_i found
    obtain ⟨after, rfl⟩ := List.isPrefixOf_iff_prefix.mp found
    cases read
    simp
  · cases read

theorem literalWord_append {word : List Char} {value document : Document}
    (read : literalWord word value text = (document, rest)) (whole : document.wellFormed = true)
    (more : List Char) : literalWord word value (text ++ more) = (document, rest ++ more) := by
  unfold literalWord at read ⊢
  split at read
  · rename_i found
    cases read
    rw [keyword?_append found]
  · cases read
    cases whole

def IsNumber : Document → Prop
  | .number _ => True
  | .hugeNumber => True
  | _ => False

/-- What a reader with some fuel takes for a value, one with more fuel and more text does too. -/
def ReadsOn (fuel : Nat) : Prop :=
  ∀ text document rest, readValue fuel text = (document, rest) → document.wellFormed = true →
    (document.IsNumber → rest ≠ []) → ∀ more supply, fuel ≤ supply →
      readValue supply (text ++ more) = (document, rest ++ more)

theorem ne_nil_of_skipBlanks {c : Char} (found : skipBlanks text = c :: rest) : text ≠ [] := by
  rintro rfl
  cases found

theorem readItems_append {fuel : Nat} (each : ∀ k < fuel, ReadsOn k) {items : List Document}
    (read : readItems fuel text = (items, true, rest)) (whole : wellFormedItems items = true)
    (more : List Char) {supply : Nat} (enough : fuel ≤ supply) :
    readItems supply (text ++ more) = (items, true, rest ++ more) := by
  induction fuel generalizing text items supply with
  | zero => cases read
  | succ fuel ih =>
      obtain ⟨supply, rfl⟩ : ∃ k, supply = k + 1 := ⟨supply - 1, by omega⟩
      obtain ⟨item, after, value, nonempty, ends⟩ := readItems_cases read
      have onward := each fuel (Nat.lt_succ_self fuel) text item after value
      rcases ends with ⟨close, rfl⟩ | ⟨tail, c, beyond, later, comma, next, distinct, readLater, rfl⟩
      · have own : item.wellFormed = true := by simpa [wellFormedItems] using whole
        exact readItems_last
          (onward own (fun _ => ne_nil_of_skipBlanks close) more supply (by omega))
          nonempty (skipBlanks_append close more)
      · obtain ⟨own, wholeLater⟩ : item.wellFormed = true ∧ wellFormedItems later = true := by
          simpa [wellFormedItems] using whole
        exact readItems_next
          (onward own (fun _ => ne_nil_of_skipBlanks comma) more supply (by omega))
          nonempty (skipBlanks_append comma more) (skipBlanks_append next more) distinct
          (ih (fun k below => each k (by omega)) readLater wholeLater (by omega))

theorem readMembers_append {fuel : Nat} (each : ∀ k < fuel, ReadsOn k)
    {members : List (Option String × Document)}
    (read : readMembers fuel text = (members, true, rest))
    (whole : wellFormedMembers members = true)
    (more : List Char) {supply : Nat} (enough : fuel ≤ supply) :
    readMembers supply (text ++ more) = (members, true, rest ++ more) := by
  induction fuel generalizing text members supply with
  | zero => cases read
  | succ fuel ih =>
      obtain ⟨supply, rfl⟩ : ∃ k, supply = k + 1 := ⟨supply - 1, by omega⟩
      obtain ⟨inside, key, afterKey, afterColon, value, after, first, name, colon, found, nonempty,
        ends⟩ := readMembers_cases read
      have onward := each fuel (Nat.lt_succ_self fuel) afterColon value after found
      have first := skipBlanks_append first more
      have name := string?_append name more
      have colon := skipBlanks_append colon more
      rcases ends with ⟨close, rfl⟩ | ⟨tail, later, comma, readLater, rfl⟩
      · have own : value.wellFormed = true := by simpa [wellFormedMembers] using whole
        exact readMembers_last first name colon
          (onward own (fun _ => ne_nil_of_skipBlanks close) more supply (by omega)) nonempty
          (skipBlanks_append close more)
      · obtain ⟨own, wholeLater⟩ : value.wellFormed = true ∧ wellFormedMembers later = true := by
          simpa [wellFormedMembers] using whole
        exact readMembers_next first name colon
          (onward own (fun _ => ne_nil_of_skipBlanks comma) more supply (by omega)) nonempty
          (skipBlanks_append comma more)
          (ih (fun k below => each k (by omega)) readLater wholeLater (by omega))

theorem readMembers_nil (fuel : Nat) : (readMembers fuel []).2.1 = false := by
  cases fuel <;> rfl

section

variable {fuel supply : Nat} {tail : List Char} {document : Document}

theorem readValue_array (first : skipBlanks text = '[' :: tail)
    (each : ∀ k < fuel + 1, ReadsOn k) (read : readValue (fuel + 1) text = (document, rest))
    (whole : document.wellFormed = true) (more : List Char) (enough : fuel ≤ supply) :
    readValue (supply + 1) (text ++ more) = (document, rest ++ more) := by
  have quote : '[' ≠ '"' := by decide
  simp only [readValue, first, skipBlanks_append first more, quote, if_false, if_true] at read ⊢
  split at read
  · rename_i close
    cases read
    simp only [skipBlanks_append close]
  · rename_i filled
    cases found : readItems fuel (skipBlanks tail) with
    | mk items ends =>
        obtain ⟨closed, after⟩ := ends
        simp only [found] at read
        cases read
        obtain ⟨inside, rfl⟩ : wellFormedItems items = true ∧ closed = true := by
          simpa [wellFormed] using whole
        cases opens : skipBlanks tail with
        | nil =>
            have isOpen := readItems_nil fuel
            rw [← opens, found] at isOpen
            cases isOpen
        | cons c beyond =>
            have distinct : c ≠ ']' := by
              rintro rfl
              exact filled beyond opens
            have longer := readItems_append (fun k below => each k (by omega)) found inside more
              enough
            rw [opens, List.cons_append] at longer
            simp [skipBlanks_append opens, distinct, longer]

theorem readValue_object (first : skipBlanks text = '\x7b' :: tail)
    (each : ∀ k < fuel + 1, ReadsOn k) (read : readValue (fuel + 1) text = (document, rest))
    (whole : document.wellFormed = true) (more : List Char) (enough : fuel ≤ supply) :
    readValue (supply + 1) (text ++ more) = (document, rest ++ more) := by
  have quote : '\x7b' ≠ '"' := by decide
  have bracket : '\x7b' ≠ '[' := by decide
  simp only [readValue, first, skipBlanks_append first more, quote, bracket, if_false,
    if_true] at read ⊢
  split at read
  · rename_i close
    cases read
    simp only [skipBlanks_append close]
  · rename_i filled
    cases found : readMembers fuel (skipBlanks tail) with
    | mk members ends =>
        obtain ⟨closed, after⟩ := ends
        simp only [found] at read
        cases read
        obtain ⟨inside, rfl⟩ : wellFormedMembers members = true ∧ closed = true := by
          simpa [wellFormed] using whole
        cases opens : skipBlanks tail with
        | nil =>
            have isOpen := readMembers_nil fuel
            rw [← opens, found] at isOpen
            cases isOpen
        | cons c beyond =>
            have distinct : c ≠ '\x7d' := by
              rintro rfl
              exact filled beyond opens
            have longer := readMembers_append (fun k below => each k (by omega)) found inside more
              enough
            rw [opens, List.cons_append] at longer
            simp [skipBlanks_append opens, distinct, longer]

end

theorem readsOn (fuel : Nat) : ReadsOn fuel := by
  induction fuel using Nat.strongRecOn with
  | _ fuel each =>
      intro text document rest read whole further more supply enough
      cases fuel with
      | zero =>
          cases read
          cases whole
      | succ fuel =>
          obtain ⟨supply, rfl⟩ : ∃ k, supply = k + 1 := ⟨supply - 1, by omega⟩
          have enough : fuel ≤ supply := by omega
          cases first : skipBlanks text with
          | nil =>
              simp only [readValue, first] at read
              cases read
              cases whole
          | cons c tail =>
              by_cases bracket : c = '['
              · exact readValue_array (bracket ▸ first) each read whole more enough
              by_cases brace : c = '\x7b'
              · exact readValue_object (brace ▸ first) each read whole more enough
              simp only [readValue, first, skipBlanks_append first more, bracket, brace,
                if_false] at read ⊢
              by_cases quote : c = '"'
              · rw [if_pos quote] at read ⊢
                split at read
                · rename_i found
                  cases read
                  rw [string?_append found]
                · rename_i found
                  cases read
                  rw [string?_append found]
                · cases read
                  cases whole
              rw [if_neg quote] at read ⊢
              by_cases null : c = 'n'
              · rw [if_pos null] at read ⊢
                exact literalWord_append read whole more
              rw [if_neg null] at read ⊢
              by_cases yes : c = 't'
              · rw [if_pos yes] at read ⊢
                exact literalWord_append read whole more
              rw [if_neg yes] at read ⊢
              by_cases no : c = 'f'
              · rw [if_pos no] at read ⊢
                exact literalWord_append read whole more
              rw [if_neg no] at read ⊢
              -- The only value whose end depends on what follows it.
              split at read
              · cases read
                cases whole
              · rename_i found
                split at read
                · rename_i value
                  cases read
                  rw [← List.cons_append, literal?_append found (further trivial)]
                  simp only [value]
                · rename_i value
                  cases read
                  rw [← List.cons_append, literal?_append found (further trivial)]
                  simp only [value]

theorem ofChars_append {text more : List Char} {document : Document} {ended : Bool}
    (read : ofChars text = (document, ended)) (whole : document.wellFormed = true)
    (bounded : ¬ document.IsNumber) (filled : ∃ c ∈ more, isBlank c = false) :
    ofChars (text ++ more) = (document, false) := by
  unfold ofChars at read ⊢
  cases found : readValue (2 * text.length + 2) text with
  | mk value rest =>
      rw [found] at read
      obtain rfl : value = document := congrArg Prod.fst read
      have longer := readsOn _ text value rest found whole (fun number => absurd number bounded) more
        (2 * (text ++ more).length + 2) (by simp)
      rw [longer]
      refine Prod.ext rfl (Bool.eq_false_iff.mpr fun none => ?_)
      obtain ⟨c, member, filled⟩ := filled
      have blank := List.dropWhile_eq_nil_iff.mp (List.isEmpty_iff.mp none) c
        (List.mem_append_right rest member)
      cases filled.symm.trans blank

theorem ofChars_foreign {text : List Char} (white : ∀ c ∈ text, AuditTrail.isBlank c = true)
    (foreign : ∃ c ∈ text, isBlank c = false) (more : List Char) :
    (ofChars (text ++ more)).1 = .malformed := by
  have some : skipBlanks text ≠ [] := by
    obtain ⟨c, member, other⟩ := foreign
    intro none
    cases other.symm.trans (List.dropWhile_eq_nil_iff.mp none c member)
  obtain ⟨c, rest, found⟩ := List.exists_cons_of_ne_nil some
  have space : AuditTrail.isBlank c = true := by
    refine white c ((List.dropWhile_sublist isBlank).subset ?_)
    rw [← skipBlanks, found]
    exact List.mem_cons_self
  have ne (d : Char) (other : AuditTrail.isBlank d = false) : c ≠ d := by
    rintro rfl
    cases other.symm.trans space
  have digit : c.isDigit = false := by
    refine Bool.eq_false_iff.mpr fun own => ?_
    have bounds : 48 ≤ c.toNat ∧ c.toNat ≤ 57 := by
      simpa [Char.isDigit, UInt32.le_iff_toNat_le] using own
    have plain : c ≠ ' ' := by
      rintro rfl
      cases own
    simp [AuditTrail.isBlank, plain] at space
    omega
  have none : literal? (c :: (rest ++ more)) = none := by
    rw [literal?_unsigned (ne '-' (by decide))]
    simp [digit]
  unfold ofChars
  simp only [readValue, skipBlanks_append found more, ne '"' (by decide), ne '[' (by decide),
    ne '\x7b' (by decide), ne 'n' (by decide), ne 't' (by decide), ne 'f' (by decide), if_false,
    none]

end

end Document

end AuditTrail
