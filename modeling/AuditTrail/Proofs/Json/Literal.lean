import AuditTrail.Json.Document
import AuditTrail.Json.Printer
import AuditTrail.Proofs.Number.Shortest
import AuditTrail.Proofs.Text.Digits

/-!
Written numbers are read back as they were: an integer as the integer and a float as the very same
float, whichever way its digits are set out.
-/

namespace AuditTrail

namespace Document

def EndsLiteral (rest : List Char) : Prop :=
  ∀ c ∈ rest.head?, c.isDigit = false ∧ c ≠ '.' ∧ c ≠ 'e' ∧ c ≠ 'E'

theorem EndsLiteral.endsDigits {rest : List Char} (ends : EndsLiteral rest) : EndsDigits rest :=
  fun c first => (ends c first).1

def readFraction? : List Char → Option (Option (List Char) × List Char)
  | '.' :: rest =>
    let digits := rest.takeWhile Char.isDigit
    if digits.isEmpty then none else some (some digits, rest.dropWhile Char.isDigit)
  | text => some (none, text)

def readExponentSign : List Char → Bool × List Char
  | '-' :: rest => (true, rest)
  | '+' :: rest => (false, rest)
  | text => (false, text)

def readExponent? : List Char → Option (Option (Bool × List Char) × List Char)
  | c :: rest =>
    if c = 'e' || c = 'E' then
      let (down, rest) := readExponentSign rest
      let digits := rest.takeWhile Char.isDigit
      if digits.isEmpty then none else some (some (down, digits), rest.dropWhile Char.isDigit)
    else some (none, c :: rest)
  | [] => some (none, [])

theorem literal?_unsigned {c : Char} (first : c ≠ '-') (text : List Char) :
    literal? (c :: text) =
      let whole := (c :: text).takeWhile Char.isDigit
      if whole.isEmpty || (whole.head? == some '0' && whole.length != 1) then none
      else
        (readFraction? ((c :: text).dropWhile Char.isDigit)).bind fun (fraction, text) =>
          (readExponent? text).map fun (exponent, text) =>
            (⟨false, whole, fraction, exponent⟩, text) := by
  simp only [literal?, List.cons.injEq, first, false_and, imp_self, implies_true]
  generalize (c :: text).takeWhile Char.isDigit = whole
  generalize (c :: text).dropWhile Char.isDigit = rest
  by_cases bad : (whole.isEmpty || whole.head? == some '0' && whole.length != 1) = true
  · simp [bad]
  · simp only [bad, if_false, Bool.false_eq_true, bind, Option.bind, pure]
    cases rest with
    | nil => rfl
    | cons d rest =>
        by_cases point : d = '.'
        · subst point
          by_cases none : (rest.takeWhile Char.isDigit).isEmpty = true
          · simp [readFraction?, none]
          · simp only [readFraction?, none, if_false, Bool.false_eq_true, readExponent?.eq_def,
              readExponentSign.eq_def]
            grind
        · have absent : readFraction? (d :: rest) = some (none, d :: rest) := by
            simp [readFraction?, point]
          rw [absent]
          simp only [readExponent?.eq_def, readExponentSign.eq_def]
          grind

theorem literal?_sign {c : Char} (first : c ≠ '-') (text : List Char) :
    literal? ('-' :: c :: text) =
      (literal? (c :: text)).map fun (l, rest) => ({ l with negative := true }, rest) := by
  have unsigned : ∀ rest, c :: text = '-' :: rest → False := by simp [first]
  simp only [literal?]
  generalize (c :: text).takeWhile Char.isDigit = whole
  generalize (c :: text).dropWhile Char.isDigit = rest
  by_cases bad : (whole.isEmpty || whole.head? == some '0' && whole.length != 1) = true
  · simp [bad]
  · simp only [bad, if_false, Bool.false_eq_true, bind, Option.bind, pure]
    repeat' (first | rfl | split)

namespace Literal

def fractionText : Option (List Char) → List Char
  | some digits => '.' :: digits
  | none => []

def exponentText : Option (Bool × List Char) → List Char
  | some (down, digits) => 'e' :: (if down then '-' else '+') :: digits
  | none => []

def text (l : Literal) : List Char :=
  (if l.negative then ['-'] else []) ++
    (l.whole ++ (fractionText l.fraction ++ exponentText l.exponent))

structure Plain (l : Literal) : Prop where
  nonempty : l.whole ≠ []
  whole : Digits l.whole
  leading : l.whole.head? = some '0' → l.whole.length = 1
  fraction : ∀ digits ∈ l.fraction, digits ≠ [] ∧ Digits digits
  exponent : ∀ part ∈ l.exponent, part.2 ≠ [] ∧ Digits part.2

theorem endsDigits_exponentText {rest : List Char} (ends : EndsLiteral rest)
    (exponent : Option (Bool × List Char)) : EndsDigits (exponentText exponent ++ rest) := by
  cases exponent with
  | none => exact ends.endsDigits
  | some part => exact endsDigits_cons (by decide) _

theorem endsDigits_fractionText {rest : List Char} (ends : EndsDigits rest)
    (fraction : Option (List Char)) : EndsDigits (fractionText fraction ++ rest) := by
  cases fraction with
  | none => exact ends
  | some digits => exact endsDigits_cons (by decide) _

theorem readFraction?_fractionText {fraction : Option (List Char)} {rest : List Char}
    (own : ∀ digits ∈ fraction, digits ≠ [] ∧ Digits digits) (ends : EndsDigits rest)
    (point : ∀ c ∈ rest.head?, c ≠ '.') :
    readFraction? (fractionText fraction ++ rest) = some (fraction, rest) := by
  cases fraction with
  | none =>
      cases rest with
      | nil => rfl
      | cons c rest => simp [fractionText, readFraction?, point c rfl]
  | some digits =>
      obtain ⟨nonempty, digits⟩ := own _ rfl
      simp [fractionText, readFraction?, digits.takeWhile_append ends, digits.dropWhile_append ends,
        nonempty]

theorem readExponent?_exponentText {exponent : Option (Bool × List Char)} {rest : List Char}
    (own : ∀ part ∈ exponent, part.2 ≠ [] ∧ Digits part.2) (ends : EndsLiteral rest) :
    readExponent? (exponentText exponent ++ rest) = some (exponent, rest) := by
  cases exponent with
  | none =>
      cases rest with
      | nil => rfl
      | cons c rest =>
          obtain ⟨_, _, lower, upper⟩ := ends c rfl
          simp [exponentText, readExponent?, lower, upper]
  | some part =>
      obtain ⟨down, digits⟩ := part
      obtain ⟨nonempty, digits⟩ := own _ rfl
      cases down <;>
        simp [exponentText, readExponent?, readExponentSign, nonempty,
          digits.takeWhile_append ends.endsDigits, digits.dropWhile_append ends.endsDigits]

theorem literal?_unsignedText {l : Literal} (plain : l.Plain) (unsigned : l.negative = false)
    {rest : List Char} (ends : EndsLiteral rest) :
    literal? (l.whole ++ (fractionText l.fraction ++ (exponentText l.exponent ++ rest))) =
      some (l, rest) := by
  obtain ⟨negative, whole, fraction, exponent⟩ := l
  obtain ⟨nonempty, digits, leading, fractionDigits, exponentDigits⟩ := plain
  dsimp only at nonempty digits leading fractionDigits exponentDigits unsigned ⊢
  obtain ⟨c, tail, rfl⟩ := List.exists_cons_of_ne_nil nonempty
  have first : c ≠ '-' := by
    rintro rfl
    exact absurd (digits '-' List.mem_cons_self) (by decide)
  have afterFraction := endsDigits_exponentText ends exponent
  have afterWhole := endsDigits_fractionText afterFraction fraction
  have noPoint : ∀ d ∈ (exponentText exponent ++ rest).head?, d ≠ '.' := by
    cases exponent with
    | none => exact fun d next => (ends d next).2.1
    | some part => simp [exponentText]
  have valid : ¬ ((c :: tail).isEmpty || ((c :: tail).head? == some '0' &&
      (c :: tail).length != 1)) = true := by
    simpa using leading
  rw [List.cons_append, literal?_unsigned first, ← List.cons_append,
    digits.takeWhile_append afterWhole, digits.dropWhile_append afterWhole]
  simp only [valid, if_false, readFraction?_fractionText fractionDigits afterFraction noPoint,
    Option.bind_some, readExponent?_exponentText exponentDigits ends, Option.map_some, unsigned,
    Bool.false_eq_true]

theorem literal?_text {l : Literal} (plain : l.Plain) {rest : List Char}
    (ends : EndsLiteral rest) : literal? (l.text ++ rest) = some (l, rest) := by
  cases sign : l.negative with
  | false =>
      have read := literal?_unsignedText plain sign ends
      simpa [text, sign] using read
  | true =>
      have plain' : Plain { l with negative := false } := ⟨plain.nonempty, plain.whole,
        plain.leading, plain.fraction, plain.exponent⟩
      have read := literal?_unsignedText plain' rfl ends
      obtain ⟨c, tail, written⟩ := List.exists_cons_of_ne_nil plain.nonempty
      have first : c ≠ '-' := by
        rintro rfl
        exact absurd (plain.whole '-' (by simp [written])) (by decide)
      simp only [written, List.cons_append] at read
      simp only [text, sign, if_true, written, List.cons_append, List.nil_append,
        List.append_assoc]
      rw [literal?_sign first, read, ← written, ← sign]
      rfl

def significand (l : Literal) : Nat :=
  digitsValue (l.whole ++ l.fraction.getD [])

def power (l : Literal) : Int :=
  (match l.exponent with
    | some (true, digits) => -(digitsValue digits : Int)
    | some (false, digits) => digitsValue digits
    | none => 0) - (l.fraction.getD []).length

structure Denotes (l : Literal) (negative : Bool) (d : Decimal) : Prop where
  plain : l.Plain
  sign : l.negative = negative
  real : (l.fraction.isNone && l.exponent.isNone) = false
  value : (l.significand * 10 ^ l.power : ℚ) = d.digits * 10 ^ d.exponent

theorem number?_of_real {l : Literal} (real : (l.fraction.isNone && l.exponent.isNone) = false) :
    l.number? = (Binary64.ofDecimal l.negative l.significand l.power).map Number.float := by
  unfold number?
  dsimp only
  rw [real]
  rfl

theorem number?_of_denotes {x : Binary64} {tie : Tie} {l : Literal} (filled : x.isZero = false)
    (denotes : l.Denotes x.negative (x.shortest tie)) : l.number? = some (.float x) := by
  rw [number?_of_real denotes.real, denotes.sign,
    Binary64.ofDecimal_shortest filled tie denotes.value]
  rfl

end Literal

theorem digitsValue_append (text other : List Char) :
    digitsValue (text ++ other) = digitsValue text * 10 ^ other.length + digitsValue other := by
  show Nat.ofDigitChars 10 (text ++ other) 0 = _
  rw [Nat.ofDigitChars_append, Nat.ofDigitChars_eq_ofDigitChars_zero, mul_comm]
  rfl

theorem digitsValue_toDigits (n : Nat) : digitsValue (Nat.toDigits 10 n) = n :=
  Nat.ofDigitChars_ten_toDigits

theorem digitsValue_zeros (count : Nat) : digitsValue (List.replicate count '0') = 0 := by
  show Nat.ofDigitChars 10 (List.replicate count '0') 0 = 0
  rw [Nat.ofDigitChars_replicate_zero, Nat.mul_zero]

theorem digitsValue_zero (text : List Char) : digitsValue ('0' :: text) = digitsValue text := rfl

namespace Literal

variable {d : Decimal}

theorem denotes_padded (negative : Bool) {digits : Nat} (positive : 0 < digits) (n : Nat) :
    Denotes ⟨negative, Nat.toDigits 10 digits ++ List.replicate n '0', some ['0'], none⟩ negative
      ⟨digits, n⟩ where
  plain := by
    refine ⟨by simp [Nat.toDigits_ne_nil], (digits_toDigits digits).append (digits_zeros n), ?_,
      by simp [Digits], by simp⟩
    intro zero
    rw [List.head?_append_of_ne_nil _ Nat.toDigits_ne_nil] at zero
    exact absurd zero (head?_toDigits positive)
  sign := rfl
  real := rfl
  value := by
    have ten : (10 : ℚ) ≠ 0 := by norm_num
    simp [significand, power, digitsValue_append, digitsValue_zeros, digitsValue_zero,
      digitsValue_toDigits]
    field_simp
    simp only [digitsValue, List.foldl_nil, Nat.cast_zero, add_zero]
    ring

theorem denotes_pointed (negative : Bool) {digits n : Nat} (positive : 0 < digits) (down : n ≠ 0)
    (inside : n < (Nat.toDigits 10 digits).length) :
    Denotes ⟨negative, (Nat.toDigits 10 digits).take ((Nat.toDigits 10 digits).length - n),
      some ((Nat.toDigits 10 digits).drop ((Nat.toDigits 10 digits).length - n)), none⟩ negative
      ⟨digits, -n⟩ := by
  have own := digits_toDigits digits
  have leading := head?_toDigits positive
  have value := digitsValue_toDigits digits
  generalize Nat.toDigits 10 digits = written at inside own leading value ⊢
  refine ⟨⟨?_, ?_, ?_, ?_, ?_⟩, rfl, rfl, ?_⟩
  · have filled := List.length_pos_iff.mp (Nat.lt_of_le_of_lt (Nat.zero_le n) inside)
    simp [filled]
    omega
  · exact fun c member => own c (List.mem_of_mem_take member)
  · intro zero
    rw [List.head?_take, if_neg (by omega)] at zero
    exact absurd zero leading
  · rintro _ ⟨⟩
    exact ⟨by simp; omega, fun c member => own c (List.mem_of_mem_drop member)⟩
  · simp
  · have length : written.length - (written.length - n) = n := by omega
    simp [significand, power, value, length]

theorem denotes_fraction (negative : Bool) {digits n : Nat}
    (outside : (Nat.toDigits 10 digits).length ≤ n) :
    Denotes ⟨negative, ['0'], some (List.replicate (n - (Nat.toDigits 10 digits).length) '0' ++
      Nat.toDigits 10 digits), none⟩ negative ⟨digits, -n⟩ where
  plain := by
    refine ⟨by simp, by simp [Digits], by simp, ?_, by simp⟩
    rintro _ ⟨⟩
    exact ⟨by simp [Nat.toDigits_ne_nil], (digits_zeros _).append (digits_toDigits digits)⟩
  sign := rfl
  real := rfl
  value := by
    have length : n - (Nat.toDigits 10 digits).length + (Nat.toDigits 10 digits).length = n := by
      omega
    simp [significand, power, digitsValue_toDigits, length, digitsValue_append, digitsValue_zeros,
      digitsValue_zero]

theorem exists_positional (negative : Bool) (positive : 0 < d.digits) :
    ∃ l : Literal, l.Denotes negative d ∧ l.text = (if negative then ['-'] else []) ++
      d.positional ++ (if 0 ≤ d.exponent then ['.', '0'] else []) := by
  obtain ⟨digits, exponent⟩ := d
  unfold Decimal.positional
  by_cases up : 0 ≤ exponent
  · obtain ⟨n, rfl⟩ := Int.eq_ofNat_of_zero_le up
    refine ⟨_, denotes_padded negative positive n, ?_⟩
    simp [text, fractionText, exponentText]
  · obtain ⟨n, rfl⟩ : ∃ n : Nat, exponent = -n := ⟨(-exponent).toNat, by omega⟩
    simp only [up, if_false, Int.neg_neg, Int.toNat_natCast]
    by_cases inside : n < (Nat.toDigits 10 digits).length
    · refine ⟨_, denotes_pointed negative positive (by omega) inside, ?_⟩
      simp [text, fractionText, exponentText, inside]
    · refine ⟨_, denotes_fraction negative (Nat.not_lt.mp inside), ?_⟩
      simp [text, fractionText, exponentText, inside]

theorem power_signed (exponent : Int) (whole : List Char) (negative : Bool)
    (fraction : Option (List Char)) :
    power ⟨negative, whole, fraction, some (decide (exponent < 0), Nat.toDigits 10 exponent.natAbs)⟩ =
      exponent - (fraction.getD []).length := by
  unfold power
  by_cases down : exponent < 0
  · simp only [down, decide_true, digitsValue_toDigits]
    omega
  · simp only [down, decide_false, digitsValue_toDigits]
    omega

theorem exists_scientific (negative : Bool) (positive : 0 < d.digits) :
    ∃ l : Literal, l.Denotes negative d ∧
      l.text = (if negative then ['-'] else []) ++ d.scientific := by
  obtain ⟨digits, exponent⟩ := d
  have own := digits_toDigits digits
  have value := digitsValue_toDigits digits
  unfold Decimal.scientific Decimal.leadingExponent
  dsimp only at positive ⊢
  cases written : Nat.toDigits 10 digits with
  | nil => exact absurd written Nat.toDigits_ne_nil
  | cons digit rest =>
      rw [written] at own value
      obtain ⟨first, later⟩ := List.forall_mem_cons.mp own
      generalize lead : exponent + ((digit :: rest).length : Int) - 1 = leading
      have exponentDigits : ∀ part ∈ some (decide (leading < 0), Nat.toDigits 10 leading.natAbs),
          part.2 ≠ [] ∧ Digits part.2 := by
        rintro _ ⟨⟩
        exact ⟨Nat.toDigits_ne_nil, digits_toDigits _⟩
      cases rest with
      | nil =>
          refine ⟨⟨negative, [digit], none,
              some (decide (leading < 0), Nat.toDigits 10 leading.natAbs)⟩,
            ⟨⟨?_, ?_, ?_, ?_, exponentDigits⟩, rfl, rfl, ?_⟩, ?_⟩
          · simp
          · exact own
          · simp
          · simp
          · rw [power_signed]
            simp [significand, value, ← lead]
          · by_cases down : leading < 0 <;> simp [text, fractionText, exponentText, down]
      | cons next rest =>
          refine ⟨⟨negative, [digit], some (next :: rest),
            some (decide (leading < 0), Nat.toDigits 10 leading.natAbs)⟩,
            ⟨⟨?_, ?_, ?_, ?_, exponentDigits⟩, rfl, rfl, ?_⟩, ?_⟩
          · simp
          · simpa [Digits] using first
          · simp
          · rintro _ ⟨⟩
            exact ⟨by simp, later⟩
          · rw [power_signed]
            have length : leading - ((next :: rest).length : Int) = exponent := by
              simp only [List.length_cons] at lead ⊢
              omega
            simp only [Option.getD_some, length, significand, List.singleton_append, value]
          · by_cases down : leading < 0 <;> simp [text, fractionText, exponentText, down]

/-- The text of a float is a literal of that float. -/
theorem exists_float (x : Binary64) :
    ∃ l : Literal, l.Plain ∧ l.text = x.jsonChars ∧ l.number? = some (.float x) := by
  unfold Binary64.jsonChars
  dsimp only
  by_cases filled : x.isZero = false
  · have positive := x.digits_shortest_pos filled .toEven
    simp only [filled, Bool.false_eq_true, if_false]
    split
    · obtain ⟨l, denotes, written⟩ := exists_positional x.negative positive
      exact ⟨l, denotes.plain, written, number?_of_denotes filled denotes⟩
    · obtain ⟨l, denotes, written⟩ := exists_scientific x.negative positive
      exact ⟨l, denotes.plain, written, number?_of_denotes filled denotes⟩
  · have empty : x.isZero = true := by simpa using filled
    refine ⟨⟨x.negative, ['0'], some ['0'], none⟩, ⟨?_, ?_, ?_, ?_, ?_⟩, ?_, ?_⟩
    · simp
    · simp [Digits]
    · simp
    · simp [Digits]
    · simp
    · simp [text, fractionText, exponentText, empty]
    · rw [number?_of_real rfl]
      conv_rhs => rw [Binary64.eq_zero_of_isZero empty]
      rfl

def ofInt (n : Int) : Literal :=
  ⟨decide (n < 0), Nat.toDigits 10 n.natAbs, none, none⟩

theorem plain_ofInt (n : Int) : (ofInt n).Plain where
  nonempty := Nat.toDigits_ne_nil
  whole := digits_toDigits _
  leading := by
    intro zero
    rcases Nat.eq_zero_or_pos n.natAbs with none | some
    · simp [ofInt, none]
    · exact absurd zero (head?_toDigits some)
  fraction := by simp [ofInt]
  exponent := by simp [ofInt]

theorem text_ofInt (n : Int) : (ofInt n).text = decimalChars n := by
  unfold decimalChars
  by_cases down : n < 0 <;> simp [ofInt, text, fractionText, exponentText, down]

theorem number?_ofInt (n : Int) : (ofInt n).number? =
    if h : -9223372036854775808 ≤ n ∧ n < 18446744073709551616 then some (.int n h)
    else (Binary64.ofDecimal (decide (n < 0)) n.natAbs 0).map Number.float := by
  unfold number? ofInt
  simp only [digitsValue_toDigits, Option.isNone_none, Bool.and_self, if_true, Option.getD_none,
    List.append_nil, List.length_nil, Nat.cast_zero, sub_zero]
  by_cases down : n < 0
  · have value : -(n.natAbs : Int) = n := by omega
    have filled : ((n.natAbs : Int) == 0) = false := by simp; omega
    simp only [down, decide_true, if_true, value, filled, Bool.and_false, Bool.false_eq_true,
      if_false]
  · have value : (n.natAbs : Int) = n := by omega
    simp only [down, decide_false, Bool.false_eq_true, if_false, value, Bool.false_and]

end Literal

theorem exists_literal (n : Number) :
    ∃ l : Literal, l.Plain ∧ l.text = n.jsonChars ∧ l.number? = some n := by
  cases n with
  | int n inRange =>
      exact ⟨.ofInt n, Literal.plain_ofInt n, Literal.text_ofInt n,
        (Literal.number?_ofInt n).trans (dif_pos inRange)⟩
  | float x => exact Literal.exists_float x

end Document

end AuditTrail
