import AuditTrail.Proofs.Text.Digits
import AuditTrail.Time.Timestamp

/-!
A point in time is read back from its text: leap seconds at the end of a minute, years of more than
four digits or before the year 0, and every precision of the second. A leap second within a minute
shares its text with the second behind it, and is read back as that.
-/

namespace AuditTrail.Timestamp

theorem digits_padded (width n : Nat) : Digits (padded width n) :=
  (digits_zeros _).append (digits_toDigits n)

theorem valueOf_padded (width n : Nat) : valueOf (padded width n) = n := by
  show Nat.ofDigitChars 10 (padded width n) 0 = n
  rw [padded, Nat.ofDigitChars_append, Nat.ofDigitChars_replicate_zero, Nat.mul_zero,
    Nat.ofDigitChars_ten_toDigits]

theorem padded_ne_nil (width n : Nat) : padded width n ≠ [] := by
  simp [padded, Nat.toDigits_ne_nil]

theorem length_padded {width n : Nat} (positive : 0 < width) (fits : n < 10 ^ width) :
    (padded width n).length = width := by
  have short := (Nat.length_toDigits_le_iff (b := 10) (by decide) positive).mpr fits
  simp only [padded, List.length_append, List.length_replicate]
  omega

theorem isBlank_of_isDigit {c : Char} (digit : c.isDigit = true) : isBlank c = false := by
  have bounds : 48 ≤ c.toNat ∧ c.toNat ≤ 57 := by
    simp only [Char.isDigit, Bool.and_eq_true, decide_eq_true_eq] at digit
    exact ⟨UInt32.le_iff_toNat_le.mp digit.1, UInt32.le_iff_toNat_le.mp digit.2⟩
  have space : c ≠ ' ' := by
    rintro rfl
    exact absurd bounds.1 (by decide)
  simp [isBlank, space]
  omega

theorem trimStart_cons {c : Char} (filled : isBlank c = false) (rest : List Char) :
    trimStart (c :: rest) = c :: rest := by
  simp [trimStart, filled]

theorem exists_padded (width n : Nat) :
    ∃ c tail, padded width n = c :: tail ∧ c.isDigit = true := by
  obtain ⟨c, tail, written⟩ := List.exists_cons_of_ne_nil (padded_ne_nil width n)
  exact ⟨c, tail, written, digits_padded width n c (by simp [written])⟩

theorem trimStart_padded (width n : Nat) (rest : List Char) :
    trimStart (padded width n ++ rest) = padded width n ++ rest := by
  obtain ⟨c, tail, written, digit⟩ := exists_padded width n
  rw [written, List.cons_append, trimStart_cons (isBlank_of_isDigit digit)]

theorem digitsOf_padded {width n limit : Nat} {rest : List Char}
    (within : (padded width n).length ≤ limit)
    (ends : EndsDigits (rest.take (limit - (padded width n).length))) :
    digitsOf (padded width n ++ rest) limit = padded width n := by
  rw [digitsOf, List.take_append, List.take_of_length_le within]
  exact (digits_padded width n).takeWhile_append ends

theorem number?_padded {width n : Nat} (positive : 0 < width) (fits : n < 10 ^ width)
    (rest : List Char) : number? width (padded width n ++ rest) = some (n, rest) := by
  have length := length_padded positive fits
  have taken : digitsOf (padded width n ++ rest) width = padded width n :=
    digitsOf_padded length.le (by rw [length, Nat.sub_self]; exact endsDigits_nil)
  unfold number?
  simp only [trimStart_padded, taken, List.isEmpty_iff, padded_ne_nil, if_false, valueOf_padded,
    List.drop_left]

theorem year?_yearChars (year : Int) {rest : List Char} (ends : EndsDigits rest) :
    year? (yearChars year ++ rest) = some (year, rest) := by
  have signed (n : Nat) : digitsOf (padded 4 n ++ rest) (padded 4 n ++ rest).length = padded 4 n :=
    digitsOf_padded (by simp) (ends.take _)
  unfold yearChars
  split
  · rename_i plain
    obtain ⟨c, tail, written, digit⟩ := exists_padded 4 year.toNat
    have read := number?_padded (n := year.toNat) (show 0 < 4 by decide) (by omega) rest
    have dash : c ≠ '-' := by
      rintro rfl
      exact absurd digit (by decide)
    have plus : c ≠ '+' := by
      rintro rfl
      exact absurd digit (by decide)
    have value : (year.toNat : Int) = year := by omega
    unfold year?
    rw [trimStart_padded]
    rw [written, List.cons_append] at read ⊢
    simp [dash, plus, read, value]
  · split
    · rename_i before
      have value : -(year.natAbs : Int) = year := by omega
      unfold year?
      rw [List.cons_append, trimStart_cons (by decide)]
      simp only [signed, List.isEmpty_iff, padded_ne_nil, if_false, valueOf_padded, value,
        List.drop_left]
    · rename_i after
      have value : (year.natAbs : Int) = year := by omega
      unfold year?
      rw [List.cons_append, trimStart_cons (by decide)]
      simp only [signed, List.isEmpty_iff, padded_ne_nil, if_false, valueOf_padded, value,
        List.drop_left]

theorem fraction?_padded {width n : Nat} (positive : 0 < width) (most : width ≤ 9)
    (fits : n < 10 ^ width) {rest : List Char} (ends : EndsDigits rest) :
    fraction? ('.' :: (padded width n ++ rest)) = some (n * 10 ^ (9 - width), rest) := by
  have length := length_padded positive fits
  have taken : digitsOf (padded width n ++ rest) 9 = padded width n :=
    digitsOf_padded (by omega) (ends.take _)
  have dropped := (digits_padded width n).dropWhile_append ends
  unfold fraction?
  simp only [taken, List.isEmpty_iff, padded_ne_nil, if_false, valueOf_padded, length, dropped,
    Nat.pow_eq]

theorem fraction?_fractionChars {nano : Nat} (fits : nano < 1000000000) :
    fraction? (fractionChars nano ++ ['Z']) = some (nano, ['Z']) := by
  have ends : EndsDigits ['Z'] := endsDigits_cons (by decide) []
  unfold fractionChars
  split
  · rename_i none
    rw [none]
    rfl
  split
  · rename_i millis
    rw [List.cons_append, fraction?_padded (by decide) (by decide) (by omega) ends]
    have whole : nano / 1000000 * 10 ^ (9 - 3) = nano := by omega
    rw [whole]
  split
  · rename_i micros
    rw [List.cons_append, fraction?_padded (by decide) (by decide) (by omega) ends]
    have whole : nano / 1000 * 10 ^ (9 - 6) = nano := by omega
    rw [whole]
  · rw [List.cons_append, fraction?_padded (by decide) (by decide) (by omega) ends]
    simp

theorem literal?_cons {c : Char} (filled : isBlank c = false) (rest : List Char) :
    literal? c (c :: rest) = some rest := by
  simp [literal?, trimStart_cons filled]

theorem ofLocal?_utc {date : Date} {second : Nat} (withinDay : second < 86400) (nano : Nat) :
    ofLocal? date second nano 0 = of? date second nano := by
  have notBefore : ¬ (second : Int) - 0 < 0 := by omega
  have notAfter : ¬ 86400 ≤ (second : Int) - 0 := by omega
  have same : ((second : Int) - 0).toNat = second := by omega
  unfold ofLocal?
  simp only [notBefore, notAfter, if_false, same]

theorem ofChars?_parts {year : Int} {month day hour minute second nano : Nat}
    (months : month < 100) (days : day < 100) (hours : hour < 24) (minutes : minute < 60)
    (seconds : second ≤ 60) (nanos : nano < 1000000000) :
    ofChars? (yearChars year ++ '-' :: padded 2 month ++ '-' :: padded 2 day ++
      'T' :: padded 2 hour ++ ':' :: padded 2 minute ++ ':' :: padded 2 second ++
        fractionChars nano ++ ['Z']) =
      (Date.of? year month day).bind fun date =>
        of? date (hour * 3600 + minute * 60 + if second = 60 then 59 else second)
          (if second = 60 then nano + 1000000000 else nano) := by
  have positive : 0 < 2 := by decide
  have readYear := year?_yearChars year (endsDigits_cons (show '-'.isDigit = false by decide)
    (padded 2 month ++ '-' :: (padded 2 day ++ 'T' :: (padded 2 hour ++ ':' ::
      (padded 2 minute ++ ':' :: (padded 2 second ++ (fractionChars nano ++ ['Z'])))))))
  have dash := literal?_cons (show isBlank '-' = false by decide)
  have colon := literal?_cons (show isBlank ':' = false by decide)
  have readMonth := number?_padded positive months
  have readDay := number?_padded positive days
  have readHour := number?_padded positive (show hour < 10 ^ 2 by omega)
  have readMinute := number?_padded positive (show minute < 10 ^ 2 by omega)
  have readSecond := number?_padded positive (show second < 10 ^ 2 by omega)
  have inRange : ¬ (24 ≤ hour ∨ 60 ≤ minute ∨ 60 < second) := by omega
  have zulu : offset? (trimStart ['Z']) = some (0, []) := rfl
  have done : (trimStart []).isEmpty = true := rfl
  simp only [List.append_assoc, List.cons_append]
  unfold ofChars?
  simp only [readYear, dash, colon, readMonth, readDay, readHour, readMinute, readSecond,
    fraction?_fractionChars nanos, zulu, done, inRange, bind, Option.bind, if_false,
    Bool.not_true, Bool.false_eq_true]
  cases Date.of? year month day with
  | none => rfl
  | some date =>
      dsimp only
      rw [ofLocal?_utc (by split <;> omega), if_pos (Or.inr (Or.inl trivial))]

/-! ### What a text tells -/

/-- A leap second stands at the end of a minute. -/
def Regular (t : Timestamp) : Prop :=
  1000000000 ≤ t.nano → t.second % 60 = 59

instance (t : Timestamp) : Decidable t.Regular :=
  inferInstanceAs (Decidable (_ → _))

theorem within_of_not_regular {t : Timestamp} (irregular : ¬t.Regular) :
    1000000000 ≤ t.nano ∧ t.second % 60 < 59 := by
  obtain ⟨leap, last⟩ := Classical.not_imp.mp irregular
  omega

/-- The point in time as its text tells it: a leap second within a minute is written like the second
behind it. -/
def reread (t : Timestamp) : Timestamp :=
  if regular : t.Regular then t
  else ⟨t.date, t.second + 1, t.nano - 1000000000, by
    have within := within_of_not_regular regular
    have valid := t.valid
    omega⟩

theorem reread_of_regular {t : Timestamp} (regular : t.Regular) : t.reread = t :=
  dif_pos regular

theorem reread_of_not_regular {t : Timestamp} (irregular : ¬t.Regular) :
    t.reread.date = t.date ∧ t.reread.second = t.second + 1 ∧
      t.reread.nano + 1000000000 = t.nano := by
  have within := within_of_not_regular irregular
  rw [reread, dif_neg irregular]
  refine ⟨rfl, rfl, ?_⟩
  dsimp only
  omega

theorem regular_reread (t : Timestamp) : t.reread.Regular := by
  by_cases regular : t.Regular
  · rwa [reread_of_regular regular]
  · obtain ⟨_, _, nano⟩ := reread_of_not_regular regular
    have below := t.valid.2
    intro leap
    omega

theorem reread_eq_iff {t : Timestamp} : t.reread = t ↔ t.Regular :=
  ⟨fun same => same ▸ t.regular_reread, reread_of_regular⟩

theorem text_reread (t : Timestamp) : t.reread.text = t.text := by
  by_cases regular : t.Regular
  · rw [reread_of_regular regular]
  · have within := within_of_not_regular regular
    have below := t.valid.2
    obtain ⟨date, second, nano⟩ := reread_of_not_regular regular
    have fraction : t.reread.nano = t.nano - 1000000000 := by omega
    have single : ¬1000000000 ≤ t.nano - 1000000000 := by omega
    have hour : (t.second + 1) / 3600 = t.second / 3600 := by omega
    have minute : (t.second + 1) / 60 % 60 = t.second / 60 % 60 := by omega
    have next : (t.second + 1) % 60 = t.second % 60 + 1 := by omega
    simp only [text, chars, date, second, fraction, within.1, single, if_true, if_false, hour,
      minute, next]

theorem parse?_text_of_regular {t : Timestamp} (regular : t.Regular) :
    parse? t.text = some t := by
  obtain ⟨date, second, nano, valid⟩ := t
  have ⟨withinDay, nanos⟩ := valid
  obtain ⟨_, _, _, months, _, days⟩ := date.valid
  have days : date.day < 100 := by
    unfold daysInMonth at days
    grind
  have self : Date.of? date.year date.month date.day = some date := dif_pos date.valid
  have whole : of? date second nano = some ⟨date, second, nano, valid⟩ := dif_pos valid
  unfold parse? text chars
  rw [String.toList_ofList]
  dsimp only
  by_cases extra : 1000000000 ≤ nano
  · have last : second % 60 = 59 := regular extra
    have time : second / 3600 * 3600 + second / 60 % 60 * 60 + 59 = second := by omega
    have fraction : nano - 1000000000 + 1000000000 = nano := by omega
    simp only [extra, if_true]
    rw [ofChars?_parts (by omega) days (by omega) (by omega) (by omega) (by omega), self,
      Option.bind_some, if_pos (by omega), if_pos (by omega), time, fraction, whole]
  · have time : second / 3600 * 3600 + second / 60 % 60 * 60 + second % 60 = second := by omega
    simp only [extra, if_false]
    rw [ofChars?_parts (by omega) days (by omega) (by omega) (by omega) (by omega), self,
      Option.bind_some, if_neg (by omega), if_neg (by omega), time, whole]

theorem parse?_text (t : Timestamp) : parse? t.text = some t.reread := by
  rw [← text_reread, parse?_text_of_regular t.regular_reread]

theorem text_eq_iff {first second : Timestamp} :
    first.text = second.text ↔ first.reread = second.reread := by
  constructor
  · intro same
    have read := first.parse?_text
    rw [same, second.parse?_text] at read
    exact (Option.some.inj read).symm
  · intro same
    rw [← text_reread first, same, text_reread]

example : (⟨⟨2023, 11, 14, by decide⟩, 30, 1500000000, by decide⟩ : Timestamp).reread =
    ⟨⟨2023, 11, 14, by decide⟩, 31, 500000000, by decide⟩ := rfl

theorem text_injective {first second : Timestamp} (regular : first.Regular)
    (regularOther : second.Regular) (same : first.text = second.text) : first = second := by
  have told := text_eq_iff.mp same
  rwa [reread_of_regular regular, reread_of_regular regularOther] at told

end AuditTrail.Timestamp
