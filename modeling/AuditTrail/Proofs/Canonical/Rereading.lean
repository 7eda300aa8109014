import AuditTrail.Proofs.Canonical.Numbers
import AuditTrail.Proofs.Json.Reader
import AuditTrail.Proofs.Number.Large

/-!
Canonical numbers read back. The text of a float is read as a number that has this very text. An
integer beyond 64 bits is read as the float next to it, whose text is another one unless the integer
is what that float is shown as; but the text of that float is then read as the same float.
-/

namespace AuditTrail

open Document

theorem literalOf_decimalChars {n : Int} {m : Number}
    (value : (Literal.ofInt n).number? = some m) : LiteralOf (decimalChars n) m :=
  ⟨.ofInt n, Literal.plain_ofInt n, Literal.text_ofInt n, value⟩

theorem literalOf_int {n : Int} (inRange : -9223372036854775808 ≤ n ∧ n < 18446744073709551616) :
    LiteralOf (decimalChars n) (.int n inRange) :=
  literalOf_decimalChars ((Literal.number?_ofInt n).trans (dif_pos inRange))

theorem literalOf_float {n : Int} {x : Binary64}
    (beyond : ¬ (-9223372036854775808 ≤ n ∧ n < 18446744073709551616))
    (read : Binary64.ofDecimal (decide (n < 0)) n.natAbs 0 = some x) :
    LiteralOf (decimalChars n) (.float x) :=
  literalOf_decimalChars ((Literal.number?_ofInt n).trans (by rw [dif_neg beyond, read]; rfl))

namespace Binary64

theorem ofDecimal_of_canonicalChars {x : Binary64} {n : Int} (some : n ≠ 0)
    (written : x.canonicalChars = decimalChars n) :
    ofDecimal (decide (n < 0)) n.natAbs 0 = .some x := by
  have filled : x.isZero = false := by
    rw [← Bool.not_eq_true]
    intro empty
    exact some (decimalChars_injective ((canonicalChars_of_isZero empty).symm.trans written)).symm
  have whole : 0 ≤ (x.shortest .away).exponent := by
    by_contra fraction
    obtain ⟨l, denotes, text⟩ := canonicalChars_of_fraction filled (not_le.mp fraction)
    exact decimalChars_ne_text denotes n (written.symm.trans text.symm)
  obtain ⟨k, magnitude, sign, _, text⟩ := canonicalChars_of_whole filled whole
  obtain rfl : k = n := decimalChars_injective (text.symm.trans written)
  rw [sign]
  exact ofDecimal_shortest filled .away (by simpa using magnitude)

theorem exists_literal_canonicalChars (x : Binary64) :
    ∃ m : Number, LiteralOf x.canonicalChars m ∧ m.canonicalChars = x.canonicalChars := by
  rcases x.canonicalChars_cases with ⟨n, _, written⟩ | ⟨l, filled, denotes, written⟩
  · by_cases inRange : -9223372036854775808 ≤ n ∧ n < 18446744073709551616
    · exact ⟨.int n inRange, written ▸ literalOf_int inRange, written.symm⟩
    · have some : n ≠ 0 := by omega
      have read := ofDecimal_of_canonicalChars some written
      exact ⟨.float x, written ▸ literalOf_float inRange read, rfl⟩
  · exact ⟨.float x, ⟨l, denotes.plain, written, Literal.number?_of_denotes filled denotes⟩, rfl⟩

theorem shown_beyond {x : Binary64} {k : Int} (full : 4503599627370496 ≤ x.significand)
    (coarse : ((if x.negative then 11 else 12 : Nat) : Int) ≤ x.exponent)
    (written : x.canonicalChars = decimalChars k) (shown : x.shown = k)
    (sign : decide (k < 0) = x.negative) :
    ¬ (-9223372036854775808 ≤ k ∧ k < 18446744073709551616) := by
  -- The powers themselves are the only floats that might be rounded down, so they are looked at.
  obtain ⟨negative, significand, exponent, normal⟩ := x
  cases negative with
  | false =>
      by_cases power : significand = 4503599627370496 ∧ exponent = 12
      · obtain ⟨rfl, rfl⟩ := power
        have digits : canonicalChars ⟨false, 4503599627370496, 12, normal⟩ =
            decimalChars 18446744073709552000 := by
          show canonicalChars ⟨false, 4503599627370496, 12, by decide⟩ = _
          decide +kernel
        have same := decimalChars_injective (written.symm.trans digits)
        omega
      · have more := lt_abs_shown 12 full coarse power
        rw [shown] at more
        have more : (18446744073709551616 : Int) < |k| := by exact_mod_cast more
        have positive : ¬ k < 0 := by simpa using sign
        rw [abs_of_nonneg (not_lt.mp positive)] at more
        omega
  | true =>
      by_cases power : significand = 4503599627370496 ∧ exponent = 11
      · obtain ⟨rfl, rfl⟩ := power
        have digits : canonicalChars ⟨true, 4503599627370496, 11, normal⟩ =
            decimalChars (-9223372036854776000) := by
          show canonicalChars ⟨true, 4503599627370496, 11, by decide⟩ = _
          decide +kernel
        have same := decimalChars_injective (written.symm.trans digits)
        omega
      · have more := lt_abs_shown 11 full coarse power
        rw [shown] at more
        have more : (9223372036854775808 : Int) < |k| := by exact_mod_cast more
        have negative : k < 0 := by simpa using sign
        rw [abs_of_neg negative] at more
        omega

end Binary64

/-- An integer of at most 128 bits is read as a number whose own text is read as that number. The
text is the same if the integer has at most 64 bits or is what some float is shown as. -/
theorem exists_literal_integer {n : Int} (inRange : -170141183460469231731687303715884105728 ≤ n ∧
    n < 340282366920938463463374607431768211456) :
    ∃ m : Number, LiteralOf (decimalChars n) m ∧ LiteralOf m.canonicalChars m ∧
      (m.canonicalChars = decimalChars n ↔
        (-9223372036854775808 ≤ n ∧ n < 18446744073709551616) ∨
          ∃ x : Binary64, x.canonicalChars = decimalChars n) := by
  by_cases small : -9223372036854775808 ≤ n ∧ n < 18446744073709551616
  · exact ⟨.int n small, literalOf_int small, literalOf_int small, iff_of_true rfl (Or.inl small)⟩
  · have large : 2 ^ (52 + if decide (n < 0) = true then 11 else 12) ≤ n.natAbs := by
      by_cases down : n < 0 <;> simp [down] <;> omega
    obtain ⟨x, read, negative, full, coarse⟩ :=
      Binary64.exists_ofDecimal_whole (decide (n < 0)) large (by omega)
    have filled : x.isZero = false := by
      simp [Binary64.isZero]
      omega
    have whole := Binary64.exponent_shortest_nonneg (by omega : 0 ≤ x.exponent) .away
    obtain ⟨k, _, sign, shown, written⟩ := Binary64.canonicalChars_of_whole filled whole
    have beyond := Binary64.shown_beyond full (negative ▸ coarse) written shown sign
    have again := Binary64.ofDecimal_of_canonicalChars (by omega) written
    refine ⟨.float x, literalOf_float small read, ?_, ?_⟩
    · rw [Number.canonicalChars, written]
      exact literalOf_float beyond again
    · constructor
      · exact fun same => Or.inr ⟨x, same⟩
      · rintro (inside | ⟨y, same⟩)
        · exact absurd inside small
        · have other := Binary64.ofDecimal_of_canonicalChars (by omega) same
          obtain rfl : x = y := Option.some.inj (read.symm.trans other)
          exact same

end AuditTrail
