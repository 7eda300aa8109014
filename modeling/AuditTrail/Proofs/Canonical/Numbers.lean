import AuditTrail.Canonical.Text
import AuditTrail.Proofs.Json.Literal
import AuditTrail.Proofs.Number.Value

/-!
Numbers in canonical text. A number is written as an integer or with digits behind a point, and
either way its text tells the value of its digits and nothing else.
-/

namespace AuditTrail

open Document

theorem toDigits_shift {n : Nat} (positive : 0 < n) (places : Nat) :
    Nat.toDigits 10 (n * 10 ^ places) = Nat.toDigits 10 n ++ List.replicate places '0' := by
  induction places with
  | zero => simp
  | succ places ih =>
      have some : 0 < n * 10 ^ places := by positivity
      have zero : Nat.toDigits 10 0 = ['0'] := rfl
      have shifted : n * 10 ^ (places + 1) = 10 * (n * 10 ^ places) + 0 := by ring
      rw [shifted, ← Nat.toDigits_append_toDigits (by decide) some (by decide), ih, zero,
        List.append_assoc, List.replicate_succ']

theorem literal_eq_of_text_eq {l other : Literal} (plain : l.Plain) (plainOther : other.Plain)
    (same : l.text = other.text) : l = other := by
  have nothing : EndsLiteral [] := by simp [EndsLiteral]
  have first := l.literal?_text plain nothing
  have second := other.literal?_text plainOther nothing
  rw [same, second] at first
  simpa using first.symm

theorem decimalChars_injective : Function.Injective decimalChars := by
  intro m n same
  have literals : Literal.ofInt m = Literal.ofInt n :=
    literal_eq_of_text_eq (Literal.plain_ofInt m) (Literal.plain_ofInt n)
      (by rw [Literal.text_ofInt, Literal.text_ofInt, same])
  have signs : decide (m < 0) = decide (n < 0) := congrArg Literal.negative literals
  have magnitudes := congrArg (digitsValue ∘ Literal.whole) literals
  simp only [Function.comp_apply, Literal.ofInt, digitsValue_toDigits] at magnitudes
  have signs : m < 0 ↔ n < 0 := by simpa using signs
  omega

namespace Binary64

theorem canonicalChars_of_isZero {x : Binary64} (empty : x.isZero = true) :
    x.canonicalChars = decimalChars 0 := by
  rw [canonicalChars, if_pos empty]
  rfl

theorem canonicalChars_of_whole {x : Binary64} (filled : x.isZero = false)
    (whole : 0 ≤ (x.shortest .away).exponent) :
    ∃ k : Int, (k.natAbs : ℚ) =
        (x.shortest .away).digits * 10 ^ (x.shortest .away).exponent ∧
      decide (k < 0) = x.negative ∧ x.shown = k ∧ x.canonicalChars = decimalChars k := by
  have positive := digits_shortest_pos filled .away
  have shown := shown_of_filled filled
  unfold canonicalChars Decimal.positional
  dsimp only
  rw [if_neg (by simp [filled]), if_pos whole, ← toDigits_shift positive]
  obtain ⟨places, power⟩ := Int.eq_ofNat_of_zero_le whole
  rw [power, zpow_natCast] at shown ⊢
  have some : 0 < (x.shortest .away).digits * 10 ^ places := by positivity
  have cast : (((x.shortest .away).digits * 10 ^ places : Nat) : ℚ) =
      (x.shortest .away).digits * 10 ^ places := by push_cast; rfl
  rw [← cast] at shown ⊢
  rw [Int.toNat_natCast]
  generalize (x.shortest .away).digits * 10 ^ places = magnitude at some shown
  cases negative : x.negative with
  | true =>
      refine ⟨-magnitude, by simp, by simp [some], by simp [shown, sign, negative], ?_⟩
      simp [decimalChars, some]
  | false =>
      refine ⟨magnitude, by simp, by simp, by simp [shown, sign, negative], ?_⟩
      simp [decimalChars]

theorem canonicalChars_of_fraction {x : Binary64} (filled : x.isZero = false)
    (fraction : (x.shortest .away).exponent < 0) :
    ∃ l : Literal, l.Denotes x.negative (x.shortest .away) ∧ l.text = x.canonicalChars := by
  obtain ⟨l, denotes, written⟩ :=
    Literal.exists_positional x.negative (digits_shortest_pos filled .away)
  refine ⟨l, denotes, ?_⟩
  simpa [canonicalChars, filled, not_le.mpr fraction] using written

theorem canonicalChars_cases (x : Binary64) :
    (∃ k : Int, x.shown = k ∧ x.canonicalChars = decimalChars k) ∨
      ∃ l : Literal, x.isZero = false ∧ l.Denotes x.negative (x.shortest .away) ∧
        l.text = x.canonicalChars := by
  cases filled : x.isZero with
  | true =>
      exact Or.inl ⟨0, by simpa using shown_eq_zero_iff.mpr filled, canonicalChars_of_isZero filled⟩
  | false =>
      by_cases whole : 0 ≤ (x.shortest .away).exponent
      · obtain ⟨k, _, _, shown, written⟩ := canonicalChars_of_whole filled whole
        exact Or.inl ⟨k, shown, written⟩
      · obtain ⟨l, denotes, written⟩ := canonicalChars_of_fraction filled (not_le.mp whole)
        exact Or.inr ⟨l, rfl, denotes, written⟩

end Binary64

theorem decimalChars_ne_text {l : Literal} {negative : Bool} {d : Decimal}
    (denotes : l.Denotes negative d) (k : Int) : decimalChars k ≠ l.text := by
  intro same
  have literal := literal_eq_of_text_eq (Literal.plain_ofInt k) denotes.plain
    (by rw [Literal.text_ofInt, same])
  have real := denotes.real
  rw [← literal] at real
  simp [Literal.ofInt] at real

theorem shown_eq_of_denotes {x y : Binary64} {l : Literal} (filled : x.isZero = false)
    (filledOther : y.isZero = false) (first : l.Denotes x.negative (x.shortest .away))
    (second : l.Denotes y.negative (y.shortest .away)) : x.shown = y.shown := by
  have signs : x.sign = y.sign :=
    Binary64.sign_eq_iff.mpr (first.sign.symm.trans second.sign)
  rw [Binary64.shown_of_filled filled, Binary64.shown_of_filled filledOther, signs,
    ← first.value, ← second.value]

namespace Number

theorem canonicalChars_cases (n : Number) :
    (∃ k : Int, n.shown = k ∧ n.canonicalChars = decimalChars k) ∨
      ∃ x l, n = .float x ∧ x.isZero = false ∧ Literal.Denotes l x.negative (x.shortest .away) ∧
        l.text = n.canonicalChars := by
  cases n with
  | int k _ => exact Or.inl ⟨k, rfl, rfl⟩
  | float x =>
      rcases x.canonicalChars_cases with whole | ⟨l, filled, denotes, written⟩
      · exact Or.inl whole
      · exact Or.inr ⟨x, l, rfl, filled, denotes, written⟩

theorem shown_eq_of_canonicalChars_eq {a b : Number} (same : a.canonicalChars = b.canonicalChars) :
    a.shown = b.shown := by
  rcases a.canonicalChars_cases with ⟨k, shown, written⟩ | ⟨x, l, rfl, filled, denotes, written⟩
  · rcases b.canonicalChars_cases with ⟨m, shownOther, writtenOther⟩ | ⟨y, l, _, _, denotes, written'⟩
    · rw [written, writtenOther] at same
      rw [shown, shownOther, decimalChars_injective same]
    · exact absurd (written ▸ same.trans written'.symm) (decimalChars_ne_text denotes k)
  · rcases b.canonicalChars_cases with
      ⟨m, _, writtenOther⟩ | ⟨y, other, rfl, filledOther, denotesOther, writtenOther⟩
    · exact absurd (writtenOther ▸ same.symm.trans written.symm) (decimalChars_ne_text denotes m)
    · obtain rfl : l = other := literal_eq_of_text_eq denotes.plain denotesOther.plain
        (by rw [written, writtenOther, same])
      exact shown_eq_of_denotes filled filledOther denotes denotesOther

theorem canonicalChars_eq_of_shadows {a b : Number} (shadows : a.Shadows b) :
    a.canonicalChars = b.canonicalChars := by
  obtain ⟨⟨n, inRange, x, rfl, rfl⟩, large, shown⟩ := shadows
  have filled : x.isZero = false := by
    rw [← Bool.not_eq_true]
    intro empty
    rw [value, Binary64.value_of_isZero empty] at large
    norm_num at large
  have coarse : 0 ≤ x.exponent := by
    have := x.abs_value_lt_iff.not.mp (not_lt.mpr large)
    omega
  obtain ⟨k, _, _, shown', written⟩ :=
    Binary64.canonicalChars_of_whole filled (Binary64.exponent_shortest_nonneg coarse .away)
  have same : (n : ℚ) = k := (shown : (n : ℚ) = x.shown).trans shown'
  have same : n = k := by exact_mod_cast same
  rw [canonicalChars, canonicalChars, written, same]

/-- Numbers of different values have different texts, unless one is an integer and the other a float
from `2 ^ 53` on whose shortest digits are that integer. -/
theorem canonicalChars_eq_iff_shadows {a b : Number} (different : a.value ≠ b.value) :
    a.canonicalChars = b.canonicalChars ↔ a.Shadows b ∨ b.Shadows a := by
  constructor
  · exact fun same => shadows_of_shown_eq different (shown_eq_of_canonicalChars_eq same)
  · rintro (shadows | shadows)
    · exact canonicalChars_eq_of_shadows shadows
    · exact (canonicalChars_eq_of_shadows shadows).symm

end Number

end AuditTrail
