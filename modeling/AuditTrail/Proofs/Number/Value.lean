import AuditTrail.Json.Basic
import AuditTrail.Proofs.Number.Shortest

/-!
The exact value of a number beside the value of its shortest digits. The digits tell one number from
another, and up to `2 ^ 53` a whole number is never mistaken for one with a fraction or for another
whole number.
-/

namespace AuditTrail

namespace Binary64

def sign (x : Binary64) : ℚ :=
  if x.negative then -1 else 1

def value (x : Binary64) : ℚ :=
  x.sign * (x.significand * 2 ^ x.exponent)

/-- The value of the shortest digits, which need not be the exact one. -/
def shown (x : Binary64) : ℚ :=
  if x.isZero then 0
  else x.sign * ((x.shortest .away).digits * 10 ^ (x.shortest .away).exponent)

theorem sign_eq_iff {x y : Binary64} : x.sign = y.sign ↔ x.negative = y.negative := by
  unfold sign
  cases x.negative <;> cases y.negative <;> norm_num

theorem abs_sign_mul (x : Binary64) (q : ℚ) : |x.sign * q| = |q| := by
  unfold sign
  cases x.negative <;> simp

theorem value_of_isZero {x : Binary64} (empty : x.isZero = true) : x.value = 0 := by
  have none : x.significand = 0 := by simpa [isZero] using empty
  simp [value, none]

theorem shown_of_filled {x : Binary64} (filled : x.isZero = false) :
    x.shown = x.sign * ((x.shortest .away).digits * 10 ^ (x.shortest .away).exponent) := by
  simp [shown, filled]

theorem magnitude_pos {x : Binary64} (filled : x.isZero = false) :
    (0 : ℚ) < (x.shortest .away).digits * 10 ^ (x.shortest .away).exponent :=
  (around_shortest filled .away).positive filled

theorem shown_eq_zero_iff {x : Binary64} : x.shown = 0 ↔ x.isZero = true := by
  cases filled : x.isZero with
  | true => simp [shown, filled]
  | false =>
      have positive := (magnitude_pos filled).ne'
      rw [shown_of_filled filled, sign]
      cases x.negative <;> simpa using positive

theorem sign_mul_inj {x y : Binary64} {p q : ℚ} (positive : 0 < p) (positiveOther : 0 < q)
    (same : x.sign * p = y.sign * q) : x.negative = y.negative ∧ p = q := by
  unfold sign at same
  cases first : x.negative <;> cases second : y.negative <;>
    simp only [first, second, if_true, if_false, Bool.false_eq_true] at same
  · exact ⟨rfl, by linarith⟩
  · linarith
  · linarith
  · exact ⟨rfl, by linarith⟩

/-- Numbers whose shortest digits stand for one value are one number, the two zeros apart. -/
theorem value_eq_of_shown_eq {x y : Binary64} (same : x.shown = y.shown) : x.value = y.value := by
  cases filled : x.isZero with
  | true =>
      have empty : y.isZero = true :=
        shown_eq_zero_iff.mp (same ▸ shown_eq_zero_iff.mpr filled)
      rw [value_of_isZero filled, value_of_isZero empty]
  | false =>
      have filledOther : y.isZero = false := by
        rw [← Bool.not_eq_true, ← shown_eq_zero_iff, ← same, shown_eq_zero_iff, filled]
        exact Bool.false_ne_true
      rw [shown_of_filled filled, shown_of_filled filledOther] at same
      obtain ⟨signs, magnitudes⟩ :=
        sign_mul_inj (magnitude_pos filled) (magnitude_pos filledOther) same
      have first := ofDecimal_shortest filled .away rfl
      have second := ofDecimal_shortest filledOther .away magnitudes
      rw [← signs, first] at second
      rw [Option.some.inj second]

theorem Around.eq_of_whole {x : Binary64} {n : Nat} (around : x.Around n)
    (fine : x.exponent ≤ 0) : (n : ℚ) = x.significand * 2 ^ x.exponent := by
  obtain ⟨k, down⟩ : ∃ k : Nat, x.exponent = -k := ⟨(-x.exponent).toNat, by omega⟩
  have units : (n : ℚ) / 2 ^ x.exponent = (n * 2 ^ k : Nat) := by
    rw [down, zpow_neg, div_inv_eq_mul, zpow_natCast]
    push_cast
    rfl
  have reach := x.reachBelow_le
  have low : (x.significand : ℚ) < (n * 2 ^ k : Nat) + 1 := by linarith [units ▸ around.low]
  have high : ((n * 2 ^ k : Nat) : ℚ) < x.significand + 1 := by linarith [units ▸ around.high]
  have low : x.significand < n * 2 ^ k + 1 := by exact_mod_cast low
  have high : n * 2 ^ k < x.significand + 1 := by exact_mod_cast high
  have exact : n * 2 ^ k = x.significand := by omega
  rw [exact, div_eq_iff (zpow_ne_zero _ two_ne_zero)] at units
  exact units

theorem exponent_le_search (interval : RoundingInterval) (tie : Tie) (steps : Nat) (grid : Int) :
    grid - steps ≤ (interval.search tie steps grid).exponent := by
  induction steps generalizing grid with
  | zero => simp [RoundingInterval.search]
  | succ steps ih =>
      unfold RoundingInterval.search
      split
      · dsimp only
        omega
      · have finer := ih (grid - 1)
        omega

theorem exponent_shortest_nonneg {x : Binary64} (coarse : 0 ≤ x.exponent) (tie : Tie) :
    0 ≤ (x.shortest tie).exponent := by
  unfold shortest
  dsimp only
  refine le_trans ?_ (exponent_le_search _ _ _ _)
  omega

theorem abs_value (x : Binary64) : |x.value| = x.significand * 2 ^ x.exponent := by
  rw [value, abs_sign_mul, abs_of_nonneg (by positivity)]

theorem abs_value_lt_iff (x : Binary64) : |x.value| < 9007199254740992 ↔ x.exponent ≤ 0 := by
  obtain ⟨bound, least, _, normal⟩ := x.normal
  rw [abs_value]
  constructor
  · intro small
    by_contra coarse
    obtain ⟨k, up⟩ := Int.eq_ofNat_of_zero_le (by omega : 0 ≤ x.exponent - 1)
    have up : x.exponent = (k + 1 : Nat) := by omega
    have full : 4503599627370496 ≤ x.significand := by omega
    rw [up, zpow_natCast, pow_succ] at small
    have small : x.significand * (2 ^ k * 2) < 9007199254740992 := by exact_mod_cast small
    have one : 1 ≤ 2 ^ k := Nat.one_le_two_pow
    nlinarith
  · intro fine
    have unit : (2 : ℚ) ^ x.exponent ≤ 1 := zpow_le_one_of_nonpos₀ (by norm_num) fine
    have bound : (x.significand : ℚ) < 9007199254740992 := by exact_mod_cast bound
    calc (x.significand * 2 ^ x.exponent : ℚ) ≤ x.significand * 1 := by gcongr
      _ < 9007199254740992 := by linarith

theorem value_eq_of_shown_eq_int {x : Binary64} {n : Int} (shown : x.shown = n)
    (fine : x.exponent ≤ 0) : x.value = n := by
  cases filled : x.isZero with
  | true => rw [value_of_isZero filled, ← shown, shown_eq_zero_iff.mpr filled]
  | false =>
      rw [shown_of_filled filled] at shown
      have magnitude := congrArg abs shown
      rw [abs_sign_mul, abs_of_pos (magnitude_pos filled), ← Int.cast_abs, Int.abs_eq_natAbs,
        Int.cast_natCast] at magnitude
      have around := around_shortest filled .away
      rw [magnitude] at around
      rw [value, ← around.eq_of_whole fine, ← magnitude, shown]

end Binary64

namespace Number

def value : Number → ℚ
  | .int n _ => n
  | .float x => x.value

def shown : Number → ℚ
  | .int n _ => n
  | .float x => x.shown

/-- An integer that a float from `2 ^ 53` on is shown as. -/
structure Shadows (integer float : Number) : Prop where
  kinds : ∃ n inRange x, integer = .int n inRange ∧ float = .float x
  large : 9007199254740992 ≤ |float.value|
  shown : integer.value = float.shown

theorem shadows_of_shown_eq {a b : Number} (different : a.value ≠ b.value)
    (same : a.shown = b.shown) : a.Shadows b ∨ b.Shadows a := by
  have large {n : Int} {x : Binary64} (different : x.value ≠ n) (same : x.shown = n) :
      9007199254740992 ≤ |x.value| := by
    rw [← not_lt, x.abs_value_lt_iff]
    exact fun fine => different (Binary64.value_eq_of_shown_eq_int same fine)
  cases a with
  | int m mRange =>
      cases b with
      | int n nRange => exact absurd same different
      | float x => exact Or.inl ⟨⟨m, mRange, x, rfl, rfl⟩, large different.symm same.symm, same⟩
  | float x =>
      cases b with
      | int n nRange => exact Or.inr ⟨⟨n, nRange, x, rfl, rfl⟩, large different same, same.symm⟩
      | float y => exact absurd (Binary64.value_eq_of_shown_eq same) different

end Number

end AuditTrail
