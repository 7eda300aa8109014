import AuditTrail.Number.Binary64
import Mathlib.Algebra.Order.Field.Power
import Mathlib.Data.Int.Log
import Mathlib.Data.Rat.Floor
import Mathlib.Tactic.FieldSimp
import Mathlib.Tactic.Linarith
import Mathlib.Tactic.Ring

/-!
Reading a decimal finds the number around which its exact value lies: at most half a unit in the
last place away, a quarter below a power of two, and at the very ends only if the significand is
even.
-/

namespace AuditTrail.Binary64

theorem scaleDown_ratio (num den : Nat) (shift : Int) :
    ((scaleDown num den shift).1 : ℚ) / (scaleDown num den shift).2 = num / den / 2 ^ shift := by
  unfold scaleDown
  split
  · rename_i up
    obtain ⟨n, rfl⟩ := Int.eq_ofNat_of_zero_le up
    simp [div_div]
  · rename_i down
    obtain ⟨n, rfl⟩ : ∃ n : Nat, shift = -n := ⟨(-shift).toNat, by omega⟩
    simp
    ring

theorem scaleDown_positive {den : Nat} (positive : 0 < den) (num : Nat) (shift : Int) :
    0 < (scaleDown num den shift).2 := by
  unfold scaleDown
  split
  · exact Nat.mul_pos positive (Nat.pow_pos (by decide))
  · exact positive

/-- The integers nearest to a ratio, of two equally near ones the even one. -/
structure Nearest (q : ℚ) (n : Nat) : Prop where
  low : (n : ℚ) - 1 / 2 ≤ q
  high : q ≤ n + 1 / 2
  even : q = n - 1 / 2 ∨ q = n + 1 / 2 → n % 2 = 0

theorem roundHalfEven_eq {num den n : Nat} (positive : 0 < den) (nearest : Nearest (num / den) n) :
    roundHalfEven num den = n := by
  have positive' : (0 : ℚ) < den := by exact_mod_cast positive
  have low : 2 * n * den ≤ 2 * num + den := by
    have low := nearest.low
    rw [le_div_iff₀ positive'] at low
    have doubled : (2 * n * den : ℚ) ≤ 2 * num + den := by linarith
    exact_mod_cast doubled
  have high : 2 * num ≤ 2 * n * den + den := by
    have high := nearest.high
    rw [div_le_iff₀ positive'] at high
    have doubled : (2 * num : ℚ) ≤ 2 * n * den + den := by linarith
    exact_mod_cast doubled
  have even : 2 * n * den = 2 * num + den ∨ 2 * num = 2 * n * den + den → n % 2 = 0 := by
    rintro (atLow | atHigh)
    · have atLow : (2 * n * den : ℚ) = 2 * num + den := by exact_mod_cast atLow
      exact nearest.even (Or.inl (by field_simp; linarith))
    · have atHigh : (2 * num : ℚ) = 2 * n * den + den := by exact_mod_cast atHigh
      exact nearest.even (Or.inr (by field_simp; linarith))
  have parts := Nat.div_add_mod num den
  have rest := Nat.mod_lt num positive
  unfold roundHalfEven
  dsimp only
  generalize num / den = quotient at parts
  generalize num % den = remainder at parts rest
  have above : n ≤ quotient + 1 := by
    by_contra far
    have := Nat.mul_le_mul_right den (Nat.not_le.mp far : quotient + 2 ≤ n)
    nlinarith
  have below : quotient ≤ n := by
    by_contra far
    have := Nat.mul_le_mul_right den (Nat.not_le.mp far : n + 1 ≤ quotient)
    nlinarith
  rcases Nat.le_and_le_add_one_iff.mp ⟨below, above⟩ with rfl | rfl
  · rw [if_neg]
    have half : 2 * remainder ≤ den := by nlinarith
    rintro (more | ⟨tie, odd⟩)
    · omega
    · have := even (Or.inr (by nlinarith))
      omega
  · rw [if_pos]
    have half : den ≤ 2 * remainder := by nlinarith
    rcases Nat.eq_or_lt_of_le half with tie | more
    · have := even (Or.inl (by nlinarith))
      exact Or.inr ⟨tie.symm, by omega⟩
    · exact Or.inl more

theorem scaleDown_reaches {num den : Nat} (positive : 0 < den) (shift : Int) :
    (scaleDown num den shift).2 ≤ (scaleDown num den shift).1 ↔ (2 : ℚ) ^ shift ≤ num / den := by
  have unit : (0 : ℚ) < (scaleDown num den shift).2 := by
    exact_mod_cast scaleDown_positive positive num shift
  rw [← one_le_div₀ (zpow_pos (by norm_num) _), ← scaleDown_ratio, one_le_div₀ unit, Nat.cast_le]

theorem log_eq {q : ℚ} {k : Int} (positive : 0 < q) (low : (2 : ℚ) ^ k ≤ q)
    (high : q < 2 ^ (k + 1)) : Int.log 2 q = k := by
  have least : k ≤ Int.log 2 q := (Int.zpow_le_iff_le_log (by decide) positive).mp low
  have most : Int.log 2 q < k + 1 := (Int.lt_zpow_iff_log_lt (by decide) positive).mp high
  omega

theorem floorLog2_eq {num den : Nat} (positiveNum : 0 < num) (positive : 0 < den) :
    floorLog2 num den = Int.log 2 (num / den : ℚ) := by
  have positiveNum' : (0 : ℚ) < num := by exact_mod_cast positiveNum
  have positive' : (0 : ℚ) < den := by exact_mod_cast positive
  have ratio : (0 : ℚ) < num / den := div_pos positiveNum' positive'
  have numLow : (2 : ℚ) ^ num.log2 ≤ num := by exact_mod_cast Nat.log2_self_le positiveNum.ne'
  have numHigh : (num : ℚ) < 2 ^ (num.log2 + 1) := by exact_mod_cast Nat.lt_log2_self
  have denLow : (2 : ℚ) ^ den.log2 ≤ den := by exact_mod_cast Nat.log2_self_le positive.ne'
  have denHigh : (den : ℚ) < 2 ^ (den.log2 + 1) := by exact_mod_cast Nat.lt_log2_self
  have two : (2 : ℚ) ≠ 0 := by norm_num
  have below : (2 : ℚ) ^ ((num.log2 : Int) - den.log2 - 1) ≤ num / den := by
    rw [sub_sub, zpow_sub₀ two, div_le_div_iff₀ (zpow_pos (by norm_num) _) positive']
    exact mul_le_mul numLow denHigh.le positive'.le positiveNum'.le
  have above : (num : ℚ) / den < 2 ^ ((num.log2 : Int) - den.log2 + 1) := by
    rw [sub_add_eq_add_sub, zpow_sub₀ two, div_lt_div_iff₀ positive' (zpow_pos (by norm_num) _)]
    exact mul_lt_mul numHigh denLow (by positivity) (by positivity)
  have reaches := @scaleDown_reaches num den positive ((num.log2 : Int) - den.log2)
  unfold floorLog2
  dsimp only
  split
  · rename_i reached
    exact (log_eq ratio (reaches.mp reached) above).symm
  · rename_i short
    have short := not_le.mp (reaches.not.mp short)
    exact (log_eq ratio below (by rwa [sub_add_cancel])).symm

/-- How far down a value may lie below a number and still be read as it, in units of the last
place. -/
def reachBelow (x : Binary64) : ℚ :=
  if x.significand = 4503599627370496 ∧ -1074 < x.exponent then 1 / 4 else 1 / 2

theorem reachBelow_le (x : Binary64) : x.reachBelow ≤ 1 / 2 := by
  unfold reachBelow
  split <;> norm_num

theorem eq_zero_of_isZero {x : Binary64} (empty : x.isZero = true) : x = zero x.negative := by
  obtain ⟨negative, significand, exponent, normal⟩ := x
  obtain rfl : significand = 0 := by simpa [isZero] using empty
  obtain rfl : exponent = -1074 := by omega
  rfl

/-- A value that is read as the number, up to the sign. -/
structure Around (x : Binary64) (q : ℚ) : Prop where
  low : x.significand - x.reachBelow ≤ q / 2 ^ x.exponent
  high : q / 2 ^ x.exponent ≤ x.significand + 1 / 2
  even : q / 2 ^ x.exponent = x.significand - x.reachBelow ∨
    q / 2 ^ x.exponent = x.significand + 1 / 2 → x.significand % 2 = 0

theorem Around.nearest {x : Binary64} {q : ℚ} (around : x.Around q) :
    Nearest (q / 2 ^ x.exponent) x.significand := by
  obtain ⟨low, high, even⟩ := around
  have reach := x.reachBelow_le
  refine ⟨by linarith, high, ?_⟩
  rintro (atLow | atHigh)
  · exact even (Or.inl (by linarith))
  · exact even (Or.inr atHigh)

theorem one_le_significand {x : Binary64} (filled : x.isZero = false) :
    (1 : ℚ) ≤ x.significand := by
  have some : x.significand ≠ 0 := by simpa [isZero] using filled
  exact_mod_cast Nat.one_le_iff_ne_zero.mpr some

theorem Around.positive {x : Binary64} {q : ℚ} (around : x.Around q) (filled : x.isZero = false) :
    0 < q := by
  have unit : (0 : ℚ) < 2 ^ x.exponent := zpow_pos (by norm_num) _
  have some := one_le_significand filled
  have reach := x.reachBelow_le
  have positive : 0 < q / 2 ^ x.exponent := by linarith [around.low]
  exact (div_pos_iff_of_pos_right unit).mp positive

theorem Around.log_lt {x : Binary64} {q : ℚ} (around : x.Around q) (filled : x.isZero = false) :
    Int.log 2 q < 53 + x.exponent := by
  have unit : (0 : ℚ) < 2 ^ x.exponent := zpow_pos (by norm_num) _
  have bound : (x.significand : ℚ) ≤ 9007199254740991 := by
    exact_mod_cast Nat.le_of_lt_succ x.normal.1
  refine (Int.lt_zpow_iff_log_lt (by decide) (around.positive filled)).mp ?_
  rw [Nat.cast_ofNat, zpow_add₀ (by norm_num), ← div_lt_iff₀ unit]
  linarith [around.high]

theorem Around.below_power {x : Binary64} {q : ℚ} (around : x.Around q)
    (normal : -1074 < x.exponent) (below : q / 2 ^ x.exponent < 4503599627370496) :
    x.significand = 4503599627370496 ∧ x.reachBelow = 1 / 4 := by
  have reach := x.reachBelow_le
  have least : 4503599627370496 ≤ x.significand := x.normal.2.2.2.resolve_right normal.ne'
  have most : (x.significand : ℚ) < 4503599627370497 := by linarith [around.low]
  have most : x.significand < 4503599627370497 := by exact_mod_cast most
  have power : x.significand = 4503599627370496 := by omega
  exact ⟨power, if_pos ⟨power, normal⟩⟩

theorem Around.log_below {x : Binary64} {q : ℚ} (around : x.Around q) (filled : x.isZero = false)
    (normal : -1074 < x.exponent) (below : q / 2 ^ x.exponent < 4503599627370496) :
    Int.log 2 q = 51 + x.exponent := by
  have unit : (0 : ℚ) < 2 ^ x.exponent := zpow_pos (by norm_num) _
  obtain ⟨power, reach⟩ := around.below_power normal below
  have low := around.low
  rw [power, reach] at low
  refine log_eq (around.positive filled) ?_ ?_
  · rw [zpow_add₀ (by norm_num), ← le_div_iff₀ unit]
    norm_num at low ⊢
    linarith
  · rw [add_right_comm, zpow_add₀ (by norm_num), ← div_lt_iff₀ unit]
    norm_num at below ⊢
    linarith

theorem Around.nearest_below {x : Binary64} {q : ℚ} (around : x.Around q)
    (normal : -1074 < x.exponent) (below : q / 2 ^ x.exponent < 4503599627370496) :
    Nearest (q / 2 ^ (x.exponent - 1)) 9007199254740992 := by
  obtain ⟨power, reach⟩ := around.below_power normal below
  have low := around.low
  rw [power, reach] at low
  norm_num at low
  have half : q / 2 ^ (x.exponent - 1) = q / 2 ^ x.exponent * 2 := by
    rw [zpow_sub_one₀ (by norm_num)]
    field_simp
  rw [half]
  exact ⟨by push_cast; linarith, by push_cast; linarith, by norm_num⟩

theorem roundRatio_eq {num den significand : Nat} {exponent : Int} (positive : 0 < den)
    (some : 0 < num) (least : max (Int.log 2 (num / den : ℚ) - 52) (-1074) = exponent)
    (nearest : Nearest (num / den / 2 ^ exponent) significand) :
    roundRatio 53 (-1074) num den =
      if significand = 9007199254740992 then (4503599627370496, exponent + 1)
      else (significand, exponent) := by
  have rounded : roundHalfEven (scaleDown num den exponent).1 (scaleDown num den exponent).2 =
      significand := by
    refine roundHalfEven_eq (scaleDown_positive positive _ _) ?_
    rw [scaleDown_ratio]
    exact nearest
  have least : max (Int.log 2 (num / den : ℚ) - (((53 : Nat) : Int) - 1)) (-1074) = exponent := by
    rw [← least]
    norm_num
  unfold roundRatio
  rw [floorLog2_eq some positive]
  simp only [least, rounded]

theorem roundRatio_of_around {x : Binary64} {num den : Nat} (positive : 0 < den)
    (filled : x.isZero = false) (around : x.Around (num / den)) :
    roundRatio 53 (-1074) num den = (x.significand, x.exponent) := by
  have unit : (0 : ℚ) < 2 ^ x.exponent := zpow_pos (by norm_num) _
  have ratio := around.positive filled
  have some : 0 < num := by
    rcases Nat.eq_zero_or_pos num with rfl | some
    · simp at ratio
    · exact some
  have high := around.log_lt filled
  obtain ⟨bound, least, _, _⟩ := x.normal
  by_cases above : x.exponent = -1074 ∨ 4503599627370496 ≤ (num / den : ℚ) / 2 ^ x.exponent
  · have exponent : max (Int.log 2 (num / den : ℚ) - 52) (-1074) = x.exponent := by
      rcases above with subnormal | above
      · omega
      · have low : 52 + x.exponent ≤ Int.log 2 (num / den : ℚ) := by
          refine (Int.zpow_le_iff_le_log (by decide) ratio).mp ?_
          rw [Nat.cast_ofNat, zpow_add₀ (by norm_num), ← le_div_iff₀ unit]
          exact le_trans (by norm_num) above
        omega
    rw [roundRatio_eq positive some exponent around.nearest, if_neg bound.ne]
  · -- The value lies in the binade below and is rounded up to the power of two between them.
    obtain ⟨normal, below⟩ := not_or.mp above
    have normal : -1074 < x.exponent := by omega
    have below := not_le.mp below
    have log := around.log_below filled normal below
    have exponent : max (Int.log 2 (num / den : ℚ) - 52) (-1074) = x.exponent - 1 := by omega
    rw [roundRatio_eq positive some exponent (around.nearest_below normal below), if_pos rfl,
      sub_add_cancel, (around.below_power normal below).1]

theorem ofRatio_of_around {x : Binary64} {num den : Nat} (positive : 0 < den)
    (filled : x.isZero = false) (around : x.Around (num / den)) :
    ofRatio x.negative num den = some x := by
  have some : num ≠ 0 := by
    rintro rfl
    simpa using around.positive filled
  unfold ofRatio
  rw [if_neg some, roundRatio_of_around positive filled around]
  exact dif_pos x.normal

theorem Around.below_two_pow {x : Binary64} {q : ℚ} (around : x.Around q) : q < 2 ^ 1024 := by
  have unit : (0 : ℚ) < 2 ^ x.exponent := zpow_pos (by norm_num) _
  have bound : (x.significand : ℚ) ≤ 9007199254740991 := by
    exact_mod_cast Nat.le_of_lt_succ x.normal.1
  calc q ≤ (x.significand + 1 / 2) * 2 ^ x.exponent := (div_le_iff₀ unit).mp around.high
    _ < 2 ^ 53 * 2 ^ x.exponent := by gcongr; linarith
    _ ≤ 2 ^ 53 * 2 ^ (971 : Int) := by gcongr; exacts [by norm_num, x.normal.2.2.1]
    _ = 2 ^ 1024 := by rw [zpow_ofNat, ← pow_add]

theorem Around.above_two_pow {x : Binary64} {q : ℚ} (around : x.Around q)
    (filled : x.isZero = false) : 2 ^ (-1075 : Int) ≤ q := by
  have unit : (0 : ℚ) < 2 ^ x.exponent := zpow_pos (by norm_num) _
  have half : 1 / 2 ≤ (x.significand : ℚ) - x.reachBelow := by
    linarith [one_le_significand filled, x.reachBelow_le]
  calc (2 : ℚ) ^ (-1075 : Int) = 1 / 2 * 2 ^ (-1074 : Int) := by
        rw [show (-1075 : Int) = -1074 - 1 by norm_num, zpow_sub_one₀ (by norm_num), mul_comm,
          one_div]
    _ ≤ 1 / 2 * 2 ^ x.exponent := by gcongr; exacts [by norm_num, x.normal.2.1]
    _ ≤ q := (le_div_iff₀ unit).mp (le_trans half around.low)

theorem two_pow_le_ten_pow : (2 : ℚ) ^ 1075 ≤ 10 ^ 400 := by
  have step : (2 : ℚ) ^ 43 ≤ 10 ^ 16 := by norm_num
  calc (2 : ℚ) ^ 1075 = (2 ^ 43) ^ 25 := by rw [← pow_mul]
    _ ≤ (10 ^ 16) ^ 25 := pow_le_pow_left₀ (by positivity) step 25
    _ = 10 ^ 400 := by rw [← pow_mul]

theorem Around.exponent_le {x : Binary64} {digits : Nat} {exponent : Int}
    (around : x.Around (digits * 10 ^ exponent)) (some : 1 ≤ digits) : exponent ≤ 400 := by
  have unit : (0 : ℚ) < 10 ^ exponent := zpow_pos (by norm_num) _
  have one : (1 : ℚ) ≤ digits := by exact_mod_cast some
  by_contra huge
  have large : (2 : ℚ) ^ 1024 ≤ digits * 10 ^ exponent :=
    calc (2 : ℚ) ^ 1024 ≤ 2 ^ 1075 := pow_le_pow_right₀ (by norm_num) (by norm_num)
      _ ≤ 10 ^ (400 : Int) := by rw [zpow_ofNat]; exact two_pow_le_ten_pow
      _ ≤ 10 ^ exponent := zpow_le_zpow_right₀ (by norm_num) (not_le.mp huge).le
      _ ≤ digits * 10 ^ exponent := le_mul_of_one_le_left unit.le one
  exact absurd around.below_two_pow (not_lt.mpr large)

theorem Around.le_exponent {x : Binary64} {digits : Nat} {exponent : Int}
    (around : x.Around (digits * 10 ^ exponent)) (filled : x.isZero = false) :
    -400 - (digits.log2 : Int) ≤ exponent := by
  by_contra tiny
  have size : (digits : ℚ) < 10 ^ (digits.log2 + 1) := by
    refine lt_of_lt_of_le (?_ : (digits : ℚ) < 2 ^ (digits.log2 + 1)) ?_
    · exact_mod_cast Nat.lt_log2_self
    · gcongr
      norm_num
  have small : (digits * 10 ^ exponent : ℚ) < 2 ^ (-1075 : Int) :=
    calc (digits * 10 ^ exponent : ℚ) < 10 ^ (digits.log2 + 1) * 10 ^ exponent := by gcongr
      _ = 10 ^ (digits.log2 + 1 + exponent) := by
        rw [zpow_add₀ (by norm_num)]
        norm_cast
      _ ≤ 10 ^ (-400 : Int) := zpow_le_zpow_right₀ (by norm_num) (by omega)
      _ ≤ 2 ^ (-1075 : Int) := by
        rw [zpow_neg, zpow_neg, zpow_ofNat, zpow_ofNat]
        exact inv_anti₀ (by positivity) two_pow_le_ten_pow
  exact absurd (around.above_two_pow filled) (not_le.mpr small)

/-- A decimal around which no other number is nearer is read as the number. -/
theorem ofDecimal_of_around {x : Binary64} {digits : Nat} {exponent : Int}
    (filled : x.isZero = false) (around : x.Around (digits * 10 ^ exponent)) :
    ofDecimal x.negative digits exponent = some x := by
  have some : digits ≠ 0 := by
    rintro rfl
    simpa using around.positive filled
  have most := around.exponent_le (Nat.one_le_iff_ne_zero.mpr some)
  have least := around.le_exponent filled
  unfold ofDecimal
  rw [if_neg some, if_neg (not_lt.mpr most), if_neg (not_lt.mpr least)]
  split
  · rename_i up
    obtain ⟨n, rfl⟩ := Int.eq_ofNat_of_zero_le up
    refine ofRatio_of_around (by decide) filled ?_
    simpa using around
  · rename_i down
    obtain ⟨n, rfl⟩ : ∃ n : Nat, exponent = -n := ⟨(-exponent).toNat, by omega⟩
    refine ofRatio_of_around (Nat.pow_pos (by decide)) filled ?_
    simpa [div_eq_mul_inv] using around

end AuditTrail.Binary64
