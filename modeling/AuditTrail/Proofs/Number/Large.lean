import AuditTrail.Proofs.Number.Value

/-!
Large whole numbers. A whole number of at least 53 bits is read as a number with whole units, and a
number that is at least a power of two is never shown as less than that, the power itself apart.
-/

namespace AuditTrail.Binary64

theorem roundHalfEven_bounds (num den : Nat) :
    num / den ≤ roundHalfEven num den ∧ roundHalfEven num den ≤ num / den + 1 := by
  unfold roundHalfEven
  dsimp only
  split <;> omega

theorem floorLog2_whole {n : Nat} (positive : n ≠ 0) : floorLog2 n 1 = n.log2 := by
  have reached : 2 ^ n.log2 ≤ n := Nat.log2_self_le positive
  have one : (1 : Nat).log2 = 0 := by decide
  simp [floorLog2, one, scaleDown, reached]

theorem roundRatio_whole {n : Nat} (bits : Nat) (large : n.log2 = 52 + bits) :
    ∃ significand exponent, roundRatio 53 (-1074) n 1 = (significand, exponent) ∧
      4503599627370496 ≤ significand ∧ significand < 9007199254740992 ∧
      (bits : Int) ≤ exponent ∧ exponent ≤ bits + 1 := by
  have positive : n ≠ 0 := by
    rintro rfl
    exact absurd large (by simp; omega)
  have unit : 0 < 2 ^ bits := Nat.two_pow_pos bits
  have low : 4503599627370496 ≤ n / 2 ^ bits := by
    rw [Nat.le_div_iff_mul_le unit]
    calc 4503599627370496 * 2 ^ bits = 2 ^ (52 + bits) := by rw [pow_add]; rfl
      _ ≤ n := large ▸ Nat.log2_self_le positive
  have high : n / 2 ^ bits < 9007199254740992 := by
    rw [Nat.div_lt_iff_lt_mul unit]
    calc n < 2 ^ (52 + bits + 1) := large ▸ Nat.lt_log2_self
      _ = 9007199254740992 * 2 ^ bits := by rw [add_right_comm, pow_add]; rfl
  have exponent : max (floorLog2 n 1 - (((53 : Nat) : Int) - 1)) (-1074) = bits := by
    rw [floorLog2_whole positive, large]
    omega
  obtain ⟨least, most⟩ := roundHalfEven_bounds n (2 ^ bits)
  unfold roundRatio
  simp only [exponent, scaleDown, Int.natCast_nonneg, if_true, Int.toNat_natCast, one_mul,
    Nat.pow_eq]
  split
  · exact ⟨_, _, rfl, by decide, by decide, by omega, by omega⟩
  · rename_i room
    have room : roundHalfEven n (2 ^ bits) ≠ 9007199254740992 := room
    exact ⟨_, _, rfl, by omega, by omega, by omega, by omega⟩

theorem exists_ofDecimal_whole (negative : Bool) {n bits : Nat} (large : 2 ^ (52 + bits) ≤ n)
    (bounded : n < 2 ^ 128) : ∃ x, ofDecimal negative n 0 = some x ∧ x.negative = negative ∧
      4503599627370496 ≤ x.significand ∧ (bits : Int) ≤ x.exponent := by
  have positive : n ≠ 0 := (Nat.lt_of_lt_of_le (Nat.two_pow_pos _) large).ne'
  have least : 52 + bits ≤ n.log2 := (Nat.le_log2 positive).mpr large
  have most : n.log2 < 128 := (Nat.log2_lt positive).mpr bounded
  obtain ⟨above, total⟩ := Nat.exists_eq_add_of_le least
  obtain ⟨significand, exponent, rounded, full, bound, coarse, fine⟩ :=
    roundRatio_whole (bits + above) (total.trans (add_assoc _ _ _))
  have normal : significand < 9007199254740992 ∧ -1074 ≤ exponent ∧ exponent ≤ 971 ∧
      (4503599627370496 ≤ significand ∨ exponent = -1074) :=
    ⟨bound, by omega, by omega, Or.inl full⟩
  refine ⟨⟨negative, significand, exponent, normal⟩, ?_, rfl, full, by dsimp only; omega⟩
  simp [ofDecimal, positive, ofRatio, rounded, normal]

theorem lt_abs_shown {x : Binary64} (bits : Nat) (full : 4503599627370496 ≤ x.significand)
    (coarse : (bits : Int) ≤ x.exponent)
    (more : ¬ (x.significand = 4503599627370496 ∧ x.exponent = bits)) :
    2 ^ (52 + bits) < |x.shown| := by
  have filled : x.isZero = false := by
    simp [isZero]
    omega
  have unit : (0 : ℚ) < 2 ^ x.exponent := zpow_pos (by norm_num) _
  have low := (around_shortest filled .away).low
  rw [le_div_iff₀ unit] at low
  rw [shown_of_filled filled, abs_sign_mul, abs_of_pos (magnitude_pos filled)]
  refine lt_of_lt_of_le ?_ low
  have reach := x.reachBelow_le
  obtain ⟨above, up⟩ := Int.eq_ofNat_of_zero_le (sub_nonneg.mpr coarse)
  have up : x.exponent = bits + above := by omega
  rw [up, zpow_add₀ two_ne_zero, zpow_natCast, zpow_natCast, pow_add, ← mul_assoc,
    mul_right_comm]
  have power : (0 : ℚ) < 2 ^ bits := by positivity
  refine mul_lt_mul_of_pos_right ?_ power
  rcases Nat.eq_zero_or_pos above with rfl | positive
  · have next : 4503599627370497 ≤ x.significand := by omega
    have next : (4503599627370497 : ℚ) ≤ x.significand := by exact_mod_cast next
    norm_num
    linarith
  · have full : (4503599627370496 : ℚ) ≤ x.significand := by exact_mod_cast full
    have two : (2 : ℚ) ≤ 2 ^ above := by
      calc (2 : ℚ) = 2 ^ 1 := by norm_num
        _ ≤ 2 ^ above := pow_le_pow_right₀ (by norm_num) positive
    norm_num
    nlinarith

end AuditTrail.Binary64
