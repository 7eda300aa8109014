import AuditTrail.Number.Shortest
import AuditTrail.Proofs.Number.Rounding

/-!
The shortest digits of a number are read as the number again: every grid point that the search
takes lies in the rounding interval, and the last grid has the value itself.
-/

namespace AuditTrail

namespace RoundingInterval

theorem onGrid_ratio (interval : RoundingInterval) (grid : Int) :
    ((interval.onGrid grid).low / (interval.onGrid grid).unit : ℚ) =
        interval.low / interval.unit / 10 ^ grid ∧
      ((interval.onGrid grid).value / (interval.onGrid grid).unit : ℚ) =
        interval.value / interval.unit / 10 ^ grid ∧
      ((interval.onGrid grid).high / (interval.onGrid grid).unit : ℚ) =
        interval.high / interval.unit / 10 ^ grid := by
  unfold onGrid
  split
  · rename_i up
    obtain ⟨n, rfl⟩ := Int.eq_ofNat_of_zero_le up
    simp [div_div]
  · rename_i down
    obtain ⟨n, rfl⟩ : ∃ n : Nat, grid = -n := ⟨(-grid).toNat, by omega⟩
    simp [mul_div_right_comm]

theorem onGrid_positive {interval : RoundingInterval} (positive : 0 < interval.unit) (grid : Int) :
    0 < (interval.onGrid grid).unit := by
  unfold onGrid
  split
  · exact Nat.mul_pos positive (Nat.pow_pos (by decide))
  · exact positive

theorem onGrid_closed (interval : RoundingInterval) (grid : Int) :
    (interval.onGrid grid).closed = interval.closed := by
  unfold onGrid
  split <;> rfl

theorem contains_onGrid {interval : RoundingInterval} (positive : 0 < interval.unit) (grid : Int)
    (digits : Nat) : (interval.onGrid grid).contains digits = true ↔
      if interval.closed then
        (interval.low / interval.unit : ℚ) ≤ digits * 10 ^ grid ∧
          (digits * 10 ^ grid : ℚ) ≤ interval.high / interval.unit
      else
        (interval.low / interval.unit : ℚ) < digits * 10 ^ grid ∧
          (digits * 10 ^ grid : ℚ) < interval.high / interval.unit := by
  have ten : (0 : ℚ) < 10 ^ grid := zpow_pos (by norm_num) _
  have unit : (0 : ℚ) < (interval.onGrid grid).unit := by
    exact_mod_cast onGrid_positive positive grid
  obtain ⟨low, _, high⟩ := onGrid_ratio interval grid
  rw [← div_le_iff₀ ten, ← le_div_iff₀ ten, ← div_lt_iff₀ ten, ← lt_div_iff₀ ten, ← low, ← high,
    div_le_iff₀ unit, le_div_iff₀ unit, div_lt_iff₀ unit, lt_div_iff₀ unit]
  unfold contains
  rw [onGrid_closed]
  cases interval.closed
  · simp only [Bool.false_eq_true, if_false, Bool.and_eq_true, decide_eq_true_eq]
    norm_cast
  · simp only [if_true, Bool.and_eq_true, decide_eq_true_eq]
    norm_cast

theorem contains_of_nearest? {interval : RoundingInterval} {tie : Tie} {digits : Nat}
    (found : interval.nearest? tie = some digits) : interval.contains digits = true := by
  unfold nearest? at found
  dsimp only at found
  grind

theorem search_of_contains {interval : RoundingInterval} (tie : Tie) (Holds : Decimal → Prop)
    (inside : ∀ grid digits, (interval.onGrid grid).contains digits = true → Holds ⟨digits, grid⟩)
    (steps : Nat) (grid : Int)
    (last : Holds ⟨(interval.onGrid (grid - steps)).value / (interval.onGrid (grid - steps)).unit,
      grid - steps⟩) : Holds (interval.search tie steps grid) := by
  induction steps generalizing grid with
  | zero => simpa [search] using last
  | succ steps ih =>
      unfold search
      split
      · rename_i found
        exact inside grid _ (contains_of_nearest? found)
      · refine ih (grid - 1) ?_
        have same : grid - 1 - (steps : Int) = grid - ((steps + 1 : Nat) : Int) := by omega
        rwa [same]

end RoundingInterval

namespace Binary64

open RoundingInterval

theorem interval_positive (significand : Nat) (exponent : Int) :
    0 < (ofSignificand significand exponent).unit :=
  scaleDown_positive (by decide) 1 _

theorem interval_ratio {x : Binary64} (filled : x.isZero = false) :
    let interval := ofSignificand x.significand x.exponent
    (interval.low / interval.unit : ℚ) = (x.significand - x.reachBelow) * 2 ^ x.exponent ∧
      (interval.value / interval.unit : ℚ) = x.significand * 2 ^ x.exponent ∧
      (interval.high / interval.unit : ℚ) = (x.significand + 1 / 2) * 2 ^ x.exponent := by
  have some : x.significand ≠ 0 := by simpa [isZero] using filled
  have quarter : ((scaleDown 1 1 (2 - x.exponent)).1 : ℚ) / (scaleDown 1 1 (2 - x.exponent)).2 =
      2 ^ x.exponent / 4 := by
    rw [scaleDown_ratio, zpow_sub₀ (by norm_num)]
    simp
    norm_num
  have below : ((4 * x.significand - if x.significand = 4503599627370496 ∧ -1074 < x.exponent then
      1 else 2 : Nat) : ℚ) = 4 * (x.significand - x.reachBelow) := by
    unfold reachBelow
    split
    · rw [Nat.cast_sub (by omega)]
      push_cast
      ring
    · rw [Nat.cast_sub (by omega)]
      push_cast
      ring
  dsimp only [ofSignificand]
  refine ⟨?_, ?_, ?_⟩
  · rw [Nat.cast_mul, mul_div_assoc, quarter, below]
    ring
  · rw [Nat.cast_mul, mul_div_assoc, quarter]
    push_cast
    ring
  · rw [Nat.cast_mul, mul_div_assoc, quarter]
    push_cast
    ring

theorem around_of_contains {x : Binary64} (filled : x.isZero = false) {grid : Int} {digits : Nat}
    (inside : ((ofSignificand x.significand x.exponent).onGrid grid).contains digits = true) :
    x.Around (digits * 10 ^ grid) := by
  have unit : (0 : ℚ) < 2 ^ x.exponent := zpow_pos (by norm_num) _
  obtain ⟨low, _, high⟩ := interval_ratio filled
  rw [contains_onGrid (interval_positive _ _), low, high, ← le_div_iff₀ unit, ← div_le_iff₀ unit,
    ← lt_div_iff₀ unit, ← div_lt_iff₀ unit] at inside
  split at inside
  · rename_i even
    exact ⟨inside.1, inside.2, fun _ => by simpa [ofSignificand] using even⟩
  · refine ⟨inside.1.le, inside.2.le, ?_⟩
    rintro (atLow | atHigh)
    · exact absurd atLow inside.1.ne'
    · exact absurd atHigh inside.2.ne

theorem around_self (x : Binary64) : x.Around (x.significand * 2 ^ x.exponent) := by
  have unit : (0 : ℚ) < 2 ^ x.exponent := zpow_pos (by norm_num) _
  have reach : 0 < x.reachBelow := by
    unfold reachBelow
    split <;> norm_num
  refine ⟨?_, ?_, ?_⟩ <;> rw [mul_div_cancel_right₀ _ unit.ne']
  · linarith
  · linarith
  · rintro (atLow | atHigh) <;> linarith

theorem exists_on_finest (x : Binary64) :
    ∃ n : Nat, (n * 10 ^ min 0 x.exponent : ℚ) = x.significand * 2 ^ x.exponent := by
  rcases le_total 0 x.exponent with up | down
  · obtain ⟨n, whole⟩ := Int.eq_ofNat_of_zero_le up
    exact ⟨x.significand * 2 ^ n, by simp [whole]⟩
  · obtain ⟨n, part⟩ : ∃ n : Nat, x.exponent = -n := ⟨(-x.exponent).toNat, by omega⟩
    refine ⟨x.significand * 5 ^ n, ?_⟩
    rw [min_eq_right down, part, show (10 : ℚ) = 2 * 5 by norm_num, mul_zpow]
    push_cast
    field_simp
    simp

theorem around_shortest {x : Binary64} (filled : x.isZero = false) (tie : Tie) :
    x.Around ((x.shortest tie).digits * 10 ^ (x.shortest tie).exponent) := by
  unfold shortest
  dsimp only
  refine search_of_contains tie (fun d => x.Around (d.digits * 10 ^ d.exponent))
    (fun grid digits inside => around_of_contains filled inside) _ _ ?_
  have finest : max (min 0 x.exponent) x.coarsestGrid -
      ((max (min 0 x.exponent) x.coarsestGrid - min 0 x.exponent).toNat : Int) =
        min 0 x.exponent := by
    omega
  rw [finest]
  obtain ⟨n, exact⟩ := exists_on_finest x
  have unit :
      (0 : ℚ) < ((ofSignificand x.significand x.exponent).onGrid (min 0 x.exponent)).unit := by
    exact_mod_cast onGrid_positive (interval_positive _ _) _
  have value := (onGrid_ratio (ofSignificand x.significand x.exponent) (min 0 x.exponent)).2.1
  rw [(interval_ratio filled).2.1, ← exact, mul_div_cancel_right₀ _ (zpow_ne_zero _ (by norm_num)),
    div_eq_iff unit.ne'] at value
  have whole : ((ofSignificand x.significand x.exponent).onGrid (min 0 x.exponent)).value =
      n * ((ofSignificand x.significand x.exponent).onGrid (min 0 x.exponent)).unit := by
    exact_mod_cast value
  dsimp only
  rw [whole, Nat.mul_div_cancel _ (by exact_mod_cast unit), exact]
  exact around_self x

theorem digits_shortest_pos {x : Binary64} (filled : x.isZero = false) (tie : Tie) :
    0 < (x.shortest tie).digits := by
  have positive := (around_shortest filled tie).positive filled
  rcases Nat.eq_zero_or_pos (x.shortest tie).digits with none | some
  · simp [none] at positive
  · exact some

/-- Any decimal equal to the shortest one is read as the number. -/
theorem ofDecimal_shortest {x : Binary64} (filled : x.isZero = false) (tie : Tie) {digits : Nat}
    {exponent : Int} (same : (digits * 10 ^ exponent : ℚ) =
      (x.shortest tie).digits * 10 ^ (x.shortest tie).exponent) :
    ofDecimal x.negative digits exponent = some x :=
  ofDecimal_of_around filled (same ▸ around_shortest filled tie)

end Binary64

end AuditTrail
