/-
Reading in steps stays finite.

A significand and a power of ten are each rounded before they are multiplied, and the product is
rounded again.  This may carry a number that is finite beyond the largest one, but not unless it is
within a few units of that one.
-/
import CommandFlow.Proofs.Number.Rounding

namespace CommandFlow

namespace Binary64

theorem overflowPoint_eq : overflowPoint = (((2 ^ 54 - 1) * 2 ^ 970 : Nat) : ℚ) := by
  have hdouble : (2 : ℚ) ^ 971 = 2 * 2 ^ 970 := by rw [← pow_succ']
  rw [overflowPoint, hdouble, Nat.cast_mul, Nat.cast_pow]
  generalize (Nat.cast 2 : ℚ) ^ 970 = unit
  norm_num
  ring

theorem pow_ten_lt_overflowPoint {n : Nat} (hn : n ≤ 308) : (10 : ℚ) ^ n < overflowPoint := by
  have hlt : 10 ^ 308 < (2 ^ 54 - 1) * 2 ^ 970 := by decide +kernel
  have hle : (10 : ℚ) ^ n ≤ 10 ^ 308 := pow_le_pow_right₀ (by norm_num) hn
  refine lt_of_le_of_lt hle ?_
  rw [overflowPoint_eq]
  exact_mod_cast hlt

theorem lt_of_pow_ten_lt_overflowPoint {n : Nat} (h : (10 : ℚ) ^ n < overflowPoint) : n ≤ 308 := by
  by_contra hn
  have hlt : (2 ^ 54 - 1) * 2 ^ 970 < 10 ^ 309 := by decide +kernel
  have hle : (10 : ℚ) ^ 309 ≤ 10 ^ n := pow_le_pow_right₀ (by norm_num) (by omega)
  have hover : overflowPoint < 10 ^ 309 := by
    rw [overflowPoint_eq]
    exact_mod_cast hlt
  exact lt_irrefl _ ((hle.trans_lt h).trans hover)

/-- The number nearest to an integer of 64 bits is finite. -/
theorem isFinite_ofInt {n : Int} (h : -0x8000000000000000 ≤ n ∧ n < 0x10000000000000000) :
    (ofInt n).isFinite = true := by
  have hvalue : (⟨n.natAbs, 0⟩ : Decimal).value = (n.natAbs : ℚ) := by
    rw [Decimal.value, scale_eq_zpow, zpow_zero, mul_one]
  have hplace : ¬(⟨n.natAbs, 0⟩ : Decimal).pointPlace < -400 := by
    unfold Decimal.pointPlace
    dsimp only
    split <;> omega
  have hlt : n.natAbs < 10 ^ 20 := by omega
  by_cases hzero : n.natAbs = 0
  · rw [ofInt, ofDecimal, if_pos hzero]
    rfl
  · rw [ofInt, ofDecimal, if_neg hzero, if_neg (show ¬(400 : Int) < 0 by decide), if_neg hplace,
      hvalue]
    refine isFinite_ofRat (Nat.cast_nonneg _) ?_
    calc (n.natAbs : ℚ) < 10 ^ 20 := by exact_mod_cast hlt
      _ < overflowPoint := pow_ten_lt_overflowPoint (by decide)

/-! ### Powers of ten -/

theorem tenTo_eq (n : Nat) : tenTo n = nearest (10 ^ n) := by
  rw [tenTo, scale_eq_zpow]
  norm_num

theorem tenTo_le (n : Nat) : tenTo n ≤ 10 ^ n * (1 + 1 / 2 ^ 53) := by
  rw [tenTo_eq]
  exact nearest_le (one_le_pow₀ (by norm_num))

/-- A power of ten is rounded to at least four. -/
theorem four_le_tenTo {n : Nat} (hpos : 1 ≤ n) (hn : n ≤ 308) : 4 ≤ tenTo n := by
  have hten : (10 : ℚ) ≤ 10 ^ n := by
    calc (10 : ℚ) = 10 ^ 1 := (pow_one 10).symm
      _ ≤ 10 ^ n := pow_le_pow_right₀ (by norm_num) hpos
  have hlow := le_nearest_add (q := 10 ^ n) (by positivity) (pow_ten_lt_overflowPoint hn)
  have hunit := unit_le (q := 10 ^ n) (by linarith)
  have hsmall : (10 : ℚ) ^ n / 2 ^ 52 ≤ 10 ^ n / 2 := by
    gcongr
    norm_num
  rw [tenTo_eq]
  linarith

/-! ### Division -/

theorem nearest_div_le {q : ℚ} (hq : 0 ≤ q) (hle : q ≤ 2 ^ 65) {n : Nat} (hpos : 1 ≤ n)
    (hn : n ≤ 308) : nearest (q / tenTo n) ≤ 2 ^ 65 := by
  have hfour := four_le_tenTo hpos hn
  have hquarter : q / tenTo n ≤ q / 4 := by gcongr
  have hnonneg : 0 ≤ q / tenTo n := div_nonneg hq (by linarith)
  have hround := nearest_le_two_mul_add_one hnonneg
  calc nearest (q / tenTo n) ≤ 2 * (q / tenTo n) + 1 := hround
    _ ≤ 2 * (2 ^ 65 / 4) + 1 := by linarith
    _ ≤ 2 ^ 65 := by norm_num

/-- Dividing by powers of ten never leads beyond where it started. -/
theorem dividedBy_le {last : Nat} (hpos : 1 ≤ last) (hlast : last ≤ 308) :
    ∀ {largest : Nat} {q : ℚ}, 0 ≤ q → q ≤ 2 ^ 65 →
      0 ≤ dividedBy q last largest ∧ dividedBy q last largest ≤ 2 ^ 65 := by
  intro largest
  induction largest with
  | zero =>
      intro q hq hle
      exact ⟨nearest_nonneg _, nearest_div_le hq hle hpos hlast⟩
  | succ largest ih =>
      intro q hq hle
      rw [dividedBy]
      split
      · exact ⟨le_rfl, by positivity⟩
      · exact ih (nearest_nonneg _) (nearest_div_le hq hle (by decide) (by decide))

/-! ### A significand and a power of ten -/

theorem isFinite_ofScaled_neg {negative : Bool} {significand : Nat} (hs : significand < 2 ^ 64)
    {exponent : Int} (he : exponent < 0) :
    (ofScaled negative significand exponent).isFinite = true := by
  have hq : nearest (significand : ℚ) ≤ 2 ^ 65 := by
    rcases Nat.eq_zero_or_pos significand with rfl | hpos
    · have := nearest_le_two_mul_add_one (q := 0) le_rfl
      push_cast
      linarith
    · have hone : (1 : ℚ) ≤ significand := by exact_mod_cast hpos
      have hs' : (significand : ℚ) ≤ 2 ^ 64 := by exact_mod_cast hs.le
      have hround := nearest_le hone
      have hdouble : (significand : ℚ) * (1 + 1 / 2 ^ 53) ≤ 2 ^ 64 * 2 := by
        gcongr
        norm_num
      linarith
  unfold ofScaled
  dsimp only
  split
  · rfl
  · rw [if_neg (by omega)]
    -- What is left after the largest powers is a power from 1 to 308.
    have hlast : 1 ≤ exponent.natAbs - maxPower * ((exponent.natAbs - 1) / maxPower) ∧
        exponent.natAbs - maxPower * ((exponent.natAbs - 1) / maxPower) ≤ 308 := by
      unfold maxPower
      omega
    obtain ⟨hnonneg, hle⟩ := dividedBy_le hlast.1 hlast.2 (nearest_nonneg _) hq
    refine isFinite_ofRat hnonneg (lt_of_le_of_lt hle ?_)
    have hten : (2 : ℚ) ^ 65 < 10 ^ 20 := by norm_num
    exact hten.trans (pow_ten_lt_overflowPoint (by norm_num))

/-- Reading a significand and a power of ten gives a finite number, if the value is not so near to
the point of overflow that two roundings could carry it there. -/
theorem isFinite_ofScaled {negative : Bool} {significand : Nat} (hs : significand < 2 ^ 64)
    {exponent : Int} {bound : ℚ} (hle : (significand : ℚ) * 10 ^ exponent ≤ bound)
    (hbound : bound * (1 + 1 / 2 ^ 53) ^ 2 < overflowPoint) :
    (ofScaled negative significand exponent).isFinite = true := by
  by_cases he : exponent < 0
  · exact isFinite_ofScaled_neg hs he
  obtain ⟨n, rfl⟩ := Int.eq_ofNat_of_zero_le (show 0 ≤ exponent by omega)
  rw [zpow_natCast] at hle
  unfold ofScaled
  dsimp only
  split
  · rfl
  case isFalse hzero =>
    have hone : (1 : ℚ) ≤ significand := by exact_mod_cast Nat.pos_of_ne_zero hzero
    have hgrow : (1 : ℚ) ≤ (1 + 1 / 2 ^ 53) ^ 2 := one_le_pow₀ (by norm_num)
    have hvalue : (significand : ℚ) * 10 ^ n * (1 + 1 / 2 ^ 53) ^ 2 < overflowPoint :=
      lt_of_le_of_lt (by gcongr) hbound
    have hpow : (10 : ℚ) ^ n < overflowPoint := by
      refine lt_of_le_of_lt ?_ hvalue
      calc (10 : ℚ) ^ n = 1 * 10 ^ n * 1 := by ring
        _ ≤ (significand : ℚ) * 10 ^ n * (1 + 1 / 2 ^ 53) ^ 2 := by gcongr
    have hn : n ≤ 308 := lt_of_pow_ten_lt_overflowPoint hpow
    rw [if_pos (by simp), if_pos (by simpa [maxPower] using hn)]
    rw [Int.natAbs_natCast]
    refine isFinite_ofRat (mul_nonneg (nearest_nonneg _) (nearest_nonneg _)) ?_
    refine lt_of_le_of_lt ?_ hvalue
    calc nearest (significand : ℚ) * tenTo n
        ≤ ((significand : ℚ) * (1 + 1 / 2 ^ 53)) * (10 ^ n * (1 + 1 / 2 ^ 53)) := by
          gcongr
          · exact nearest_nonneg _
          · exact nearest_le hone
          · exact tenTo_le n
      _ = (significand : ℚ) * 10 ^ n * (1 + 1 / 2 ^ 53) ^ 2 := by ring

end Binary64

end CommandFlow
