/-
How far rounding goes.

A positive fraction is rounded to a multiple of a power of two, its unit.  The result is off by at
most half the unit, and the unit is at most the fraction over 2 ^ 52, unless it is the least one
there is.  So rounding stays finite exactly below the point half way to the first number that there
is not.
-/
import CommandFlow.Number.Scaled
import Mathlib.Algebra.Order.Field.Power
import Mathlib.Algebra.Order.Field.Rat
import Mathlib.Data.Rat.Cast.Order
import Mathlib.Tactic.FieldSimp
import Mathlib.Tactic.Linarith
import Mathlib.Tactic.NormNum
import Mathlib.Tactic.Positivity
import Mathlib.Tactic.Ring

namespace CommandFlow

theorem scale_eq_zpow (base : Nat) (exponent : Int) : scale base exponent = (base : ℚ) ^ exponent := by
  unfold scale
  split
  case isTrue h =>
    obtain ⟨n, rfl⟩ := Int.eq_ofNat_of_zero_le h
    simp
  case isFalse h =>
    obtain ⟨n, hn⟩ := Int.eq_ofNat_of_zero_le (show 0 ≤ -exponent by omega)
    have he : exponent = -(n : Int) := by omega
    rw [he, neg_neg, Int.toNat_natCast, Rat.mkRat_eq_div, zpow_neg, zpow_natCast]
    simp

namespace Binary64

/-! ### The nearest natural number -/

theorem toNat_num {q : ℚ} (hq : 0 ≤ q) : ((q.num.toNat : Nat) : ℚ) = q.num := by
  have hcast : ((q.num.toNat : Nat) : Int) = q.num := Int.toNat_of_nonneg (Rat.num_nonneg.2 hq)
  exact_mod_cast hcast

theorem abs_nearestEven_sub_le {q : ℚ} (hq : 0 ≤ q) : |(nearestEven q : ℚ) - q| ≤ 1 / 2 := by
  have hden : (0 : ℚ) < q.den := by exact_mod_cast q.den_pos
  have hnum : ((q.num.toNat : Nat) : ℚ) = q * q.den := by
    rw [toNat_num hq, Rat.mul_den_eq_num]
  -- The fraction is the whole number below it and the rest of the division.
  have hsplit : q * q.den = q.den * ((q.num.toNat / q.den : Nat) : ℚ)
      + ((q.num.toNat % q.den : Nat) : ℚ) := by
    rw [← hnum]
    exact_mod_cast (Nat.div_add_mod q.num.toNat q.den).symm
  have hlt : ((q.num.toNat % q.den : Nat) : ℚ) < q.den := by
    exact_mod_cast Nat.mod_lt _ q.den_pos
  have hnonneg : (0 : ℚ) ≤ ((q.num.toNat % q.den : Nat) : ℚ) := by positivity
  unfold nearestEven
  dsimp only
  rw [abs_le]
  split
  case isTrue h =>
    have hrest : 2 * ((q.num.toNat % q.den : Nat) : ℚ) ≤ q.den := by
      have : 2 * (q.num.toNat % q.den) ≤ q.den := by
        rcases h with h | h
        · omega
        · omega
      exact_mod_cast this
    constructor <;> nlinarith
  case isFalse h =>
    have hrest : (q.den : ℚ) ≤ 2 * ((q.num.toNat % q.den : Nat) : ℚ) := by
      have : q.den ≤ 2 * (q.num.toNat % q.den) := by
        by_contra hc
        exact h (Or.inl (by omega))
      exact_mod_cast this
    push_cast
    constructor <;> nlinarith

/-! ### The power of two below -/

theorem zpow_log2_le {n : Nat} (hn : n ≠ 0) : (2 : ℚ) ^ (n.log2 : Int) ≤ n := by
  exact_mod_cast Nat.log2_self_le hn

theorem lt_zpow_log2 (n : Nat) : (n : ℚ) < (2 : ℚ) ^ ((n.log2 : Int) + 1) := by
  exact_mod_cast Nat.lt_log2_self (n := n)

theorem floorLog2_spec {q : ℚ} (hq : 0 < q) :
    (2 : ℚ) ^ floorLog2 q ≤ q ∧ q < (2 : ℚ) ^ (floorLog2 q + 1) := by
  have hden : (0 : ℚ) < q.den := by exact_mod_cast q.den_pos
  have hnumpos : 0 < q.num.toNat := by
    have := Rat.num_pos.2 hq
    omega
  have hq' : q = (q.num.toNat : ℚ) / q.den := by
    rw [toNat_num hq.le, Rat.num_div_den]
  have hnlow := zpow_log2_le hnumpos.ne'
  have hnhigh := lt_zpow_log2 q.num.toNat
  have hdlow := zpow_log2_le q.den_pos.ne'
  have hdhigh := lt_zpow_log2 q.den
  unfold floorLog2
  generalize q.num.toNat.log2 = n at hnlow hnhigh ⊢
  generalize q.den.log2 = d at hdlow hdhigh ⊢
  -- The difference of the two logarithms is right or one too large.
  have hhigh : q < (2 : ℚ) ^ ((n : Int) - d + 1) := by
    calc q = (q.num.toNat : ℚ) / q.den := hq'
      _ < (2 : ℚ) ^ ((n : Int) + 1) / q.den := by gcongr
      _ ≤ (2 : ℚ) ^ ((n : Int) + 1) / (2 : ℚ) ^ (d : Int) := by gcongr
      _ = (2 : ℚ) ^ ((n : Int) - d + 1) := by
          rw [← zpow_sub₀ (by norm_num)]
          congr 1
          ring
  have hlow : (2 : ℚ) ^ ((n : Int) - d - 1) ≤ q := by
    calc (2 : ℚ) ^ ((n : Int) - d - 1) = (2 : ℚ) ^ (n : Int) / (2 : ℚ) ^ ((d : Int) + 1) := by
          rw [← zpow_sub₀ (by norm_num)]
          congr 1
          ring
      _ ≤ (q.num.toNat : ℚ) / (2 : ℚ) ^ ((d : Int) + 1) := by gcongr
      _ ≤ (q.num.toNat : ℚ) / q.den := by gcongr
      _ = q := hq'.symm
  dsimp only
  rw [scale_eq_zpow]
  split
  case isTrue h => exact ⟨h, hhigh⟩
  case isFalse h =>
    refine ⟨hlow, ?_⟩
    rw [sub_add_cancel]
    exact not_le.1 h

theorem floorLog2_lt_iff {q : ℚ} (hq : 0 < q) (e : Int) : floorLog2 q < e ↔ q < (2 : ℚ) ^ e := by
  obtain ⟨hlow, hhigh⟩ := floorLog2_spec hq
  constructor
  · intro h
    exact hhigh.trans_le (zpow_le_zpow_right₀ (by norm_num) (by omega))
  · intro h
    exact (zpow_lt_zpow_iff_right₀ (by norm_num)).1 (hlow.trans_lt h)

/-! ### Rounding -/

/-- The power of two of the unit that a fraction is rounded to. -/
def unitExponent (q : ℚ) : Int :=
  max (floorLog2 q - 52) (-1074)

/-- The number of units that a fraction is rounded to. -/
def unitCount (q : ℚ) : Nat :=
  nearestEven (q / scale 2 (unitExponent q))

theorem unitCount_eq (q : ℚ) : unitCount q = nearestEven (q / (2 : ℚ) ^ unitExponent q) := by
  rw [unitCount, scale_eq_zpow]
  rfl

theorem ofRat_eq {negative : Bool} {q : ℚ} (hq : 0 < q) :
    ofRat negative q =
      let r := if unitCount q = 2 ^ 53 then (2 ^ 52, unitExponent q + 1)
        else (unitCount q, unitExponent q)
      if h : Canonical r.1 r.2 then .finite negative r.1 r.2 h else .infinite negative := by
  unfold ofRat
  rw [if_neg hq.ne']
  rfl

theorem abs_unitCount_sub_le {q : ℚ} (hq : 0 < q) :
    |(unitCount q : ℚ) * 2 ^ unitExponent q - q| ≤ 2 ^ unitExponent q / 2 := by
  have hunit : (0 : ℚ) < 2 ^ unitExponent q := by positivity
  have hround := abs_nearestEven_sub_le (q := q / 2 ^ unitExponent q) (by positivity)
  have hscale : (unitCount q : ℚ) * 2 ^ unitExponent q - q
      = ((nearestEven (q / 2 ^ unitExponent q) : ℚ) - q / 2 ^ unitExponent q)
        * 2 ^ unitExponent q := by
    rw [unitCount_eq]
    field_simp
  rw [hscale, abs_mul, abs_of_pos hunit]
  calc _ ≤ 1 / 2 * (2 : ℚ) ^ unitExponent q := by gcongr
    _ = 2 ^ unitExponent q / 2 := by ring

theorem unitCount_le {q : ℚ} (hq : 0 < q) : unitCount q ≤ 2 ^ 53 := by
  have hunit : (0 : ℚ) < 2 ^ unitExponent q := by positivity
  have hlt : q / 2 ^ unitExponent q < 2 ^ 53 := by
    rw [div_lt_iff₀ hunit]
    calc q < 2 ^ (floorLog2 q + 1) := (floorLog2_spec hq).2
      _ ≤ 2 ^ (53 + unitExponent q) := by
          refine zpow_le_zpow_right₀ (by norm_num) ?_
          unfold unitExponent
          omega
      _ = 2 ^ 53 * 2 ^ unitExponent q := by
          rw [zpow_add₀ (by norm_num)]
          norm_num
  have hround := abs_nearestEven_sub_le (q := q / 2 ^ unitExponent q) (by positivity)
  have hcount : ((unitCount q : Nat) : ℚ) < ((2 ^ 53 + 1 : Nat) : ℚ) := by
    have := (abs_le.1 hround).2
    rw [unitCount_eq]
    push_cast
    linarith
  have : unitCount q < 2 ^ 53 + 1 := by exact_mod_cast hcount
  omega

theorem le_unitCount {q : ℚ} (hq : 0 < q) (h : unitExponent q ≠ -1074) : 2 ^ 52 ≤ unitCount q := by
  have hunit : (0 : ℚ) < 2 ^ unitExponent q := by positivity
  have he : unitExponent q = floorLog2 q - 52 := by
    unfold unitExponent at h ⊢
    omega
  have hle : (2 : ℚ) ^ 52 ≤ q / 2 ^ unitExponent q := by
    rw [le_div_iff₀ hunit, he, ← zpow_natCast, ← zpow_add₀ (by norm_num)]
    have hexp : ((52 : Nat) : Int) + (floorLog2 q - 52) = floorLog2 q := by omega
    rw [hexp]
    exact (floorLog2_spec hq).1
  have hround := abs_nearestEven_sub_le (q := q / 2 ^ unitExponent q) (by positivity)
  have hcount : ((2 ^ 52 : Nat) : ℚ) < ((unitCount q + 1 : Nat) : ℚ) := by
    have := (abs_le.1 hround).1
    rw [unitCount_eq]
    push_cast
    linarith
  have : 2 ^ 52 < unitCount q + 1 := by exact_mod_cast hcount
  omega

/-- The point half way between the largest number and the next power of two. -/
def overflowPoint : ℚ := (2 ^ 53 - 1 / 2) * 2 ^ 971

theorem overflowPoint_lt : overflowPoint < (2 : ℚ) ^ (1024 : Int) := by
  have hsplit : (2 : ℚ) ^ (1024 : Int) = 2 ^ 53 * 2 ^ 971 := by
    rw [← pow_add]
    rfl
  rw [hsplit, overflowPoint]
  gcongr
  norm_num

/-- Below the point of overflow no unit is larger than that of the largest number. -/
theorem unitExponent_le {q : ℚ} (hq : 0 < q) (h : q < overflowPoint) : unitExponent q ≤ 971 := by
  have hlog : floorLog2 q < 1024 := (floorLog2_lt_iff hq 1024).2 (h.trans overflowPoint_lt)
  unfold unitExponent
  omega

/-- Below the point of overflow the count stays below 2 ^ 53 at the largest unit. -/
theorem unitCount_lt {q : ℚ} (hq : 0 < q) (h : q < overflowPoint) (he : unitExponent q = 971) :
    unitCount q < 2 ^ 53 := by
  have herr := (abs_le.1 (abs_unitCount_sub_le hq)).2
  have hunit : (2 : ℚ) ^ unitExponent q = 2 ^ 971 := by
    rw [he]
    rfl
  rw [hunit] at herr
  have hlt : (unitCount q : ℚ) * 2 ^ 971 < ((2 ^ 53 : Nat) : ℚ) * 2 ^ 971 := by
    unfold overflowPoint at h
    generalize (2 : ℚ) ^ 971 = unit at h herr ⊢
    push_cast
    linarith
  have : (unitCount q : ℚ) < ((2 ^ 53 : Nat) : ℚ) := lt_of_mul_lt_mul_right hlt (by positivity)
  exact_mod_cast this

/-- A count of 2 ^ 53 is 2 ^ 52 of the next unit, which there is below the point of overflow. -/
theorem canonical_of_unitCount_eq {q : ℚ} (hq : 0 < q) (h : q < overflowPoint)
    (hfull : unitCount q = 2 ^ 53) : Canonical (2 ^ 52) (unitExponent q + 1) := by
  have hmin : -1074 ≤ unitExponent q := le_max_right _ _
  have hmax : unitExponent q ≤ 971 := unitExponent_le hq h
  have hne : unitExponent q ≠ 971 := fun he => (unitCount_lt hq h he).ne hfull
  exact ⟨by norm_num, by omega, by omega, Or.inl le_rfl⟩

theorem canonical_of_unitCount_ne {q : ℚ} (hq : 0 < q) (h : q < overflowPoint)
    (hfull : unitCount q ≠ 2 ^ 53) : Canonical (unitCount q) (unitExponent q) := by
  refine ⟨lt_of_le_of_ne (unitCount_le hq) hfull, le_max_right _ _, unitExponent_le hq h, ?_⟩
  by_cases he : unitExponent q = -1074
  · exact Or.inr he
  · exact Or.inl (le_unitCount hq he)

/-- Rounding is finite below the point of overflow. -/
theorem isFinite_ofRat {negative : Bool} {q : ℚ} (hq : 0 ≤ q) (h : q < overflowPoint) :
    (ofRat negative q).isFinite = true := by
  rcases hq.eq_or_lt with rfl | hq
  · rfl
  rw [ofRat_eq hq]
  dsimp only
  by_cases hfull : unitCount q = 2 ^ 53
  · simp only [if_pos hfull]
    rw [dif_pos (canonical_of_unitCount_eq hq h hfull)]
    rfl
  · simp only [if_neg hfull]
    rw [dif_pos (canonical_of_unitCount_ne hq h hfull)]
    rfl

/-- The magnitude of a rounded number is the count of units times the unit, if it is finite. -/
theorem magnitude_ofRat {negative : Bool} {q : ℚ} (hq : 0 < q)
    (h : (ofRat negative q).isFinite = true) :
    (ofRat negative q).magnitude = (unitCount q : ℚ) * 2 ^ unitExponent q := by
  rw [ofRat_eq hq] at h ⊢
  dsimp only at h ⊢
  by_cases hcanonical : Canonical
      (if unitCount q = 2 ^ 53 then (2 ^ 52, unitExponent q + 1) else (unitCount q, unitExponent q)).1
      (if unitCount q = 2 ^ 53 then (2 ^ 52, unitExponent q + 1) else (unitCount q, unitExponent q)).2
  · rw [dif_pos hcanonical]
    unfold magnitude
    dsimp only
    rw [scale_eq_zpow]
    by_cases hfull : unitCount q = 2 ^ 53
    · simp only [hfull]
      push_cast
      rw [zpow_add₀ (by norm_num)]
      ring
    · simp only [if_neg hfull]
      norm_num
  · rw [dif_neg hcanonical] at h
    simp [isFinite] at h

/-- What a fraction is rounded to is at most half a unit below it. -/
theorem le_of_ofRat_eq {negative : Bool} {q : ℚ} (hq : 0 ≤ q) {m : Nat} {e : Int}
    {canonical : Canonical m e} (h : ofRat negative q = .finite negative m e canonical) :
    q ≤ ((m : ℚ) + 1 / 2) * 2 ^ e := by
  rcases hq.eq_or_lt with rfl | hq
  · positivity
  have hmagnitude : (ofRat negative q).magnitude = (unitCount q : ℚ) * 2 ^ unitExponent q :=
    magnitude_ofRat hq (by rw [h]; rfl)
  have herr := (abs_le.1 (abs_unitCount_sub_le hq)).1
  have hvalue : (m : ℚ) * 2 ^ e = (unitCount q : ℚ) * 2 ^ unitExponent q := by
    rw [← hmagnitude, h]
    unfold magnitude
    dsimp only
    rw [scale_eq_zpow]
    rfl
  -- The unit may have doubled on the way, so half of it is no less.
  have hunit : (2 : ℚ) ^ unitExponent q ≤ 2 ^ e := by
    refine zpow_le_zpow_right₀ (by norm_num) ?_
    rw [ofRat_eq hq] at h
    dsimp only at h
    split at h
    · split at h
      · obtain ⟨-, -, he⟩ := Binary64.finite.inj h
        omega
      · exact absurd h (by simp)
    · split at h
      · obtain ⟨-, -, he⟩ := Binary64.finite.inj h
        exact he.le
      · exact absurd h (by simp)
  rw [add_mul, hvalue]
  linarith

theorem nearest_nonneg (q : ℚ) : 0 ≤ nearest q := by
  unfold nearest magnitude
  split
  · rw [scale_eq_zpow]
    positivity
  · exact le_rfl

theorem nearest_le_add {q : ℚ} (hq : 0 < q) : nearest q ≤ q + 2 ^ unitExponent q / 2 := by
  by_cases hfinite : (ofRat false q).isFinite = true
  · rw [nearest, magnitude_ofRat hq hfinite]
    have := (abs_le.1 (abs_unitCount_sub_le hq)).2
    linarith
  · have hzero : nearest q = 0 := by
      unfold nearest magnitude
      split
      · rename_i hcase
        rw [hcase] at hfinite
        exact absurd rfl hfinite
      · rfl
    rw [hzero]
    positivity

theorem le_nearest_add {q : ℚ} (hq : 0 < q) (h : q < overflowPoint) :
    q ≤ nearest q + 2 ^ unitExponent q / 2 := by
  rw [nearest, magnitude_ofRat hq (isFinite_ofRat hq.le h)]
  have := (abs_le.1 (abs_unitCount_sub_le hq)).1
  linarith

/-- From one on, the unit is at most the fraction over 2 ^ 52. -/
theorem unit_le {q : ℚ} (hq : 1 ≤ q) : (2 : ℚ) ^ unitExponent q ≤ q / 2 ^ 52 := by
  have hpos : 0 < q := by linarith
  have hlow := (floorLog2_spec hpos).1
  have hlog : 0 ≤ floorLog2 q := by
    rw [← not_lt, floorLog2_lt_iff hpos, zpow_zero, not_lt]
    exact hq
  have he : unitExponent q = floorLog2 q - 52 := by
    unfold unitExponent
    omega
  rw [he, zpow_sub₀ (by norm_num)]
  gcongr
  norm_num

/-- Rounding adds at most one part in 2 ^ 53 to what is not below one. -/
theorem nearest_le {q : ℚ} (hq : 1 ≤ q) : nearest q ≤ q * (1 + 1 / 2 ^ 53) := by
  have hpos : 0 < q := by linarith
  have hadd := nearest_le_add hpos
  have hunit := unit_le hq
  have hhalf : (2 : ℚ) ^ unitExponent q / 2 ≤ q / 2 ^ 53 := by
    calc (2 : ℚ) ^ unitExponent q / 2 ≤ q / 2 ^ 52 / 2 := by gcongr
      _ = q / 2 ^ 53 := by ring
  calc nearest q ≤ q + q / 2 ^ 53 := by linarith
    _ = q * (1 + 1 / 2 ^ 53) := by ring

/-- Rounding at most doubles a fraction, and adds one. -/
theorem nearest_le_two_mul_add_one {q : ℚ} (hq : 0 ≤ q) : nearest q ≤ 2 * q + 1 := by
  rcases hq.eq_or_lt with rfl | hpos
  · have : nearest 0 = 0 := by simp [nearest, ofRat, zero, magnitude]
    rw [this]
    norm_num
  by_cases hone : 1 ≤ q
  · have := nearest_le hone
    have hsmall : q * (1 + 1 / 2 ^ 53) ≤ q * 2 := by
      gcongr
      norm_num
    linarith
  · -- Below one the unit is below one as well.
    have hlog : floorLog2 q < 0 := by
      rw [floorLog2_lt_iff hpos, zpow_zero]
      exact not_le.1 hone
    have hunit : (2 : ℚ) ^ unitExponent q ≤ 2 ^ (0 : Int) := by
      refine zpow_le_zpow_right₀ (by norm_num) ?_
      unfold unitExponent
      omega
    have hadd := nearest_le_add hpos
    rw [zpow_zero] at hunit
    linarith

end Binary64

end CommandFlow
