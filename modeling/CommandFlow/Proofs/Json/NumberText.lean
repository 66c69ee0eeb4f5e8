/-
Numbers are written as literals that stand for numbers.

An integer is written as its digits.  A double is written as the digits of a decimal, with a point
among them or an exponent behind them.  The decimal rounds to the double, so it lies at most half a
unit above it, and reading the literal gives a finite number again.  Only for the three largest
doubles is that bound too wide; their literals are read by computation.
-/
import CommandFlow.Json.Printer
import CommandFlow.Proofs.Json.Numeral
import Mathlib.Data.List.TakeWhile

namespace CommandFlow

open Json (Literal)

/-! ### Digits of decimals -/

theorem head?_toDigits_ne {n : Nat} (hn : 0 < n) : (Nat.toDigits 10 n).head? ≠ some '0' := by
  induction n using Nat.strongRecOn with
  | ind n ih =>
      rw [Nat.toDigits_eq_if (by decide)]
      by_cases hlt : n < 10
      · rw [if_pos hlt]
        intro h
        have hzero : n.digitChar = '0' := Option.some.inj h
        have := Nat.digitChar_eq_zero.1 hzero
        omega
      · rw [if_neg hlt, List.head?_append_of_ne_nil _ Nat.toDigits_ne_nil]
        exact ih (n / 10) (by omega) (by omega)

namespace Decimal

/-- The digits are the significant ones with zeros behind them. -/
theorem exists_toDigits_eq {d : Decimal} (hd : d.digits ≠ 0) :
    ∃ k, Nat.toDigits 10 d.digits = d.significant ++ List.replicate k '0' := by
  obtain ⟨l, hl⟩ : ∃ l, Nat.toDigits 10 d.digits = l := ⟨_, rfl⟩
  have hzeros : ∀ c ∈ (l.reverse.takeWhile (· == '0')).reverse, c = '0' := by
    intro c hc
    simpa using List.mem_takeWhile_imp (List.mem_reverse.1 hc)
  obtain ⟨k, hsplit⟩ : ∃ k, l = (l.reverse.dropWhile (· == '0')).reverse
      ++ List.replicate k '0' := by
    refine ⟨(l.reverse.takeWhile (· == '0')).reverse.length, ?_⟩
    rw [← List.eq_replicate_iff.2 ⟨rfl, hzeros⟩, ← List.reverse_append,
      List.takeWhile_append_dropWhile, List.reverse_reverse]
  refine ⟨k, ?_⟩
  rw [hl, significant, hl]
  split
  · -- Zeros alone do not start a positive number.
    rename_i hnil
    rw [hnil, List.nil_append] at hsplit
    have hhead := head?_toDigits_ne (Nat.pos_of_ne_zero hd)
    have hne : l ≠ [] := by
      rw [← hl]
      exact Nat.toDigits_ne_nil
    obtain ⟨c, cs, rfl⟩ := List.exists_cons_of_ne_nil hne
    have hc : c ∈ List.replicate k '0' := by
      rw [← hsplit]
      exact List.mem_cons_self
    rw [hl, (List.mem_replicate.1 hc).2] at hhead
    exact absurd rfl hhead
  · exact hsplit

theorem significant_zero {d : Decimal} (hd : d.digits = 0) : d.significant = ['0'] := by
  rw [significant, hd]
  rfl

theorem significant_ne_nil (d : Decimal) : d.significant ≠ [] := by
  unfold significant
  split
  · exact List.cons_ne_nil _ _
  · assumption

theorem isDigit_significant {d : Decimal} {c : Char} (hc : c ∈ d.significant) :
    c.isDigit = true := by
  by_cases hd : d.digits = 0
  · rw [significant_zero hd, List.mem_singleton] at hc
    rw [hc]
    rfl
  · obtain ⟨k, hk⟩ := exists_toDigits_eq hd
    have hmem : c ∈ Nat.toDigits 10 d.digits := by
      rw [hk]
      exact List.mem_append_left _ hc
    exact Nat.isDigit_of_mem_toDigits (by decide) (by decide) hmem

/-- A zero in front stands alone, and right before the point. -/
theorem leading_significant (d : Decimal) :
    (d.significant = ['0'] ∧ d.pointPlace = 1) ∨ d.significant.head? ≠ some '0' := by
  by_cases hd : d.digits = 0
  · exact Or.inl ⟨significant_zero hd, if_pos hd⟩
  · obtain ⟨k, hk⟩ := exists_toDigits_eq hd
    have hhead := head?_toDigits_ne (Nat.pos_of_ne_zero hd)
    rw [hk, List.head?_append_of_ne_nil _ d.significant_ne_nil] at hhead
    exact Or.inr hhead

/-- The value of a decimal from its significant digits and the place of its point. -/
theorem value_eq (d : Decimal) :
    d.value = (Nat.ofDigitChars 10 d.significant 0 : ℚ)
      * 10 ^ (d.pointPlace - d.significant.length) := by
  rw [value, scale_eq_zpow]
  by_cases hd : d.digits = 0
  · rw [significant_zero hd, hd]
    simp [Nat.ofDigitChars]
  · obtain ⟨k, hk⟩ := exists_toDigits_eq hd
    have hdigits : d.digits = 10 ^ k * Nat.ofDigitChars 10 d.significant 0 := by
      rw [← Nat.ofDigitChars_replicate_zero, ← Nat.ofDigitChars_append, ← hk,
        Nat.ofDigitChars_ten_toDigits]
    have hplace : d.pointPlace - d.significant.length = k + d.exponent := by
      rw [pointPlace, if_neg hd, digitCount, hk, List.length_append, List.length_replicate]
      push_cast
      ring
    rw [hplace, zpow_add₀ (by norm_num), zpow_natCast]
    nth_rewrite 1 [hdigits]
    push_cast
    ring

/-! ### Literals of decimals -/

/-- The literal of digits with a point in its place. -/
def positionalLiteral (negative : Bool) (cs : List Char) (place : Int) : Literal :=
  if place ≤ 0 then ⟨negative, ['0'], List.replicate (-place).toNat '0' ++ cs, none⟩
  else if (cs.length : Int) ≤ place then
    ⟨negative, cs ++ List.replicate (place.toNat - cs.length) '0', ['0'], none⟩
  else ⟨negative, cs.take place.toNat, cs.drop place.toNat, none⟩

/-- The literal of digits with the point behind the first one. -/
def scientificLiteral (negative : Bool) (cs : List Char) (place : Int) : Literal :=
  ⟨negative, cs.take 1, cs.drop 1, some (place - 1)⟩

/-- The literal that a decimal is written as. -/
def literal (negative : Bool) (d : Decimal) : Literal :=
  if Json.numberStyle.layout.positional (d.pointPlace - 1) then
    positionalLiteral negative d.significant d.pointPlace
  else scientificLiteral negative d.significant d.pointPlace

/-- Whether a literal spells a decimal. -/
structure Spelled (d : Decimal) (l : Literal) : Prop where
  wellFormed : l.WellFormed
  value_eq : l.value = d.value
  /-- There are never many digits before the point. -/
  integer_length : l.integer.length ≤ 16

theorem isDigit_zeros {k : Nat} {c : Char} (hc : c ∈ List.replicate k '0') : c.isDigit = true := by
  rw [(List.mem_replicate.1 hc).2]
  rfl

/-- Zeros stand between the point and the digits. -/
theorem spelled_behind {negative : Bool} {d : Decimal} (hplace : d.pointPlace ≤ 0) :
    Spelled d ⟨negative, ['0'], List.replicate (-d.pointPlace).toNat '0' ++ d.significant, none⟩ := by
  refine ⟨⟨by simp, by simp, Or.inl rfl, ?_⟩, ?_, by simp⟩
  · intro c hc
    rcases List.mem_append.1 hc with hc | hc
    · exact isDigit_zeros hc
    · exact isDigit_significant hc
  · have hdigits : Nat.ofDigitChars 10
        (['0'] ++ (List.replicate (-d.pointPlace).toNat '0' ++ d.significant)) 0
        = Nat.ofDigitChars 10 d.significant 0 := by
      rw [Nat.ofDigitChars_append, Nat.ofDigitChars_append]
      simp [Nat.ofDigitChars_cons, Nat.ofDigitChars_replicate_zero]
    have hexp : (0 : Int) - ((List.replicate (-d.pointPlace).toNat '0' ++ d.significant).length : Int)
        = d.pointPlace - d.significant.length := by
      rw [List.length_append, List.length_replicate]
      omega
    rw [d.value_eq, Literal.value, hdigits]
    exact congrArg _ (congrArg _ hexp)

/-- Zeros stand between the digits and the point. -/
theorem spelled_before {negative : Bool} {d : Decimal}
    (hlength : (d.significant.length : Int) ≤ d.pointPlace) (hplace : d.pointPlace ≤ 16) :
    Spelled d ⟨negative,
      d.significant ++ List.replicate (d.pointPlace.toNat - d.significant.length) '0',
      ['0'], none⟩ := by
  have hne := d.significant_ne_nil
  refine ⟨⟨by simp [hne], ?_, ?_, by simp⟩, ?_, ?_⟩
  · intro c hc
    rcases List.mem_append.1 hc with hc | hc
    · exact isDigit_significant hc
    · exact isDigit_zeros hc
  · rcases d.leading_significant with ⟨hzero, hone⟩ | hlead
    · exact Or.inl (by rw [hzero, hone]; rfl)
    · exact Or.inr (by rwa [List.head?_append_of_ne_nil _ hne])
  · have hdigits : Nat.ofDigitChars 10 (d.significant
          ++ List.replicate (d.pointPlace.toNat - d.significant.length) '0' ++ ['0']) 0
        = 10 ^ (d.pointPlace.toNat - d.significant.length + 1)
          * Nat.ofDigitChars 10 d.significant 0 := by
      rw [Nat.ofDigitChars_append, Nat.ofDigitChars_append, Nat.ofDigitChars_replicate_zero,
        Nat.pow_succ]
      simp [Nat.ofDigitChars]
      ring
    -- The zero behind the point counts as one digit, and takes one from the power.
    have hexp : ((d.pointPlace.toNat - d.significant.length + 1 : Nat) : Int)
        + ((none : Option Int).getD 0 - (['0'].length : Int))
        = d.pointPlace - d.significant.length := by
      simp only [Option.getD_none, List.length_singleton]
      omega
    rw [d.value_eq, Literal.value, hdigits, ← hexp, zpow_add₀ (by norm_num), zpow_natCast]
    push_cast
    ring
  · rw [List.length_append, List.length_replicate]
    omega

/-- The point stands among the digits. -/
theorem spelled_among {negative : Bool} {d : Decimal} (hpos : 0 < d.pointPlace)
    (hlength : d.pointPlace < d.significant.length) (hplace : d.pointPlace ≤ 16) :
    Spelled d ⟨negative, d.significant.take d.pointPlace.toNat,
      d.significant.drop d.pointPlace.toNat, none⟩ := by
  refine ⟨⟨?_, fun c hc => isDigit_significant (List.mem_of_mem_take hc), ?_,
    fun c hc => isDigit_significant (List.mem_of_mem_drop hc)⟩, ?_, ?_⟩
  · intro hnil
    rcases List.take_eq_nil_iff.1 hnil with h | h
    · omega
    · exact d.significant_ne_nil h
  · rcases d.leading_significant with ⟨hzero, hone⟩ | hlead
    · rw [hzero, hone] at hlength
      exact absurd hlength (lt_irrefl _)
    · exact Or.inr (by rwa [List.head?_take, if_neg (by omega)])
  · have hexp : (0 : Int) - ((d.significant.drop d.pointPlace.toNat).length : Int)
        = d.pointPlace - d.significant.length := by
      rw [List.length_drop]
      omega
    rw [d.value_eq, Literal.value]
    dsimp only
    rw [List.take_append_drop]
    exact congrArg _ (congrArg _ hexp)
  · rw [List.length_take]
    omega

theorem spelled_scientific {negative : Bool} {d : Decimal} :
    Spelled d (scientificLiteral negative d.significant d.pointPlace) := by
  have hdigit : ∀ c ∈ d.significant, c.isDigit = true := fun c hc => isDigit_significant hc
  have hvalue := d.value_eq
  obtain ⟨c, cs, hcs⟩ := List.exists_cons_of_ne_nil d.significant_ne_nil
  rw [hcs] at hdigit hvalue ⊢
  refine ⟨⟨List.cons_ne_nil _ _, fun x hx => hdigit x (List.mem_of_mem_take hx), ?_,
    fun x hx => hdigit x (List.mem_of_mem_drop hx)⟩, ?_, ?_⟩
  · by_cases hc : c = '0'
    · exact Or.inl (by rw [hc]; rfl)
    · exact Or.inr fun h => hc (Option.some.inj h)
  · have hexp : d.pointPlace - 1 - (cs.length : Int)
        = d.pointPlace - ((c :: cs).length : Int) := by
      rw [List.length_cons]
      push_cast
      ring
    rw [hvalue]
    exact congrArg _ (congrArg _ hexp)
  · exact (by decide : 1 ≤ 16)

theorem spelled_literal (negative : Bool) (d : Decimal) : Spelled d (d.literal negative) := by
  unfold literal
  split
  case isTrue h =>
    have hplace : d.pointPlace ≤ 16 := by
      simp only [Json.numberStyle, Bool.and_eq_true, decide_eq_true_eq] at h
      omega
    unfold positionalLiteral
    by_cases hbehind : d.pointPlace ≤ 0
    · rw [if_pos hbehind]
      exact spelled_behind hbehind
    · rw [if_neg hbehind]
      by_cases hbefore : (d.significant.length : Int) ≤ d.pointPlace
      · rw [if_pos hbefore]
        exact spelled_before hbefore hplace
      · rw [if_neg hbefore]
        exact spelled_among (not_le.1 hbehind) (not_le.1 hbefore) hplace
  case isFalse => exact spelled_scientific

/-- The text of a decimal is that of its literal. -/
theorem text_literal (negative : Bool) (d : Decimal) :
    (d.literal negative).text
      = (if negative then ['-'] else []) ++ d.text Json.numberStyle.layout := by
  have hne := d.significant_ne_nil
  unfold literal Decimal.text
  split
  · unfold positionalLiteral positionalText Literal.text
    split
    · cases hzeros : List.replicate (-d.pointPlace).toNat '0' ++ d.significant with
      | nil => exact absurd (List.append_eq_nil_iff.1 hzeros).2 hne
      | cons z zs => simp [Literal.fractionText, Literal.exponentText]
    · split
      · simp [Literal.fractionText, Literal.exponentText, Json.numberStyle]
      · rename_i hfront hwhole
        cases hdrop : d.significant.drop d.pointPlace.toNat with
        | nil =>
            have := List.drop_eq_nil_iff.1 hdrop
            omega
        | cons z zs => simp [Literal.fractionText, Literal.exponentText]
  · obtain ⟨c, cs, hcs⟩ := List.exists_cons_of_ne_nil hne
    unfold scientificLiteral scientificText Literal.text
    rw [hcs]
    cases cs with
    | nil => simp [Literal.fractionText, Literal.exponentText]
    | cons z zs => simp [Literal.fractionText, Literal.exponentText]

end Decimal

/-! ### Doubles -/

namespace Binary64

theorem value_exactDecimal (m : Nat) (e : Int) : (exactDecimal m e).value = (m : ℚ) * 2 ^ e := by
  unfold exactDecimal Decimal.value
  split
  case isTrue h =>
    obtain ⟨n, rfl⟩ := Int.eq_ofNat_of_zero_le h
    simp [scale_eq_zpow]
  case isFalse h =>
    obtain ⟨n, hn⟩ := Int.eq_ofNat_of_zero_le (show 0 ≤ -e by omega)
    obtain rfl : e = -(n : Int) := by omega
    have hten : (10 : ℚ) = 2 * 5 := by norm_num
    rw [scale_eq_zpow, neg_neg, Int.toNat_natCast, Nat.pow_eq]
    push_cast
    rw [hten, mul_zpow, zpow_neg, zpow_neg, zpow_natCast, zpow_natCast]
    field_simp

theorem ofDecimal_of_candidate? {tie : Tie} {x : Binary64} {negative : Bool} {q : ℚ} {place : Int}
    {count : Nat} {d : Decimal} (h : candidate? tie x negative q place count = some d) :
    ofDecimal negative d = x := by
  unfold candidate? at h
  dsimp only at h
  have hround := List.find?_some h
  exact of_decide_eq_true hround

/-- A decimal that is rounded to a number lies at most half a unit above it. -/
theorem value_le_of_ofDecimal {negative : Bool} {d : Decimal} {m : Nat} {e : Int}
    {canonical : Canonical m e} (hm : m ≠ 0)
    (h : ofDecimal negative d = .finite negative m e canonical) :
    d.value ≤ ((m : ℚ) + 1 / 2) * 2 ^ e := by
  unfold ofDecimal at h
  split at h
  · exact absurd (Binary64.finite.inj h).2.1.symm hm
  · split at h
    · exact absurd h (by simp)
    · split at h
      · exact absurd (Binary64.finite.inj h).2.1.symm hm
      · refine le_of_ofRat_eq ?_ h
        rw [Decimal.value, scale_eq_zpow]
        positivity

/-- What is written for a number lies at most half a unit above it. -/
theorem value_shortest_le (tie : Tie) (negative : Bool) {m : Nat} {e : Int}
    (canonical : Canonical m e) :
    (shortest tie negative m e canonical).value ≤ ((m : ℚ) + 1 / 2) * 2 ^ e := by
  unfold shortest
  dsimp only
  by_cases hm : m = 0
  · rw [if_pos hm]
    simp only [Decimal.value, Nat.cast_zero, zero_mul]
    positivity
  · rw [if_neg hm]
    cases hfind : (List.range' 1 17).findSome?
        (candidate? tie (.finite negative m e canonical) negative (exactDecimal m e).value
          (pointPlaceOf (exactDecimal m e).value)) with
    | none =>
        rw [Option.getD_none, value_exactDecimal]
        gcongr
        norm_num
    | some d =>
        obtain ⟨count, -, hcount⟩ := List.exists_of_findSome?_eq_some hfind
        exact value_le_of_ofDecimal hm (ofDecimal_of_candidate? hcount)

/-- The three largest doubles are read as finite numbers again. -/
theorem isFinite_literal_largest : ∀ negative : Bool, ∀ k : Fin 3,
    ((shortest .even negative (2 ^ 53 - 1 - k) 971 (by
      unfold Canonical
      omega)).literal negative).toBinary64.isFinite = true := by
  decide +kernel

/-- Below the three largest doubles, what is written stays clear of the point of overflow. -/
theorem value_shortest_le_of_not_largest (tie : Tie) (negative : Bool) {m : Nat} {e : Int}
    (canonical : Canonical m e) (h : ¬(e = 971 ∧ 2 ^ 53 - 4 < m)) :
    (shortest tie negative m e canonical).value ≤ (2 ^ 53 - 7 / 2) * 2 ^ 971 := by
  refine (value_shortest_le tie negative canonical).trans ?_
  obtain ⟨hm, -, he, -⟩ := canonical
  by_cases htop : e = 971
  · have hm' : (m : ℚ) + 4 ≤ 2 ^ 53 := by exact_mod_cast (by omega : m + 4 ≤ 2 ^ 53)
    have hpow : (2 : ℚ) ^ (971 : Int) = 2 ^ 971 := rfl
    rw [htop, hpow]
    gcongr
    linarith
  · -- One power of two less makes up for the largest mantissa.
    have hm' : (m : ℚ) + 1 ≤ 2 ^ 53 := by exact_mod_cast hm
    have hpow : (2 : ℚ) ^ e ≤ 2 ^ (970 : Nat) := by
      rw [← zpow_natCast]
      exact zpow_le_zpow_right₀ (by norm_num) (by push_cast; omega)
    calc ((m : ℚ) + 1 / 2) * 2 ^ e ≤ 2 ^ 53 * 2 ^ 970 := by
          gcongr
          linarith
      _ ≤ (2 ^ 53 - 7 / 2) * 2 ^ 971 := by
          rw [pow_succ (2 : ℚ) 970, mul_comm ((2 : ℚ) ^ 970) 2, ← mul_assoc]
          gcongr
          norm_num

/-- **A finite double is read as a finite number again.** -/
theorem isFinite_literal (negative : Bool) {m : Nat} {e : Int} (canonical : Canonical m e) :
    ((shortest Json.numberStyle.tie negative m e canonical).literal negative).toBinary64.isFinite
      = true := by
  by_cases hlargest : e = 971 ∧ 2 ^ 53 - 4 < m
  · obtain ⟨rfl, hm⟩ := hlargest
    obtain ⟨k, rfl⟩ : ∃ k : Fin 3, m = 2 ^ 53 - 1 - k :=
      ⟨⟨2 ^ 53 - 1 - m, by omega⟩, by have := canonical.1; dsimp only; omega⟩
    exact isFinite_literal_largest negative k
  · have hspelled := (shortest Json.numberStyle.tie negative m e canonical).spelled_literal negative
    have hvalue := value_shortest_le_of_not_largest Json.numberStyle.tie negative canonical hlargest
    rw [← hspelled.value_eq] at hvalue
    refine Literal.isFinite_toBinary64 ?_ hvalue ?_
    · calc _ < (0 + 1) * 10 ^ _ := Literal.ofDigitChars_lt hspelled.wellFormed.integer_digits 0
        _ ≤ (0 + 1) * 10 ^ 16 :=
            Nat.mul_le_mul_left _ (Nat.pow_le_pow_right (by decide) hspelled.integer_length)
        _ < 2 ^ 64 := by decide
    · rw [overflowPoint, mul_right_comm]
      gcongr
      norm_num

end Binary64

/-! ### Numbers -/

namespace Json

/-- The literal that an integer is written as. -/
def integerLiteral (n : Int) : Literal :=
  ⟨n < 0, Nat.toDigits 10 n.natAbs, [], none⟩

theorem text_integerLiteral (n : Int) : (integerLiteral n).text = integerText n := by
  unfold integerLiteral integerText Literal.text
  by_cases hn : n < 0
  · simp [hn, Literal.fractionText, Literal.exponentText]
  · simp [hn, Literal.fractionText, Literal.exponentText]

theorem wellFormed_integerLiteral (n : Int) : (integerLiteral n).WellFormed := by
  refine ⟨Nat.toDigits_ne_nil,
    fun c hc => Nat.isDigit_of_mem_toDigits (by decide) (by decide) hc, ?_, by simp [integerLiteral]⟩
  by_cases hn : n.natAbs = 0
  · exact Or.inl (by rw [integerLiteral, hn]; rfl)
  · exact Or.inr (head?_toDigits_ne (Nat.pos_of_ne_zero hn))

theorem number?_integerLiteral {n : Int}
    (h : -0x8000000000000000 ≤ n ∧ n < 0x10000000000000000) :
    (integerLiteral n).number? = some (.int n h) := by
  have htake : Literal.takeDigits 0 (integerLiteral n).integer = (n.natAbs, 0) := by
    have hvalue : Nat.ofDigitChars 10 (Nat.toDigits 10 n.natAbs) 0 = n.natAbs :=
      Nat.ofDigitChars_ten_toDigits
    rw [integerLiteral, Literal.takeDigits_eq (by rw [hvalue]; omega), hvalue]
  have hvalue : (if (integerLiteral n).negative = true then -(n.natAbs : Int) else n.natAbs) = n := by
    simp only [integerLiteral, decide_eq_true_eq]
    split <;> omega
  have hzero : ¬((integerLiteral n).negative = true ∧ n.natAbs = 0) := by
    simp only [integerLiteral, decide_eq_true_eq]
    omega
  have hinteger : (integerLiteral n).integer? = some (.int n h) := by
    unfold Literal.integer?
    simp only [htake, hvalue]
    rw [dif_pos h, if_pos ⟨rfl, rfl, trivial, hzero⟩]
  rw [Literal.number?, hinteger]

/-- The literal that a number is written as. A double that is not finite has none. -/
def literal? : Number → Option Literal
  | .int n _ => some (integerLiteral n)
  | .double (.finite negative m e h) =>
    some ((Binary64.shortest numberStyle.tie negative m e h).literal negative)
  | .double _ => none

theorem numberText_eq (n : Number) :
    numberText n = (literal? n).elim "null".toList Literal.text := by
  cases n with
  | int n h => exact (text_integerLiteral n).symm
  | double x =>
      cases x with
      | nan => rfl
      | infinite negative => rfl
      | finite negative m e h =>
          show Binary64.text numberStyle (.finite negative m e h) = Literal.text _
          rw [Decimal.text_literal]
          cases negative <;> rfl

/-- **Every number that has a literal is written so that a number is read.** -/
theorem literal?_spec {n : Number} {l : Literal} (h : literal? n = some l) :
    l.WellFormed ∧ l.number?.isSome = true := by
  cases n with
  | int n hn =>
      obtain rfl := Option.some.inj h
      exact ⟨wellFormed_integerLiteral n, by rw [number?_integerLiteral hn]; rfl⟩
  | double x =>
      cases x with
      | nan => exact absurd h (by simp [literal?])
      | infinite negative => exact absurd h (by simp [literal?])
      | finite negative m e canonical =>
          obtain rfl := Option.some.inj h
          exact ⟨(Decimal.spelled_literal negative _).wellFormed,
            Literal.number?_isSome (Binary64.isFinite_literal negative canonical)⟩

end Json

end CommandFlow
