/-
Numerals: the texts of literals, and the numbers they are read as.

A literal is written as its digits with a point and an exponent, and read back from that text as it
is, as long as nothing behind it could belong to it.  The number it stands for drops the digits that
do not fit, so it lies at or below the value of the numeral, up to rounding.
-/
import CommandFlow.Json.Token
import CommandFlow.Proofs.Number.Scaled

namespace CommandFlow.Json

namespace Literal

/-! ### Texts -/

/-- The digits behind the point, with the point if there are any. -/
def fractionText : List Char → List Char
  | [] => []
  | ds => '.' :: ds

/-- The power of ten behind its mark, always with its sign. -/
def exponentText : Option Int → List Char
  | none => []
  | some e => 'e' :: (if e < 0 then '-' else '+') :: Nat.toDigits 10 e.natAbs

/-- The text of a literal. -/
def text (l : Literal) : List Char :=
  (if l.negative then ['-'] else []) ++
    (l.integer ++ (fractionText l.fraction ++ exponentText l.exponent))

/-- The literals that have a text. -/
structure WellFormed (l : Literal) : Prop where
  integer_ne : l.integer ≠ []
  integer_digits : ∀ c ∈ l.integer, c.isDigit = true
  /-- A zero in front stands alone. -/
  leading : l.integer = ['0'] ∨ l.integer.head? ≠ some '0'
  fraction_digits : ∀ c ∈ l.fraction, c.isDigit = true

/-- Whether a text cannot go on with a numeral. -/
def Stops (rest : List Char) : Prop :=
  ∀ c, rest.head? = some c → c.isDigit = false ∧ c ≠ '.' ∧ c ≠ 'e' ∧ c ≠ 'E'

end Literal

namespace Token

open Literal

/-! ### Reading a literal back -/

theorem takeWhile_isDigit_append {ds rest : List Char} (hds : ∀ c ∈ ds, c.isDigit = true)
    (hrest : ∀ c, rest.head? = some c → c.isDigit = false) :
    (ds ++ rest).takeWhile Char.isDigit = ds := by
  have hnil : rest.takeWhile Char.isDigit = [] := by
    cases rest with
    | nil => rfl
    | cons c cs => rw [List.takeWhile_cons, hrest c rfl]; rfl
  rw [List.takeWhile_append_of_pos hds, hnil, List.append_nil]

theorem digitsValue_toDigits (n : Nat) : digitsValue (Nat.toDigits 10 n) = n :=
  Nat.ofDigitChars_ten_toDigits

theorem scanInteger?_append {l : Literal} (hl : l.WellFormed) {rest : List Char}
    (hrest : ∀ c, rest.head? = some c → c.isDigit = false) :
    scanInteger? (l.integer ++ rest) = some l.integer := by
  unfold scanInteger?
  rw [takeWhile_isDigit_append hl.integer_digits hrest]
  split
  case h_1 heq => exact absurd heq hl.integer_ne
  case h_2 heq => exact congrArg some heq.symm
  case h_3 ds hne heq =>
    -- A zero in front of other digits is not well formed.
    rcases hl.leading with h | h
    · exact absurd (heq.symm.trans h) (by simpa using hne)
    · rw [heq] at h
      exact absurd rfl h
  case h_4 => rfl

theorem scanFraction?_append {ds rest : List Char} (hds : ∀ c ∈ ds, c.isDigit = true)
    (hrest : ∀ c, rest.head? = some c → c.isDigit = false ∧ c ≠ '.') :
    scanFraction? (fractionText ds ++ rest) = some (ds, (fractionText ds).length) := by
  unfold scanFraction?
  cases ds with
  | nil =>
      rw [fractionText, List.nil_append]
      split
      case h_1 => exact absurd rfl (hrest '.' rfl).2
      case h_2 => rfl
  | cons d ds =>
      have htake : (d :: (ds ++ rest)).takeWhile Char.isDigit = d :: ds :=
        takeWhile_isDigit_append hds fun c hc => (hrest c hc).1
      simp only [fractionText, List.cons_append, htake, List.length_cons]

theorem scanExponent?_append {exponent : Option Int} {rest : List Char} (hrest : Stops rest) :
    scanExponent? (exponentText exponent ++ rest)
      = some (exponent, (exponentText exponent).length) := by
  unfold scanExponent?
  cases exponent with
  | none =>
      rw [exponentText, List.nil_append]
      split
      case h_1 => exact absurd rfl (hrest 'e' rfl).2.2.1
      case h_2 => exact absurd rfl (hrest 'E' rfl).2.2.2
      case h_3 => rfl
  | some e =>
      have htake : (Nat.toDigits 10 e.natAbs ++ rest).takeWhile Char.isDigit
          = Nat.toDigits 10 e.natAbs :=
        takeWhile_isDigit_append
          (fun c hc => Nat.isDigit_of_mem_toDigits (by decide) (by decide) hc)
          fun c hc => (hrest c hc).1
      have hvalue := digitsValue_toDigits e.natAbs
      have hne : Nat.toDigits 10 e.natAbs ≠ [] := Nat.toDigits_ne_nil
      unfold exponentText
      by_cases he : e < 0
      · simp only [if_pos he, List.cons_append, htake]
        cases hds : Nat.toDigits 10 e.natAbs with
        | nil => exact absurd hds hne
        | cons d ds =>
            rw [hds] at hvalue
            simp only [hvalue, List.length_cons]
            refine congrArg some (Prod.ext (congrArg some ?_) rfl)
            show -1 * (e.natAbs : Int) = e
            omega
      · simp only [if_neg he, List.cons_append, htake]
        cases hds : Nat.toDigits 10 e.natAbs with
        | nil => exact absurd hds hne
        | cons d ds =>
            rw [hds] at hvalue
            simp only [hvalue, List.length_cons]
            refine congrArg some (Prod.ext (congrArg some ?_) rfl)
            show 1 * (e.natAbs : Int) = e
            omega

/-- What stands behind the digits of a literal is no digit. -/
theorem head?_exponentText_append {exponent : Option Int} {rest : List Char} (hrest : Stops rest)
    {c : Char} (hc : (exponentText exponent ++ rest).head? = some c) :
    c.isDigit = false ∧ c ≠ '.' := by
  cases exponent with
  | none => exact ⟨(hrest c hc).1, (hrest c hc).2.1⟩
  | some e =>
      obtain rfl : 'e' = c := Option.some.inj hc
      decide

theorem head?_fractionText_append {ds rest : List Char} {exponent : Option Int}
    (hrest : Stops rest) {c : Char}
    (hc : (fractionText ds ++ (exponentText exponent ++ rest)).head? = some c) :
    c.isDigit = false := by
  cases ds with
  | nil => exact (head?_exponentText_append hrest hc).1
  | cons d ds =>
      obtain rfl : '.' = c := Option.some.inj hc
      rfl

theorem head?_text_append {l : Literal} (hl : l.WellFormed) (rest : List Char) :
    (l.text ++ rest).head? = some '-' ↔ l.negative = true := by
  obtain ⟨d, ds, hds⟩ := List.exists_cons_of_ne_nil hl.integer_ne
  have hdigit : d ≠ '-' := by
    rintro rfl
    exact absurd (hl.integer_digits '-' (by rw [hds]; exact List.mem_cons_self)) (by decide)
  unfold Literal.text
  rw [hds]
  cases l.negative <;> simp [hdigit]

/-- **A literal is read back from its text.** -/
theorem scanNumber_text {l : Literal} (hl : l.WellFormed) {rest : List Char}
    (hrest : Stops rest) : scanNumber (l.text ++ rest) = some (.number l, l.text.length) := by
  have hdrop : (l.text ++ rest).drop (if l.negative = true then 1 else 0)
      = l.integer ++ (fractionText l.fraction ++ (exponentText l.exponent ++ rest)) := by
    unfold Literal.text
    cases l.negative <;> simp
  have hinteger : scanInteger?
      (l.integer ++ (fractionText l.fraction ++ (exponentText l.exponent ++ rest)))
      = some l.integer :=
    scanInteger?_append hl fun c hc => head?_fractionText_append hrest hc
  have hfraction : scanFraction? (fractionText l.fraction ++ (exponentText l.exponent ++ rest))
      = some (l.fraction, (fractionText l.fraction).length) :=
    scanFraction?_append hl.fraction_digits fun c hc => head?_exponentText_append hrest hc
  have hexponent : scanExponent? (exponentText l.exponent ++ rest)
      = some (l.exponent, (exponentText l.exponent).length) := scanExponent?_append hrest
  have hlength : (if l.negative = true then 1 else 0) + l.integer.length
      + (fractionText l.fraction).length + (exponentText l.exponent).length = l.text.length := by
    unfold Literal.text
    cases l.negative <;> simp <;> omega
  unfold scanNumber
  simp only [head?_text_append hl, hdrop, hinteger, List.drop_left, hfraction, hexponent,
    Option.bind_eq_bind, Option.bind_some, hlength, Bool.decide_eq_true]
  rfl

end Token

namespace Literal

/-! ### Digits that fit -/

theorem pow_mul_le_ofDigitChars (cs : List Char) (s : Nat) :
    s * 10 ^ cs.length ≤ Nat.ofDigitChars 10 cs s := by
  rw [Nat.ofDigitChars_eq_ofDigitChars_zero, Nat.mul_comm]
  exact Nat.le_add_right _ _

theorem ofDigitChars_lt {cs : List Char} (hcs : ∀ c ∈ cs, c.isDigit = true) (s : Nat) :
    Nat.ofDigitChars 10 cs s < (s + 1) * 10 ^ cs.length := by
  induction cs generalizing s with
  | nil => simp [Nat.ofDigitChars]
  | cons c cs ih =>
      have hdigit : c.toNat - '0'.toNat ≤ 9 := by
        have := hcs c List.mem_cons_self
        simp only [Char.isDigit, Bool.and_eq_true, decide_eq_true_eq] at this
        have hle : c.toNat ≤ 57 := this.2
        exact Nat.sub_le_sub_right hle 48
      rw [Nat.ofDigitChars_cons, List.length_cons, Nat.pow_succ]
      calc Nat.ofDigitChars 10 cs (10 * s + (c.toNat - '0'.toNat))
          < (10 * s + (c.toNat - '0'.toNat) + 1) * 10 ^ cs.length :=
            ih (fun c hc => hcs c (List.mem_cons_of_mem _ hc)) _
        _ ≤ ((s + 1) * 10) * 10 ^ cs.length := Nat.mul_le_mul_right _ (by omega)
        _ = (s + 1) * (10 ^ cs.length * 10) := by ring

/-- All digits are taken if the number they spell fits 64 bits. -/
theorem takeDigits_eq {cs : List Char} {s : Nat} (h : Nat.ofDigitChars 10 cs s < 2 ^ 64) :
    takeDigits s cs = (Nat.ofDigitChars 10 cs s, 0) := by
  induction cs generalizing s with
  | nil => rfl
  | cons c cs ih =>
      rw [Nat.ofDigitChars_cons] at h ⊢
      have hnext : 10 * s + digitValue c < 0x10000000000000000 := by
        refine lt_of_le_of_lt ?_ h
        calc 10 * s + digitValue c
            ≤ (10 * s + digitValue c) * 10 ^ cs.length := Nat.le_mul_of_pos_right _ (by positivity)
          _ ≤ _ := pow_mul_le_ofDigitChars cs _
      rw [takeDigits, if_pos hnext]
      exact ih h

/-- The digits taken, with zeros for those left out, spell at most the number of all digits. -/
theorem takeDigits_le (cs : List Char) {s : Nat} (hs : s < 2 ^ 64) :
    (takeDigits s cs).1 < 2 ^ 64 ∧
      (takeDigits s cs).1 * 10 ^ (takeDigits s cs).2 ≤ Nat.ofDigitChars 10 cs s := by
  induction cs generalizing s with
  | nil => exact ⟨hs, by simp [takeDigits, Nat.ofDigitChars]⟩
  | cons c cs ih =>
      rw [takeDigits]
      by_cases hnext : 10 * s + digitValue c < 0x10000000000000000
      · rw [if_pos hnext, Nat.ofDigitChars_cons]
        exact ih hnext
      · rw [if_neg hnext]
        exact ⟨hs, pow_mul_le_ofDigitChars (c :: cs) s⟩

/-! ### The number that a literal stands for -/

/-- The number that a literal spells. -/
def value (l : Literal) : ℚ :=
  (Nat.ofDigitChars 10 (l.integer ++ l.fraction) 0 : ℚ)
    * 10 ^ (l.exponent.getD 0 - l.fraction.length)

/-- A literal is finite if it spells a number that two roundings cannot carry to the point of
overflow, and the digits before its point fit 64 bits. -/
theorem isFinite_toBinary64 {l : Literal} {bound : ℚ}
    (hinteger : Nat.ofDigitChars 10 l.integer 0 < 2 ^ 64) (hle : l.value ≤ bound)
    (hbound : bound * (1 + 1 / 2 ^ 53) ^ 2 < Binary64.overflowPoint) :
    l.toBinary64.isFinite = true := by
  obtain ⟨hfits, htaken⟩ := takeDigits_le l.fraction hinteger
  unfold toBinary64
  rw [takeDigits_eq hinteger]
  dsimp only
  refine Binary64.isFinite_ofScaled hfits ?_ hbound
  refine le_trans ?_ hle
  generalize takeDigits (Nat.ofDigitChars 10 l.integer 0) l.fraction = taken at htaken
  have hexp : ((0 : Nat) : Int) - ((l.fraction.length : Int) - taken.2) + l.exponent.getD 0
      = taken.2 + (l.exponent.getD 0 - l.fraction.length) := by
    push_cast
    ring
  have htaken' : (taken.1 : ℚ) * 10 ^ taken.2
      ≤ (Nat.ofDigitChars 10 (l.integer ++ l.fraction) 0 : ℚ) := by
    rw [Nat.ofDigitChars_append]
    exact_mod_cast htaken
  rw [hexp, zpow_add₀ (by norm_num), zpow_natCast, ← mul_assoc, value]
  gcongr

theorem number?_isSome {l : Literal} (h : l.toBinary64.isFinite = true) :
    l.number?.isSome = true := by
  unfold number?
  split
  · rfl
  · rw [if_pos h]
    rfl

end Literal

end CommandFlow.Json
