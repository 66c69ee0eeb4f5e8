/-
Binary floating point numbers of 64 bits, as exact data.

A number is kept as what it means: a sign, a mantissa and a power of two.  A fraction is rounded to
the nearest number, a tie going to the even mantissa.  Writing looks for the fewest digits that
round to the same number, and asks the rounding itself whether a candidate does; when no short
candidate does, the exact value is written, which always does.
-/
import CommandFlow.Number.Decimal

namespace CommandFlow

/-- The pairs of a mantissa and a power of two that finite numbers are kept as. The mantissa has at
most 53 bits, and no fewer unless the power is the least one. Every finite magnitude has exactly one
such pair. -/
def Binary64.Canonical (mantissa : Nat) (exponent : Int) : Prop :=
  mantissa < 0x20000000000000 ∧ -1074 ≤ exponent ∧ exponent ≤ 971 ∧
    (0x10000000000000 ≤ mantissa ∨ exponent = -1074)

instance (m : Nat) (e : Int) : Decidable (Binary64.Canonical m e) := by
  unfold Binary64.Canonical
  infer_instance

/-- A binary floating point number of 64 bits. -/
inductive Binary64 where
  | nan
  | infinite (negative : Bool)
  /-- The number `mantissa * 2 ^ exponent` with its sign. Zero has a sign too. -/
  | finite (negative : Bool) (mantissa : Nat) (exponent : Int)
      (canonical : Binary64.Canonical mantissa exponent)
deriving DecidableEq

namespace Binary64

/-- Zero with the given sign. -/
def zero (negative : Bool) : Binary64 :=
  .finite negative 0 (-1074) (by decide)

instance : Inhabited Binary64 := ⟨zero false⟩

/-- Whether the number is neither infinite nor undefined. -/
def isFinite : Binary64 → Bool
  | .finite .. => true
  | _ => false

/-- Equality of numbers: zero has one value whatever its sign, and what is undefined equals
nothing. -/
instance : BEq Binary64 where
  beq
    | .finite n m e _, .finite n' m' e' _ => m == m' && (m == 0 || (n == n' && e == e'))
    | .infinite n, .infinite n' => n == n'
    | _, _ => false

/-! ### Rounding -/

/-- The nearest natural number to a fraction that is not negative, a half going to the even one. -/
def nearestEven (q : Rat) : Nat :=
  let n := q.num.toNat
  let below := n / q.den
  let rest := 2 * (n % q.den)
  if rest < q.den ∨ (rest = q.den ∧ below % 2 = 0) then below else below + 1

/-- The power of two at or just below a positive fraction. -/
def floorLog2 (q : Rat) : Int :=
  let k : Int := (q.num.toNat.log2 : Int) - q.den.log2
  if scale 2 k ≤ q then k else k - 1

/-- The number nearest to a magnitude, with the given sign. A magnitude beyond the largest finite
number gives an infinite one. -/
def ofRat (negative : Bool) (q : Rat) : Binary64 :=
  if q = 0 then zero negative
  else
    let e := max (floorLog2 q - 52) (-1074)
    let m := nearestEven (q / scale 2 e)
    let (m, e) := if m = 0x20000000000000 then (0x10000000000000, e + 1) else (m, e)
    if h : Canonical m e then .finite negative m e h else .infinite negative

/-- The number nearest to a decimal. Magnitudes that are far outside the range of the format are
settled by their order alone. -/
def ofDecimal (negative : Bool) (d : Decimal) : Binary64 :=
  if d.digits = 0 then zero negative
  else if 400 < d.exponent then .infinite negative
  else if d.pointPlace < -400 then zero negative
  else ofRat negative d.value

/-- The number nearest to an integer. -/
def ofInt (n : Int) : Binary64 :=
  ofDecimal (n < 0) ⟨n.natAbs, 0⟩

/-! ### Writing -/

/-- Which of two decimals is written when a number lies exactly half way between them. -/
inductive Tie where
  | even
  | up
deriving DecidableEq, Repr

/-- The exact value of a finite magnitude as a decimal. -/
def exactDecimal (mantissa : Nat) (exponent : Int) : Decimal :=
  if 0 ≤ exponent then ⟨mantissa * Nat.pow 2 exponent.toNat, 0⟩
  else ⟨mantissa * Nat.pow 5 (-exponent).toNat, exponent⟩

/-- The place of the decimal point of a positive fraction: the least power of ten above it. -/
def pointPlaceOf (q : Rat) : Int :=
  if 1 ≤ q then digitCount (q.num.toNat / q.den)
  else 1 - (digitCount ((q.den - 1) / q.num.toNat) : Int)

/-- The better of the two decimals of a given number of digits that enclose `q`, among those that
round to `x`. The place of the point of `q` is given: it is the same for every number of digits. -/
def candidate? (tie : Tie) (x : Binary64) (negative : Bool) (q : Rat) (place : Int) (count : Nat) :
    Option Decimal :=
  let unit := place - count
  let steps := q / scale 10 unit
  let below := steps.num.toNat / steps.den
  let lower : Decimal := ⟨below, unit⟩
  let upper : Decimal := ⟨below + 1, unit⟩
  let gap := steps - (below : Rat)
  let preferLower := gap < 1 / 2 || (gap = 1 / 2 && tie == .even && below % 2 == 0)
  let ordered := if preferLower then [lower, upper] else [upper, lower]
  ordered.find? fun d => decide (ofDecimal negative d = x)

/-- The decimal of fewest digits that rounds to the finite number given, and of those the one
nearest to it. -/
def shortest (tie : Tie) (negative : Bool) (mantissa : Nat) (exponent : Int)
    (canonical : Canonical mantissa exponent) : Decimal :=
  let x := Binary64.finite negative mantissa exponent canonical
  let exact := exactDecimal mantissa exponent
  if mantissa = 0 then ⟨0, 0⟩
  else
    ((List.range' 1 17).findSome?
      (candidate? tie x negative exact.value (pointPlaceOf exact.value))).getD exact

/-- How numbers are written: the layout of the digits and the choice between equally near ones. -/
structure Style where
  layout : Decimal.Layout
  tie : Tie

/-- The text of a number. -/
def text (style : Style) : Binary64 → List Char
  | .nan => "NaN".toList
  | .infinite false => "inf".toList
  | .infinite true => "-inf".toList
  | .finite negative m e h =>
    let digits := (shortest style.tie negative m e h).text style.layout
    if negative then '-' :: digits else digits

end Binary64

end CommandFlow
