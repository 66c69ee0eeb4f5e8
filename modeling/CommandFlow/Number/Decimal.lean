/-
Decimal numbers and how they are laid out as text.

A decimal is a count of units of a power of ten.  Everything here is exact: the value of a decimal
is a rational number, and a layout only places the point and the zeros around the digits it is
given.
-/

namespace CommandFlow

/-- The power `base ^ exponent` as an exact fraction, for exponents of either sign. -/
def scale (base : Nat) (exponent : Int) : Rat :=
  if 0 ≤ exponent then ((base.pow exponent.toNat : Nat) : Rat)
  else mkRat 1 (base.pow (-exponent).toNat)

/-- The number of decimal digits of `n`, and one for zero. -/
def digitCount (n : Nat) : Nat :=
  (Nat.toDigits 10 n).length

/-- The number `digits * 10 ^ exponent`. -/
structure Decimal where
  digits : Nat
  exponent : Int
deriving DecidableEq, Repr

namespace Decimal

/-- The number a decimal stands for. -/
def value (d : Decimal) : Rat :=
  (d.digits : Rat) * scale 10 d.exponent

/-- The digits without the zeros at their end, as characters. Zero keeps its one digit. -/
def significant (d : Decimal) : List Char :=
  match ((Nat.toDigits 10 d.digits).reverse.dropWhile (· == '0')).reverse with
  | [] => ['0']
  | cs => cs

/-- How many digits stand before the point when the decimal is written out; negative when zeros
follow the point first. Zero counts as having one. -/
def pointPlace (d : Decimal) : Int :=
  if d.digits = 0 then 1 else (digitCount d.digits : Int) + d.exponent

/-! ### Layouts -/

/-- What a layout decides beyond the digits: which orders of magnitude are written without an
exponent, and what stands behind a whole number. -/
structure Layout where
  /-- Whether a first digit of this power of ten is written out in positional form. -/
  positional : Int → Bool
  /-- What follows the digits of a whole number in positional form. -/
  wholeEnd : List Char

/-- Writes the digits with the point in its place and zeros where there are no digits. -/
def positionalText (wholeEnd cs : List Char) (place : Int) : List Char :=
  if place ≤ 0 then
    '0' :: '.' :: (List.replicate (-place).toNat '0' ++ cs)
  else if (cs.length : Int) ≤ place then
    cs ++ List.replicate (place.toNat - cs.length) '0' ++ wholeEnd
  else
    cs.take place.toNat ++ '.' :: cs.drop place.toNat

/-- Writes one digit before the point and the power of ten after `e`, always with its sign. -/
def scientificText (cs : List Char) (place : Int) : List Char :=
  let mantissa :=
    match cs with
    | c :: d :: rest => c :: '.' :: d :: rest
    | _ => cs
  let power := place - 1
  mantissa ++ 'e' :: (if power < 0 then '-' else '+') :: Nat.toDigits 10 power.natAbs

/-- The text of a decimal in a layout. -/
def text (layout : Layout) (d : Decimal) : List Char :=
  if layout.positional (d.pointPlace - 1) then
    positionalText layout.wholeEnd d.significant d.pointPlace
  else
    scientificText d.significant d.pointPlace

end Decimal

end CommandFlow
