/-
Numbers of 64 bits from a significand and a power of ten, in steps.

The significand is rounded to a number of 64 bits, and is then multiplied or divided by a power of
ten, which is rounded to such a number too; and so is the result.  A power too small to be one is
divided out in parts.  Up to 2 ^ 53 and 10 ^ 22 only the last step rounds, and the result is the
nearest number.  Beyond that the steps may add up to a neighbour of it; so a number that needs many
digits is not always read back from the text it is written as.
-/
import CommandFlow.Number.Binary64

namespace CommandFlow

namespace Binary64

/-- The magnitude of a finite number as an exact fraction. -/
def magnitude : Binary64 → Rat
  | .finite _ m e _ => (m : Rat) * scale 2 e
  | _ => 0

/-- The magnitude of the number nearest to a fraction that is not negative. -/
def nearest (q : Rat) : Rat :=
  (ofRat false q).magnitude

/-- The power of ten of the largest magnitude. -/
def maxPower : Nat := 308

/-- The number nearest to a power of ten. -/
def tenTo (power : Nat) : Rat :=
  nearest (scale 10 power)

/-- Divides by a power of ten that is given as a number of largest powers and a last one. What has
come down to zero stays there. -/
def dividedBy (q : Rat) (last : Nat) : (largest : Nat) → Rat
  | 0 => nearest (q / tenTo last)
  | largest + 1 => if q = 0 then 0 else dividedBy (nearest (q / tenTo maxPower)) last largest

/-- The number `significand * 10 ^ exponent`, computed in steps. -/
def ofScaled (negative : Bool) (significand : Nat) (exponent : Int) : Binary64 :=
  let q := nearest significand
  let power := exponent.natAbs
  if significand = 0 then zero negative
  else if 0 ≤ exponent then
    if power ≤ maxPower then ofRat negative (q * tenTo power) else .infinite negative
  else
    let largest := (power - 1) / maxPower
    ofRat negative (dividedBy q (power - maxPower * largest) largest)

end Binary64

end CommandFlow
