import Calculator.Binary64

/-!
Decimal numbers `digits · 10 ^ exponent`, and the double nearest to one.
-/
namespace Calculator

/-- The number `digits · 10 ^ exponent`. -/
structure Decimal where
  digits : Nat
  exponent : Int
  deriving DecidableEq, Repr

namespace Decimal

/-- Number of decimal digits of `n`, one for zero. -/
def digitCount (n : Nat) : Nat :=
  (Nat.toDigits 10 n).length

/-- The number as a quotient of naturals. -/
def fraction (d : Decimal) : Nat × Nat :=
  (d.digits * Nat.pow 10 d.exponent.toNat, Nat.pow 10 (-d.exponent).toNat)

/-- Power of ten from which on every number is beyond the largest finite double. -/
def overflowPower : Int := 309

/-- Power of ten below which every number is nearer to zero than to the least double. -/
def underflowPower : Int := -324

/-- Word of the double nearest to `d`. The powers of ten that bound `d` are compared first, so
that no exponent, however large, is ever raised. -/
def nearestWord (d : Decimal) : Nat :=
  let power := d.exponent + digitCount d.digits
  if d.digits == 0 then 0
  else if overflowPower < power then Binary64.infinityWord
  else if power < underflowPower then 0
  else Binary64.nearestWord d.fraction.1 d.fraction.2

end Decimal

end Calculator
