import Calculator.Decimal.Basic

/-!
The shortest decimal that is read back as a given double. A decimal is read as the double of word
`w` if it lies between the midpoints to the neighbouring words; the midpoints themselves belong to
the even word. The shortest decimal is the multiple of the greatest power of ten that lies there,
and of two such multiples the nearer one.
-/
namespace Calculator.Decimal

/-- Comparison of `digits · 10 ^ exponent` with `n` half units of `2 ^ -1074`. -/
def compareHalfUnits (digits : Nat) (exponent : Int) (n : Nat) : Ordering :=
  compare (digits * Nat.pow 10 exponent.toNat * (2 * Binary64.unit))
    (n * Nat.pow 10 (-exponent).toNat)

/-- Whether `digits · 10 ^ exponent` is read as the double of word `w`, for a positive `w`. -/
def readsAs (digits : Nat) (exponent : Int) (w : Nat) : Bool :=
  let low := compareHalfUnits digits exponent (Binary64.weight (w - 1) + Binary64.weight w)
  let high := compareHalfUnits digits exponent (Binary64.weight w + Binary64.weight (w + 1))
  if w % 2 == 0 then low != .lt && high != .gt else low == .gt && high == .lt

/-- The greatest multiple of `10 ^ exponent` that is not above the double of word `w`, as the
factor of that power. -/
def floorMultiple (exponent : Int) (w : Nat) : Nat :=
  Binary64.weight w * Nat.pow 10 (-exponent).toNat /
    (Nat.pow 10 exponent.toNat * Binary64.unit)

/-- The multiple of `10 ^ exponent` that is read as the double of word `w`, as the factor of that
power. The two multiples around the double are tried; if both are read so, the nearer one is
taken, and the even one at equal distance. -/
def multiple? (exponent : Int) (w : Nat) : Option Nat :=
  let below := floorMultiple exponent w
  match readsAs below exponent w, readsAs (below + 1) exponent w with
  | false, false => none
  | true, false => some below
  | false, true => some (below + 1)
  | true, true =>
    match compareHalfUnits (2 * below + 1) exponent (4 * Binary64.weight w) with
    | .gt => some below
    | .lt => some (below + 1)
    | .eq => some (if below % 2 == 0 then below else below + 1)

/-- The first of `count` exponents, from `exponent` downwards, of which some multiple is read as
the double of word `w`. -/
def coarsest (w : Nat) (exponent : Int) : (count : Nat) → Decimal
  | 0 => ⟨0, 0⟩
  | count + 1 =>
    match multiple? exponent w with
    | some digits => ⟨digits, exponent⟩
    | none => coarsest w (exponent - 1) count

/-- A power of ten that the double of word `w` does not reach, so that no greater power has a
multiple that is read as this double. -/
def boundingPower (w : Nat) : Nat :=
  digitCount (Binary64.weight w / Binary64.unit)

/-- The shortest decimal that is read as the double of the positive finite word `w`. Every double
is a multiple of `10 ^ -1074`, so the search ends there at the latest. -/
def shortest (w : Nat) : Decimal :=
  coarsest w (boundingPower w) (boundingPower w + Binary64.unitExponent + 1)

end Calculator.Decimal
