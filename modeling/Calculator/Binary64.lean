/-!
Doubles as words. The nonnegative doubles in increasing order are the words `0, 1, 2, ...` up to
`infinityWord`, and `weight` gives the exact value of a word. So rounding a real to a double is
finding a word, and all of it is arithmetic on natural numbers.
-/
namespace Calculator.Binary64

/-- Number of fraction bits of a word. -/
def fractionBits : Nat := 52

/-- Number of words in a binade, one for each fraction. -/
def binade : Nat := Nat.pow 2 fractionBits

/-- The sign bit, which stands above the word of the absolute value. -/
def signBit : Nat := Nat.pow 2 63

/-- The word of the infinity. Larger words are not numbers. -/
def infinityWord : Nat := 0x7FF * binade

/-- Exponent of the unit in which `weight` counts: the least positive double is `2 ^ -1074`. -/
def unitExponent : Nat := 1074

/-- The number one in that unit. -/
def unit : Nat := Nat.pow 2 unitExponent

/-- Value of a word in units of `2 ^ -1074`. At `infinityWord` this is the number that the next
binade would begin with, so that the upper end of the largest finite double is also a midpoint. -/
def weight (w : Nat) : Nat :=
  if w < binade then w else (binade + w % binade) * Nat.pow 2 (w / binade - 1)

/-- The greatest word whose weight is at most `n`. -/
def floorWord (n : Nat) : Nat :=
  if n < 2 * binade then n
  else (n.log2 - fractionBits) * binade + n / Nat.pow 2 (n.log2 - fractionBits)

/-- Word of the double nearest to `num / den`; of two equally near ones the even word, and the
infinity beyond the largest finite double's upper end. -/
def nearestWord (num den : Nat) : Nat :=
  let scaled := num * unit
  let w := floorWord (scaled / den)
  let middle := (weight w + weight (w + 1)) * den
  let nearest :=
    if 2 * scaled < middle then w
    else if middle < 2 * scaled then w + 1
    else if w % 2 == 0 then w else w + 1
  min nearest infinityWord

/-- The double of a sign and a word. -/
def ofWord (negative : Bool) (w : Nat) : Float :=
  Float.ofBits (UInt64.ofNat (if negative then w + signBit else w))

/-- Word of the absolute value of `x`. -/
def word (x : Float) : Nat :=
  x.toBits.toNat % signBit

/-- Whether the sign bit of `x` is set. -/
def isNegative (x : Float) : Bool :=
  signBit ≤ x.toBits.toNat

def isFinite (x : Float) : Bool :=
  word x < infinityWord

def isNaN (x : Float) : Bool :=
  infinityWord < word x

/-- Whether two doubles are the same: a NaN is the same as a NaN, the two zeros differ. -/
def identical (x y : Float) : Bool :=
  if isNaN x || isNaN y then isNaN x && isNaN y
  else isNegative x == isNegative y && word x == word y

/-- The integer `n` as the nearest double, unless that is beyond the finite ones. -/
def ofInt? (n : Int) : Option Float :=
  let w := nearestWord n.natAbs 1
  if w < infinityWord then some (ofWord (n < 0) w) else none

theorem weight_of_lt {w : Nat} (h : w < binade) : weight w = w :=
  if_pos h

theorem nearestWord_le (num den : Nat) : nearestWord num den ≤ infinityWord :=
  Nat.min_le_right _ _

end Calculator.Binary64
