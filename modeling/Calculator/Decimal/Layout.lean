import Calculator.Decimal.Shortest

/-!
Doubles as text. A double is written with the digits of its shortest decimal; a layout says when
they are written with an exponent and how.
-/
namespace Calculator

/-- How the digits of a number are laid out. -/
structure Layout where
  /-- Least power of ten of the first digit that is written without an exponent. -/
  leastPower : Int
  /-- First power of ten of the first digit that is written with an exponent again. -/
  exponentPower : Int
  /-- Least number of digits of an exponent. -/
  exponentWidth : Nat
  /-- What follows an integer that is written without an exponent. -/
  integerTail : String

namespace Layout

/-- Full text: an exponent has a sign and two digits at least, and is used for numbers below
`0.0001` or from ten to the sixteenth on; an integer ends in a point and a zero. -/
def full : Layout := ⟨-4, 16, 2, ".0"⟩

def natText (n : Nat) : String :=
  String.ofList (Nat.toDigits 10 n)

def intText (n : Int) : String :=
  if n < 0 then "-" ++ natText n.natAbs else natText n.natAbs

/-- An exponent with its sign, filled up with zeros. -/
def exponentText (layout : Layout) (n : Int) : String :=
  let digits := natText n.natAbs
  let fill := String.ofList (List.replicate (layout.exponentWidth - digits.length) '0')
  (if n < 0 then "e-" else "e+") ++ fill ++ digits

/-- A positive decimal as text. -/
def write (layout : Layout) (d : Decimal) : String :=
  let digits := Nat.toDigits 10 d.digits
  let power := d.exponent + digits.length - 1
  if layout.leastPower ≤ power && power < layout.exponentPower then
    if 0 ≤ d.exponent then
      String.ofList (digits ++ List.replicate d.exponent.toNat '0') ++ layout.integerTail
    else if 0 ≤ power then
      String.ofList (digits.take (power.toNat + 1) ++ '.' :: digits.drop (power.toNat + 1))
    else
      String.ofList ('0' :: '.' :: List.replicate (-power - 1).toNat '0' ++ digits)
  else
    match digits with
    | [d] => String.ofList [d] ++ layout.exponentText power
    | ds => String.ofList (ds.take 1 ++ '.' :: ds.drop 1) ++ layout.exponentText power

end Layout

namespace Number

/-- The double `x` as text that reads back as `x`. -/
def fullText (x : Float) : String :=
  let w := Binary64.word x
  let sign := if Binary64.isNegative x then "-" else ""
  if Binary64.infinityWord < w then "nan"
  else if w == Binary64.infinityWord then sign ++ "inf"
  else if w == 0 then sign ++ "0.0"
  else sign ++ Layout.full.write (Decimal.shortest w)

/-- The absolute value of `x` as a natural number, if it is one. -/
def wholeValue? (x : Float) : Option Nat :=
  if Binary64.isFinite x && Binary64.weight (Binary64.word x) % Binary64.unit == 0 then
    some (Binary64.weight (Binary64.word x) / Binary64.unit)
  else none

/-- Power of ten from which on integers are no longer written out. -/
def wholeLimit : Nat := Nat.pow 10 16

/-- The double `x` as a result is shown: an integer below ten to the sixteenth is written without
point and fraction, everything else in full. -/
def text (x : Float) : String :=
  match wholeValue? x with
  | some n =>
    if n < wholeLimit then (if Binary64.isNegative x then "-" else "") ++ Layout.natText n
    else fullText x
  | none => fullText x

end Number

end Calculator
