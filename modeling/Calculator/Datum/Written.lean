import Calculator.Datum.Number

/-!
Data that can be shown. Writing a datum in full takes calls within calls, one level of them for each
level of nesting, and there are only so many; and a very long integer is not written at all. What
comes first in the text decides how writing it fails.
-/
namespace Calculator

namespace Datum

/-- Greatest number of calls within each other while a datum is written in full. -/
def shownLimit : Nat := 992

/-- Number of calls within each other that a level of named fields takes. -/
def fieldCalls : Nat := 3

/-- Why something that takes `needed` calls is not written with `calls` of them, if it is not. -/
def callFault? (needed calls : Nat) : Option Failure :=
  if needed ≤ calls then none else some .nestsTooDeeply

mutual

/-- Why a datum cannot be written in full with so many calls within each other, if it cannot. -/
def shownFault? (calls : Nat) : Datum → Option Failure
  | list items | tuple items =>
    match calls with
    | 0 => some .nestsTooDeeply
    | calls + 1 => anyShownFault? calls items
  | int n =>
    (callFault? 1 calls).or
      (if Nat.pow 10 Numeral.integerDigits ≤ n.natAbs then some (.internal .intTooLong) else none)
  | expr e => callFault? (fieldCalls * e.height + 1) calls
  | instr _ => callFault? (fieldCalls + 1) calls
  | _ => callFault? 1 calls

/-- The first such reason among the data in a list. -/
def anyShownFault? (calls : Nat) : List Datum → Option Failure
  | [] => none
  | d :: ds => (shownFault? calls d).or (anyShownFault? calls ds)

end

/-- Writes a datum in full. -/
def writeShown (d : Datum) : Except Failure String :=
  match d.shownFault? shownLimit with
  | some f => .error f
  | none => .ok d.shown

end Datum

end Calculator
