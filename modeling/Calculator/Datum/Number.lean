import Calculator.Decimal.Numeral
import Calculator.Failure
import Calculator.Datum
import Calculator.Text.Blank

/-!
Data as numbers. Where a number is asked for, a datum may also be a truth value or a text that
states a number; a text is read more liberally here than in an expression.
-/
namespace Calculator

namespace Numeral

open Text

/-- Whether `c` may stand around a number that is read from a text: blanks other than the
information separators. -/
def isPadding (c : Char) : Bool :=
  isBlank c && !(0x1C ≤ c.toNat && c.toNat ≤ 0x1F)

def trimPadding (cs : List Char) : List Char :=
  ((cs.dropWhile isPadding).reverse.dropWhile isPadding).reverse

/-- A text without the underscores in it, each of which must stand between two digits; `digit`
says whether a digit stands before the text. -/
def dropSeparators (digit : Bool) : List Char → Option (List Char)
  | [] => some []
  | c :: cs =>
    if c == '_' then
      match cs with
      | d :: _ => if digit && isDigit d then dropSeparators false cs else none
      | [] => none
    else (c :: ·) <$> dropSeparators (isDigit c) cs

/-- The numeral that a name in any case is. -/
def ofName? (cs : List Char) : Option Numeral :=
  let name := cs.map Char.toLower
  if name == ['i', 'n', 'f'] || name == ['i', 'n', 'f', 'i', 'n', 'i', 't', 'y'] then some .infinity
  else if name == ['n', 'a', 'n'] then some .notANumber
  else none

/-- The double that a text states: padding around it, a sign, underscores between digits and
names in any case are allowed. -/
def readText (s : String) : Option Float :=
  let (negative, cs) := takeSign (trimPadding s.toList)
  match ofName? cs with
  | some numeral => some (numeral.value negative)
  | none => (dropSeparators false cs >>= ofText?).map (·.value negative)

/-- Greatest number of digits of an integer that is read from a text or written as one. -/
def integerDigits : Nat := 4300

/-- The integer that a text states, with padding, sign and underscores as for doubles. -/
def readInteger (s : String) : Option Int :=
  let (negative, cs) := takeSign (trimPadding s.toList)
  match dropSeparators false cs with
  | none => none
  | some cs =>
    match takeDigits cs with
    | ([], _) => none
    | (ds, []) =>
      if integerDigits < ds.length then none
      else some (if negative then -(ofDigits ds : Int) else ofDigits ds)
    | _ => none

end Numeral

namespace Datum

/-- The double that a datum states. -/
def toFloat (d : Datum) : Except Internal Float :=
  match d with
  | float x => .ok x
  | bool b => .ok (if b then 1 else 0)
  | int n =>
    match Binary64.ofInt? n with
    | some x => .ok x
    | none => .error .intTooLarge
  | text s =>
    match Numeral.readText s with
    | some x => .ok x
    | none => .error (.notANumber d.shown)
  | _ => .error .wrongType

def Quantity.toFloat : Quantity → Except Internal Float
  | .float x => .ok x
  | .int n => (Datum.int n).toFloat

/-- The quantity that a datum is as a number, texts not being numbers. -/
def quantity (d : Datum) : Except Internal Quantity :=
  match d.quantity? with
  | some q => .ok q
  | none => .error .wrongType

/-- A datum as a result is shown. An integer beyond the doubles cannot be a result. -/
def numberText (d : Datum) : Except Internal String := do
  match ← d.quantity with
  | .float x => return Number.text x
  | .int n =>
    let _ ← (Quantity.int n).toFloat
    return Layout.intText n

/-- Whether two data are the same number, the zeros being told apart and all NaNs being the
same. -/
def identical (d d' : Datum) : Except Internal Bool := do
  let q ← d.quantity
  let x ← q.toFloat
  let q' ← d'.quantity
  let y ← q'.toFloat
  return if Binary64.isNaN x || Binary64.isNaN y then Binary64.identical x y
    else q.sameAs q' && Binary64.isNegative x == Binary64.isNegative y

/-- Value of the operator that `op` must be at the doubles that `left` and `right` state. The
operator is looked at first. -/
def applyOperator (op left right : Datum) : Except Failure Float :=
  match op with
  | operator op =>
    (do return op.apply (← left.toFloat) (← right.toFloat) : Except Internal Float).mapError
      .internal
  | op => .error (.complaint (.malformed op.shown .noOperation))

end Datum

end Calculator
