import Calculator.Instr
import Calculator.Text.Quoted

/-!
Data as texts and as numbers. What a constructor refuses is shown in the message, so every datum has
a text.
-/
namespace Calculator

namespace Datum

def commaSeparated (texts : List String) : String :=
  String.intercalate ", " texts

/-- Texts in parentheses; a single one is followed by a comma. -/
def tupleText : List String → String
  | [t] => "(" ++ t ++ ",)"
  | ts => "(" ++ commaSeparated ts ++ ")"

mutual

/-- The datum shown in full: a text is quoted, a number is written so that it reads back. This is
the text of data however deep they are nested and however long their integers are;
`Datum.writeShown` says of which data it can be written. -/
def shown : Datum → String
  | absent => "None"
  | bool true => "True"
  | bool false => "False"
  | text s => Text.quoted s
  | float x => Number.fullText x
  | int n => Layout.intText n
  | list items => "[" ++ commaSeparated (shownAll items) ++ "]"
  | tuple items => tupleText (shownAll items)
  | operator op => op.shown
  | expr e => e.shown
  | instr i => i.shown

def shownAll : List Datum → List String
  | [] => []
  | d :: ds => shown d :: shownAll ds

end

end Datum

mutual

/-- The datum as it stands in a line of text: a text stands as it is, an operator as its symbol, a
tree as an expression and an instruction as a line of a listing. -/
def Datum.plain : Datum → String
  | .text s => s
  | .operator op => op.text
  | .expr e => e.text
  | .instr i => i.text
  | d => d.shown

/-- The instruction as a line of a listing. A refined one stands there with its own tag. -/
def Instr.text : Instr → String
  | .push x => Instr.pushTag ++ " " ++ Number.text x
  | .apply op => Instr.applyTag ++ " " ++ op.text
  | .derivedPush _ tag _ x => tag.plain ++ " " ++ Number.text x
  | .derivedApply _ tag _ op => tag.plain ++ " " ++ op.text
  | .foreign shown _ _ => shown

end

namespace Datum

/-- A number that a datum is equal to as an exact quantity. -/
inductive Quantity where
  | float (x : Float)
  | int (n : Int)

/-- Whether a double is equal to an integer. -/
def floatEqInt (x : Float) (n : Int) : Bool :=
  match Number.wholeValue? x with
  | some m => (if Binary64.isNegative x then -(m : Int) else m) == n
  | none => false

/-- The quantity that a datum is; a truth value counts as zero or one. -/
def quantity? : Datum → Option Quantity
  | bool b => some (.int (if b then 1 else 0))
  | float x => some (.float x)
  | int n => some (.int n)
  | _ => none

/-- Whether two quantities are equal. -/
def Quantity.sameAs : Quantity → Quantity → Bool
  | .float x, .float y => x == y
  | .int m, .int n => m == n
  | .float x, .int n => floatEqInt x n
  | .int n, .float x => floatEqInt x n

mutual

/-- Whether two data are equal: numbers by their quantity, all else kind by kind. -/
def sameAs : Datum → Datum → Bool
  | absent, absent => true
  | text s, text t => s == t
  | list xs, list ys => sameAll xs ys
  | tuple xs, tuple ys => sameAll xs ys
  | operator op, operator op' => op == op'
  | expr e, expr e' => e.sameAs e'
  | instr i, instr i' => i.sameAs i'
  | d, d' =>
    match d.quantity?, d'.quantity? with
    | some q, some q' => q.sameAs q'
    | _, _ => false

/-- Whether two lists of data are equal, place by place. -/
def sameAll : List Datum → List Datum → Bool
  | [], [] => true
  | d :: ds, d' :: ds' => sameAs d d' && sameAll ds ds'
  | _, _ => false

end

/-- The operator that a datum denotes: an operator itself, or one of the symbols. -/
def operator? : Datum → Option Operator
  | operator op => some op
  | text s => Operator.ofSymbol? s
  | _ => none

end Datum

end Calculator
