import Calculator.Failure
import Calculator.Text.Blank

/-!
Logical lines. A line of a file ends at a comment and is trimmed; while it has more opening than
closing parentheses, the lines after it belong to it as well.
-/
namespace Calculator

/-- A logical line and the number of the first line that belongs to it. -/
structure LogicalLine where
  text : String
  number : Int
  deriving DecidableEq, Repr

namespace LogicalLine

/-- The characters before the first `;;`. -/
def cutComment : List Char → List Char
  | [] => []
  | c :: cs =>
    if c == ';' && cs.head? == some ';' then [] else c :: cutComment cs

/-- A line without its comment and the blanks at its ends. -/
def clean (line : String) : String :=
  String.ofList (Text.trim (cutComment line.toList))

/-- Whether a text has more opening than closing parentheses, so that the next line belongs to
it. -/
def isOpen (text : String) : Bool :=
  text.toList.count ')' < text.toList.count '('

/-- A text continued by another one after a blank. -/
def joined (text next : String) : String :=
  Text.trimmed (text ++ " " ++ next)

/-- Takes a clean line into the logical lines read so far, the last one first, of which the last
one is open if `joins` says so: the line's text with what it continues, and the logical lines. -/
def absorb (line : String) (number : Int) (joins : Bool) (read : List LogicalLine) :
    Except Internal (String × List LogicalLine) :=
  if joins then
    match read with
    | last :: earlier =>
      let text := joined last.text line
      .ok (text, ⟨text, last.number⟩ :: earlier)
    | [] => .error .emptyList
  else if line.isEmpty then .ok (line, read)
  else .ok (line, ⟨line, number⟩ :: read)

/-- Prepares a line: its text, whether it is left open, and the logical lines with it, the last
one first, if these are kept. -/
def prepare (line : String) (number : Int) (joins : Bool) (read : Option (List LogicalLine)) :
    Except Internal (String × Bool × Option (List LogicalLine)) :=
  match read with
  | none => .ok (clean line, isOpen (clean line), none)
  | some read => do
    let (text, read) ← absorb (clean line) number joins read
    return (text, isOpen text, some read)

/-- Logical lines, the last one first, of a file of which `read` is read so far and the remaining
lines begin at a number. -/
def assembleFrom (number : Int) (joins : Bool) (read : List LogicalLine) :
    List String → Except Internal (List LogicalLine)
  | [] => .ok read
  | line :: lines => do
    let (text, read) ← absorb (clean line) number joins read
    assembleFrom (number + 1) (isOpen text) read lines

def assemble (lines : List String) : Except Internal (List LogicalLine) :=
  (assembleFrom 1 false [] lines).map List.reverse

end LogicalLine

end Calculator
