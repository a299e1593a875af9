import Calculator.Expr.Basic
import Calculator.Failure

/-!
Data and instructions. The constructors of trees, instructions and programs are handed data of any
kind, and one kind of data are the instructions of the stack machine. The machine knows a push of a
constant and the application of an operator to the two topmost values. A program that uses the
library may refine these, or hand the machine an instruction of its own, which it refuses; what
stands in the record of such an instruction may again be any datum.
-/
namespace Calculator

mutual

/-- A datum. -/
inductive Datum where
  | absent
  | bool (b : Bool)
  | text (s : String)
  | float (x : Float)
  | int (n : Int)
  | list (items : List Datum)
  | tuple (items : List Datum)
  | operator (op : Operator)
  | expr (e : Expr)
  | instr (i : Instr)

/-- An instruction. One that is not plain brings the tag and the operand of its record along; to
ask for the operand may fail. -/
inductive Instr where
  | push (value : Float)
  | apply (op : Operator)
  /-- A refined push, of the kind that a program using the library calls `kind`. It runs as a push,
  but its effect on the height of the stack is not declared. -/
  | derivedPush (kind : String) (tag : Datum) (operand : Except Internal Datum) (value : Float)
  /-- A refined application, likewise. -/
  | derivedApply (kind : String) (tag : Datum) (operand : Except Internal Datum) (op : Operator)
  /-- An instruction of another kind, with the text that shows it. -/
  | foreign (shown : String) (tag : Datum) (operand : Except Internal Datum)

end

end Calculator
