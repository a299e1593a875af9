import Calculator.Datum
import Calculator.Failure

/-!
Building trees and instructions from data. Every constructor checks what it is given, so a tree
that is built here has literals of doubles and operators with two subtrees; what is refused is
shown in the complaint as it was given, also where that is too deep or too long to be written
(`Datum.writeShown`).
-/
namespace Calculator

/-- The double that a datum is as a real number: truth values and texts are none, and an integer
may be out of range. -/
def Datum.real? : Datum → Except Malformation Float
  | .float x => .ok x
  | .int n =>
    match Binary64.ofInt? n with
    | some x => .ok x
    | none => .error .outOfRange
  | _ => .error .notReal

namespace Expr

/-- A literal of a real number. -/
def ofReal (d : Datum) : Except Complaint Expr :=
  match d.real? with
  | .ok x => .ok (.literal x)
  | .error why => .error (.malformed (shownLiteral d.shown) why)

def ofParts (op left right : Datum) : Except Complaint Expr :=
  let node := shownBinary op.shown left.shown right.shown
  match op, left, right with
  | .operator op, .expr left, .expr right => .ok (.binary op left right)
  | .operator _, _, _ => .error (.malformed node .childrenNeeded)
  | op, _, _ => .error (.malformed node (.notAnOperator op.shown))

end Expr

namespace Instr

/-- A push of a real number. -/
def pushOf (d : Datum) : Except Complaint Instr :=
  match d.real? with
  | .ok x => .ok (.push x)
  | .error _ => .error (.unknownInstruction (shownPush pushKind d.shown))

/-- A push of a kind that refines the plain one, but not its tag and its operand. -/
def derivedPushOf (kind : String) (d : Datum) : Except Complaint Instr :=
  match d.real? with
  | .ok x => .ok (keptPush kind x)
  | .error _ => .error (.unknownInstruction (shownPush kind d.shown))

def applyOf : Datum → Except Complaint Instr
  | .operator op => .ok (.apply op)
  | d => .error (.unknownInstruction (shownApply applyKind d.shown))

end Instr

end Calculator
