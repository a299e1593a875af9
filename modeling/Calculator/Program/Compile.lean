import Calculator.Expr.Walk
import Calculator.Program.Basic

/-!
Compiling trees. The code of a node is the code of its left subtree, the code of its right
subtree and the application of its operator, so the left value lies beneath the right one when
the operator is applied.
-/
namespace Calculator

namespace Expr

/-- Code of a tree of any height. -/
def code : Expr → Except Complaint (List Instr)
  | literal x => .ok [.push x]
  | binary op left right => do
    let xs ← left.code
    let ys ← right.code
    return xs ++ ys ++ [.apply op]
  | foreign shown => .error (.unknownNode shown)

def compile (e : Expr) : Except Failure Program :=
  e.within compileLimit ((e.code.map Program.ofInstrs).mapError .complaint)

end Expr

def Datum.compile (d : Datum) : Except Failure Program :=
  d.tree >>= Expr.compile

end Calculator
