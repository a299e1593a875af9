import Calculator.Decimal.Layout
import Calculator.Operator

/-!
Arithmetic expressions as trees. A tree has literals at its leaves and operators at its inner
nodes; a program that uses the library may also put nodes of its own into a tree, which the walks
over trees refuse.
-/
namespace Calculator

/-- An expression tree. -/
inductive Expr where
  | literal (value : Float)
  | binary (op : Operator) (left right : Expr)
  /-- A node of another kind, of which only the text is known that shows it. -/
  | foreign (shown : String)

namespace Expr

/-- Whether the tree has literals and operators only. -/
def WellFormed : Expr → Prop
  | literal _ => True
  | binary _ left right => left.WellFormed ∧ right.WellFormed
  | foreign _ => False

/-- Number of nodes on the longest path from the root to a leaf. -/
def height : Expr → Nat
  | literal _ => 1
  | binary _ left right => max left.height right.height + 1
  | foreign _ => 1

/-- The tree as an expression in full parentheses. -/
def text : Expr → String
  | literal x => Number.text x
  | binary op left right => "(" ++ left.text ++ " " ++ op.text ++ " " ++ right.text ++ ")"
  | foreign shown => shown

/-- A literal shown in full, with what stands for its value. -/
def shownLiteral (value : String) : String :=
  "Literal(value=" ++ value ++ ")"

/-- An inner node shown in full, with what stands for its operator and its subtrees. -/
def shownBinary (operator left right : String) : String :=
  "BinaryOp(operator=" ++ operator ++ ", left=" ++ left ++ ", right=" ++ right ++ ")"

/-- The tree as a value shown in full. -/
def shown : Expr → String
  | literal x => shownLiteral (Number.fullText x)
  | binary op left right => shownBinary op.shown left.shown right.shown
  | foreign shown => shown

/-- Blanks before a line that is indented `n` times, none if `n` is negative. -/
def indent (n : Int) : String :=
  String.ofList (List.replicate (4 * n).toNat ' ')

/-- The tree drawn with one node a line, indented `n` times at its root; there is no drawing of a
tree with a foreign node. -/
def drawing? (n : Int) : Expr → Option String
  | literal x => some (indent n ++ "Literal(" ++ Number.text x ++ ")")
  | binary op left right => do
    let first ← left.drawing? (n + 1)
    let second ← right.drawing? (n + 1)
    return indent n ++ "BinaryOp(" ++ op.text ++ ", [\n" ++ first ++ ",\n" ++ second ++ "\n" ++
      indent n ++ "])"
  | foreign _ => none

/-- Whether two trees have the same shape and operators, and equal numbers at their literals. The
two zeros are equal, a NaN equals nothing. Foreign nodes are not compared. -/
def sameAs : Expr → Expr → Bool
  | literal x, literal y => x == y
  | binary op left right, binary op' left' right' =>
    op == op' && left.sameAs left' && right.sameAs right'
  | _, _ => false

end Expr

end Calculator
