import Calculator.Expr.Basic
import Calculator.Failure
import Calculator.Token

/-!
Parsing expressions. The parser takes the tokens one by one and keeps the work left undone: the
sum and the product that wait for their right operands, and the same for every parenthesis that is
open. A finished operand completes a waiting product at once, and a waiting sum when the next
token does not bind tighter; so operators of one rank associate to the left.
-/
namespace Calculator

namespace Expr

/-- An operator that waits for its right operand. -/
abbrev Waiting := Option (Expr × Operator)

/-- The tree that `right` completes. -/
def joined : Waiting → Expr → Expr
  | none, right => right
  | some (left, op), right => .binary op left right

/-- What waits within one parenthesis while an operand is expected: a sum, and a product that is
to become the sum's right operand. -/
structure Level where
  sum : Waiting
  product : Waiting

namespace Level

def start : Level := ⟨none, none⟩

/-- The product that the operand `x` completes. -/
def term (level : Level) (x : Expr) : Expr :=
  joined level.product x

/-- What waits after `term`, the product completed last, and an operator that follows it. -/
def after (sum : Waiting) (term : Expr) (op : Operator) : Level :=
  if op.isAdditive then ⟨some (joined sum term, op), none⟩ else ⟨sum, some (term, op)⟩

end Level

/-- An open parenthesis: its column, and what waits outside it. -/
structure Paren where
  start : Nat
  level : Level

/-- Greatest number of open parentheses. -/
def nestingLimit : Nat := 195

/-- The complaint of a text that ends while `parens`, the innermost first, are open. -/
def unclosed (source : String) (parens : List Paren) : Option Complaint :=
  parens.head?.map fun p => .mismatchedParenthesis source p.start

mutual

/-- Parses tokens of which the first begins an operand. -/
def parseOperand (limit : Nat) (source : String) (level : Level) (parens : List Paren) :
    List Token → Except Failure Expr
  | [] => .error (.complaint (.endsUnexpectedly source))
  | t :: ts =>
    match t.lexeme with
    | .number numeral =>
      parseOperator limit source level.sum (level.term (.literal (numeral.value false))) parens ts
    | .operator .subtract => parseSigned limit source t level parens ts
    | .opening =>
      if limit ≤ parens.length then .error .nestsTooDeeply
      else parseOperand limit source .start (⟨t.start, level⟩ :: parens) ts
    | _ => .error (.complaint (.unexpectedToken source t.text t.start))

/-- Parses tokens of which the first must be a number right after the minus sign `sign`. -/
def parseSigned (limit : Nat) (source : String) (sign : Token) (level : Level)
    (parens : List Paren) : List Token → Except Failure Expr
  | [] => .error (.complaint (.endsUnexpectedly source))
  | t :: ts =>
    match t.lexeme with
    | .number numeral =>
      if t.start == sign.stop then
        parseOperator limit source level.sum (level.term (.literal (numeral.value true))) parens ts
      else .error (.complaint (.loneSign source sign.start))
    | _ => .error (.complaint (.loneSign source sign.start))

/-- Parses tokens that follow the product `term`, while `sum` waits for it. -/
def parseOperator (limit : Nat) (source : String) (sum : Waiting) (term : Expr)
    (parens : List Paren) : List Token → Except Failure Expr
  | [] =>
    match unclosed source parens with
    | none => .ok (joined sum term)
    | some c => .error (.complaint c)
  | t :: ts =>
    match t.lexeme, parens with
    | .operator op, parens => parseOperand limit source (.after sum term op) parens ts
    | .closing, p :: parens =>
      parseOperator limit source p.level.sum (p.level.term (joined sum term)) parens ts
    | .closing, [] => .error (.complaint (.mismatchedParenthesis source t.start))
    | _, parens =>
      .error (.complaint
        ((unclosed source parens).getD (.unexpectedToken source t.text t.start)))

end

/-- Parses an expression in which at most `limit` parentheses are open at a time. -/
def parseWithin (limit : Nat) (source : String) : Except Failure Expr :=
  match Token.scan source with
  | .error c => .error (.complaint c)
  | .ok [] => .error (.complaint (.emptyExpression source))
  | .ok ts => parseOperand limit source .start [] ts

def parse (source : String) : Except Failure Expr :=
  parseWithin nestingLimit source

end Expr

end Calculator
