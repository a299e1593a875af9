/-!
The four arithmetic operators. All arithmetic of the calculator happens in `Operator.apply`, on
doubles: nothing is raised, a division by zero gives an infinity or a NaN.
-/
namespace Calculator

/-- A binary operator. -/
inductive Operator where
  | add
  | subtract
  | multiply
  | divide
  deriving DecidableEq, Repr

namespace Operator

/-- Every operator once. -/
def all : List Operator := [add, subtract, multiply, divide]

/-- How the operator is written in expressions and listings. -/
def symbol : Operator → Char
  | add => '+'
  | subtract => '-'
  | multiply => '*'
  | divide => '/'

def ofChar? (c : Char) : Option Operator :=
  all.find? (·.symbol == c)

def text (op : Operator) : String :=
  String.singleton op.symbol

/-- The operator whose symbol is the whole of `s`. -/
def ofSymbol? (s : String) : Option Operator :=
  all.find? (·.text == s)

/-- Name of the operator in a value shown in full. -/
def name : Operator → String
  | add => "ADD"
  | subtract => "SUBTRACT"
  | multiply => "MULTIPLY"
  | divide => "DIVIDE"

/-- The operator as a value shown in full. -/
def shown (op : Operator) : String :=
  "<Operator." ++ op.name ++ ": '" ++ op.text ++ "'>"

/-- Whether the operator binds more loosely than the others. -/
def isAdditive : Operator → Bool
  | add | subtract => true
  | multiply | divide => false

/-- The operator's value at two doubles. -/
def apply : Operator → Float → Float → Float
  | add, x, y => x + y
  | subtract, x, y => x - y
  | multiply, x, y => x * y
  | divide, x, y => x / y

theorem ofChar?_symbol (op : Operator) : ofChar? op.symbol = some op := by
  cases op <;> rfl

theorem symbol_of_ofChar? {c : Char} {op : Operator} (h : ofChar? c = some op) :
    op.symbol = c := by
  have := List.find?_some h
  simpa using this

end Operator

end Calculator
