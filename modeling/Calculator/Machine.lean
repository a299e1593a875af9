import Calculator.Program.Basic
import Calculator.Stack

/-!
The stack machine. It empties the stack, executes the items of a program once each and in order,
and takes the single value that must be left. An item that fails has no effect on the stack.
-/
namespace Calculator

namespace Stack

/-- Takes two values off and puts the operator's value on; the topmost value is the right operand.
The two values must be there. -/
def combine (s : Stack) (op : Operator) : Except Complaint Stack :=
  match s.pop? with
  | some (y, s) =>
    match s.pop? with
    | some (x, s) => s.push (op.apply x y)
    | none => .ok s
  | none => .ok s

def step (s : Stack) : Datum → Except Complaint Stack
  | .instr (.push x) | .instr (.derivedPush _ _ _ x) => s.push x
  | .instr i@(.apply op) | .instr i@(.derivedApply _ _ _ op) =>
    if s.count < 2 then .error (.stackUnderflow i.text s.count)
    else s.combine op
  | d => .error (.unknownInstruction d.shown)

/-- Executes items in order until one fails: the stack after them, and the complaint. -/
def steps (s : Stack) : List Datum → Stack × Option Complaint
  | [] => (s, none)
  | d :: ds =>
    match s.step d with
    | .ok s => s.steps ds
    | .error c => (s, some c)

/-- Takes the single value off that a program must leave. -/
def finish (s : Stack) : Stack × Except Complaint Float :=
  match s.count with
  | 0 => (s, .error .incompleteProgram)
  | 1 =>
    match s.pop? with
    | some (x, s) => (s, .ok x)
    | none => (s, .error .incompleteProgram)
  | count => (s, .error (.excessValues count))

/-- Runs a program: the stack afterwards, and the program's value. -/
def run (s : Stack) (p : Program) : Stack × Except Complaint Float :=
  match s.clear.steps p.items with
  | (s, none) => s.finish
  | (s, some c) => (s, .error c)

end Stack

end Calculator
